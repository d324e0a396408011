import OnuFirmware.Clib.Scan
import OnuFirmware.Lib.Place
import OnuFirmware.Other.AccessRules

/-!
# The priorities of a QoS template (`svc_wan_related_set_qos_temp_rule`)

A template is named by the list of its services, as in `TR069,VOIP,IPTV`. The place of a service in
the list is its queue. The chain of conditions over a token is put together by the preprocessor.
Without JOYME4 its last `else` stands before the call of `strtok`, so the loop takes the next token
only behind one that names no service.
-/

namespace OnuFirmware.Qos

open Clib Cfg Lib
open Other (setAttr setAttr_self setAttr_of_ne)

/-! ## Builds and services -/

/-- `TCSUPPORT_CWMP`, `TCSUPPORT_VOIP`, `TCSUPPORT_CT_JOYME4` and `TCSUPPORT_QOS_EIGHT_QUEUE`. -/
structure Build where
  cwmp : Bool
  voip : Bool
  joyme4 : Bool
  eightQueue : Bool
deriving Repr, DecidableEq

/-- `MAX_QUEUE_NUM`. -/
def Build.maxQueueNum (b : Build) : Nat := if b.eightQueue then 8 else 6

/-- `QOS_TEMPLATE`. -/
inductive Service
  | tr069
  | voip
  | iptv
  | specialService
  | internet
deriving Repr, DecidableEq

/-- The services between `T_START` and `T_MAX`. -/
def Build.services (b : Build) : List Service :=
  (if b.cwmp then [.tr069] else []) ++ (if b.voip then [.voip] else []) ++ [.iptv] ++
    (if b.joyme4 then [.specialService] else []) ++ [.internet]

/-- The chain of `strstr` in the loop of `svc_wan_related_set_qos_temp_rule`. -/
def Build.tempToken (b : Build) (p : Str) : Option Service :=
  if b.cwmp = true ∧ hasStr p "TR069".toList = true then some .tr069
  else if b.voip = true ∧ hasStr p "VOIP".toList = true then some .voip
  else if hasStr p "IPTV".toList = true then some .iptv
  else if b.joyme4 = true ∧ hasStr p "SPECIAL_SERVICE".toList = true then some .specialService
  else none

/-- The same in `update_qos_template_for_other_special_service`, which exists only with JOYME4. -/
def Build.otherToken (b : Build) (token : Str) : Option Service :=
  if b.cwmp = true ∧ hasStr token "TR069".toList = true then some .tr069
  else if b.voip = true ∧ hasStr token "VOIP".toList = true then some .voip
  else if hasStr token "IPTV".toList = true then some .iptv
  else if hasStr token "SPECIAL_SERVICE".toList = true then some .specialService
  else none

theorem tempToken_eq_otherToken {b : Build} (h : b.joyme4 = true) (p : Str) :
    b.tempToken p = b.otherToken p := by
  rw [Build.tempToken, Build.otherToken, h]
  simp only [true_and]

/-! ## The loops over the tokens -/

/-- The array `priority` of `unsigned char`. -/
abbrev Priority := Service → Nat

/-- The token loop of `svc_wan_related_set_qos_temp_rule`, for `fuel` turns. A service that has been
recognised leaves `p` where it is, unless the build has JOYME4. -/
def tempLoop (b : Build) : Nat → List Str → Nat → Priority → Option Priority
  | 0, _, _, _ => none
  | _ + 1, [], _, priority => some priority
  | fuel + 1, p :: ps, i, priority =>
    match b.tempToken p with
    | some s =>
      if b.joyme4 then tempLoop b fuel ps (i + 1) (Function.update priority s (i % 256))
      else tempLoop b fuel (p :: ps) (i + 1) (Function.update priority s (i % 256))
    | none => tempLoop b fuel ps i priority

/-- The token loop of `update_qos_template_for_other_special_service`. -/
def otherLoop (b : Build) : List Str → Nat → Priority → Priority
  | [], _, priority => priority
  | token :: tokens, cnt, priority =>
    match b.otherToken token with
    | some s => otherLoop b tokens (cnt + 1) (Function.update priority s (cnt % 256))
    | none => otherLoop b tokens cnt priority

/-! ## The queues -/

def qosCommonNode : Str := "root.qos.common".toList
def globalstateCommonNode : Str := "root.globalstate.common".toList
def modeName : Str := "Mode".toList
def qosTemplateModeName : Str := "QosTemplateMode".toList

/-- `"QueueSW%d"`. -/
def queueSW (k : Nat) : Str := snprintf 32 ("QueueSW".toList ++ fmtNat k)

/-- Some queues are set to `Yes` or `No`. -/
def setQueues (val : Str) (ks : List Nat) (conf : Conf) : Conf :=
  ks.foldl (fun conf k => setAttr conf qosCommonNode (queueSW k) val) conf

/-- The queues with a priority. -/
def enabled (b : Build) (priority : Priority) : List Nat :=
  (b.services.map priority).filter (· ≠ 0)

/-- The queues of the priorities are enabled. Disabled are the ones behind as many queues as have
been enabled. -/
def switchQueues (b : Build) (priority : Priority) (conf : Conf) : Conf :=
  let enableQueNum := (enabled b priority).length
  setQueues "No".toList (List.range' (enableQueNum + 1) (b.maxQueueNum - enableQueNum))
    (setQueues "Yes".toList (enabled b priority) conf)

/-- The configuration and the global variable `appmode`. -/
structure TempState where
  appmode : Str
  conf : Conf

/-- The state behind the call, and the priorities, if the template has been read. -/
structure TempOut where
  state : TempState
  priority : Option Priority

/-- `svc_wan_related_set_qos_temp_rule` up to the rules that it makes of the priorities, with `fuel`
turns for its loop. -/
def setQosTempRule (b : Build) (fuel : Nat) (st : TempState) : Option TempOut :=
  let got := cfgGetObjectAttr (st.conf qosCommonNode modeName) [] 64
  if 0 < got.1 then
    if st.appmode = got.2 then some ⟨st, none⟩
    else
      match tempLoop b fuel (strtokAll ',' got.2) 1 fun _ => 0 with
      | none => none
      | some priority =>
        let globalQosBuf :=
          (cfgGetObjectAttr (st.conf globalstateCommonNode qosTemplateModeName) [] 64).2
        some ⟨⟨got.2, if globalQosBuf = got.2 then st.conf else switchQueues b priority st.conf⟩,
          some priority⟩
  else some ⟨st, none⟩

/-- `update_qos_template_for_other_special_service`, as far as it computes the priorities. -/
def otherPriority (b : Build) (conf : Conf) : Option Priority :=
  let got := cfgGetObjectAttr (conf qosCommonNode modeName) [] 64
  if 0 < got.1 then some (otherLoop b (strtokAll ',' got.2) 1 fun _ => 0) else none

/-! ## Statement -/

/-- The text of `Mode`. -/
def TempState.mode (st : TempState) : Str := (st.conf qosCommonNode modeName).getD []

/-- The text of `QosTemplateMode`. -/
def TempState.template (st : TempState) : Str :=
  (st.conf globalstateCommonNode qosTemplateModeName).getD []

/-- What of the template is read. -/
def TempState.buf (st : TempState) : Str := snprintf 64 st.mode

/-- The services that a text names, token by token. -/
def Build.named (b : Build) (text : Str) : List Service :=
  (strtokAll ',' text).filterMap b.tempToken

/-- A queue of a service that the text names. -/
def IsQueue (b : Build) (text : Str) (k : Nat) : Prop :=
  ∃ s ∈ b.services, lastRank (b.named text) s = k

instance (b : Build) (text : Str) (k : Nat) : Decidable (IsQueue b text k) :=
  inferInstanceAs (Decidable (∃ s ∈ b.services, lastRank (b.named text) s = k))

/-- Exactly the queues of the services that the text names are enabled. -/
def QueuesRight (b : Build) (text : Str) (conf : Conf) : Prop :=
  ∀ k, 1 ≤ k → k ≤ b.maxQueueNum → conf qosCommonNode (queueSW k) =
    some (if IsQueue b text k then "Yes".toList else "No".toList)

/-- The loop ends with the last token; the priority of a service is its last place in the template,
and `update_qos_template_for_other_special_service` finds the same; and the queues of a new template
are exactly those of its services. -/
def TempRight (b : Build) (st : TempState) : Prop :=
  ∃ out, setQosTempRule b ((strtokAll ',' st.buf).length + 1) st = some out ∧
    (∀ priority, out.priority = some priority →
      (∀ s ∈ b.services, priority s = lastRank (b.named st.mode) s) ∧
        (b.joyme4 = true → otherPriority b st.conf = some priority)) ∧
    (st.mode ≠ st.template → QueuesRight b st.mode out.state.conf)

/-- The template is the last one, or there is none. -/
def TempState.Same (st : TempState) : Prop := st.buf = [] ∨ st.appmode = st.buf

instance (st : TempState) : Decidable st.Same :=
  inferInstanceAs (Decidable (st.buf = [] ∨ st.appmode = st.buf))

/-- The number of services that the text names. -/
def serviceNum (b : Build) (text : Str) : Nat :=
  (b.services.filter (· ∈ b.named text)).length

/-- The queues will be right: those up to the number of services are exactly the queues of services,
or off already. -/
def QueuesReady (b : Build) (text : Str) (conf : Conf) : Prop :=
  ∀ k, 1 ≤ k → k ≤ b.maxQueueNum →
    if IsQueue b text k then k ≤ serviceNum b text
    else serviceNum b text < k ∨ conf qosCommonNode (queueSW k) = some "No".toList

/-- When a template is treated right. -/
def TempCond (b : Build) (st : TempState) : Prop :=
  if st.Same then st.mode ≠ st.template → QueuesRight b st.mode st.conf
  else
    (b.joyme4 = true ∨ b.named st.buf = []) ∧
      (∀ s ∈ b.services, lastRank (b.named st.buf) s = lastRank (b.named st.mode) s) ∧
      (st.mode ≠ st.template →
        if snprintf 64 st.template = st.buf then QueuesRight b st.mode st.conf
        else QueuesReady b st.mode st.conf)

/-! ## What the loops compute -/

section Loops

variable {b : Build} {pre : List Service} {ps : List Str} {fuel i : Nat} {priority : Priority}

/-- The last places in a list, as far as a byte holds them. -/
def ranks (l : List Service) : Priority := fun s => lastRank l s % 256

theorem ranks_nil : ranks [] = fun _ => 0 := rfl

theorem ranks_concat (l : List Service) (s : Service) :
    Function.update (ranks l) s ((l.length + 1) % 256) = ranks (l ++ [s]) := by
  funext t
  rw [Function.update_apply, ranks, ranks, lastRank_concat]
  split <;> rfl

/-- **With JOYME4, or if no service is named, one pass ends the loop.** -/
theorem tempLoop_eq (h : b.joyme4 = true ∨ ps.filterMap b.tempToken = []) :
    tempLoop b (ps.length + 1) ps (pre.length + 1) (ranks pre) =
      some (ranks (pre ++ ps.filterMap b.tempToken)) := by
  induction ps generalizing pre with
  | nil => rw [tempLoop, List.filterMap_nil, List.append_nil]
  | cons p ps ih =>
    rw [List.length_cons, tempLoop]
    cases hp : b.tempToken p with
    | none =>
      rw [List.filterMap_cons_none hp] at h ⊢
      exact ih h
    | some s =>
      rw [List.filterMap_cons_some hp] at h ⊢
      have hj := h.resolve_right (List.cons_ne_nil _ _)
      have hrest := @ih (pre ++ [s]) (.inl hj)
      rw [List.length_append, List.length_singleton, List.append_assoc] at hrest
      simp only [if_pos hj]
      rw [ranks_concat]
      exact hrest

/-- **Without JOYME4 the loop does not end once a service has been named.** -/
theorem tempLoop_eq_none (hj : b.joyme4 = false) (h : ps.filterMap b.tempToken ≠ []) :
    tempLoop b fuel ps i priority = none := by
  induction fuel generalizing ps i priority with
  | zero => rw [tempLoop]
  | succ fuel ih =>
    cases ps with
    | nil => exact absurd rfl h
    | cons p ps =>
      rw [tempLoop]
      cases hp : b.tempToken p with
      | none =>
        rw [List.filterMap_cons_none hp] at h
        exact ih h
      | some s =>
        simp only [hj, Bool.false_eq_true, if_false]
        exact ih h

theorem otherLoop_eq : otherLoop b ps (pre.length + 1) (ranks pre) =
    ranks (pre ++ ps.filterMap b.otherToken) := by
  induction ps generalizing pre with
  | nil => rw [otherLoop, List.filterMap_nil, List.append_nil]
  | cons p ps ih =>
    rw [otherLoop]
    cases hp : b.otherToken p with
    | none =>
      rw [List.filterMap_cons_none hp]
      exact ih
    | some s =>
      have hrest := @ih (pre ++ [s])
      rw [List.length_append, List.length_singleton, List.append_assoc] at hrest
      rw [List.filterMap_cons_some hp]
      simp only
      rw [ranks_concat]
      exact hrest

/-- A text that fits the buffer names fewer services than a byte can count. -/
theorem ranks_named {text : Str} (h : text.length ≤ 63) (s : Service) :
    ranks (b.named text) s = lastRank (b.named text) s := by
  have hnum : (b.named text).length ≤ (strtokAll ',' text).length := List.length_filterMap_le _ _
  have htok := @length_strtokAll_le ',' text
  have hle := @lastRank_le _ _ (b.named text) s
  exact Nat.mod_eq_of_lt (by omega)

end Loops

/-! ## The queues afterwards -/

section Queues

variable {b : Build} {ks : List Nat} {k : Nat} {val : Str} {conf : Conf} {text text' : Str}

theorem queueSW_inj {j k : Nat} (hj : j < 256) (hk : k < 256) : queueSW j = queueSW k ↔ j = k :=
  snprintf_append_fmtNat_inj (k := 3) (by omega) (by omega) (by decide)

/-- What a queue is set to, if it is among those that are set. -/
theorem setQueues_queue (hks : ∀ j ∈ ks, j < 256) (hk : k < 256) :
    setQueues val ks conf qosCommonNode (queueSW k) =
      if k ∈ ks then some val else conf qosCommonNode (queueSW k) := by
  induction ks generalizing conf with
  | nil => rfl
  | cons j ks ih =>
    have hrest := @ih (setAttr conf qosCommonNode (queueSW j) val)
      fun i hi => hks i (List.mem_cons_of_mem j hi)
    rw [setQueues] at hrest ⊢
    rw [List.foldl_cons, hrest]
    by_cases hmem : k ∈ ks
    · rw [if_pos hmem, if_pos (List.mem_cons_of_mem j hmem)]
    · rw [if_neg hmem]
      by_cases heq : k = j
      · rw [heq, setAttr_self, if_pos List.mem_cons_self]
      · have hne : queueSW k ≠ queueSW j := fun h =>
          heq ((queueSW_inj hk (hks j List.mem_cons_self)).mp h)
        rw [setAttr_of_ne (.inr hne), if_neg (by simp [heq, hmem])]

theorem mem_enabled (hlen : text.length ≤ 63) (hk : 1 ≤ k) :
    k ∈ enabled b (ranks (b.named text)) ↔ IsQueue b text k := by
  rw [enabled, List.mem_filter, List.mem_map, decide_eq_true_iff, and_iff_left (by omega), IsQueue]
  simp only [ranks_named hlen]

theorem length_enabled (hlen : text.length ≤ 63) :
    (enabled b (ranks (b.named text))).length = serviceNum b text := by
  rw [enabled, List.filter_map, List.length_map, serviceNum]
  refine congrArg List.length (List.filter_congr fun s _ => ?_)
  rw [Function.comp_apply, ranks_named hlen, decide_eq_decide, ne_eq, lastRank_eq_zero_iff, not_not]

theorem lt_of_mem_enabled {priority : Service → Nat} {l : List Service} (hp : priority = ranks l)
    (h : k ∈ enabled b priority) : k < 256 := by
  obtain ⟨s, -, rfl⟩ := List.mem_map.mp (List.mem_filter.mp h).1
  rw [hp]
  exact Nat.mod_lt _ (by decide)

/-- A queue behind the template. -/
theorem switchQueues_queue (hlen : text.length ≤ 63) (hk : 1 ≤ k) (hmax : k ≤ b.maxQueueNum) :
    switchQueues b (ranks (b.named text)) conf qosCommonNode (queueSW k) =
      if serviceNum b text < k then some "No".toList
      else if IsQueue b text k then some "Yes".toList
      else conf qosCommonNode (queueSW k) := by
  have hmax8 : b.maxQueueNum ≤ 8 := by
    rw [Build.maxQueueNum]
    split <;> decide
  have hmem : k ∈ List.range' (serviceNum b text + 1) (b.maxQueueNum - serviceNum b text) ↔
      serviceNum b text < k := by
    rw [List.mem_range'_1]
    omega
  rw [switchQueues, length_enabled hlen, setQueues_queue (fun j hj => ?_) (by omega),
    setQueues_queue (fun j hj => lt_of_mem_enabled rfl hj) (by omega)]
  · simp only [hmem, mem_enabled hlen hk]
  · rw [List.mem_range'_1] at hj
    omega

/-- **The queues will be right exactly if they are ready for it.** -/
theorem switchQueues_right_iff (hlen : text.length ≤ 63) :
    QueuesRight b text (switchQueues b (ranks (b.named text)) conf) ↔ QueuesReady b text conf := by
  refine forall_congr' fun k => forall_congr' fun hk => forall_congr' fun hmax => ?_
  have hyes : some "No".toList ≠ some "Yes".toList := by decide
  rw [switchQueues_queue hlen hk hmax]
  by_cases hq : IsQueue b text k
  · rw [if_pos hq, if_pos hq, if_pos hq]
    by_cases hn : serviceNum b text < k
    · rw [if_pos hn]
      exact iff_of_false hyes (Nat.not_le.mpr hn)
    · rw [if_neg hn]
      exact iff_of_true rfl (Nat.not_lt.mp hn)
  · rw [if_neg hq, if_neg hq, if_neg hq]
    by_cases hn : serviceNum b text < k
    · rw [if_pos hn]
      exact iff_of_true rfl (.inl hn)
    · rw [if_neg hn]
      exact (or_iff_right hn).symm

section SameRanks

variable (hrank : ∀ s ∈ b.services, lastRank (b.named text) s = lastRank (b.named text') s)
include hrank

theorem isQueue_congr : IsQueue b text k ↔ IsQueue b text' k :=
  exists_congr fun s => and_congr_right fun hs => by rw [hrank s hs]

theorem serviceNum_congr : serviceNum b text = serviceNum b text' := by
  refine congrArg List.length (List.filter_congr fun s hs => ?_)
  rw [decide_eq_decide, ← not_iff_not, ← lastRank_eq_zero_iff, ← lastRank_eq_zero_iff, hrank s hs]

theorem queuesRight_congr : QueuesRight b text conf ↔ QueuesRight b text' conf := by
  simp only [QueuesRight, isQueue_congr hrank]

theorem queuesReady_congr : QueuesReady b text conf ↔ QueuesReady b text' conf := by
  simp only [QueuesReady, isQueue_congr hrank, serviceNum_congr hrank]

end SameRanks

end Queues

/-! ## The template -/

section Whole

variable {b : Build} {st : TempState} {fuel : Nat}

theorem readMode_snd : (cfgGetObjectAttr (st.conf qosCommonNode modeName) [] 64).2 = st.buf := by
  rw [cfgGetObjectAttr_snd, attrText_getD]
  rfl

theorem readMode_pos :
    0 < (cfgGetObjectAttr (st.conf qosCommonNode modeName) [] 64).1 ↔ st.buf ≠ [] := by
  rw [cfgGetObjectAttr_pos, attrText_getD]
  rfl

theorem readTemplate_snd :
    (cfgGetObjectAttr (st.conf globalstateCommonNode qosTemplateModeName) [] 64).2 =
      snprintf 64 st.template := by
  rw [cfgGetObjectAttr_snd, attrText_getD]
  rfl

theorem length_buf : st.buf.length ≤ 63 := length_snprintf_lt 63 _

theorem setQosTempRule_same (h : st.Same) : setQosTempRule b fuel st = some ⟨st, none⟩ := by
  rw [setQosTempRule]
  simp only [readMode_pos, readMode_snd]
  by_cases hnil : st.buf = []
  · rw [if_neg (not_not_intro hnil)]
  · rw [if_pos hnil, if_pos (h.resolve_left hnil)]

/-- The configuration behind the loop. -/
def newConf (b : Build) (st : TempState) (priority : Priority) : Conf :=
  if snprintf 64 st.template = st.buf then st.conf else switchQueues b priority st.conf

theorem setQosTempRule_new {r : Option Priority} (h : ¬ st.Same)
    (hloop : tempLoop b fuel (strtokAll ',' st.buf) 1 (fun _ => 0) = r) :
    setQosTempRule b fuel st =
      r.map fun priority => ⟨⟨st.buf, newConf b st priority⟩, some priority⟩ := by
  obtain ⟨hne, hmode⟩ := not_or.mp h
  rw [setQosTempRule]
  simp only [readMode_pos, readMode_snd, readTemplate_snd]
  rw [if_pos hne, if_neg hmode, hloop]
  cases r <;> rfl

theorem tempLoop_start (h : b.joyme4 = true ∨ b.named st.buf = []) :
    tempLoop b ((strtokAll ',' st.buf).length + 1) (strtokAll ',' st.buf) 1 (fun _ => 0) =
      some (ranks (b.named st.buf)) := by
  have hloop := @tempLoop_eq b [] _ h
  rwa [ranks_nil, List.nil_append] at hloop

/-- The other function finds the same priorities. -/
theorem otherPriority_eq (hj : b.joyme4 = true) (h : st.buf ≠ []) :
    otherPriority b st.conf = some (ranks (b.named st.buf)) := by
  have hloop := @otherLoop_eq b [] (strtokAll ',' st.buf)
  rw [ranks_nil, List.nil_append,
    List.filterMap_congr fun p _ => (tempToken_eq_otherToken hj p).symm] at hloop
  rw [otherPriority]
  simp only [readMode_pos, readMode_snd]
  rw [if_pos h]
  exact congrArg some hloop

end Whole

/-- **A template is treated right exactly under that condition.** -/
theorem temp_right_iff (b : Build) (st : TempState) : TempRight b st ↔ TempCond b st := by
  rw [TempRight, TempCond]
  by_cases hsame : st.Same
  · rw [if_pos hsame, setQosTempRule_same hsame]
    constructor
    · rintro ⟨out, hout, -, hqueues⟩
      obtain rfl := Option.some.inj hout
      exact hqueues
    · intro h
      exact ⟨_, rfl, fun priority hp => absurd hp.symm (Option.some_ne_none _), h⟩
  · have hne := (not_or.mp hsame).1
    rw [if_neg hsame]
    by_cases hend : b.joyme4 = true ∨ b.named st.buf = []
    · rw [setQosTempRule_new hsame (tempLoop_start hend), and_iff_right hend]
      have hconf : ∀ (hrank : ∀ s ∈ b.services,
          lastRank (b.named st.buf) s = lastRank (b.named st.mode) s),
          (QueuesRight b st.mode (newConf b st (ranks (b.named st.buf))) ↔
            if snprintf 64 st.template = st.buf then QueuesRight b st.mode st.conf
            else QueuesReady b st.mode st.conf) := by
        intro hrank
        rw [newConf]
        split
        · rfl
        · rw [← queuesRight_congr hrank, ← queuesReady_congr hrank]
          exact switchQueues_right_iff length_buf
      constructor
      · rintro ⟨out, hout, hpri, hqueues⟩
        obtain rfl := Option.some.inj hout
        have hrank : ∀ s ∈ b.services,
            lastRank (b.named st.buf) s = lastRank (b.named st.mode) s := fun s hs => by
          rw [← ranks_named length_buf]
          exact (hpri _ rfl).1 s hs
        exact ⟨hrank, fun hnew => (hconf hrank).mp (hqueues hnew)⟩
      · rintro ⟨hrank, hqueues⟩
        refine ⟨_, rfl, fun priority hp => ?_, fun hnew => (hconf hrank).mpr (hqueues hnew)⟩
        obtain rfl := Option.some.inj hp
        refine ⟨fun s hs => ?_, fun hj => otherPriority_eq hj hne⟩
        rw [ranks_named length_buf]
        exact hrank s hs
    · obtain ⟨hj, hnamed⟩ := not_or.mp hend
      rw [setQosTempRule_new hsame (tempLoop_eq_none (Bool.eq_false_iff.mpr hj) hnamed)]
      refine iff_of_false ?_ fun h => hend h.1
      rintro ⟨out, hout, -⟩
      exact Option.some_ne_none out hout.symm

/-- The configuration with a `Mode` and nothing else. -/
def modeConf (mode : Str) : Conf := fun path name =>
  if path = qosCommonNode ∧ name = modeName then some mode else none

/-- Without JOYME4 the loop over `IPTV` does not end. With JOYME4 the queue of a service that is
named twice is switched on and then off. -/
theorem temp_wrong :
    (∀ fuel, setQosTempRule ⟨true, true, false, true⟩ fuel ⟨[], modeConf "IPTV".toList⟩ = none) ∧
    ¬ TempRight ⟨true, true, true, true⟩ ⟨[], modeConf "IPTV,IPTV".toList⟩ := by
  refine ⟨fun fuel => ?_, ?_⟩
  · exact setQosTempRule_new (by decide) (tempLoop_eq_none rfl (by decide))
  · rintro ⟨out, hout, -, hqueues⟩
    have hsecond := hqueues (by decide) 2 (by decide) (by decide)
    have hno : (setQosTempRule ⟨true, true, true, true⟩ 3 ⟨[], modeConf "IPTV,IPTV".toList⟩).map
        (fun out => out.state.conf qosCommonNode (queueSW 2)) = some (some "No".toList) := by decide
    have hthree : setQosTempRule ⟨true, true, true, true⟩ 3 ⟨[], modeConf "IPTV,IPTV".toList⟩ =
      some out := hout
    rw [hthree, Option.map_some, Option.some_inj, hsecond] at hno
    exact absurd hno (by decide)

end OnuFirmware.Qos
