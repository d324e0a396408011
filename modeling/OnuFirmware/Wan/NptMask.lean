import OnuFirmware.Cfg.ReadAttr
import OnuFirmware.Clib.Hex
import OnuFirmware.Clib.Shift
import OnuFirmware.Wan.OtherBind

/-!
# The WANs with prefix translation (`pd_info.c`)

`update_npt_related_wan_rule` keeps the set of the WANs with NPTv6 in a static word, bit `idx` for
the WAN `idx`, and publishes the word with `%x` in `npt_wan_idx`, where `other_cfg_v6.c` reads it.
An index goes up to 63, a word has 32 bits, and C leaves a shift by 32 or more open, so that such a
WAN is not in the set and may take another one out of it. The WAN of the default route is handled
elsewhere, also if it has `OTHER` service besides.
-/

namespace OnuFirmware.Wan

open Clib Lib Cfg

/-- A call of `update_npt_related_wan_rule` for a WAN in route mode with `OTHER` service, with the
attribute `DefRouteIndexv6` at that time. -/
structure NptCall where
  idx : Fin 64
  cfg : WanEntryCfg
  action : Int
  defRoute : Option Str
  other : cfg.srvOther = true
  route : cfg.isRoute = true

/-- `nptwanmask_pre` and the attributes of `RADVD_ENTRY_NODE`. -/
structure NptState where
  mask : Word
  radvd : List (Str × Str)

def nameNptWanIdx : Str := "npt_wan_idx".toList

/-- The state after `svc_cfg_boot_wan`, which empties the attribute. -/
def NptState.start (radvd : List (Str × Str)) : NptState :=
  { mask := 0, radvd := cfgXmlSetAttr radvd nameNptWanIdx [] }

/-- `get_wan_type`. -/
def getWanType (c : NptCall) : Nat :=
  let defrouteidx := (cfgGetObjectAttr c.defRoute [] 8).2
  if (c.idx.val : Int) = atoi defrouteidx ∧ c.cfg.srvInternet then 1
  else if c.cfg.srvOther ∧ c.cfg.isRoute then 2
  else 0

/-- `update_npt_index`. -/
def updateNptIndex (sh : Shifter) (nptwanmask : Word) (radvd : List (Str × Str)) (c : NptCall) :
    NptState :=
  let nptwanmask :=
    if c.action = 1 ∧ c.cfg.nptEnable then nptwanmask ||| sh.shl c.idx
    else nptwanmask &&& ~~~sh.shl c.idx
  { mask := nptwanmask
    radvd := cfgXmlSetAttr radvd nameNptWanIdx (snprintf 32 (fmtHex nptwanmask.toNat)) }

/-- `update_npt_related_wan_rule`, without the rules that `setNPTRule` installs. -/
def updateNptRelatedWanRule (sh : Shifter) (s : NptState) (c : NptCall) : NptState :=
  match getWanType c with
  | 2 => updateNptIndex sh s.mask s.radvd c
  | _ => s

/-- `wanmask` as `other_cfg_v6.c` reads it. -/
def readNptMask (radvd : List (Str × Str)) : Word :=
  let nptindex := (cfgGetObjectAttr (cfgXmlGetAttr radvd nameNptWanIdx) [] 16).2
  if nptindex ≠ [] then scanX nptindex else 0

/-- A sequence of calls. -/
def runNpt (sh : Shifter) (s : NptState) (calls : List NptCall) : NptState :=
  calls.foldl (updateNptRelatedWanRule sh) s

/-! ## What the word should say -/

/-- The call has action 1 for a WAN with NPT enabled. -/
def NptCall.enters (c : NptCall) : Bool := decide (c.action = 1) && c.cfg.nptEnable

/-- The last call for `i` was one with action 1 for a WAN with NPT enabled. -/
def translated (calls : List NptCall) (i : Nat) : Bool :=
  (calls.reverse.find? fun c => c.idx.val = i).any NptCall.enters

/-- The word and the published text denote the set. -/
structure NptOk (calls : List NptCall) (s : NptState) : Prop where
  members : ∀ i < 64, s.mask.getLsbD i = translated calls i
  text : readNptMask s.radvd = s.mask

/-- The condition on one more call `c` after the calls `calls`. -/
def NptCallOk (sh : Shifter) (calls : List NptCall) (c : NptCall) : Prop :=
  if getWanType c = 1 then translated calls c.idx = c.enters
  else c.idx.val < 32 ∨
    (c.enters = false ∧ wordOf 32 (translated calls) &&& sh.shl c.idx = 0)

theorem translated_concat (calls : List NptCall) (c : NptCall) (i : Nat) :
    translated (calls ++ [c]) i = if c.idx.val = i then c.enters else translated calls i := by
  rw [translated, List.reverse_append, List.reverse_singleton, List.singleton_append,
    List.find?_cons]
  by_cases h : c.idx.val = i <;> simp [h, translated]

/-! ## The published text -/

theorem readNptMask_start (radvd : List (Str × Str)) :
    readNptMask (NptState.start radvd).radvd = 0 := by
  rw [readNptMask, NptState.start, cfgXmlGetAttr_set_self]
  rfl

theorem readNptMask_updateNptIndex (sh : Shifter) (mask : Word) (radvd : List (Str × Str))
    (c : NptCall) :
    readNptMask (updateNptIndex sh mask radvd c).radvd = (updateNptIndex sh mask radvd c).mask := by
  generalize hm : (updateNptIndex sh mask radvd c).mask = m
  have hr : (updateNptIndex sh mask radvd c).radvd =
      cfgXmlSetAttr radvd nameNptWanIdx (snprintf 32 (fmtHex m.toNat)) := by
    rw [← hm]
    rfl
  have hlen : (fmtHex m.toNat).length ≤ 8 := by
    rw [length_fmtHex_le (by decide)]
    exact m.isLt
  rw [readNptMask, hr, cfgXmlGetAttr_set_self, snprintf_eq (by omega : _ < 32)]
  show (if snprintf 16 (fmtHex m.toNat) ≠ [] then scanX (snprintf 16 (fmtHex m.toNat)) else 0) = m
  rw [snprintf_eq (by omega : _ < 16), if_pos (fmtHex_ne_nil _), scanX_fmtHex]

/-! ## What one call does -/

theorem getWanType_cases (c : NptCall) : getWanType c = 1 ∨ getWanType c = 2 := by
  rw [getWanType]
  split
  · exact .inl rfl
  · rw [if_pos ⟨c.other, c.route⟩]
    exact .inr rfl

theorem updateNptRelatedWanRule_of_one (sh : Shifter) (s : NptState) {c : NptCall}
    (h : getWanType c = 1) : updateNptRelatedWanRule sh s c = s := by
  simp only [updateNptRelatedWanRule, h]

theorem updateNptRelatedWanRule_of_two (sh : Shifter) (s : NptState) {c : NptCall}
    (h : getWanType c = 2) :
    updateNptRelatedWanRule sh s c = updateNptIndex sh s.mask s.radvd c := by
  simp only [updateNptRelatedWanRule, h]

theorem updateNptIndex_mask (sh : Shifter) (mask : Word) (radvd : List (Str × Str)) (c : NptCall) :
    (updateNptIndex sh mask radvd c).mask =
      if c.enters then mask ||| sh.shl c.idx else mask &&& ~~~sh.shl c.idx := by
  simp [updateNptIndex, NptCall.enters]

/-- Below 32 the call moves the bit of its own WAN and no other one. -/
theorem updateNptIndex_members (sh : Shifter) (mask : Word) (radvd : List (Str × Str))
    {c : NptCall} (hc : c.idx.val < 32) (i : Nat) :
    (updateNptIndex sh mask radvd c).mask.getLsbD i =
      if c.idx.val = i then c.enters else mask.getLsbD i := by
  rw [updateNptIndex_mask, sh.shl_lt _ hc]
  cases he : c.enters with
  | true =>
    rw [if_pos rfl, getLsbD_set _ hc]
    by_cases hi : c.idx.val = i <;> simp [hi]
  | false =>
    rw [if_neg (by simp), getLsbD_clear _ hc]
    by_cases hi : c.idx.val = i <;> simp [hi]

theorem and_not_eq_self_iff {a b : Word} : a &&& ~~~b = a ↔ a &&& b = 0 := by
  rw [and_eq_zero_iff]
  constructor
  · intro h k ha
    have hk := congrArg (fun v => v.getLsbD k) h
    simp only [BitVec.getLsbD_and, ha, Bool.true_and] at hk
    rw [BitVec.getLsbD_not, Bool.and_eq_true] at hk
    simpa using hk.2
  · intro h
    refine BitVec.eq_of_getLsbD_eq fun k hk => ?_
    rw [BitVec.getLsbD_and, BitVec.getLsbD_not]
    cases ha : a.getLsbD k with
    | false => rfl
    | true => rw [h k ha, Bool.not_false, Bool.and_true, Bool.true_and, decide_eq_true hk]

/-! ## Runs -/

theorem runNpt_concat (sh : Shifter) (s : NptState) (calls : List NptCall) (c : NptCall) :
    runNpt sh s (calls ++ [c]) = updateNptRelatedWanRule sh (runNpt sh s calls) c := by
  rw [runNpt, List.foldl_append]
  rfl

theorem nptOk_start (radvd : List (Str × Str)) : NptOk [] (.start radvd) where
  members i _ := by simp [NptState.start, translated]
  text := readNptMask_start radvd

/-- A WAN of an index above 31 is not in the set as long as the word is right. -/
theorem NptOk.high {calls : List NptCall} {s : NptState} (h : NptOk calls s) {i : Nat}
    (hi : 32 ≤ i) (hlt : i < 64) : translated calls i = false := by
  rw [← h.members i hlt, BitVec.getLsbD_of_ge _ _ hi]

theorem NptOk.mask_eq {calls : List NptCall} {s : NptState} (h : NptOk calls s) :
    s.mask = wordOf 32 (translated calls) :=
  eq_wordOf fun k hk => h.members k (by omega)

/-- **One call keeps the word right exactly under its condition.** -/
theorem nptOk_step_iff (sh : Shifter) {calls : List NptCall} {s : NptState} (c : NptCall)
    (h : NptOk calls s) :
    NptOk (calls ++ [c]) (updateNptRelatedWanRule sh s c) ↔ NptCallOk sh calls c := by
  have hidx := c.idx.isLt
  rcases getWanType_cases c with ht | ht
  · -- the call leaves everything as it was, so the last call before it must agree with it
    rw [updateNptRelatedWanRule_of_one sh s ht, NptCallOk, if_pos ht]
    constructor
    · intro hok
      rw [← h.members _ hidx, hok.members _ hidx, translated_concat, if_pos rfl]
    · intro heq
      refine ⟨fun i hi => ?_, h.text⟩
      rw [h.members i hi, translated_concat]
      split
      · next hci => rw [← hci, heq]
      · rfl
  · rw [updateNptRelatedWanRule_of_two sh s ht, NptCallOk, if_neg (by omega)]
    have htext := readNptMask_updateNptIndex sh s.mask s.radvd c
    by_cases hlow : c.idx.val < 32
    · refine iff_of_true ⟨fun i hi => ?_, htext⟩ (.inl hlow)
      rw [updateNptIndex_members sh _ _ hlow, translated_concat, h.members i hi]
    · constructor
      · intro hok
        have hhigh := hok.high (show 32 ≤ c.idx.val by omega) hidx
        rw [translated_concat, if_pos rfl] at hhigh
        refine .inr ⟨hhigh, ?_⟩
        -- the other WANs are as before, so the word must be the old one
        have hmask : (updateNptIndex sh s.mask s.radvd c).mask = s.mask := by
          refine BitVec.eq_of_getLsbD_eq fun k hk => ?_
          rw [hok.members k (by omega), h.members k (by omega), translated_concat,
            if_neg (by omega)]
        rw [updateNptIndex_mask, hhigh, if_neg (by simp), and_not_eq_self_iff, h.mask_eq] at hmask
        exact hmask
      · rintro (hc | ⟨hout, hzero⟩)
        · exact absurd hc hlow
        · have hmask : (updateNptIndex sh s.mask s.radvd c).mask = s.mask := by
            rw [updateNptIndex_mask, hout, if_neg (by simp), and_not_eq_self_iff, h.mask_eq]
            exact hzero
          refine ⟨fun i hi => ?_, htext⟩
          rw [hmask, h.members i hi, translated_concat]
          split
          · next hci => rw [hout, ← hci, h.high (by omega) hidx]
          · rfl

/-- **The word and the text denote the set after every call of a sequence exactly when every call
of it meets its condition.** -/
theorem runNpt_ok_iff (sh : Shifter) (radvd : List (Str × Str)) (calls : List NptCall) :
    (∀ p, p <+: calls → NptOk p (runNpt sh (.start radvd) p)) ↔
      ∀ p c, p ++ [c] <+: calls → NptCallOk sh p c := by
  constructor
  · intro h p c hp
    have hok := h _ hp
    rw [runNpt_concat] at hok
    exact (nptOk_step_iff sh c (h p ((List.prefix_append p [c]).trans hp))).mp hok
  · intro h p
    -- induction on the prefix, from the right: the last call is the step
    induction p using List.reverseRecOn with
    | nil => exact fun _ => nptOk_start radvd
    | append_singleton p c ih =>
      intro hp
      rw [runNpt_concat]
      exact (nptOk_step_iff sh c (ih ((List.prefix_append p [c]).trans hp))).mpr (h p c hp)

/-- A call for a WAN in route mode with `OTHER` service and NPT enabled. -/
def nptCall (idx : Fin 64) (action : Int) : NptCall where
  idx := idx
  cfg := { wanmode := 1, srvType := eSrvOther, npt := 1 }
  action := action
  defRoute := none
  other := by decide
  route := by decide

/-- The WAN 32 does not get into the set on any processor, and on MIPS its call with action 0 takes
the WAN 0 out of it. -/
theorem npt_members_fail :
    (∀ sh : Shifter, ¬ NptOk [nptCall 32 1] (runNpt sh (.start []) [nptCall 32 1])) ∧
    ¬ NptOk [nptCall 0 1, nptCall 32 0] (runNpt .mips (.start []) [nptCall 0 1, nptCall 32 0]) := by
  refine ⟨fun sh h => ?_, fun h => ?_⟩
  · have hhigh := h.high (i := 32) (by decide) (by decide)
    exact absurd hhigh (by decide)
  · exact absurd (h.members 0 (by decide)) (by decide)

end OnuFirmware.Wan
