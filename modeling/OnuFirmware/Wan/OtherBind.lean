import OnuFirmware.Clib.Shift
import OnuFirmware.Lib.Words
import OnuFirmware.Cfg.Obj
import OnuFirmware.Wan.Entry

/-!
# Bound WANs of other services (`port_binding.c`)

`get_other_wan_bind` keeps, for the WANs with `OTHER` service, the ports each of them binds, the
union of these ports, and the set of the WANs, and publishes the last two as attributes of
`root.wan.common`, where `central_ctrl_polling.c` reads them with `%u`.

The books are right after a call if no port that the WAN gives up is bound by another one, if the
WAN is not listed or its configuration is still one with `OTHER` service, and if the texts of the
three words have at most nine characters. Each of the three can fail.
-/

namespace OnuFirmware.Wan

open Clib Lib Cfg

/-- `E_ADD_PORT_BIND_RULE` and `E_DEL_PORT_BIND_RULE`. -/
inductive BindAction
  | add
  | del
deriving Repr, DecidableEq

/-- The arguments of `get_other_wan_bind`: what it reads of the object, and the action. -/
structure BindCall where
  idx : Fin 64
  cfg : WanEntryCfg
  action : BindAction

/-- The file-scope variables of `port_binding.c` and the attributes of `root.wan.common`. -/
structure OtherBind where
  bindBit : Word
  bindInfo : Fin 64 → Word
  list0 : Word
  list1 : Word
  common : List (Str × Str)

/-- The variables as the program starts with them. -/
def OtherBind.start (common : List (Str × Str)) : OtherBind :=
  { bindBit := 0, bindInfo := fun _ => 0, list0 := 0, list1 := 0, common := common }

def nameList0 : Str := "other_wan_list0".toList
def nameList1 : Str := "other_wan_list1".toList
def nameBindBit : Str := "other_wan_bind_bit".toList

/-- `get_other_wan_bind`. -/
def getOtherWanBind (s : OtherBind) (c : BindCall) : OtherBind :=
  let s := { s with
    bindBit := s.bindBit &&& ~~~s.bindInfo c.idx
    bindInfo := Function.update s.bindInfo c.idx 0 }
  let s :=
    if c.cfg.srvOther ∧ c.action = .add then
      let s := { s with bindInfo := Function.update s.bindInfo c.idx c.cfg.bindbit }
      let s := { s with bindBit := s.bindBit ||| s.bindInfo c.idx }
      if c.idx.val < 32 then { s with list0 := s.list0 ||| 1#32 <<< c.idx.val }
      else { s with list1 := s.list1 ||| 1#32 <<< (c.idx.val - 32) }
    else s
  let s :=
    if c.cfg.srvOther ∧ c.action = .del then
      if c.idx.val < 32 then { s with list0 := s.list0 &&& ~~~(1#32 <<< c.idx.val) }
      else { s with list1 := s.list1 &&& ~~~(1#32 <<< (c.idx.val - 32)) }
    else s
  let common := cfgXmlSetAttr s.common nameList0 (snprintf 10 (fmtWord s.list0))
  let common := cfgXmlSetAttr common nameList1 (snprintf 10 (fmtWord s.list1))
  { s with common := cfgXmlSetAttr common nameBindBit (snprintf 10 (fmtWord s.bindBit)) }

/-- A sequence of calls. -/
def runBind (s : OtherBind) (calls : List BindCall) : OtherBind := calls.foldl getOtherWanBind s

/-! ## What the books should say -/

/-- The call is an add on a configuration with `OTHER` service. -/
def BindCall.enters (c : BindCall) : Bool := c.cfg.srvOther && decide (c.action = .add)

/-- The last call on `i` was an add on a configuration with `OTHER` service. -/
def listed (calls : List BindCall) (i : Nat) : Bool :=
  (calls.reverse.find? fun c => c.idx.val = i).any BindCall.enters

/-- The ports that the WAN of a call binds after it. -/
def BindCall.ports (c : BindCall) : Word := if c.enters then c.cfg.bindbit else 0

/-- The ports that `i` binds after its last call. -/
def boundPorts (calls : List BindCall) (i : Fin 64) : Word :=
  match calls.reverse.find? fun c => c.idx = i with
  | some c => c.ports
  | none => 0

/-- Bit `i` of the two list words together. -/
def OtherBind.hasBit (s : OtherBind) (i : Nat) : Bool :=
  if i < 32 then s.list0.getLsbD i else s.list1.getLsbD (i - 32)

/-- The attribute stands for the word: `sscanf` with `%u` reads the word from its text. -/
def Denotes (attrs : List (Str × Str)) (name : Str) (v : Word) : Prop :=
  (cfgXmlGetAttr attrs name).map scanU = some v

/-- The books after the calls `calls`. -/
structure BooksOk (calls : List BindCall) (s : OtherBind) : Prop where
  union : s.bindBit = orAll s.bindInfo
  members : ∀ i < 64, s.hasBit i = listed calls i
  attrs : calls ≠ [] → Denotes s.common nameList0 s.list0 ∧ Denotes s.common nameList1 s.list1 ∧
    Denotes s.common nameBindBit s.bindBit

/-- The condition on one more call `c` after the calls `calls`. -/
structure CallOk (calls : List BindCall) (c : BindCall) : Prop where
  /-- No other WAN binds a port that the WAN of the call gives up. -/
  apart : ∀ j, j ≠ c.idx → boundPorts calls c.idx &&& ~~~c.ports &&& boundPorts calls j = 0
  /-- A call on a configuration without `OTHER` service finds the WAN not listed. -/
  service : c.cfg.srvOther = false → listed calls c.idx = false
  /-- The three words have texts of at most nine characters. -/
  fits : FitsNine (wordOf 32 (listed (calls ++ [c]))) ∧
    FitsNine (wordOf 32 fun k => listed (calls ++ [c]) (k + 32)) ∧
    FitsNine (orAll (boundPorts (calls ++ [c])))

theorem listed_concat (calls : List BindCall) (c : BindCall) (i : Nat) :
    listed (calls ++ [c]) i = if c.idx.val = i then c.enters else listed calls i := by
  rw [listed, List.reverse_append, List.reverse_singleton, List.singleton_append, List.find?_cons]
  by_cases h : c.idx.val = i <;> simp [h, listed]

theorem boundPorts_concat (calls : List BindCall) (c : BindCall) :
    boundPorts (calls ++ [c]) = Function.update (boundPorts calls) c.idx c.ports := by
  funext i
  rw [boundPorts, List.reverse_append, List.reverse_singleton, List.singleton_append,
    List.find?_cons]
  by_cases h : c.idx = i
  · subst h
    simp
  · rw [Function.update_of_ne (Ne.symm h)]
    simp [h, boundPorts]

/-! ## What one call does -/

theorem getOtherWanBind_bindInfo (s : OtherBind) (c : BindCall) :
    (getOtherWanBind s c).bindInfo = Function.update s.bindInfo c.idx c.ports := by
  rcases c with ⟨idx, cfg, _ | _⟩ <;> cases h : cfg.srvOther <;>
    simp [getOtherWanBind, BindCall.ports, BindCall.enters, h] <;> split <;> rfl

theorem getOtherWanBind_bindBit (s : OtherBind) (c : BindCall) :
    (getOtherWanBind s c).bindBit = replaceRow s.bindBit (s.bindInfo c.idx) c.ports := by
  rcases c with ⟨idx, cfg, _ | _⟩ <;> cases h : cfg.srvOther <;>
    simp [getOtherWanBind, BindCall.ports, BindCall.enters, replaceRow, h] <;> split <;> rfl

/-- A call moves the bit of its own WAN, and only if the service is `OTHER`. -/
theorem getOtherWanBind_hasBit (s : OtherBind) (c : BindCall) {i : Nat} (hi : i < 64) :
    (getOtherWanBind s c).hasBit i =
      if c.idx.val = i ∧ c.cfg.srvOther then c.enters else s.hasBit i := by
  have hidx := c.idx.isLt
  by_cases ho : c.cfg.srvOther
  · -- the word is chosen by the index, both for the write and for the read
    cases ha : c.action with
    | add =>
      have hset := fun v k => @getLsbD_set v (c.idx.val - 32) k (by omega)
      by_cases hlow : c.idx.val < 32 <;> by_cases hil : i < 32 <;>
        simp [getOtherWanBind, OtherBind.hasBit, BindCall.enters, ho, hlow, hil, ha, hset] <;> grind
    | del =>
      have hclear := fun v k => @getLsbD_clear v (c.idx.val - 32) k (by omega)
      by_cases hlow : c.idx.val < 32 <;> by_cases hil : i < 32 <;>
        simp [getOtherWanBind, OtherBind.hasBit, BindCall.enters, ho, hlow, hil, ha,
          hclear] <;> grind
  · simp [getOtherWanBind, OtherBind.hasBit, ho]

/-! ## The published attributes -/

/-- The call stores the texts of the three words, cut to the ten-byte buffers. -/
theorem getOtherWanBind_common (s : OtherBind) (c : BindCall) :
    let t := getOtherWanBind s c
    cfgXmlGetAttr t.common nameList0 = some (snprintf 10 (fmtWord t.list0)) ∧
    cfgXmlGetAttr t.common nameList1 = some (snprintf 10 (fmtWord t.list1)) ∧
    cfgXmlGetAttr t.common nameBindBit = some (snprintf 10 (fmtWord t.bindBit)) := by
  refine ⟨?_, ?_, ?_⟩
  · rw [getOtherWanBind, cfgXmlGetAttr_set_of_ne _ _ (by decide),
      cfgXmlGetAttr_set_of_ne _ _ (by decide), cfgXmlGetAttr_set_self]
  · rw [getOtherWanBind, cfgXmlGetAttr_set_of_ne _ _ (by decide), cfgXmlGetAttr_set_self]
  · rw [getOtherWanBind, cfgXmlGetAttr_set_self]

theorem denotes_iff {attrs : List (Str × Str)} {name : Str} {v : Word}
    (h : cfgXmlGetAttr attrs name = some (snprintf 10 (fmtWord v))) :
    Denotes attrs name v ↔ FitsNine v := by
  rw [Denotes, h, Option.map_some, Option.some_inj, scanU_snprintf_fmtWord]

/-! ## Runs -/

theorem runBind_concat (s : OtherBind) (calls : List BindCall) (c : BindCall) :
    runBind s (calls ++ [c]) = getOtherWanBind (runBind s calls) c := by
  rw [runBind, List.foldl_append]
  rfl

theorem runBind_bindInfo (common : List (Str × Str)) (calls : List BindCall) :
    (runBind (.start common) calls).bindInfo = boundPorts calls := by
  induction calls using List.reverseRecOn with
  | nil => rfl
  | append_singleton calls c ih =>
    rw [runBind_concat, getOtherWanBind_bindInfo, ih, boundPorts_concat]

theorem booksOk_start (common : List (Str × Str)) : BooksOk [] (.start common) where
  union := by
    refine BitVec.eq_of_getLsbD_eq fun k _ => ?_
    rw [Bool.eq_iff_iff, getLsbD_orAll]
    simp [OtherBind.start]
  members := by
    intro i _
    simp [OtherBind.hasBit, OtherBind.start, listed]
  attrs := fun h => absurd rfl h

/-- **One call keeps the books exactly under its condition.** -/
theorem booksOk_concat_iff (common : List (Str × Str)) {calls : List BindCall} (c : BindCall)
    (h : BooksOk calls (runBind (.start common) calls)) :
    BooksOk (calls ++ [c]) (runBind (.start common) (calls ++ [c])) ↔ CallOk calls c := by
  have hinfo := runBind_bindInfo common calls
  have hunion : (runBind (.start common) (calls ++ [c])).bindBit =
      orAll (runBind (.start common) (calls ++ [c])).bindInfo ↔
      ∀ j, j ≠ c.idx → boundPorts calls c.idx &&& ~~~c.ports &&& boundPorts calls j = 0 := by
    rw [runBind_concat, getOtherWanBind_bindBit, getOtherWanBind_bindInfo, h.union,
      replaceRow_eq_iff, hinfo]
  have hmem : (∀ i < 64, (runBind (.start common) (calls ++ [c])).hasBit i =
      listed (calls ++ [c]) i) ↔ (c.cfg.srvOther = false → listed calls c.idx = false) := by
    constructor
    · intro hall ho
      have hi := hall c.idx c.idx.isLt
      rw [runBind_concat, getOtherWanBind_hasBit _ _ c.idx.isLt, listed_concat,
        h.members _ c.idx.isLt] at hi
      simpa [ho, BindCall.enters] using hi
    · intro hserv i hi
      rw [runBind_concat, getOtherWanBind_hasBit _ _ hi, listed_concat, h.members i hi]
      by_cases hc : c.idx.val = i
      · cases ho : c.cfg.srvOther with
        | true => simp [hc]
        | false => simp [hc, BindCall.enters, ho, ← hserv ho]
      · simp [hc]
  obtain ⟨hattr0, hattr1, hattrB⟩ := getOtherWanBind_common (runBind (.start common) calls) c
  rw [← runBind_concat] at hattr0 hattr1 hattrB
  -- the words that are printed are the ones of the condition, once the first two fields hold
  have hword : (∀ i < 64, (runBind (.start common) (calls ++ [c])).hasBit i =
      listed (calls ++ [c]) i) →
      (runBind (.start common) (calls ++ [c])).list0 = wordOf 32 (listed (calls ++ [c])) ∧
      (runBind (.start common) (calls ++ [c])).list1 =
        wordOf 32 fun k => listed (calls ++ [c]) (k + 32) := by
    intro hall
    refine ⟨eq_wordOf fun k hk => ?_, eq_wordOf fun k hk => ?_⟩
    · have := hall k (by omega)
      rwa [OtherBind.hasBit, if_pos hk] at this
    · have := hall (k + 32) (by omega)
      rwa [OtherBind.hasBit, if_neg (by omega), Nat.add_sub_cancel] at this
  have hbit := runBind_bindInfo common (calls ++ [c])
  constructor
  · intro hok
    obtain ⟨hl0, hl1⟩ := hword hok.members
    have hat := hok.attrs (by simp)
    rw [denotes_iff hattr0, denotes_iff hattr1, denotes_iff hattrB, hl0, hl1, hok.union,
      hbit] at hat
    exact ⟨hunion.mp hok.union, hmem.mp hok.members, hat⟩
  · intro hc
    have hu := hunion.mpr hc.apart
    have hm := hmem.mpr hc.service
    obtain ⟨hl0, hl1⟩ := hword hm
    refine ⟨hu, hm, fun _ => ?_⟩
    rw [denotes_iff hattr0, denotes_iff hattr1, denotes_iff hattrB, hl0, hl1, hu, hbit]
    exact hc.fits

/-- **The books are right after every call of a sequence exactly when every call of it meets its
condition.** -/
theorem runBind_booksOk_iff (common : List (Str × Str)) (calls : List BindCall) :
    (∀ p, p <+: calls → BooksOk p (runBind (.start common) p)) ↔
      ∀ p c, p ++ [c] <+: calls → CallOk p c := by
  constructor
  · intro h p c hp
    have hpre : p <+: calls := (List.prefix_append p [c]).trans hp
    exact (booksOk_concat_iff common c (h p hpre)).mp (h _ hp)
  · intro h p
    -- induction on the prefix, from the right: the last call is the step
    induction p using List.reverseRecOn with
    | nil => exact fun _ => booksOk_start common
    | append_singleton p c ih =>
      intro hp
      have hpre : p <+: calls := (List.prefix_append p [c]).trans hp
      exact (booksOk_concat_iff common c (ih hpre)).mpr (h p c hp)

/-- A configuration with `OTHER` service that binds the ports `b`. -/
def otherCfg (b : Word) : WanEntryCfg := { bindbit := b, srvType := eSrvOther }

/-- The three failures: a shared port is lost with the first of its two WANs; a WAN that changes its
service stays listed; and the list word of the WAN 30 does not fit the buffer. -/
theorem books_fail :
    (¬ BooksOk [⟨0, otherCfg 1, .add⟩, ⟨1, otherCfg 1, .add⟩, ⟨0, otherCfg 1, .del⟩]
      (runBind (.start [])
        [⟨0, otherCfg 1, .add⟩, ⟨1, otherCfg 1, .add⟩, ⟨0, otherCfg 1, .del⟩])) ∧
    (¬ BooksOk [⟨0, otherCfg 1, .add⟩, ⟨0, {}, .del⟩]
      (runBind (.start []) [⟨0, otherCfg 1, .add⟩, ⟨0, {}, .del⟩])) ∧
    ¬ BooksOk [⟨30, otherCfg 1, .add⟩] (runBind (.start []) [⟨30, otherCfg 1, .add⟩]) := by
  refine ⟨fun h => absurd h.union (by decide), fun h => absurd (h.members 0 (by decide))
    (by decide), fun h => absurd (h.attrs (by simp)).1 ?_⟩
  rw [runBind, List.foldl_cons, List.foldl_nil, denotes_iff (getOtherWanBind_common _ _).1]
  decide

end OnuFirmware.Wan
