import OnuFirmware.Cfg.ReadAttr
import OnuFirmware.Clib.Num
import OnuFirmware.Lib.Guard
import OnuFirmware.Lib.Place
import Mathlib.Data.List.Sort
import Mathlib.Data.List.Dedup

/-!
# The QoS rules of the WAN interfaces (`qosWanInterfaceUpdate`)

Each QoS entry with a condition on the WAN interface becomes a rule of the kernel: the names of the
interfaces and a mask of bits for the queue, the 802.1p and the DSCP mark. The entries are collected
under their numbers from 1 to 10 and installed from the rows 0 to 9, and the buffer with the number
of the queue is used again for what is found under that number.
-/

namespace OnuFirmware.Qos

open Clib Cfg Lib

/-! ## Names and numbers -/

/-- `MAX_TYPE_RULE_NUM`. -/
def maxTypeRuleNum : Nat := 10

/-- `MAX_TYPE_NUM`. -/
def maxTypeNum : Nat := 10

def commNode : Str := "root.qos.common".toList
def actQueueName : Str := "ActQueue".toList
def act8021pName : Str := "Act8021pRemarkingNum".toList
def actDSCPName : Str := "ActDSCPRemarking".toList
def en8021PName : Str := "En8021PRemark".toList
def enableDSCPName : Str := "EnableDSCPMark".toList
def nasName : Str := "NASName".toList
def notAvailable : Str := "N/A".toList
def wanInterface : Str := "WANInterface".toList

/-- `QOS_ENTRY_NODE`. -/
def qosEntryNode (idx : Nat) : Str := snprintf 64 ("root.qos.entry.".toList ++ fmtNat idx)

/-- `WAN_PVC_ENTRY_NODE` of an interface. -/
def wanPvcEntryNode (p : Nat × Nat) : Str :=
  snprintf 64 ("root.wan.pvc.".toList ++ fmtNat p.1 ++ ".entry.".toList ++ fmtNat p.2)

def typeName (i : Nat) : Str := snprintf 20 ("Type".toList ++ fmtNat (i + 1))
def maxName (i : Nat) : Str := snprintf 10 ("Max".toList ++ fmtNat (i + 1))
def minName (i : Nat) : Str := snprintf 10 ("Min".toList ++ fmtNat (i + 1))

/-- `queueBuf`, the attribute with the number of a queue. -/
def queueBuf (buf : Str) : Str := snprintf 10 ("QueueP".toList ++ fmtInt (atoi buf))

/-! ## The interfaces of a range (`setWanIfQoS`) -/

/-- The numbers of a PVC and of an interface. -/
structure IfIndex where
  pvc : Int
  entry : Int
deriving Repr, DecidableEq

/-- What stands before and behind the first comma. -/
def splitComma (t : Str) : Option (Str × Str) :=
  if ',' ∈ t then some (t.take (t.idxOf ','), t.drop (t.idxOf ',' + 1)) else none

/-- `strncpy(pvc_arr, val, p - val)` and `strncpy(if_arr, p + 1, 9)`, for the texts in the two
arrays of 10 bytes; behind its text an array is filled with NULs. The first call copies no NUL, so
what was longer in `pvc_arr` stays behind it. -/
def storeIndex (val : Str) (arr : Str × Str) : Except Fault (Str × Str) :=
  match splitComma val with
  | some (pvc, entry) =>
    if pvc.length ≤ 10 then .ok (pvc ++ arr.1.drop pvc.length, entry.take 9) else .error .overrun
  | none => .ok arr

/-- `atoi(pvc_arr)` and `atoi(if_arr)`. -/
def readIndex (arr : Str × Str) : Except Fault IfIndex :=
  if arr.1.length < 10 then .ok ⟨atoi arr.1, atoi arr.2⟩ else .error .overrun

/-- The index in a text, with what the arrays hold behind it. -/
def takeIndex (val : Str) (arr : Str × Str) : Except Fault ((Str × Str) × IfIndex) := do
  let arr ← storeIndex val arr
  let index ← readIndex arr
  .ok (arr, index)

/-- The first and the last index of a range. -/
def ifIndexes (minVal maxVal : Str) : Except Fault (IfIndex × IfIndex) :=
  if minVal = [] then .ok (⟨-1, -1⟩, ⟨-1, -1⟩)
  else
    match takeIndex minVal ([], []) with
    | .error e => .error e
    | .ok (arr, first) =>
      if maxVal = [] then .ok (first, first)
      else (takeIndex maxVal arr).map fun last => (first, last.2)

/-- The two loops over a range. -/
def ifacesIn (first last : IfIndex) : List (Nat × Nat) :=
  if 0 < first.pvc ∧ 0 < first.entry ∧ 0 < last.pvc ∧ 0 < last.entry then
    (List.range' first.pvc.toNat (last.pvc.toNat + 1 - first.pvc.toNat)).flatMap fun i =>
      (List.range' first.entry.toNat (last.entry.toNat + 1 - first.entry.toNat)).map fun j => (i, j)
  else []

/-- A name goes to the end of `ifBuf`. -/
def addName (ifBuf ifName : Str) : Str :=
  if ifBuf = [] then ifName.take 63
  else if ifBuf.length < 48 then snprintf 64 (ifBuf ++ ',' :: ifName)
  else ifBuf

/-- One turn of the loops. -/
def addIface (conf : Conf) (ifBuf : Str) (p : Nat × Nat) : Str :=
  let ifName := attrText (conf (wanPvcEntryNode p) nasName) 10 []
  if ifName = [] then ifBuf else addName ifBuf ifName

/-- `setWanIfQoS(wantype_name[idx], MinVal, MaxVal)`: the row afterwards. -/
def setWanIfQoS (conf : Conf) (idx : Nat) (row minVal maxVal : Str) : Except Fault Str := do
  let r ← ifIndexes minVal maxVal
  let ifBuf := (ifacesIn r.1 r.2).foldl (addIface conf) []
  if ifBuf = [] then .ok row
  else if idx < maxTypeRuleNum then .ok (ifBuf.take 31)
  else .error .overrun

/-! ## The entries -/

/-- The range of a condition, if it is one on the WAN interface. -/
def wanCond (conf : Conf) (path : Str) (i : Nat) : Option (Str × Str) :=
  let typeVal := attrText (conf path (typeName i)) 20 []
  let maxVal := attrText (conf path (maxName i)) 64 []
  let minVal := attrText (conf path (minName i)) 64 []
  if typeVal ≠ [] ∧ maxVal ≠ [] ∧ minVal ≠ [] then
    if typeVal = notAvailable ∨ maxVal = notAvailable ∨ minVal = notAvailable then none
    else if typeVal = wanInterface then some (minVal, maxVal)
    else none
  else none

/-- What is collected of an entry, and the buffer that holds its queue at first. -/
structure EntryVars where
  buf : Str
  name : Str
  set : Bool
  mark : Nat
deriving Repr, DecidableEq

/-- The number of a queue, if it is one. -/
def queueValue (buf : Str) : Nat := if 0 < atoi buf ∧ atoi buf < 7 then (atoi buf).toNat else 0

/-- One turn of the loop over the conditions of entry `idx`. A read that fails leaves the empty
text, whose number is no queue. -/
def condStep (conf : Conf) (idx : Nat) (v : EntryVars) (i : Nat) : Except Fault EntryVars :=
  match wanCond conf (qosEntryNode idx) i with
  | none => .ok v
  | some (minVal, maxVal) => do
    let name ← setWanIfQoS conf idx v.name minVal maxVal
    let buf := attrText (conf commNode (queueBuf v.buf)) 64 []
    .ok ⟨buf, name, true, v.mark ||| queueValue buf <<< 12⟩

/-- The bits of the 802.1p mark. -/
def pbitMark (conf : Conf) (path : Str) : Nat :=
  let buf := attrText (conf path act8021pName) 64 []
  let dotp := attrText (conf commNode en8021PName) 10 []
  if buf ≠ [] ∧ dotp ≠ [] then
    if dotp = "0".toList then 0
    else if dotp = "1".toList then 9
    else (atoi buf % 16).toNat
  else 0

/-- The bits of the DSCP mark. -/
def dscpMark (conf : Conf) (path : Str) : Nat :=
  let buf := attrText (conf path actDSCPName) 64 []
  let dscpEnable := attrText (conf commNode enableDSCPName) 10 []
  if buf ≠ [] ∧ dscpEnable = "Yes".toList then 1 <<< 6 ||| (atoi buf % 64).toNat else 0

/-- What is collected of entry `idx`. -/
def collectEntry (conf : Conf) (idx : Nat) : Except Fault EntryVars := do
  let path := qosEntryNode idx
  let buf := attrText (conf path actQueueName) 64 []
  let v ← if buf ≠ [] then (List.range maxTypeNum).foldlM (condStep conf idx) ⟨buf, [], false, 0⟩
    else .ok ⟨buf, [], false, 0⟩
  .ok { v with mark := v.mark ||| pbitMark conf path <<< 8 ||| dscpMark conf path }

/-- `qos_wanIf_value_t`, with which `blapi_traffic_set_wanInterface_qostype` is called. -/
structure Rule where
  index : Nat
  wanTypeMask : Nat
  wanTypeName : Str
  wanTypeValue : Str
deriving Repr, DecidableEq

/-- An entry of the kernel is reset. -/
def Rule.reset (idx : Nat) : Rule := ⟨idx, 0, [], []⟩

/-- The rule of an entry; `size` is the size of `wanType_value`. -/
def EntryVars.rule (size idx : Nat) (v : EntryVars) : Rule :=
  ⟨idx, v.mark, "wan_if".toList, snprintf size v.name⟩

/-- `qosWanInterfaceUpdate` for the uplink: the rules that are handed to the kernel. -/
def qosWanInterfaceUpdate (size onOff : Nat) (conf : Conf) : Except Fault (List Rule) :=
  let resets := (List.range maxTypeRuleNum).map Rule.reset
  if onOff = 0 then .ok resets
  else do
    let rows ← (List.range' 1 maxTypeRuleNum).foldlM
      (fun rows idx => (collectEntry conf idx).map fun v => Function.update rows idx v)
      (fun _ => ⟨[], [], false, 0⟩)
    .ok (resets ++ ((List.range maxTypeRuleNum).filter fun idx => (rows idx).set).map fun idx =>
      (rows idx).rule size idx)

/-! ## Statement -/

/-- The range of a condition on the WAN interface, from the texts of its attributes. -/
def wanRange (conf : Conf) (k i : Nat) : Option (Str × Str) :=
  let minVal := (conf (qosEntryNode k) (minName i)).getD []
  let maxVal := (conf (qosEntryNode k) (maxName i)).getD []
  if conf (qosEntryNode k) (typeName i) = some wanInterface ∧ minVal ≠ [] ∧ minVal ≠ notAvailable ∧
      maxVal ≠ [] ∧ maxVal ≠ notAvailable then some (minVal, maxVal)
  else none

/-- The ranges of an entry. -/
def wanRanges (conf : Conf) (k : Nat) : List (Str × Str) :=
  (List.range maxTypeNum).filterMap (wanRange conf k)

def actQueue (conf : Conf) (k : Nat) : Str := (conf (qosEntryNode k) actQueueName).getD []

/-- The entries for which there is to be a rule. -/
def dueEntries (conf : Conf) : List Nat :=
  (List.range' 1 maxTypeRuleNum).filter fun k => actQueue conf k ≠ [] ∧ wanRanges conf k ≠ []

/-- The index before and behind the comma. -/
def ifIndex (t : Str) : Option IfIndex := (splitComma t).map fun p => ⟨atoi p.1, atoi p.2⟩

/-- The interfaces between the two indexes of a range; without a second one, the interface of the
first one. -/
def rangeIfaces (r : Str × Str) : List (Nat × Nat) :=
  match ifIndex r.1 with
  | some first => ifacesIn first ((ifIndex r.2).getD first)
  | none => []

/-- The interfaces of some ranges, each once and in the order of their numbers. -/
def interfaces (rs : List (Str × Str)) : List (Nat × Nat) :=
  (rs.flatMap rangeIfaces).dedup.insertionSort fun p q => p.1 < q.1 ∨ p.1 = q.1 ∧ p.2 ≤ q.2

/-- The names of interfaces, of those that have one. -/
def nasNames (conf : Conf) (l : List (Nat × Nat)) : List Str :=
  (l.map fun p => (conf (wanPvcEntryNode p) nasName).getD []).filter (· ≠ [])

/-- A list of names, separated by commas. -/
def listNames : List Str → Str
  | [] => []
  | x :: xs => x ++ xs.flatMap (',' :: ·)

/-- The number under the queue of an entry, if it is that of a queue. -/
def queueOf (conf : Conf) (k : Nat) : Nat :=
  queueValue ((conf commNode ("QueueP".toList ++ fmtInt (atoi (actQueue conf k)))).getD [])

/-- The rule of an entry, under some index. -/
def dueRule (conf : Conf) (k index : Nat) : Rule :=
  ⟨index, queueOf conf k <<< 12 ||| pbitMark conf (qosEntryNode k) <<< 8 |||
      dscpMark conf (qosEntryNode k),
    "wan_if".toList, listNames (nasNames conf (interfaces (wanRanges conf k)))⟩

/-- No access is out of bounds; the rules are exactly those of the entries that have one, each under
its own index, and each index has been reset before. -/
def WanIfRight (size : Nat) (conf : Conf) : Prop :=
  ∃ (resets : List Nat) (index : Nat → Nat),
    qosWanInterfaceUpdate size 1 conf = .ok (resets.map Rule.reset ++
      (dueEntries conf).map fun k => dueRule conf k (index k)) ∧
    (∀ k ∈ dueEntries conf, index k ∈ resets) ∧
    ∀ j ∈ dueEntries conf, ∀ k ∈ dueEntries conf, index j = index k → j = k

/-- What stands before the comma fits the array. -/
def CommaFits (t : Str) : Prop := ∀ p, splitComma t = some p → p.1.length < 10

instance (t : Str) : Decidable (CommaFits t) :=
  match h : splitComma t with
  | none => isTrue fun p hp => absurd (h.symm.trans hp) (Option.some_ne_none p).symm
  | some p => decidable_of_iff (p.1.length < 10)
      ⟨fun hp _ hq => Option.some.inj (h.symm.trans hq) ▸ hp, fun hp => hp p h⟩

/-- The texts of a range are read without an access out of bounds. -/
def RangeFits (r : Str × Str) : Prop := CommaFits (snprintf 64 r.1) ∧ CommaFits (snprintf 64 r.2)

/-- The interfaces of a range as the texts are read: 9 characters of the numbers of the interfaces,
and behind a second PVC the end of a longer first one. -/
def readTexts (minVal maxVal : Str) : List (Nat × Nat) :=
  match splitComma minVal with
  | some (pvc, entry) =>
    ifacesIn ⟨atoi pvc, atoi (entry.take 9)⟩
      (match splitComma maxVal with
        | some (pvc', entry') => ⟨atoi (pvc' ++ pvc.drop pvc'.length), atoi (entry'.take 9)⟩
        | none => ⟨atoi pvc, atoi (entry.take 9)⟩)
  | none => []

/-- The names in a range as it is read, up to 9 characters of each. -/
def readNames (conf : Conf) (r : Str × Str) : List Str :=
  (nasNames conf (readTexts (snprintf 64 r.1) (snprintf 64 r.2))).map (snprintf 10)

/-- The names of the last range in which there are any. -/
def lastNames (conf : Conf) (rs : List (Str × Str)) : List Str :=
  ((rs.map (readNames conf)).filter (· ≠ [])).getLastD []

/-- The numbers found one under the other, beginning with the queue of the entry: one for each
range. -/
def queueChain (conf : Conf) : Nat → Str → Nat
  | 0, _ => 0
  | n + 1, buf =>
    let next := attrText (conf commNode (queueBuf buf)) 64 []
    queueValue next ||| queueChain conf n next

/-- The names in the ranges of an entry are those of the last range that has any, and not too long;
or they are just as much of these as there is room for. -/
def NamesShown (size : Nat) (conf : Conf) (k : Nat) : Prop :=
  let shown := listNames (lastNames conf (wanRanges conf k))
  let names := listNames (nasNames conf (interfaces (wanRanges conf k)))
  let room := min 31 (size - 1)
  (names = shown ∧ names.length ≤ room) ∨ (names <+: shown ∧ names.length = room)

/-- When the rule of an entry is right: the entry is not the tenth, its ranges fit, what is found
from number to number is the queue, and the names are shown. -/
structure WanIfCond (size : Nat) (conf : Conf) (k : Nat) : Prop where
  row : k < maxTypeRuleNum
  fits : ∀ r ∈ wanRanges conf k, RangeFits r
  queue : queueChain conf (wanRanges conf k).length (snprintf 64 (actQueue conf k)) =
    queueOf conf k
  names : NamesShown size conf k

/-! ## A range -/

section Range

variable {minVal maxVal : Str} {arr : Str × Str}

theorem commaFits_none {t : Str} (h : splitComma t = none) : CommaFits t := fun p hp =>
  absurd (hp.symm.trans h) (Option.some_ne_none p)

theorem commaFits_some {t : Str} {p : Str × Str} (h : splitComma t = some p) :
    CommaFits t ↔ p.1.length < 10 :=
  ⟨fun hf => hf p h, fun hp _ hq => Option.some.inj (h.symm.trans hq) ▸ hp⟩

/-- The arrays behind a text. -/
def stored (t : Str) (arr : Str × Str) : Str × Str :=
  match splitComma t with
  | some (pvc, entry) => (pvc ++ arr.1.drop pvc.length, entry.take 9)
  | none => arr

/-- A text that fits is stored, and can be read. -/
theorem takeIndex_fits {t : Str} (h : CommaFits t) (harr : arr.1.length < 10) :
    takeIndex t arr = .ok (stored t arr, ⟨atoi (stored t arr).1, atoi (stored t arr).2⟩) ∧
      (stored t arr).1.length < 10 := by
  have hlen : (stored t arr).1.length < 10 := by
    rw [stored]
    cases hs : splitComma t with
    | none => exact harr
    | some p =>
      have hfit := (commaFits_some hs).mp h
      simp only [List.length_append, List.length_drop]
      omega
  have hstore : storeIndex t arr = .ok (stored t arr) := by
    rw [storeIndex, stored]
    cases hs : splitComma t with
    | none => rfl
    | some p => exact if_pos (Nat.le_of_lt ((commaFits_some hs).mp h))
  have hread : readIndex (stored t arr) = .ok ⟨atoi (stored t arr).1, atoi (stored t arr).2⟩ :=
    if_pos hlen
  refine ⟨?_, hlen⟩
  rw [takeIndex, hstore]
  simp only [bind, Except.bind]
  rw [hread]

/-- A text that does not fit is stored or read out of bounds. -/
theorem takeIndex_not_fits {t : Str} (h : ¬ CommaFits t) : ∃ e, takeIndex t arr = .error e := by
  cases hs : splitComma t with
  | none => exact absurd (commaFits_none hs) h
  | some p =>
    have hlen : 10 ≤ p.1.length := Nat.not_lt.mp fun hp => h ((commaFits_some hs).mpr hp)
    rw [takeIndex, storeIndex, hs]
    simp only [bind, Except.bind]
    by_cases hle : p.1.length ≤ 10
    · have hread : ∀ a b, readIndex (p.1 ++ a, b) = .error .overrun := fun a b => if_neg (by
        rw [List.length_append]
        omega)
      rw [if_pos hle]
      simp only
      rw [hread]
      exact ⟨_, rfl⟩
    · rw [if_neg hle]
      exact ⟨_, rfl⟩

theorem ifacesIn_zero (last : IfIndex) : ifacesIn ⟨0, 0⟩ last = [] :=
  if_neg fun h => absurd h.1 (lt_irrefl 0)

/-- **A range that fits is read as `readTexts` says.** -/
theorem ifIndexes_fits (hmin : minVal ≠ []) (hmax : maxVal ≠ []) (h : CommaFits minVal)
    (h' : CommaFits maxVal) :
    ∃ r, ifIndexes minVal maxVal = .ok r ∧ ifacesIn r.1 r.2 = readTexts minVal maxVal := by
  obtain ⟨hfirst, hlen⟩ := @takeIndex_fits ([], []) _ h (by decide)
  obtain ⟨hlast, -⟩ := takeIndex_fits h' hlen
  rw [ifIndexes, if_neg hmin, hfirst]
  simp only [if_neg hmax, hlast]
  refine ⟨_, rfl, ?_⟩
  rw [readTexts]
  cases hs : splitComma minVal with
  | none =>
    have hzero : stored minVal ([], []) = ([], []) := by rw [stored, hs]
    simp only [hzero]
    exact ifacesIn_zero _
  | some p =>
    have hmin' : stored minVal ([], []) = (p.1, p.2.take 9) := by
      rw [stored, hs]
      simp only [List.drop_nil, List.append_nil]
    simp only [hmin']
    rw [stored]
    cases hs' : splitComma maxVal <;> rfl

theorem ifIndexes_not_fits (hmin : minVal ≠ []) (hmax : maxVal ≠ [])
    (h : ¬ (CommaFits minVal ∧ CommaFits maxVal)) :
    ∃ e, ifIndexes minVal maxVal = .error e := by
  rw [ifIndexes, if_neg hmin]
  by_cases hf : CommaFits minVal
  · obtain ⟨hfirst, -⟩ := @takeIndex_fits ([], []) _ hf (by decide)
    obtain ⟨e, he⟩ := @takeIndex_not_fits (stored minVal ([], [])) _ fun hf' => h ⟨hf, hf'⟩
    rw [hfirst]
    simp only [if_neg hmax, he]
    exact ⟨e, rfl⟩
  · obtain ⟨e, he⟩ := @takeIndex_not_fits ([], []) _ hf
    rw [he]
    exact ⟨e, rfl⟩

end Range

/-! ## The names -/

section Names

variable {conf : Conf} {names : List Str} {row : Str} {idx k i : Nat} {r : Str × Str}

theorem listNames_concat {x : Str} (h : names ≠ []) :
    listNames (names ++ [x]) = listNames names ++ ',' :: x := by
  obtain ⟨y, ys, rfl⟩ := List.exists_cons_of_ne_nil h
  simp [listNames]

/-- `ifBuf` behind some names: all of them, or the beginning of their list and full. -/
structure BufAt (ifBuf : Str) (names : List Str) : Prop where
  list : ifBuf = listNames names ∨ (48 ≤ ifBuf.length ∧ ifBuf <+: listNames names)
  empty : ifBuf = [] ↔ names = []

theorem BufAt.addName {ifBuf x : Str} (h : BufAt ifBuf names) (hx : x ≠ []) (hlen : x.length ≤ 9) :
    BufAt (addName ifBuf x) (names ++ [x]) := by
  rw [Qos.addName]
  by_cases hnil : ifBuf = []
  · obtain rfl := h.empty.mp hnil
    rw [if_pos hnil, List.take_of_length_le (by omega)]
    exact ⟨.inl (by simp [listNames]), iff_of_false hx (by simp)⟩
  · have hlist := listNames_concat (x := x) fun hn => hnil (h.empty.mpr hn)
    rw [if_neg hnil]
    by_cases hroom : ifBuf.length < 48
    · have hall : ifBuf = listNames names := h.list.resolve_right fun hc => by omega
      rw [if_pos hroom, snprintf_eq (by
        rw [List.length_append, List.length_cons]
        omega)]
      refine ⟨.inl ?_, iff_of_false (by simp) (by simp)⟩
      rw [hlist, hall]
    · rw [if_neg hroom]
      refine ⟨.inr ⟨Nat.not_lt.mp hroom, ?_⟩, iff_of_false hnil (by simp)⟩
      have hpre : ifBuf <+: listNames names := h.list.elim (fun he => he ▸ List.prefix_rfl) (·.2)
      rw [hlist]
      exact hpre.trans (List.prefix_append _ _)

theorem BufAt.foldl : ∀ {l pre : List Str} {ifBuf : Str}, BufAt ifBuf pre →
    (∀ x ∈ l, x ≠ [] ∧ x.length ≤ 9) → BufAt (l.foldl Qos.addName ifBuf) (pre ++ l)
  | [], pre, ifBuf, h, _ => by rwa [List.append_nil]
  | x :: l, pre, ifBuf, h, hl => by
    have hx := hl x List.mem_cons_self
    have hrest := BufAt.foldl (h.addName hx.1 hx.2) fun y hy => hl y (List.mem_cons_of_mem x hy)
    rwa [List.append_assoc] at hrest

/-- What is seen of a buffer is the beginning of the list. -/
theorem BufAt.take {ifBuf : Str} (h : BufAt ifBuf names) :
    ifBuf.take 31 = (listNames names).take 31 := by
  rcases h.list with rfl | ⟨hlen, s, hs⟩
  · rfl
  · rw [← hs, List.take_append_of_le_length (by omega)]

theorem foldl_addIface (conf : Conf) : ∀ (l : List (Nat × Nat)) (ifBuf : Str),
    l.foldl (addIface conf) ifBuf = ((nasNames conf l).map (snprintf 10)).foldl Qos.addName ifBuf
  | [], _ => rfl
  | p :: l, ifBuf => by
    rw [List.foldl_cons, foldl_addIface conf l, addIface, nasNames, nasNames, List.map_cons]
    simp only [attrText_getD]
    cases hp : (conf (wanPvcEntryNode p) nasName).getD [] with
    | nil =>
      rw [List.filter_cons_of_neg (by simp), snprintf, List.take_nil, if_pos rfl]
    | cons c t =>
      rw [List.filter_cons_of_pos (by simp), List.map_cons, List.foldl_cons, if_neg (by
        simp [snprintf])]

theorem foldl_readTexts (conf : Conf) (r : Str × Str) :
    (readTexts (snprintf 64 r.1) (snprintf 64 r.2)).foldl (addIface conf) [] =
      (readNames conf r).foldl Qos.addName [] := foldl_addIface conf _ _

theorem readNames_mem {x : Str} (h : x ∈ readNames conf r) : x ≠ [] ∧ x.length ≤ 9 := by
  obtain ⟨y, hy, rfl⟩ := List.mem_map.mp h
  have hne : y ≠ [] := by simpa using (List.mem_filter.mp hy).2
  obtain ⟨c, t, rfl⟩ := List.exists_cons_of_ne_nil hne
  exact ⟨by simp [snprintf], length_snprintf_lt 9 _⟩

theorem bufAt_readNames (conf : Conf) (r : Str × Str) :
    BufAt ((readNames conf r).foldl Qos.addName []) (readNames conf r) :=
  @BufAt.foldl _ [] [] ⟨.inl rfl, iff_of_true rfl rfl⟩ fun _ hx => readNames_mem hx

/-- When a range is treated without an access out of bounds. -/
def RangeOk (conf : Conf) (idx : Nat) (r : Str × Str) : Prop :=
  RangeFits r ∧ (idx < maxTypeRuleNum ∨ readNames conf r = [])

/-- The row behind a range. -/
def rowAfter (conf : Conf) (row : Str) (r : Str × Str) : Str :=
  if readNames conf r = [] then row else (listNames (readNames conf r)).take 31

theorem setWanIfQoS_ok (hmin : r.1 ≠ []) (hmax : r.2 ≠ []) (h : RangeOk conf idx r) :
    setWanIfQoS conf idx row (snprintf 64 r.1) (snprintf 64 r.2) = .ok (rowAfter conf row r) := by
  obtain ⟨q, hq, hifaces⟩ := ifIndexes_fits
    (fun hn => hmin ((snprintf_eq_nil_iff (by decide)).mp hn))
    (fun hn => hmax ((snprintf_eq_nil_iff (by decide)).mp hn)) h.1.1 h.1.2
  have hbuf := bufAt_readNames conf r
  rw [setWanIfQoS, hq]
  simp only [bind, Except.bind]
  rw [hifaces, foldl_readTexts, rowAfter]
  by_cases hnil : readNames conf r = []
  · rw [if_pos (hbuf.empty.mpr hnil), if_pos hnil]
  · rw [if_neg fun hn => hnil (hbuf.empty.mp hn), if_neg hnil, if_pos (h.2.resolve_right hnil)]
    exact congrArg Except.ok hbuf.take

theorem setWanIfQoS_error (hmin : r.1 ≠ []) (hmax : r.2 ≠ []) (h : ¬ RangeOk conf idx r) :
    ∃ e, setWanIfQoS conf idx row (snprintf 64 r.1) (snprintf 64 r.2) = .error e := by
  have hmin' : snprintf 64 r.1 ≠ [] := fun hn => hmin ((snprintf_eq_nil_iff (by decide)).mp hn)
  have hmax' : snprintf 64 r.2 ≠ [] := fun hn => hmax ((snprintf_eq_nil_iff (by decide)).mp hn)
  by_cases hfits : RangeFits r
  · obtain ⟨hidx, hnil⟩ := not_or.mp fun hc => h ⟨hfits, hc⟩
    obtain ⟨q, hq, hifaces⟩ := ifIndexes_fits hmin' hmax' hfits.1 hfits.2
    have hbuf := bufAt_readNames conf r
    rw [setWanIfQoS, hq]
    simp only [bind, Except.bind]
    rw [hifaces, foldl_readTexts, if_neg fun hn => hnil (hbuf.empty.mp hn), if_neg hidx]
    exact ⟨_, rfl⟩
  · obtain ⟨e, he⟩ := ifIndexes_not_fits hmin' hmax' hfits
    exact ⟨e, by rw [setWanIfQoS, he]; rfl⟩

end Names

/-! ## An entry -/

section Entry

variable {conf : Conf} {k i : Nat} {v : EntryVars} {r : Str × Str} {rs : List (Str × Str)}

theorem snprintf_eq_iff {size : Nat} {s t : Str} (ht : t.length + 1 < size) :
    snprintf size s = t ↔ s = t := by
  have h := @attrText_eq_iff (some s) size [] t ht
  simpa [attrText] using h

/-- The attributes of a condition are read as far as the buffers hold them. -/
theorem wanCond_eq : wanCond conf (qosEntryNode k) i =
    (wanRange conf k i).map fun r => (snprintf 64 r.1, snprintf 64 r.2) := by
  have htype : attrText (conf (qosEntryNode k) (typeName i)) 20 [] = wanInterface ↔
      conf (qosEntryNode k) (typeName i) = some wanInterface :=
    attrText_nil_eq_iff (by decide) (by decide)
  have hna : ∀ t : Str, snprintf 64 t = notAvailable ↔ t = notAvailable := fun t =>
    snprintf_eq_iff (by decide)
  have hnil : ∀ t : Str, snprintf 64 t = [] ↔ t = [] := fun t => snprintf_eq_nil_iff (by decide)
  rw [wanCond, wanRange]
  simp only [attrText_getD _ 64, ne_eq, hnil, hna, ← htype]
  generalize attrText (conf (qosEntryNode k) (typeName i)) 20 [] = typeVal
  generalize (conf (qosEntryNode k) (minName i)).getD [] = minVal
  generalize (conf (qosEntryNode k) (maxName i)).getD [] = maxVal
  have hne : wanInterface ≠ [] := by decide
  have hne' : wanInterface ≠ notAvailable := by decide
  by_cases ht : typeVal = wanInterface
  · subst ht
    by_cases h1 : minVal = [] <;> by_cases h2 : maxVal = [] <;>
      by_cases h3 : minVal = notAvailable <;> by_cases h4 : maxVal = notAvailable <;>
      simp [hne, hne', h1, h2, h3, h4]
  · simp [ht]

theorem wanRanges_ne_nil (h : r ∈ wanRanges conf k) : r.1 ≠ [] ∧ r.2 ≠ [] := by
  obtain ⟨i, -, hi⟩ := List.mem_filterMap.mp h
  rw [wanRange] at hi
  split at hi
  · next hc =>
    obtain rfl := Option.some.inj hi
    exact ⟨hc.2.1, hc.2.2.2.1⟩
  · exact absurd hi (Option.some_ne_none r).symm

/-- What is collected behind a range that fits. -/
def rangeStep (conf : Conf) (v : EntryVars) (r : Str × Str) : EntryVars :=
  let buf := attrText (conf commNode (queueBuf v.buf)) 64 []
  ⟨buf, rowAfter conf v.name r, true, v.mark ||| queueValue buf <<< 12⟩

/-- The ranges that are looked at. -/
def entryRanges (conf : Conf) (k : Nat) : List (Str × Str) :=
  if actQueue conf k = [] then [] else wanRanges conf k

/-- What is collected of an entry. -/
def entryVars (conf : Conf) (k : Nat) : EntryVars :=
  let v := (entryRanges conf k).foldl (rangeStep conf) ⟨snprintf 64 (actQueue conf k), [], false, 0⟩
  { v with mark := v.mark ||| pbitMark conf (qosEntryNode k) <<< 8 |||
      dscpMark conf (qosEntryNode k) }

/-- **The loop over the conditions is one over the ranges.** -/
theorem condLoop_eq_ok {w : EntryVars} :
    (List.range maxTypeNum).foldlM (condStep conf k) v = .ok w ↔
      (∀ r ∈ wanRanges conf k, RangeOk conf k r) ∧
        w = (wanRanges conf k).foldl (rangeStep conf) v := by
  rw [@foldlM_filterMap _ _ _ (fun v r => (setWanIfQoS conf k v.name (snprintf 64 r.1)
    (snprintf 64 r.2)).map fun name => { rangeStep conf v r with name }) v _ (wanRange conf k)]
  · refine foldlM_eq_ok_iff (fun v r hr hok => ?_) fun v r hr hno => ?_
    · obtain ⟨hmin, hmax⟩ := wanRanges_ne_nil hr
      rw [setWanIfQoS_ok hmin hmax hok]
      rfl
    · obtain ⟨hmin, hmax⟩ := wanRanges_ne_nil hr
      obtain ⟨e, he⟩ := @setWanIfQoS_error conf v.name k r hmin hmax hno
      exact ⟨e, by rw [he]; rfl⟩
  · intro v i hi
    rw [condStep, wanCond_eq, hi]
    rfl
  · intro v i r hi
    rw [condStep, wanCond_eq, hi]
    simp only [Option.map_some, bind, Except.bind]
    cases setWanIfQoS conf k v.name (snprintf 64 r.1) (snprintf 64 r.2) <;> rfl

/-- **What is collected of an entry, and when that is without an access out of bounds.** -/
theorem collectEntry_eq_ok {w : EntryVars} :
    collectEntry conf k = .ok w ↔
      (∀ r ∈ entryRanges conf k, RangeOk conf k r) ∧ w = entryVars conf k := by
  have hq : attrText (conf (qosEntryNode k) actQueueName) 64 [] = snprintf 64 (actQueue conf k) :=
    attrText_getD _ _
  rw [collectEntry, entryVars, entryRanges]
  simp only [hq, ne_eq, snprintf_eq_nil_iff (by decide : 1 < 64), bind, Except.bind]
  by_cases hnil : actQueue conf k = []
  · rw [if_neg (not_not_intro hnil), if_pos hnil, Except.ok.injEq]
    exact ⟨fun h => ⟨fun r hr => absurd hr List.not_mem_nil, h.symm⟩, fun h => h.2.symm⟩
  · rw [if_pos hnil, if_neg hnil]
    cases hloop : (List.range maxTypeNum).foldlM (condStep conf k)
        ⟨snprintf 64 (actQueue conf k), [], false, 0⟩ with
    | error e =>
      refine iff_of_false (fun h => nomatch h) fun h => ?_
      have hok := (@condLoop_eq_ok conf k ⟨snprintf 64 (actQueue conf k), [], false, 0⟩ _).mpr
        ⟨h.1, rfl⟩
      rw [hloop] at hok
      exact nomatch hok
    | ok u =>
      obtain ⟨hall, rfl⟩ := condLoop_eq_ok.mp hloop
      rw [Except.ok.injEq, and_iff_right hall]
      exact eq_comm

/-! ### What the ranges leave -/

theorem fold_set : (rs.foldl (rangeStep conf) v).set = (v.set || decide (rs ≠ [])) := by
  induction rs generalizing v with
  | nil => simp
  | cons r rs ih =>
    rw [List.foldl_cons, ih]
    simp [rangeStep]

theorem fold_mark : (rs.foldl (rangeStep conf) v).mark =
    v.mark ||| queueChain conf rs.length v.buf <<< 12 := by
  induction rs generalizing v with
  | nil => simp [queueChain]
  | cons r rs ih =>
    rw [List.foldl_cons, ih, List.length_cons, queueChain, rangeStep]
    simp only
    rw [Nat.shiftLeft_or_distrib, Nat.or_assoc]

theorem fold_name : (rs.foldl (rangeStep conf) v).name =
    (((rs.map (readNames conf)).filter (· ≠ [])).map fun l => (listNames l).take 31).getLastD
      v.name := by
  induction rs generalizing v with
  | nil => rfl
  | cons r rs ih =>
    rw [List.foldl_cons, ih, List.map_cons]
    by_cases hnil : readNames conf r = []
    · rw [List.filter_cons_of_neg (by simpa using hnil)]
      simp only [rangeStep, rowAfter, if_pos hnil]
    · rw [List.filter_cons_of_pos (by simpa using hnil), List.map_cons, List.getLastD_cons]
      simp only [rangeStep, rowAfter, if_neg hnil]

theorem getLastD_map {α β : Type*} (f : α → β) (l : List α) (a : α) :
    (l.map f).getLastD (f a) = f (l.getLastD a) := by
  induction l generalizing a with
  | nil => rfl
  | cons x l ih => rw [List.map_cons, List.getLastD_cons, List.getLastD_cons, ih]

theorem entryVars_set : (entryVars conf k).set = decide (entryRanges conf k ≠ []) := by
  rw [entryVars]
  simp only [fold_set, Bool.false_or]

theorem entryVars_name : (entryVars conf k).name =
    (listNames (lastNames conf (entryRanges conf k))).take 31 := by
  rw [entryVars, lastNames]
  simp only [fold_name]
  exact getLastD_map (fun l => (listNames l).take 31) _ []

theorem entryVars_mark : (entryVars conf k).mark =
    queueChain conf (entryRanges conf k).length (snprintf 64 (actQueue conf k)) <<< 12 |||
      pbitMark conf (qosEntryNode k) <<< 8 ||| dscpMark conf (qosEntryNode k) := by
  rw [entryVars]
  simp only [fold_mark, Nat.zero_or]

end Entry

/-! ## All entries -/

section Entries

variable {conf : Conf} {size k : Nat} {rules : List Rule}

theorem mem_dueEntries : k ∈ dueEntries conf ↔
    (1 ≤ k ∧ k ≤ maxTypeRuleNum) ∧ entryRanges conf k ≠ [] := by
  rw [dueEntries, List.mem_filter, List.mem_range'_1, decide_eq_true_iff, entryRanges]
  refine and_congr (by omega) ?_
  split
  · next hnil => exact iff_of_false (fun h => h.1 hnil) fun h => h rfl
  · next hne => exact and_iff_right hne

theorem entryRanges_of_due (h : k ∈ dueEntries conf) : entryRanges conf k = wanRanges conf k := by
  have hne := (mem_dueEntries.mp h).2
  rw [entryRanges] at hne ⊢
  split at hne
  · exact absurd rfl hne
  · next hc => exact if_neg hc

/-- The entries that are installed. -/
def installed (conf : Conf) : List Nat := (dueEntries conf).filter (· < maxTypeRuleNum)

/-- The rows behind the loop over the entries. -/
def rowsOf (conf : Conf) : Nat → EntryVars :=
  (List.range' 1 maxTypeRuleNum).foldl
    (fun rows idx => Function.update rows idx (entryVars conf idx)) fun _ => ⟨[], [], false, 0⟩

theorem rowsOf_apply (conf : Conf) (k : Nat) : rowsOf conf k =
    if k ∈ List.range' 1 maxTypeRuleNum then entryVars conf k else ⟨[], [], false, 0⟩ :=
  foldl_update_apply (fun idx => idx) (entryVars conf) _ _ fun _ _ h => by rw [h]

theorem rowsOf_due (h : k ∈ dueEntries conf) : rowsOf conf k = entryVars conf k := by
  rw [rowsOf_apply, if_pos (List.mem_of_mem_filter h)]

theorem filter_set (conf : Conf) :
    (List.range maxTypeRuleNum).filter (fun idx => (rowsOf conf idx).set) = installed conf := by
  -- the rows are those of the entries and row 0, which is empty
  have hrow : ∀ k ∈ List.range' 1 maxTypeRuleNum, (rowsOf conf k).set =
      decide (actQueue conf k ≠ [] ∧ wanRanges conf k ≠ []) := by
    intro k hk
    rw [rowsOf_apply, if_pos hk, entryVars_set, entryRanges, decide_eq_decide]
    split
    · next hnil => exact iff_of_false (fun h => h rfl) fun h => h.1 hnil
    · next hne => exact (and_iff_right hne).symm
  have hzero : (rowsOf conf 0).set = false := by
    rw [rowsOf_apply, if_neg (by decide)]
  have hsplit : List.range maxTypeRuleNum =
      0 :: (List.range' 1 maxTypeRuleNum).filter (· < maxTypeRuleNum) := by decide
  rw [hsplit, List.filter_cons_of_neg (by rw [hzero]; exact Bool.false_ne_true), installed,
    dueEntries, List.filter_filter, List.filter_filter]
  refine List.filter_congr fun k hk => ?_
  rw [hrow k hk, Bool.and_comm]

/-- **The calls of a run without an access out of bounds.** -/
theorem update_eq_ok : qosWanInterfaceUpdate size 1 conf = .ok rules ↔
    (∀ k ∈ dueEntries conf, ∀ r ∈ wanRanges conf k, RangeOk conf k r) ∧
      rules = (List.range maxTypeRuleNum).map Rule.reset ++
        (installed conf).map fun k => (entryVars conf k).rule size k := by
  have hloop : ∀ {rows}, (List.range' 1 maxTypeRuleNum).foldlM
      (fun rows idx => (collectEntry conf idx).map fun v => Function.update rows idx v)
      (fun _ => ⟨[], [], false, 0⟩) = .ok rows ↔
        (∀ k ∈ List.range' 1 maxTypeRuleNum, ∀ r ∈ entryRanges conf k, RangeOk conf k r) ∧
          rows = rowsOf conf := by
    intro rows
    refine foldlM_eq_ok_iff (fun rows k _ hok => ?_) fun rows k _ hno => ?_
    · rw [collectEntry_eq_ok.mpr ⟨hok, rfl⟩]
      rfl
    · cases hc : collectEntry conf k with
      | error e => exact ⟨e, rfl⟩
      | ok v => exact absurd (collectEntry_eq_ok.mp hc).1 hno
  have hall : (∀ k ∈ List.range' 1 maxTypeRuleNum, ∀ r ∈ entryRanges conf k, RangeOk conf k r) ↔
      ∀ k ∈ dueEntries conf, ∀ r ∈ wanRanges conf k, RangeOk conf k r := by
    constructor
    · intro h k hk r hr
      exact h k (List.mem_of_mem_filter hk) r (by rwa [entryRanges_of_due hk])
    · intro h k hk r hr
      have hdue : k ∈ dueEntries conf := by
        have hrange := List.mem_range'_1.mp hk
        exact mem_dueEntries.mpr ⟨by omega, List.ne_nil_of_mem hr⟩
      exact h k hdue r (by rwa [← entryRanges_of_due hdue])
  have hrules : (installed conf).map (fun k => (rowsOf conf k).rule size k) =
      (installed conf).map fun k => (entryVars conf k).rule size k :=
    List.map_congr_left fun k hk => by rw [rowsOf_due (List.mem_of_mem_filter hk)]
  rw [qosWanInterfaceUpdate, ← hall, ← hrules, ← filter_set]
  simp only [if_neg (by decide : ¬ (1 : Nat) = 0), bind, Except.bind]
  split
  · next e he =>
    refine iff_of_false (fun h => nomatch h) fun h => ?_
    have hok := hloop.mpr ⟨h.1, rfl⟩
    rw [he] at hok
    exact nomatch hok
  · next rows hrows =>
    obtain ⟨hok, rfl⟩ := hloop.mp hrows
    rw [Except.ok.injEq, and_iff_right hok]
    exact eq_comm

/-! ### The rule of an entry -/

theorem pbitMark_lt (conf : Conf) (path : Str) : pbitMark conf path < 16 := by
  rw [pbitMark]
  split
  · split
    · decide
    · split
      · decide
      · omega
  · decide

theorem dscpMark_lt (conf : Conf) (path : Str) : dscpMark conf path < 128 := by
  rw [dscpMark]
  split
  · refine Nat.or_lt_two_pow (n := 7) (by decide) ?_
    omega
  · decide

/-- The bits of the queue are above those of the marks. -/
theorem mask_shiftRight {x b c : Nat} (hb : b < 16) (hc : c < 128) :
    (x <<< 12 ||| b <<< 8 ||| c) >>> 12 = x := by
  have hb' : b <<< 8 >>> 12 = 0 := by
    rw [Nat.shiftLeft_eq, Nat.shiftRight_eq_div_pow]
    omega
  have hc' : c >>> 12 = 0 := by
    rw [Nat.shiftRight_eq_div_pow]
    omega
  rw [Nat.shiftRight_or_distrib, Nat.shiftRight_or_distrib, Nat.shiftLeft_shiftRight, hb', hc',
    Nat.or_zero, Nat.or_zero]

theorem mask_inj {x y b c : Nat} (hb : b < 16) (hc : c < 128) :
    x <<< 12 ||| b <<< 8 ||| c = y <<< 12 ||| b <<< 8 ||| c ↔ x = y := by
  refine ⟨fun h => ?_, fun h => by rw [h]⟩
  have hshift := congrArg (· >>> 12) h
  simp only [mask_shiftRight hb hc] at hshift
  exact hshift

/-- What is seen of a text is another one. -/
theorem take_eq_iff {n : Nat} {s t : Str} :
    s.take n = t ↔ (t = s ∧ t.length ≤ n) ∨ (t <+: s ∧ t.length = n) := by
  constructor
  · rintro rfl
    by_cases hlen : s.length ≤ n
    · rw [List.take_of_length_le hlen]
      exact .inl ⟨rfl, hlen⟩
    · exact .inr ⟨List.take_prefix n s, List.length_take_of_le (by omega)⟩
  · rintro (⟨rfl, hlen⟩ | ⟨⟨u, rfl⟩, rfl⟩)
    · exact List.take_of_length_le hlen
    · exact List.take_left

theorem snprintf_row (size : Nat) (s : Str) :
    snprintf size (s.take 31) = s.take (min 31 (size - 1)) := by
  rw [snprintf, List.take_take, Nat.min_comm]

theorem rule_eq_iff {index : Nat} (hk : k ∈ dueEntries conf) :
    (entryVars conf k).rule size k = dueRule conf k index ↔
      index = k ∧
      queueChain conf (wanRanges conf k).length (snprintf 64 (actQueue conf k)) =
        queueOf conf k ∧
      NamesShown size conf k := by
  rw [EntryVars.rule, dueRule, Rule.mk.injEq, entryVars_mark, entryVars_name,
    entryRanges_of_due hk, mask_inj (pbitMark_lt _ _) (dscpMark_lt _ _), snprintf_row,
    take_eq_iff, and_iff_right rfl, NamesShown]
  exact and_congr_left' eq_comm

/-- Rules are told from resets by their name. -/
theorem append_rules_inj {rs rs' : List Nat} {l l' : List Rule}
    (hl : ∀ x ∈ l, x.wanTypeName ≠ []) (hl' : ∀ x ∈ l', x.wanTypeName ≠ [])
    (h : rs.map Rule.reset ++ l = rs'.map Rule.reset ++ l') : l = l' := by
  have hreset : ∀ rs : List Nat, (rs.map Rule.reset).filter (·.wanTypeName ≠ []) = [] := by
    intro rs
    rw [List.filter_eq_nil_iff]
    intro x hx
    obtain ⟨i, -, rfl⟩ := List.mem_map.mp hx
    simp [Rule.reset]
  have hall : ∀ l : List Rule, (∀ x ∈ l, x.wanTypeName ≠ []) →
      l.filter (·.wanTypeName ≠ []) = l := fun l hl =>
    List.filter_eq_self.mpr fun x hx => decide_eq_true (hl x hx)
  have hfilter := congrArg (List.filter (·.wanTypeName ≠ [])) h
  rwa [List.filter_append, List.filter_append, hreset, hreset, hall l hl, hall l' hl'] at hfilter

end Entries

/-- **The rules are right exactly if every entry that is to have one meets the condition.** -/
theorem wanIf_right_iff (size : Nat) (conf : Conf) :
    WanIfRight size conf ↔ ∀ k ∈ dueEntries conf, WanIfCond size conf k := by
  constructor
  · rintro ⟨resets, index, hrun, -, -⟩
    obtain ⟨hok, hrules⟩ := update_eq_ok.mp hrun
    have hwan : "wan_if".toList ≠ [] := by decide
    have hsame := append_rules_inj (fun x hx => by
      obtain ⟨k, -, rfl⟩ := List.mem_map.mp hx
      exact hwan) (fun x hx => by
      obtain ⟨k, -, rfl⟩ := List.mem_map.mp hx
      exact hwan) hrules
    have hlen := congrArg List.length hsame
    rw [List.length_map, List.length_map, installed, eq_comm,
      List.length_filter_eq_length_iff] at hlen
    have hinst : installed conf = dueEntries conf := List.filter_eq_self.mpr hlen
    rw [hinst, List.map_inj_left] at hsame
    intro k hk
    have hrow : k < maxTypeRuleNum := of_decide_eq_true (hlen k hk)
    obtain ⟨-, hqueue, hnames⟩ := (rule_eq_iff hk).mp (hsame k hk).symm
    exact ⟨hrow, fun r hr => (hok k hk r hr).1, hqueue, hnames⟩
  · intro h
    have hinst : installed conf = dueEntries conf :=
      List.filter_eq_self.mpr fun k hk => decide_eq_true (h k hk).row
    refine ⟨List.range maxTypeRuleNum, id, update_eq_ok.mpr ⟨fun k hk r hr =>
      ⟨(h k hk).fits r hr, .inl (h k hk).row⟩, ?_⟩, fun k hk => List.mem_range.mpr (h k hk).row,
      fun j _ k _ he => he⟩
    rw [hinst]
    refine congrArg _ (List.map_congr_left fun k hk => ?_)
    exact ((rule_eq_iff hk).mpr ⟨rfl, (h k hk).queue, (h k hk).names⟩).symm

/-- A configuration from a list of attributes. -/
def attrConf (l : List (String × String × String)) : Conf := fun path name =>
  (l.find? fun a => a.1.toList = path ∧ a.2.1.toList = name).map (·.2.2.toList)

/-- A rule in entry 10 for an interface with a name. -/
def tenthConf : Conf := attrConf
  [("root.qos.entry.10", "ActQueue", "1"), ("root.qos.entry.10", "Type1", "WANInterface"),
    ("root.qos.entry.10", "Min1", "1,1"), ("root.qos.entry.10", "Max1", "1,1"),
    ("root.wan.pvc.1.entry.1", "NASName", "nas0_0")]

/-- A rule for queue 1 with two conditions; under queue 1 stands 2, and under queue 2 stands 4. -/
def twiceConf : Conf := attrConf
  [("root.qos.entry.1", "ActQueue", "1"), ("root.qos.entry.1", "Type1", "WANInterface"),
    ("root.qos.entry.1", "Min1", "1,1"), ("root.qos.entry.1", "Max1", "1,1"),
    ("root.qos.entry.1", "Type2", "WANInterface"), ("root.qos.entry.1", "Min2", "2,1"),
    ("root.qos.entry.1", "Max2", "2,1"), ("root.qos.common", "QueueP1", "2"),
    ("root.qos.common", "QueueP2", "4")]

/-- The name of entry 10 is written behind the rows. And with two conditions a rule gets the bits of
two queues. -/
theorem wanIf_wrong : (¬ WanIfRight 32 tenthConf) ∧ ¬ WanIfRight 32 twiceConf := by
  constructor
  · rintro ⟨resets, index, hrun, -⟩
    have herr : qosWanInterfaceUpdate 32 1 tenthConf = .error .overrun := by decide +kernel
    rw [herr] at hrun
    exact nomatch hrun
  · rintro ⟨resets, index, hrun, -⟩
    have hrules : qosWanInterfaceUpdate 32 1 twiceConf = .ok
        ((List.range maxTypeRuleNum).map Rule.reset ++ [⟨1, 6 <<< 12, "wan_if".toList, []⟩]) := by
      decide +kernel
    have hdue : (dueEntries twiceConf).map (fun k => dueRule twiceConf k (index k)) =
        [⟨index 1, 2 <<< 12, "wan_if".toList, []⟩] := by
      have hentries : dueEntries twiceConf = [1] := by decide +kernel
      have hrule : ∀ i, dueRule twiceConf 1 i = ⟨i, 2 <<< 12, "wan_if".toList, []⟩ := by
        have hzero : dueRule twiceConf 1 0 = ⟨0, 2 <<< 12, "wan_if".toList, []⟩ := by
          decide +kernel
        intro i
        exact congrArg (fun r : Rule => { r with index := i }) hzero
      rw [hentries, List.map_singleton, hrule]
    rw [hrules, hdue, Except.ok.injEq] at hrun
    have hsame := append_rules_inj (by decide) (by simp) hrun
    have hmask : ([6 <<< 12] : List Nat) = [2 <<< 12] := congrArg (List.map Rule.wanTypeMask) hsame
    exact absurd hmask (by decide)

end OnuFirmware.Qos
