import OnuFirmware.Cfg.ReadAttr
import OnuFirmware.Lib.Run
import Mathlib.Data.List.Nodup
import Mathlib.Logic.Function.Basic

/-!
# WLAN mapping entries and the guest chain (`cfg_type_wlanmapping.c`)

The first boot numbers the SSIDs of both radios without gaps: mapping entry `p + 1` holds the number
of the SSID at position `p`, and entry `i + 1` holds the position of SSID `i`. The chain
`WLan_INPUTAccess` is to drop what guests send to the device, for the entries with `AccessRule` 1.
It is rebuilt with the entries 0 to 7 instead of 1 to 8, and not if an entry stops being a guest.
-/

namespace OnuFirmware.Wlan

open Clib Cfg Lib

/-! ## The configuration -/

/-- `MAX_WLAN_MAPPING_COUNT`, by `TCSUPPORT_MULTI_USER_ITF`. -/
def maxMapping (multiUserItf : Bool) : Nat := if multiUserItf then 16 else 8

/-- `MAX_WLAN_2_4_COUNT`. -/
def maxWlan24 (multiUserItf : Bool) : Nat := if multiUserItf then 8 else 4

/-- The attributes of a mapping entry. -/
structure MappingEntry where
  entryidx : Option Str
  reverseidx : Option Str
  ssidAlias : Option Str
  accessRule : Option Str

/-- An entry without attributes. -/
def noEntry : MappingEntry := ⟨none, none, none, none⟩

/-- What a boot reads of a radio: `BssidNum`, and the `SSID` of entry `i + 1`. -/
structure Radio where
  bssidNum : Option Str
  ssid : Nat → Option Str

/-- The mapping, with entry `i + 1` in slot `i`; `LastIndex` of the radios; and the marks that
`WLan_INPUTAccess` drops. Each stands for two rules of `iptables` and two of `ip6tables`. -/
structure State where
  slot : Nat → MappingEntry
  lastIndex24 : Option Str
  lastIndex5 : Option Str
  inputAccess : List Word

/-- The entry with a number. There is none with number 0. -/
def State.entry (s : State) : Nat → MappingEntry
  | 0 => noEntry
  | n + 1 => s.slot n

/-- Attributes of a slot are changed. -/
def State.modify (s : State) (i : Nat) (f : MappingEntry → MappingEntry) : State :=
  { s with slot := Function.update s.slot i (f (s.slot i)) }

variable (b : Bool)

/-! ## The guest chain -/

/-- The mark of the packets of an SSID. -/
def guestMark (entryidx : Int) : Word :=
  BitVec.ofInt 32 (entryidx + (maxMapping b / 2 : Nat) + 1) <<< 27

/-- The number of the SSID of an entry. -/
def ssidOf (e : MappingEntry) : Option Int :=
  if attrText e.entryidx 10 [] = [] then none else some (atoi (attrText e.entryidx 10 []))

/-- The mark that `update_guest_ssid_rule` drops for an entry. -/
def guestEntry (e : MappingEntry) : Option Word :=
  if attrText e.accessRule 8 [] = "1".toList then (ssidOf e).map (guestMark b) else none

/-- `update_guest_ssid_rule`. -/
def updateGuestSsidRule (s : State) : State :=
  { s with inputAccess := (List.range (maxMapping b)).filterMap fun index =>
      guestEntry b (s.entry index) }

/-- `commit_one_node`, as far as it reaches the guest chain. -/
def commitOneNode (s : State) (eIdx : Nat) (guestflag : Bool) : State :=
  let e := s.entry eIdx
  if attrText e.entryidx 24 [] = [] then s
  else if attrText e.accessRule 32 [] = [] then s
  else if atoi (attrText e.accessRule 32 []) = 1 ∧ guestflag = true then updateGuestSsidRule b s
  else s

/-- `cfg_type_wlanmapping_func_commit` on an entry, or on the root of the mapping. -/
def wlanmappingFuncCommit (s : State) : Option Nat → State
  | some eIdx => commitOneNode b s eIdx true
  | none =>
    updateGuestSsidRule b
      ((List.range (maxMapping b)).foldl (fun s eIdx => commitOneNode b s (eIdx + 1) false) s)

/-! ## The boot -/

/-- `BssidNum` of a radio as the number of rounds. -/
def Radio.bssids (r : Radio) : Nat := (atoi (attrText r.bssidNum 16 [])).toNat

/-- The variables of the first boot. -/
structure MapVars where
  state : State
  mappingPos : Nat
  lastIndex : Nat

/-- The SSID with a number is mapped to the next position. -/
def mapSsid (band : Str) (number : Nat) (v : MapVars) : MapVars :=
  let s := v.state.modify v.mappingPos fun e =>
    { e with entryidx := some (fmtNat number),
             ssidAlias := some (snprintf 16 (band ++ fmtNat v.lastIndex)) }
  ⟨s.modify number fun e => { e with reverseidx := some (fmtNat v.mappingPos) },
    v.mappingPos + 1, v.lastIndex + 1⟩

/-- The loop over the SSIDs of a radio, whose numbers begin with `offset`. -/
def mapRadio (r : Radio) (band : Str) (offset : Nat) (v : MapVars) : MapVars :=
  (List.range r.bssids).foldl (fun v idx =>
    if attrText (r.ssid idx) 256 [] = [] then v else mapSsid band (offset + idx) v)
    { v with lastIndex := 1 }

/-- The SSIDs of the 2.4G radio are mapped. -/
def initMapping24 (r24 : Radio) (s : State) : MapVars :=
  let v := mapRadio r24 "2.4G-".toList 0 ⟨s, 0, 1⟩
  { v with state := { v.state with lastIndex24 := some (fmtNat v.lastIndex) } }

/-- The part of the boot for a configuration without a mapping. -/
def initMapping (r24 r5 : Radio) (s : State) : State :=
  let v := mapRadio r5 "5G-".toList (maxWlan24 b) (initMapping24 r24 s)
  { v.state with lastIndex5 := some (fmtNat v.lastIndex) }

/-- `svc_cfg_wlanmapping_boot`. -/
def wlanmappingBoot (r24 r5 : Radio) (s : State) : State :=
  let s := { s with inputAccess := [] }
  let s := (List.range (maxMapping b)).foldl (fun s idx => commitOneNode b s idx false) s
  let s := updateGuestSsidRule b s
  if attrText (s.entry 1).entryidx 24 [] = [] then initMapping b r24 r5 s else s

/-! ## Statement -/

/-- The SSID with a number is there. -/
def Present (r24 r5 : Radio) (i : Nat) : Prop :=
  (i < r24.bssids ∧ attrText (r24.ssid i) 256 [] ≠ []) ∨
    (maxWlan24 b ≤ i ∧ i - maxWlan24 b < r5.bssids ∧
      attrText (r5.ssid (i - maxWlan24 b)) 256 [] ≠ [])

/-- `entryidx` and `reverseidx` are inverse bijections between the positions below `n` and the
numbers of the SSIDs that are there. -/
structure Bijections (r24 r5 : Radio) (s : State) (n : Nat) : Prop where
  entryidx : ∀ p < n, ∃ i, Present b r24 r5 i ∧ (s.slot p).entryidx = some (fmtNat i) ∧
    (s.slot i).reverseidx = some (fmtNat p)
  reverseidx : ∀ i, Present b r24 r5 i → ∃ p < n, (s.slot i).reverseidx = some (fmtNat p) ∧
    (s.slot p).entryidx = some (fmtNat i)
  noEntryidx : ∀ p, n ≤ p → (s.slot p).entryidx = none
  noReverseidx : ∀ i, ¬ Present b r24 r5 i → (s.slot i).reverseidx = none

/-- No entry has an attribute of the mapping. -/
def Unmapped (s : State) : Prop :=
  ∀ i, (s.slot i).entryidx = none ∧ (s.slot i).reverseidx = none

/-- The entry has `AccessRule` 1. -/
def IsGuest (e : MappingEntry) : Prop := e.accessRule = some "1".toList

instance (e : MappingEntry) : Decidable (IsGuest e) := inferInstanceAs (Decidable (_ = _))

/-- The chain drops the marks of the SSIDs of the entries with `AccessRule` 1. -/
def ChainRight (s : State) : Prop :=
  ∀ m, m ∈ s.inputAccess ↔
    ∃ i < maxMapping b, IsGuest (s.slot i) ∧ ∃ ssid, ssidOf (s.slot i) = some ssid ∧
      m = guestMark b ssid

/-- The events of a run. A change sets `AccessRule` of entry `i + 1` and commits the entry. -/
inductive Event
  | boot
  | change (i : Nat) (rule : Str)
  | commitRoot
deriving Repr, DecidableEq

/-- `AccessRule` is set. -/
def State.setRule (s : State) (i : Nat) (rule : Str) : State :=
  s.modify i fun e => { e with accessRule := some rule }

/-- An event. -/
def mappingStep (r24 r5 : Radio) (s : State) : Event → State
  | .boot => wlanmappingBoot b r24 r5 s
  | .change i rule => wlanmappingFuncCommit b (s.setRule i rule) (some (i + 1))
  | .commitRoot => wlanmappingFuncCommit b s none

/-- The last entry is that of no guest. -/
def LastClear (s : State) : Prop :=
  (ssidOf (s.slot (maxMapping b - 1))).isSome = true → ¬ IsGuest (s.slot (maxMapping b - 1))

instance (s : State) : Decidable (LastClear b s) := inferInstanceAs (Decidable (_ → ¬ _))

/-- When an event is right: a rebuilt chain does not miss the last entry, and the chain is rebuilt
if the entry was that of a guest. -/
def MappingCond (s : State) : Event → Prop
  | .boot =>
      LastClear b s ∧ (ssidOf (s.slot 0) = none → ∀ i < maxMapping b, ¬ IsGuest (s.slot i))
  | .change i rule => (ssidOf (s.slot i)).isSome = true →
      if atoi (snprintf 32 rule) = 1 then LastClear b (s.setRule i rule) else ¬ IsGuest (s.slot i)
  | .commitRoot => LastClear b s

variable {b : Bool} {r24 r5 : Radio} {s : State}

/-! ## The numbering of the first boot -/

section Numbering

variable {l : List Nat} {v : MapVars} {band : Str} {i number offset : Nat} {r : Radio}

/-- The SSIDs of `l` are mapped, in this order. -/
structure Mapped (l : List Nat) (v : MapVars) : Prop where
  pos : v.mappingPos = l.length
  entryidx : ∀ p, (v.state.slot p).entryidx = l[p]?.map fmtNat
  reverseidx : ∀ i, (v.state.slot i).reverseidx = if i ∈ l then some (fmtNat (l.idxOf i)) else none

theorem entryidx_mapSsid (p : Nat) : ((mapSsid band number v).state.slot p).entryidx =
    if p = v.mappingPos then some (fmtNat number) else (v.state.slot p).entryidx := by
  simp only [mapSsid, State.modify, Function.update_apply]
  by_cases hp : p = number <;> by_cases hpos : p = v.mappingPos <;> simp_all

theorem reverseidx_mapSsid (i : Nat) : ((mapSsid band number v).state.slot i).reverseidx =
    if i = number then some (fmtNat v.mappingPos) else (v.state.slot i).reverseidx := by
  simp only [mapSsid, State.modify, Function.update_apply]
  by_cases hi : i = number <;> by_cases hpos : i = v.mappingPos <;> simp_all

/-- One more SSID is mapped. -/
theorem Mapped.concat (h : Mapped l v) (hnew : number ∉ l) :
    Mapped (l ++ [number]) (mapSsid band number v) where
  pos := by
    rw [List.length_append, List.length_singleton, ← h.pos]
    rfl
  entryidx p := by
    rw [entryidx_mapSsid, h.pos, h.entryidx]
    split
    · next hp => rw [hp, List.getElem?_append_right le_rfl, Nat.sub_self]; rfl
    · next hp =>
      rw [List.getElem?_append]
      split
      · rfl
      · next hlt =>
        rw [List.getElem?_eq_none (Nat.not_lt.mp hlt), List.getElem?_eq_none]
        rw [List.length_singleton]
        omega
  reverseidx i := by
    rw [reverseidx_mapSsid, h.reverseidx, h.pos]
    by_cases hi : i = number
    · subst hi
      rw [if_pos rfl, if_pos (by simp), List.idxOf_append_of_notMem hnew]
      simp
    · rw [if_neg hi]
      by_cases hmem : i ∈ l
      · rw [if_pos hmem, if_pos (List.mem_append_left _ hmem), List.idxOf_append_of_mem hmem]
      · rw [if_neg hmem, if_neg (by simp [hmem, hi])]

theorem Mapped.foldl {idxs : List Nat} (hnodup : idxs.Nodup) (h : Mapped l v)
    (hnew : ∀ idx ∈ idxs, offset + idx ∉ l) :
    Mapped (l ++ (idxs.filter fun idx => attrText (r.ssid idx) 256 [] ≠ []).map (offset + ·))
      (idxs.foldl (fun v idx =>
        if attrText (r.ssid idx) 256 [] = [] then v else mapSsid band (offset + idx) v) v) := by
  induction idxs generalizing l v with
  | nil => rwa [List.filter_nil, List.map_nil, List.append_nil]
  | cons idx idxs ih =>
    obtain ⟨hidx, hnodup⟩ := List.nodup_cons.mp hnodup
    obtain ⟨hnew, hrest⟩ := List.forall_mem_cons.mp hnew
    rw [List.foldl_cons]
    by_cases hssid : attrText (r.ssid idx) 256 [] = []
    · rw [if_pos hssid, List.filter_cons_of_neg (by simpa using hssid)]
      exact ih hnodup h hrest
    · rw [if_neg hssid, List.filter_cons_of_pos (by simpa using hssid), List.map_cons,
        ← List.singleton_append, ← List.append_assoc]
      refine ih hnodup (h.concat hnew) fun j hj => ?_
      rw [List.mem_append, List.mem_singleton]
      rintro (hl | hl)
      · exact hrest j hj hl
      · exact hidx (Nat.add_left_cancel hl ▸ hj)

/-- The SSIDs of a radio, by their numbers. -/
def Radio.numbers (r : Radio) (offset : Nat) : List Nat :=
  ((List.range r.bssids).filter fun idx => attrText (r.ssid idx) 256 [] ≠ []).map (offset + ·)

/-- The SSIDs of a radio are mapped. -/
theorem Mapped.radio (h : Mapped l v) (hnew : ∀ idx, offset + idx ∉ l) :
    Mapped (l ++ r.numbers offset) (mapRadio r band offset v) :=
  Mapped.foldl List.nodup_range ⟨h.pos, h.entryidx, h.reverseidx⟩ fun idx _ => hnew idx

theorem mem_numbers : i ∈ r.numbers offset ↔
    offset ≤ i ∧ i - offset < r.bssids ∧ attrText (r.ssid (i - offset)) 256 [] ≠ [] := by
  simp only [Radio.numbers, List.mem_map, List.mem_filter, List.mem_range, decide_eq_true_eq]
  constructor
  · rintro ⟨idx, hidx, rfl⟩
    rw [Nat.add_sub_cancel_left]
    exact ⟨Nat.le_add_right _ _, hidx⟩
  · rintro ⟨hle, hi⟩
    exact ⟨i - offset, hi, Nat.add_sub_cancel' hle⟩

theorem nodup_numbers : (r.numbers offset).Nodup :=
  (List.nodup_range.filter _).map fun _ _ h => Nat.add_left_cancel h

/-- The first boot maps the SSIDs of both radios. -/
theorem mapped_init (hs : Unmapped s) (hle : r24.bssids ≤ maxWlan24 b) :
    ∃ v, Mapped (r24.numbers 0 ++ r5.numbers (maxWlan24 b)) v ∧
      (initMapping b r24 r5 s).slot = v.state.slot := by
  have hnil : Mapped [] ⟨s, 0, 1⟩ := ⟨rfl, fun p => (hs p).1, fun i => (hs i).2⟩
  have h24 : Mapped (r24.numbers 0) (mapRadio r24 "2.4G-".toList 0 ⟨s, 0, 1⟩) := by
    have h : Mapped ([] ++ r24.numbers 0) (mapRadio r24 "2.4G-".toList 0 ⟨s, 0, 1⟩) :=
      hnil.radio fun _ => List.not_mem_nil
    rwa [List.nil_append] at h
  have hinit : Mapped (r24.numbers 0) (initMapping24 r24 s) :=
    ⟨h24.pos, h24.entryidx, h24.reverseidx⟩
  refine ⟨mapRadio r5 "5G-".toList (maxWlan24 b) (initMapping24 r24 s),
    hinit.radio fun idx hidx => ?_, rfl⟩
  have hmem := mem_numbers.mp hidx
  omega

theorem mem_numbers_iff : i ∈ r24.numbers 0 ++ r5.numbers (maxWlan24 b) ↔ Present b r24 r5 i := by
  rw [List.mem_append, mem_numbers, mem_numbers, Present, Nat.sub_zero]
  simp

theorem bijections_of_mapped (hle : r24.bssids ≤ maxWlan24 b)
    (h : Mapped (r24.numbers 0 ++ r5.numbers (maxWlan24 b)) v) (hslot : s.slot = v.state.slot) :
    Bijections b r24 r5 s (r24.numbers 0 ++ r5.numbers (maxWlan24 b)).length := by
  have hnodup : (r24.numbers 0 ++ r5.numbers (maxWlan24 b)).Nodup := by
    refine List.nodup_append.mpr ⟨nodup_numbers, nodup_numbers, fun i hi j hj he => ?_⟩
    have hi := mem_numbers.mp hi
    have hj := mem_numbers.mp hj
    omega
  constructor
  · intro p hp
    refine ⟨_, mem_numbers_iff.mp (List.getElem_mem hp), ?_, ?_⟩
    · rw [hslot, h.entryidx, List.getElem?_eq_getElem hp]
      rfl
    · rw [hslot, h.reverseidx, if_pos (List.getElem_mem hp), hnodup.idxOf_getElem]
  · intro i hi
    have hmem := mem_numbers_iff.mpr hi
    have hlt := List.idxOf_lt_length_iff.mpr hmem
    refine ⟨_, hlt, ?_, ?_⟩
    · rw [hslot, h.reverseidx, if_pos hmem]
    · rw [hslot, h.entryidx, List.getElem?_eq_getElem hlt, List.getElem_idxOf]
      rfl
  · intro p hp
    rw [hslot, h.entryidx, List.getElem?_eq_none hp]
    rfl
  · intro i hi
    rw [hslot, h.reverseidx, if_neg fun hmem => hi (mem_numbers_iff.mp hmem)]

end Numbering

/-! ## The chain -/

section Chain

variable {e : MappingEntry} {i : Nat} {rule : Str} {m : Word}

theorem guestEntry_iff : guestEntry b e = some m ↔
    IsGuest e ∧ ∃ ssid, ssidOf e = some ssid ∧ m = guestMark b ssid := by
  have hrule : attrText e.accessRule 8 [] = "1".toList ↔ IsGuest e :=
    attrText_nil_eq_iff (by decide) (by decide)
  rw [guestEntry]
  by_cases h : IsGuest e
  · rw [if_pos (hrule.mpr h), Option.map_eq_some_iff, and_iff_right h]
    simp only [eq_comm]
  · rw [if_neg (mt hrule.mp h)]
    simp [h]

theorem attrText_entryidx_nil {size : Nat} (hsize : 1 < size) :
    attrText e.entryidx size [] = [] ↔ ssidOf e = none := by
  have hten : attrText e.entryidx size [] = [] ↔ attrText e.entryidx 10 [] = [] := by
    cases e.entryidx with
    | none => exact Iff.rfl
    | some t =>
      rw [attrText, attrText, Option.map_some, Option.map_some, Option.getD_some, Option.getD_some,
        snprintf, snprintf, List.take_eq_nil_iff, List.take_eq_nil_iff]
      exact or_congr_left (by omega)
  rw [hten, ssidOf]
  split
  · next h => exact iff_of_true h rfl
  · next h => exact iff_of_false h (Option.some_ne_none _)

theorem commitOneNode_false (eIdx : Nat) : commitOneNode b s eIdx false = s := by
  rw [commitOneNode]
  simp

theorem foldl_commit (l : List Nat) (f : Nat → Nat) :
    l.foldl (fun s idx => commitOneNode b s (f idx) false) s = s := by
  induction l generalizing s with
  | nil => rfl
  | cons idx l ih => rw [List.foldl_cons, commitOneNode_false, ih]

/-- **A rebuilt chain is right if the last entry is that of no guest.** -/
theorem chainRight_update (h : LastClear b s) : ChainRight b (updateGuestSsidRule b s) := by
  intro m
  simp only [updateGuestSsidRule, List.mem_filterMap, List.mem_range]
  constructor
  · rintro ⟨index, hlt, hm⟩
    cases index with
    | zero =>
      obtain ⟨-, ssid, hssid, -⟩ := guestEntry_iff.mp hm
      exact absurd hssid.symm (Option.some_ne_none ssid)
    | succ i => exact ⟨i, by omega, guestEntry_iff.mp hm⟩
  · rintro ⟨i, hlt, hguest, ssid, hssid, hm⟩
    have hlast : i ≠ maxMapping b - 1 := fun hi =>
      h (by rw [← hi, hssid]; rfl) (hi ▸ hguest)
    exact ⟨i + 1, by omega, guestEntry_iff.mpr ⟨hguest, ssid, hssid, hm⟩⟩

theorem slot_setRule (j : Nat) : (s.setRule i rule).slot j =
    if j = i then { s.slot i with accessRule := some rule } else s.slot j :=
  Function.update_apply _ _ _ _

theorem ssidOf_setRule (j : Nat) : ssidOf ((s.setRule i rule).slot j) = ssidOf (s.slot j) := by
  rw [slot_setRule]
  split
  · next h => rw [h]; rfl
  · rfl

/-- A chain that is not rebuilt stays right if the entry is that of no guest before and after, or
has no SSID. -/
theorem chainRight_setRule (hs : ChainRight b s)
    (h : ssidOf (s.slot i) = none ∨ (¬ IsGuest (s.slot i) ∧ rule ≠ "1".toList)) :
    ChainRight b (s.setRule i rule) := by
  have hsame : ∀ j, (ssidOf (s.slot j)).isSome = true →
      (IsGuest ((s.setRule i rule).slot j) ↔ IsGuest (s.slot j)) := fun j hj => by
    rw [slot_setRule]
    split
    · next hji =>
      subst hji
      have hssid : ssidOf (s.slot j) ≠ none := Option.isSome_iff_ne_none.mp hj
      obtain ⟨hold, hnew⟩ := h.resolve_left hssid
      exact iff_of_false (fun hg => hnew (Option.some.inj hg)) hold
    · exact Iff.rfl
  intro m
  refine (hs m).trans (exists_congr fun j => and_congr_right fun _ => ?_)
  rw [ssidOf_setRule]
  constructor
  · rintro ⟨hguest, ssid, hssid, hm⟩
    exact ⟨(hsame j (by rw [hssid]; rfl)).mpr hguest, ssid, hssid, hm⟩
  · rintro ⟨hguest, ssid, hssid, hm⟩
    exact ⟨(hsame j (by rw [hssid]; rfl)).mp hguest, ssid, hssid, hm⟩

theorem accessRule_mapRadio {r : Radio} {band : Str} {offset : Nat} {v : MapVars} (i : Nat) :
    ((mapRadio r band offset v).state.slot i).accessRule = (v.state.slot i).accessRule ∧
      (mapRadio r band offset v).state.inputAccess = v.state.inputAccess := by
  have hfold : ∀ (l : List Nat) (v : MapVars),
      ((l.foldl (fun v idx => if attrText (r.ssid idx) 256 [] = [] then v
          else mapSsid band (offset + idx) v) v).state.slot i).accessRule =
        (v.state.slot i).accessRule ∧
      (l.foldl (fun v idx => if attrText (r.ssid idx) 256 [] = [] then v
          else mapSsid band (offset + idx) v) v).state.inputAccess = v.state.inputAccess :=
    fun l => by
      induction l with
      | nil => exact fun v => ⟨rfl, rfl⟩
      | cons idx l ih =>
        intro v
        rw [List.foldl_cons]
        split
        · exact ih v
        · refine ⟨(ih _).1.trans ?_, (ih _).2.trans rfl⟩
          simp only [mapSsid, State.modify, Function.update_apply]
          by_cases h : i = offset + idx <;> by_cases h' : i = v.mappingPos <;> simp_all
  exact hfold _ _

theorem accessRule_init (i : Nat) :
    ((initMapping b r24 r5 s).slot i).accessRule = (s.slot i).accessRule ∧
      (initMapping b r24 r5 s).inputAccess = s.inputAccess := by
  have h24 := @accessRule_mapRadio r24 "2.4G-".toList 0 ⟨s, 0, 1⟩ i
  have h5 := @accessRule_mapRadio r5 "5G-".toList (maxWlan24 b) (initMapping24 r24 s) i
  exact ⟨h5.1.trans h24.1, h5.2.trans h24.2⟩

theorem boot_eq : wlanmappingBoot b r24 r5 s =
    if ssidOf (s.slot 0) = none then
      initMapping b r24 r5 (updateGuestSsidRule b { s with inputAccess := [] })
    else updateGuestSsidRule b { s with inputAccess := [] } := by
  simp only [wlanmappingBoot, foldl_commit _ fun idx => idx]
  exact if_congr (attrText_entryidx_nil (by decide)) rfl rfl

/-- **A boot leaves the chain right.** -/
theorem chainRight_boot (h : MappingCond b s .boot) :
    ChainRight b (wlanmappingBoot b r24 r5 s) := by
  have hlast : LastClear b { s with inputAccess := [] } := h.1
  have hupdate := chainRight_update hlast
  rw [boot_eq]
  split
  · next hnone =>
    -- no entry is that of a guest, before and after the numbering
    intro m
    rw [(accessRule_init 0).2, hupdate m]
    have hguest := h.2 hnone
    refine iff_of_false (fun ⟨i, hi, hg, _⟩ => hguest i hi hg) fun ⟨i, hi, hg, _⟩ => ?_
    rw [IsGuest, (accessRule_init i).1] at hg
    exact hguest i hi hg
  · exact hupdate

/-- What a change and the commit of the entry do. -/
theorem change_eq : mappingStep b r24 r5 s (.change i rule) =
    if (ssidOf (s.slot i)).isSome = true ∧ atoi (snprintf 32 rule) = 1 then
      updateGuestSsidRule b (s.setRule i rule)
    else s.setRule i rule := by
  have hslot : ((s.setRule i rule).slot i) = { s.slot i with accessRule := some rule } := by
    rw [slot_setRule, if_pos rfl]
  have hentry : (s.setRule i rule).entry (i + 1) = { s.slot i with accessRule := some rule } :=
    hslot
  rw [mappingStep, wlanmappingFuncCommit, commitOneNode, hentry]
  have hidx := @attrText_entryidx_nil (s.slot i) 24 (by decide)
  have htext : attrText (some rule) 32 [] = snprintf 32 rule := rfl
  simp only [htext, and_true]
  by_cases hnone : ssidOf (s.slot i) = none
  · rw [if_pos (hidx.mpr hnone), if_neg fun h => by rw [hnone] at h; exact absurd h.1 (by decide)]
  · rw [if_neg (mt hidx.mp hnone)]
    have hsome := Option.isSome_iff_ne_none.mpr hnone
    by_cases hone : atoi (snprintf 32 rule) = 1
    · have hne : snprintf 32 rule ≠ [] := fun hnil => by
        rw [hnil] at hone
        exact absurd hone (by decide)
      rw [if_neg hne, if_pos hone, if_pos ⟨hsome, hone⟩]
    · have hnot : ¬ ((ssidOf (s.slot i)).isSome = true ∧ atoi (snprintf 32 rule) = 1) :=
        fun h => hone h.2
      rw [if_neg hone, ite_self, if_neg hnot]

/-- **An event that meets the condition leaves the chain right.** -/
theorem chainRight_step {e : Event} (hs : ChainRight b s) (h : MappingCond b s e) :
    ChainRight b (mappingStep b r24 r5 s e) := by
  cases e with
  | boot => exact chainRight_boot h
  | change i rule =>
    rw [change_eq]
    split
    · next hone =>
      have hlast := h hone.1
      rw [if_pos hone.2] at hlast
      exact chainRight_update hlast
    · next hnot =>
      refine chainRight_setRule hs ?_
      by_cases hnone : ssidOf (s.slot i) = none
      · exact .inl hnone
      · have hsome := Option.isSome_iff_ne_none.mpr hnone
        have hone : atoi (snprintf 32 rule) ≠ 1 := fun hone => hnot ⟨hsome, hone⟩
        have hold := h hsome
        rw [if_neg hone] at hold
        exact .inr ⟨hold, fun hrule => hone (hrule ▸ by decide)⟩
  | commitRoot =>
    rw [mappingStep, wlanmappingFuncCommit, foldl_commit _ fun idx => idx + 1]
    exact chainRight_update h

end Chain

/-- **The first boot numbers the SSIDs, and in a run of events that meet the condition the chain is
right after every event.** -/
theorem mapping_right (b : Bool) (r24 r5 : Radio) :
    (∀ s, Unmapped s → r24.bssids ≤ maxWlan24 b → r5.bssids ≤ maxWlan24 b →
      ∃ n, Bijections b r24 r5 (wlanmappingBoot b r24 r5 s) n) ∧
    ∀ (s : State) (es : List Event),
      RunOk (mappingStep b r24 r5) (MappingCond b) s (.boot :: es) → ∀ pre, pre <+: es →
        ChainRight b (pre.foldl (mappingStep b r24 r5) (wlanmappingBoot b r24 r5 s)) := by
  constructor
  · intro s hs hle _
    have hnone : ssidOf (s.slot 0) = none := by
      rw [ssidOf, (hs 0).1]
      rfl
    obtain ⟨v, hv, hslot⟩ := @mapped_init b r24 r5
      (updateGuestSsidRule b { s with inputAccess := [] }) hs hle
    rw [boot_eq, if_pos hnone]
    exact ⟨_, bijections_of_mapped hle hv hslot⟩
  · intro s es h pre hpre
    exact RunOk.inv_prefix (fun _ _ => chainRight_step) h.2 (chainRight_boot h.1) hpre

/-- Two radios with two and one SSIDs; the second one of 2.4G has no name. -/
def someRadios : Radio × Radio :=
  (⟨some "2".toList, fun i => if i = 0 then some "home".toList else none⟩,
    ⟨some "1".toList, fun _ => some "home5".toList⟩)

/-- A configuration without a mapping. -/
def unmapped : State := ⟨fun _ => noEntry, none, none, []⟩

/-- A run: the first boot, a guest, a boot. -/
theorem mapping_right_guest :
    (∃ n, Bijections false someRadios.1 someRadios.2
      (wlanmappingBoot false someRadios.1 someRadios.2 unmapped) n) ∧
    ChainRight false ([Event.change 1 "1".toList, .boot].foldl
      (mappingStep false someRadios.1 someRadios.2)
      (wlanmappingBoot false someRadios.1 someRadios.2 unmapped)) := by
  have h := mapping_right false someRadios.1 someRadios.2
  refine ⟨h.1 unmapped (fun _ => ⟨rfl, rfl⟩) (by decide) (by decide), ?_⟩
  refine h.2 unmapped [.change 1 "1".toList, .boot] ⟨⟨by decide, fun _ _ _ hg => ?_⟩,
    fun _ => by decide, ⟨by decide, fun hnone => absurd hnone (by decide)⟩, trivial⟩ _
    List.prefix_rfl
  exact Option.some_ne_none _ hg.symm

/-- A mapping of eight entries; one of them is that of a guest. -/
def guestEntryState (guest : Nat) : State where
  slot i := ⟨some (fmtNat i), some (fmtNat i), none, if i = guest then some "1".toList else none⟩
  lastIndex24 := none
  lastIndex5 := none
  inputAccess := []

/-- Entry 8 is missed by a boot. And the mark of entry 1 stays in the chain if its `AccessRule` is
changed to 0. -/
theorem mapping_guest_wrong :
    ¬ ChainRight false (wlanmappingBoot false someRadios.1 someRadios.2 (guestEntryState 7)) ∧
    ¬ ChainRight false (mappingStep false someRadios.1 someRadios.2
      (wlanmappingBoot false someRadios.1 someRadios.2 (guestEntryState 0))
      (.change 0 "0".toList)) := by
  constructor
  · intro h
    have hmem := (h (guestMark false 7)).mpr ⟨7, by decide, by decide, 7, by decide, rfl⟩
    exact absurd hmem (by decide)
  · intro h
    obtain ⟨i, hi, hguest, -⟩ := (h (guestMark false 0)).mp (by decide)
    have hnone : ∀ i < maxMapping false, ¬ IsGuest ((mappingStep false someRadios.1 someRadios.2
        (wlanmappingBoot false someRadios.1 someRadios.2 (guestEntryState 0))
        (.change 0 "0".toList)).slot i) := by decide
    exact hnone i hi hguest

end OnuFirmware.Wlan
