import OnuFirmware.Tr181.Table

/-!
# The keys of an interface table

What a run of creations, clearings and rebindings keeps: no index is held twice, and `Num` is the
number of entries. It is kept unless a creation uses an unbound entry again, or the WAN of index 0
is cleared while there is an unbound entry.
-/

namespace OnuFirmware.Tr181

open Clib Cfg Lib

/-! ## Statement -/

/-- The index that the text of an attribute names. -/
def indexKey (name : Str) (a : Attrs) : Option Int :=
  match a name with
  | none => none
  | some t => if t = [] ∨ atoi t < 0 then none else some (atoi t)

/-- The index of the WAN that the entry belongs to. -/
def wanKey : Attrs → Option Int := indexKey pvcIndexAttr

/-- The index of the LAN interface that the entry belongs to. -/
def lanKey : Attrs → Option Int := indexKey lanIndexAttr

/-- The entry has an empty `pvcIndex`. -/
def unbound (slot : Option Attrs) : Bool := readAttr slot pvcIndexAttr == some []

/-- The calls of a run. -/
inductive TableOp
  | create (interface : Tr181Interface)
  | clear (wanIf : Int)
  | setWanIf (oldWanIf newWanIf : Int)
deriving Repr, DecidableEq

variable (wlanStart : Int) (t : Table)

/-- A call. -/
def tableStep : TableOp → Table
  | .create interface => (createTR181InterfaceEntry wlanStart t interface).1
  | .clear wanIf => clearTR181InterfaceNodeByWanIf t wanIf
  | .setWanIf oldWanIf newWanIf => setTR181NodeWanIf t 0 oldWanIf newWanIf

/-- Slot `i` has the index of the interface. -/
def HoldsIndex (slots : List (Option Attrs)) (f : Tr181Interface) (i : Nat) : Prop :=
  if 0 ≤ f.pvcIndex then Holds wanKey slots f.pvcIndex i else Holds lanKey slots f.lanIndex i

/-- The entry has an index that is not the one of the interface. -/
def OtherIndex (f : Tr181Interface) (a : Attrs) : Prop :=
  (∃ k, wanKey a = some k ∧ k ≠ f.pvcIndex) ∨ ∃ k, lanKey a = some k ∧ k ≠ f.lanIndex

/-- The interface is one of a WAN or a LAN interface. -/
def OneIndex (f : Tr181Interface) : Prop :=
  IsInt f.pvcIndex ∧ IsInt f.lanIndex ∧
    ((0 ≤ f.pvcIndex ∧ f.lanIndex < 0) ∨ (0 ≤ f.lanIndex ∧ f.pvcIndex < 0))

/-- The calls of interest: an interface with one index, below 100; a WAN index; a rebinding to no
WAN or to one that no entry has. -/
def Legal : TableOp → Prop
  | .create f => OneIndex f ∧ f.pvcIndex < 100 ∧ f.lanIndex < 100
  | .clear wanIf => 0 ≤ wanIf
  | .setWanIf _ newWanIf =>
      newWanIf = -1 ∨ (0 ≤ newWanIf ∧ ∀ j, ¬ Holds wanKey t.slots newWanIf j)

/-- **What a call is to do.** -/
structure StepRight (op : TableOp) : Prop where
  wan : UniqueKeys wanKey (tableStep wlanStart t op).slots
  lan : UniqueKeys lanKey (tableStep wlanStart t op).slots
  num : atoi (tableStep wlanStart t op).num = entries (tableStep wlanStart t op).slots
  created : ∀ f, op = .create f → (createTR181InterfaceEntry wlanStart t f).2 ≠ -1 →
    (∃ i : Nat, (createTR181InterfaceEntry wlanStart t f).2 = i ∧
      HoldsIndex (createTR181InterfaceEntry wlanStart t f).1.slots f i) ∧
    ∀ (j : Nat) (a : Attrs), t.slots[j]? = some (some a) → OtherIndex f a →
      (createTR181InterfaceEntry wlanStart t f).1.slots[j]? = some (some a)
  cleared : ∀ w, op = .clear w → ∀ (j : Nat) (s : Option Attrs), t.slots[j]? = some s →
    (Holds wanKey t.slots w j → (clearTR181InterfaceNodeByWanIf t w).slots[j]? = some none) ∧
      (¬ Holds wanKey t.slots w j → (clearTR181InterfaceNodeByWanIf t w).slots[j]? = some s)

/-- The slot counts as empty: a new WAN can use an unbound entry again. -/
def emptyFor (f : Tr181Interface) (s : Option Attrs) : Bool :=
  s.isNone || (decide (0 ≤ f.pvcIndex) && unbound s)

/-- The calls that are right: a new interface gets a free slot, not an unbound entry, and `Num` has
three digits; the WAN of index 0 is cleared when no entry is unbound; a WAN index has seven
digits. -/
def Kept : TableOp → Prop
  | .create f => (∃ j, HoldsIndex t.slots f j) ∨
      ∀ i, t.slots.findIdx? (emptyFor f) = some i →
        t.slots[i]? = some none ∧ entries t.slots < 999
  | .clear wanIf => wanIf = 0 → ∀ s ∈ t.slots, unbound s = false
  | .setWanIf _ newWanIf => newWanIf < 10000000

variable {wlanStart t}

/-! ## Entries -/

/-- The text of the attribute is a number that `int` has. -/
def IndexText (a : Attrs) (name : Str) (k : Int) : Prop := IsInt k ∧ a name = some (fmtInt k)

/-- An entry of a WAN, perhaps unbound. -/
def WanEntry (a : Attrs) : Prop :=
  (∃ l, l < 0 ∧ IndexText a lanIndexAttr l) ∧
    (a pvcIndexAttr = some [] ∨ ∃ p, 0 ≤ p ∧ IndexText a pvcIndexAttr p)

/-- An entry of a LAN interface. -/
def LanEntry (a : Attrs) : Prop :=
  (∃ l, 0 ≤ l ∧ IndexText a lanIndexAttr l) ∧ ∃ q, q < 0 ∧ IndexText a pvcIndexAttr q

/-- What a slot can hold. -/
def Regular (slot : Option Attrs) : Prop := ∀ a, slot = some a → WanEntry a ∨ LanEntry a

/-- What every call keeps. -/
structure Inv (t : Table) : Prop where
  node : t.nodeName ∉ wifiNodes
  regular : ∀ s ∈ t.slots, Regular s
  wan : UniqueKeys wanKey t.slots
  lan : UniqueKeys lanKey t.slots
  short : ∀ k j, Holds wanKey t.slots k j → k < 10000000
  num : t.num = fmtNat (entries t.slots)
  bound : entries t.slots < 1000

section Texts

variable {a : Attrs} {name : Str} {k : Int}

theorem indexKey_nil (h : a name = some []) : indexKey name a = none := by
  rw [indexKey, h]
  rfl

theorem IndexText.key (h : IndexText a name k) :
    indexKey name a = if k < 0 then none else some k := by
  rw [indexKey, h.2]
  simp only [atoi_fmtInt h.1, fmtInt_ne_nil, false_or]

theorem IndexText.key_nonneg (h : IndexText a name k) (hk : 0 ≤ k) : indexKey name a = some k := by
  rw [h.key, if_neg (Int.not_lt.mpr hk)]

theorem IndexText.key_neg (h : IndexText a name k) (hk : k < 0) : indexKey name a = none := by
  rw [h.key, if_pos hk]

/-- The key is an index exactly if the number is that index. -/
theorem IndexText.key_eq_iff (h : IndexText a name k) {n : Int} (hn : 0 ≤ n) :
    indexKey name a = some n ↔ k = n := by
  rw [h.key]
  split
  · next hneg =>
    refine iff_of_false (Option.some_ne_none n).symm ?_
    omega
  · exact Option.some_inj

theorem snprintf_fmtInt {size : Nat} (h : IsInt k) (hsize : 11 < size) :
    snprintf size (fmtInt k) = fmtInt k := by
  have hlen := length_fmtInt_le h
  exact snprintf_eq (by omega)

theorem IndexText.read (h : IndexText a name k) (buf : Str) :
    (cfgGetObjectAttr (a name) buf 20).2 = fmtInt k := by
  rw [h.2, cfgGetObjectAttr_some, snprintf_fmtInt h.1 (by decide)]

theorem read_not_neg {v : Str} (h : a name = some v) (buf : Str) (size : Nat) :
    ¬ (cfgGetObjectAttr (a name) buf size).1 < 0 := by
  rw [h, cfgGetObjectAttr_some]
  omega

/-- A number without a sign that is read into four bytes is not `-1`. -/
theorem snprintf_fmtInt_ne (hk : 0 ≤ k) :
    snprintf 4 (fmtInt k) ≠ "-1".toList ∧ snprintf 4 (fmtInt k) ≠ [] := by
  obtain ⟨p, rfl⟩ := Int.eq_ofNat_of_zero_le hk
  obtain ⟨c, s, hcs, hc⟩ := fmtNat_cons p
  rw [fmtInt_natCast, hcs, snprintf, List.take_succ_cons]
  refine ⟨fun he => ?_, List.cons_ne_nil _ _⟩
  obtain ⟨rfl, -⟩ := List.cons.inj he
  exact absurd hc (by decide)

end Texts

/-! ## The search -/

/-- The slot has the index that is looked for. -/
def heldBy (f : Tr181Interface) (s : Option Attrs) : Bool :=
  if 0 ≤ f.pvcIndex then s.bind wanKey == some f.pvcIndex else s.bind lanKey == some f.lanIndex

/-- The flag of the search is never set: no entry has both indexes `-1`. -/
theorem flag_read {a : Attrs} (ha : WanEntry a ∨ LanEntry a) (v : ScanVars) :
    (v.read (some a)).flag = false := by
  rcases ha with ⟨-, hp⟩ | ⟨⟨l, hl, ht⟩, -⟩
  · have hne : (cfgGetObjectAttr (a pvcIndexAttr) v.pvcindex 4).2 ≠ "-1".toList := by
      rcases hp with hp | ⟨p, hp, ht⟩
      · rw [hp]
        exact (List.cons_ne_nil _ _).symm
      · rw [ht.2]
        exact (snprintf_fmtInt_ne hp).1
    rw [ScanVars.flag, Bool.and_eq_false_iff]
    by_cases hlan : noLan (cfgGetObjectAttr (a lanIndexAttr) v.lanindex 4).2 = true
    · right
      simp only [ScanVars.read, readAttr, Option.bind_some, hlan, if_true]
      exact beq_eq_false_iff_ne.mpr hne
    · exact .inl (Bool.not_eq_true _ ▸ hlan)
  · rw [ScanVars.flag, ScanVars.read]
    simp only [readAttr, Option.bind_some, ht.2, cfgGetObjectAttr_some, noLan,
      beq_eq_false_iff_ne.mpr (snprintf_fmtInt_ne hl).1,
      beq_eq_false_iff_ne.mpr (snprintf_fmtInt_ne hl).2, Bool.or_false, Bool.false_and]

theorem unbound_indexText {a : Attrs} {k : Int} (h : IndexText a pvcIndexAttr k) :
    unbound (some a) = false := by
  rw [unbound, readAttr, Option.bind_some, h.2]
  exact beq_eq_false_iff_ne.mpr fun he => fmtInt_ne_nil k (Option.some.inj he)

/-- What the two halves of a round find at an attribute that has a number. -/
theorem scan_indexText {a : Attrs} {name : Str} {k n : Int} (h : IndexText a name k) (hn : 0 ≤ n)
    (x y z : ScanVars × Bool) :
    (if (cfgGetObjectAttr (a name) [] 20).1 < 0 ∨ (cfgGetObjectAttr (a name) [] 20).2 = [] then x
      else if atoi (cfgGetObjectAttr (a name) [] 20).2 = n then y else z) =
      if indexKey name a == some n then y else z := by
  rw [if_neg (not_or.mpr ⟨read_not_neg h.2 _ _, h.read [] ▸ fmtInt_ne_nil k⟩), h.read,
    atoi_fmtInt h.1]
  simp only [beq_iff_eq, h.key_eq_iff hn]

/-- One round of the search for a WAN. -/
theorem scanEntry_wan {f : Tr181Interface} (hp : 0 ≤ f.pvcIndex) (hl : f.lanIndex < 0) {a : Attrs}
    (ha : WanEntry a ∨ LanEntry a) (i : Nat) (v : ScanVars) : scanEntry f i (some a) v =
      if unbound (some a) then ((v.read (some a)).asEmpty i, false)
      else (v.read (some a), wanKey a == some f.pvcIndex) := by
  have hnum : ∀ {q}, IndexText a pvcIndexAttr q → _ := fun ht =>
    scan_indexText ht hp ((v.read (some a)).asEmpty i, false) (v.read (some a), true)
      (v.read (some a), false)
  simp only [scanEntry, flag_read ha, readAttr, Option.bind_some, Int.not_le.mpr hl, hp, true_and,
    false_and, if_false, Bool.false_eq_true, or_false]
  rcases ha with ⟨-, hu | ⟨p, -, ht⟩⟩ | ⟨-, q, -, ht⟩
  · simp [unbound, readAttr, hu, snprintf]
  · rw [hnum ht, unbound_indexText ht, wanKey]
    split <;> simp_all
  · rw [hnum ht, unbound_indexText ht, wanKey]
    split <;> simp_all

/-- One round of the search for a LAN interface. -/
theorem scanEntry_lan {f : Tr181Interface} (hl : 0 ≤ f.lanIndex) (hp : f.pvcIndex < 0) {a : Attrs}
    (ha : WanEntry a ∨ LanEntry a) (i : Nat) (v : ScanVars) : scanEntry f i (some a) v =
      (v.read (some a), lanKey a == some f.lanIndex) := by
  obtain ⟨l, ht⟩ : ∃ l, IndexText a lanIndexAttr l := by
    rcases ha with ⟨⟨l, -, ht⟩, -⟩ | ⟨⟨l, -, ht⟩, -⟩
    · exact ⟨l, ht⟩
    · exact ⟨l, ht⟩
  simp only [scanEntry, flag_read ha, readAttr, Option.bind_some, Int.not_le.mpr hp, hl, true_and,
    false_and, if_false, Bool.false_eq_true, or_false]
  rw [scan_indexText ht hl, lanKey]
  split <;> simp_all

/-- One round of the search for an interface with one index. -/
theorem scanEntry_eq {f : Tr181Interface} (hf : OneIndex f) {s : Option Attrs}
    (hs : Regular s) (i : Nat) (v : ScanVars) :
    (scanEntry f i s v).2 = heldBy f s ∧ (scanEntry f i s v).1.fisrtEmptyEntry =
      if emptyFor f s then v.fisrtEmptyEntry.or (some i) else v.fisrtEmptyEntry := by
  obtain ⟨-, -, ⟨hp, hl⟩ | ⟨hl, hp⟩⟩ := hf
  · cases s with
    | none =>
      simp [scanEntry, ScanVars.asEmpty, ScanVars.read, readAttr, emptyFor, heldBy,
        Int.not_le.mpr hl, hp]
    | some a =>
      rw [scanEntry_wan hp hl (hs a rfl)]
      by_cases hu : unbound (some a) = true
      · have hkey : wanKey a = none := indexKey_nil (by simpa [unbound, readAttr] using hu)
        simp [hu, ScanVars.asEmpty, ScanVars.read, emptyFor, heldBy, hp, hkey]
      · simp [hu, ScanVars.read, emptyFor, heldBy, hp]
  · cases s with
    | none =>
      simp [scanEntry, ScanVars.asEmpty, ScanVars.read, readAttr, emptyFor, heldBy,
        Int.not_le.mpr hp, hl]
    | some a =>
      rw [scanEntry_lan hl hp (hs a rfl)]
      simp [ScanVars.read, emptyFor, heldBy, Int.not_le.mpr hp]

/-- The search takes the slot for the index. -/
theorem scanEntries_eq {f : Tr181Interface} (hf : OneIndex f) :
    ∀ {slots : List (Option Attrs)}, (∀ s ∈ slots, Regular s) → ∀ (i : Nat) (v : ScanVars),
      scanEntries f i v slots =
        match slots.findIdx? (heldBy f) with
        | some k => some (i + k, true)
        | none => (v.fisrtEmptyEntry.or ((slots.findIdx? (emptyFor f)).map (i + ·))).map (·, false)
  | [], _, _, v => by simp [scanEntries]
  | s :: slots, hs, i, v => by
    obtain ⟨hheld, hempty⟩ := scanEntry_eq hf (hs s List.mem_cons_self) i v
    have ih := scanEntries_eq hf (fun s' hs' => hs s' (List.mem_cons_of_mem s hs')) (i + 1)
      (scanEntry f i s v).1
    rw [scanEntries, hheld, List.findIdx?_cons, List.findIdx?_cons]
    by_cases hh : heldBy f s = true
    · simp [hh]
    · simp only [hh]
      rw [if_neg Bool.false_ne_true, ih, hempty]
      cases slots.findIdx? (heldBy f) with
      | some k => simp [Nat.add_comm 1, Nat.add_assoc]
      | none =>
        by_cases he : emptyFor f s = true
        · cases v.fisrtEmptyEntry <;> simp [he]
        · simp only [he]
          cases slots.findIdx? (emptyFor f) <;> simp [Nat.add_comm 1, Nat.add_assoc]

theorem scanEntries_slotFor {f : Tr181Interface} (hreg : ∀ s ∈ t.slots, Regular s)
    (hf : OneIndex f) :
    scanEntries f 0 ⟨none, [], []⟩ t.slots = slotFor (heldBy f) (emptyFor f) t.slots := by
  rw [scanEntries_eq hf hreg, slotFor]
  cases t.slots.findIdx? (heldBy f) with
  | some k => simp
  | none => simp

theorem heldBy_iff {f : Tr181Interface} {i : Nat} :
    HoldsIndex t.slots f i ↔ ∃ s, t.slots[i]? = some s ∧ heldBy f s = true := by
  rw [HoldsIndex]
  unfold heldBy Holds
  split <;> simp [Option.bind_eq_some_iff]

/-! ## Creations -/

section Create

variable {f : Tr181Interface} {a : Attrs}

theorem Attrs.set_self (name text : Str) : a.set name text name = some text :=
  Function.update_self _ _ _

theorem Attrs.set_ne {name other : Str} (h : other ≠ name) (text : Str) :
    a.set name text other = a other := Function.update_of_ne h _ _

theorem writeIndexes_lanIndex (h : IsInt f.lanIndex) :
    IndexText (writeIndexes f a) lanIndexAttr f.lanIndex := by
  refine ⟨h, ?_⟩
  rw [writeIndexes, Attrs.set_self, snprintf_fmtInt h (by decide)]

theorem pvcIndexAttr_ne : pvcIndexAttr ≠ lanIndexAttr := by decide

/-- The entry that a creation writes. -/
theorem writeIndexes_pvcIndex (h : IsInt f.pvcIndex) :
    IndexText (writeIndexes f a) pvcIndexAttr (if f.lanIndex = 0 then -1 else f.pvcIndex) := by
  have htext : writeIndexes f a pvcIndexAttr =
      some (if f.lanIndex = 0 then "-1".toList else snprintf 20 (fmtInt f.pvcIndex)) := by
    rw [writeIndexes, Attrs.set_ne pvcIndexAttr_ne, Attrs.set_self]
  rw [IndexText, htext]
  split
  · exact ⟨⟨by decide, by decide⟩, rfl⟩
  · exact ⟨h, by rw [snprintf_fmtInt h (by decide)]⟩

/-- The entry of a created interface has its index, and no other. -/
theorem writeIndexes_keys (hf : OneIndex f) (a : Attrs) :
    (0 ≤ f.pvcIndex ∧ WanEntry (writeIndexes f a) ∧ wanKey (writeIndexes f a) = some f.pvcIndex ∧
        lanKey (writeIndexes f a) = none) ∨
      (f.pvcIndex < 0 ∧ LanEntry (writeIndexes f a) ∧ wanKey (writeIndexes f a) = none ∧
        lanKey (writeIndexes f a) = some f.lanIndex) := by
  obtain ⟨hp, hl, ⟨hp0, hl0⟩ | ⟨hl0, hp0⟩⟩ := hf
  · have htp := writeIndexes_pvcIndex (a := a) hp
    rw [if_neg hl0.ne] at htp
    have htl := writeIndexes_lanIndex (a := a) hl
    exact .inl ⟨hp0, ⟨⟨_, hl0, htl⟩, .inr ⟨_, hp0, htp⟩⟩, htp.key_nonneg hp0,
      htl.key_neg hl0⟩
  · have htp := writeIndexes_pvcIndex (a := a) hp
    have htl := writeIndexes_lanIndex (a := a) hl
    have hneg : (if f.lanIndex = 0 then -1 else f.pvcIndex) < 0 := by
      split
      · decide
      · exact hp0
    exact .inr ⟨hp0, ⟨⟨_, hl0, htl⟩, _, hneg, htp⟩, htp.key_neg hneg, htl.key_nonneg hl0⟩

/-- The number is printed as it is while it has three digits. -/
theorem addNum_fmtNat {n m : Nat} {d : Int} (hn : n < 1000) (hm : m < 1000)
    (h : (n : Int) + d = m) : addNum (fmtNat n) d = fmtNat m := by
  have hlen : ∀ {k : Nat}, k < 1000 → (fmtNat k).length ≤ 3 := fun hk =>
    (length_fmtNat_le (by decide)).mpr hk
  have hread : snprintf 20 (fmtNat n) = fmtNat n := snprintf_eq (by have := hlen hn; omega)
  have hval : atoi (fmtNat n) = n := atoi_fmtNat (by rw [intMax]; omega)
  rw [addNum, hread, hval, h, fmtInt_natCast, snprintf_eq (by have := hlen hm; omega)]

/-- What a creation does: the slot for the index gets the entry. -/
theorem create_eq (hnode : t.nodeName ∉ wifiNodes) (hreg : ∀ s ∈ t.slots, Regular s)
    (hf : OneIndex f) :
    createTR181InterfaceEntry wlanStart t f =
      match slotFor (heldBy f) (emptyFor f) t.slots with
      | none => (t, -1)
      | some (i, existFlag) =>
        ({ t with
            slots := t.slots.modify i fun s => some (writeIndexes f (s.getD fun _ => none))
            num := if existFlag then t.num else addNum t.num 1 }, (i : Int)) := by
  rw [createTR181InterfaceEntry, scanEntries_slotFor hreg hf]
  rcases slotFor (heldBy f) (emptyFor f) t.slots with _ | ⟨i, existFlag⟩
  · rfl
  · simp only [hnode, if_false, Int.toNat_natCast]
    rw [if_neg (by omega)]

/-- The entry goes to a slot such that no other one has its index. -/
theorem uniqueKeys_create (hinv : Inv t) (hf : OneIndex f) {i : Nat} (a : Attrs)
    (hother : ∀ j, j ≠ i → ¬ HoldsIndex t.slots f j) :
    UniqueKeys wanKey (t.slots.set i (some (writeIndexes f a))) ∧
      UniqueKeys lanKey (t.slots.set i (some (writeIndexes f a))) := by
  rcases writeIndexes_keys hf a with ⟨hp, -, hw, hl⟩ | ⟨hp, -, hw, hl⟩
  · refine ⟨hinv.wan.set fun k hk j hj => ?_, hinv.lan.set fun k hk => by simp [hl] at hk⟩
    obtain rfl : f.pvcIndex = k := Option.some.inj (hw ▸ hk)
    have hnot := hother j hj
    rwa [HoldsIndex, if_pos hp] at hnot
  · refine ⟨hinv.wan.set fun k hk => by simp [hw] at hk, hinv.lan.set fun k hk j hj => ?_⟩
    obtain rfl : f.lanIndex = k := Option.some.inj (hl ▸ hk)
    have hnot := hother j hj
    rwa [HoldsIndex, if_neg (Int.not_le.mpr hp)] at hnot

theorem regular_create (hinv : Inv t) (hf : OneIndex f) (i : Nat) (a : Attrs) :
    ∀ s ∈ t.slots.set i (some (writeIndexes f a)), Regular s := by
  intro s hs
  rcases List.mem_or_eq_of_mem_set hs with hs | rfl
  · exact hinv.regular s hs
  · rintro _ ⟨⟩
    rcases writeIndexes_keys hf a with ⟨-, h, -⟩ | ⟨-, h, -⟩
    · exact .inl h
    · exact .inr h

theorem short_create (hinv : Inv t) (hf : OneIndex f) (hlt : f.pvcIndex < 100) {i : Nat}
    (hi : i < t.slots.length) (a : Attrs) (k : Int) (j : Nat)
    (h : Holds wanKey (t.slots.set i (some (writeIndexes f a))) k j) : k < 10000000 := by
  by_cases hj : j = i
  · subst hj
    have hkey := (holds_set_self hi).mp h
    rcases writeIndexes_keys hf a with ⟨-, -, hw, -⟩ | ⟨-, -, hw, -⟩
    · obtain rfl : f.pvcIndex = k := Option.some.inj (hw.symm.trans hkey)
      omega
    · exact absurd (hw.symm.trans hkey) (Option.some_ne_none k).symm
  · exact hinv.short k j ((holds_set_ne hj).mp h)

theorem holdsIndex_create (hf : OneIndex f) {i : Nat} (hi : i < t.slots.length)
    (a : Attrs) : HoldsIndex (t.slots.set i (some (writeIndexes f a))) f i := by
  rw [HoldsIndex]
  rcases writeIndexes_keys hf a with ⟨hp, -, hw, -⟩ | ⟨hp, -, -, hl⟩
  · rw [if_pos hp, holds_set_self hi, hw]
  · rw [if_neg (Int.not_le.mpr hp), holds_set_self hi, hl]

/-- An entry has at most one index. -/
theorem key_none (h : WanEntry a ∨ LanEntry a) : wanKey a = none ∨ lanKey a = none := by
  rcases h with ⟨⟨l, hl, ht⟩, -⟩ | ⟨-, q, hq, ht⟩
  · exact .inr (ht.key_neg hl)
  · exact .inl (ht.key_neg hq)

/-- An entry that has the index has no other one. -/
theorem not_otherIndex (hinv : Inv t) {i : Nat} (ha : t.slots[i]? = some (some a))
    (h : HoldsIndex t.slots f i) : ¬ OtherIndex f a := by
  have hnone := key_none (hinv.regular _ (List.mem_of_getElem? ha) a rfl)
  rw [HoldsIndex] at h
  split at h
  · obtain ⟨b, hb, hw⟩ := h
    obtain rfl : a = b := by simpa [ha] using hb
    rintro (⟨k, hk, hne⟩ | ⟨k, hk, -⟩)
    · exact hne (Option.some.inj (hk ▸ hw))
    · simp [hw, hk] at hnone
  · obtain ⟨b, hb, hl⟩ := h
    obtain rfl : a = b := by simpa [ha] using hb
    rintro (⟨k, hk, -⟩ | ⟨k, hk, hne⟩)
    · simp [hl, hk] at hnone
    · exact hne (Option.some.inj (hk ▸ hl))

/-- What a creation leaves that finds a slot. -/
structure Created (t t' : Table) (f : Tr181Interface) (i : Nat) (a : Attrs) : Prop where
  eq : t' = { t with
    slots := t.slots.set i (some (writeIndexes f a))
    num := fmtNat (entries (t.slots.set i (some (writeIndexes f a)))) }
  bound : entries (t.slots.set i (some (writeIndexes f a))) < 1000
  lt : i < t.slots.length
  other : ∀ j, j ≠ i → ¬ HoldsIndex t.slots f j
  old : ∀ b, t.slots[i]? = some (some b) → ¬ OtherIndex f b

theorem modify_eq {g : Option Attrs → Option Attrs} {s : Option Attrs} {i : Nat}
    (hs : t.slots[i]? = some s) : t.slots.modify i g = t.slots.set i (g s) := by
  rw [List.modify_eq_set, hs, Option.getD_some]

/-- The interface has an entry. -/
theorem created_held (hinv : Inv t) (hf : OneIndex f) {i : Nat}
    (h : slotFor (heldBy f) (emptyFor f) t.slots = some (i, true)) :
    ∃ a, Created t (createTR181InterfaceEntry wlanStart t f).1 f i a := by
  obtain ⟨s, hs, hheld⟩ := slotFor_held h
  have hholds : HoldsIndex t.slots f i := heldBy_iff.mpr ⟨s, hs, hheld⟩
  obtain ⟨a, rfl⟩ : ∃ a, s = some a := by
    cases s with
    | none => simp [heldBy] at hheld
    | some a => exact ⟨a, rfl⟩
  have hset : entries (t.slots.set i (some (writeIndexes f a))) = entries t.slots :=
    entries_set_old hs
  refine ⟨a, ⟨?_, hset ▸ hinv.bound, (List.getElem?_eq_some_iff.mp hs).1, ?_, ?_⟩⟩
  · rw [create_eq hinv.node hinv.regular hf, h, hset, ← hinv.num]
    simp only [if_true, modify_eq hs, Option.getD_some]
  · intro j hj hjh
    rw [HoldsIndex] at hholds hjh
    split at hholds
    · exact hj (hinv.wan _ _ _ (by rwa [if_pos ‹_›] at hjh) hholds)
    · exact hj (hinv.lan _ _ _ (by rwa [if_neg ‹_›] at hjh) hholds)
  · intro b hb
    exact not_otherIndex hinv hb hholds

/-- The interface has no entry yet. -/
theorem created_empty (hinv : Inv t) (hf : OneIndex f) (hk : Kept t (.create f)) {i : Nat}
    (h : slotFor (heldBy f) (emptyFor f) t.slots = some (i, false)) :
    Created t (createTR181InterfaceEntry wlanStart t f).1 f i fun _ => none := by
  obtain ⟨hnone, -⟩ := slotFor_empty h
  have hnot : ∀ j, ¬ HoldsIndex t.slots f j := fun j hj => by
    obtain ⟨s, hs, hheld⟩ := heldBy_iff.mp hj
    exact Bool.false_ne_true ((hnone s (List.mem_of_getElem? hs)).symm.trans hheld)
  have hidx : t.slots.findIdx? (emptyFor f) = some i := by
    rw [slotFor, List.findIdx?_eq_none_iff.mpr hnone] at h
    obtain ⟨k, hk, heq⟩ := Option.map_eq_some_iff.mp h
    exact hk.trans (congrArg some (Prod.mk.inj heq).1)
  obtain ⟨hs, hlt⟩ := hk.resolve_left (not_exists.mpr hnot) i hidx
  have hset : entries (t.slots.set i (some (writeIndexes f fun _ => none))) = entries t.slots + 1 :=
    entries_set_new hs
  refine ⟨?_, by omega, (List.getElem?_eq_some_iff.mp hs).1, fun j _ => hnot j, ?_⟩
  · rw [create_eq hinv.node hinv.regular hf, h, hset,
      ← addNum_fmtNat (d := 1) hinv.bound (by omega) (by omega),
      ← hinv.num]
    simp only [Bool.false_eq_true, if_false, modify_eq hs, Option.getD_none]
  · intro b hb
    simp [hs] at hb

theorem atoi_num {n : Nat} (hn : n < 1000) : atoi (fmtNat n) = n :=
  atoi_fmtNat (by rw [intMax]; omega)

/-- **A creation keeps the invariant and does what it is to do.** -/
theorem create_right (hinv : Inv t) (hf : Legal t (.create f)) (hk : Kept t (.create f)) :
    Inv (tableStep wlanStart t (.create f)) ∧ StepRight wlanStart t (.create f) := by
  obtain ⟨hf, hlt, -⟩ := hf
  have heq : createTR181InterfaceEntry wlanStart t f = _ := create_eq hinv.node hinv.regular hf
  rcases hslot : slotFor (heldBy f) (emptyFor f) t.slots with _ | ⟨i, existFlag⟩
  · -- the table is full
    have htable : tableStep wlanStart t (.create f) = t := by rw [tableStep, heq, hslot]
    refine ⟨htable.symm ▸ hinv, ⟨htable.symm ▸ hinv.wan, htable.symm ▸ hinv.lan, ?_, ?_, nofun⟩⟩
    · rw [htable, hinv.num, atoi_num hinv.bound]
    · rintro _ ⟨⟩ hne
      exact absurd (by rw [heq, hslot]) hne
  · obtain ⟨a, hc⟩ : ∃ a, Created t (createTR181InterfaceEntry wlanStart t f).1 f i a := by
      cases existFlag with
      | true => exact created_held hinv hf hslot
      | false => exact ⟨_, created_empty hinv hf hk hslot⟩
    obtain ⟨hwan, hlan⟩ := uniqueKeys_create hinv hf a hc.other
    refine ⟨?_, ⟨?_, ?_, ?_, ?_, nofun⟩⟩
    · rw [tableStep, hc.eq]
      exact ⟨hinv.node, regular_create hinv hf i a, hwan, hlan, short_create hinv hf hlt hc.lt a,
        rfl, hc.bound⟩
    · rw [tableStep, hc.eq]
      exact hwan
    · rw [tableStep, hc.eq]
      exact hlan
    · rw [tableStep, hc.eq]
      exact atoi_num hc.bound
    · rintro _ ⟨⟩ -
      rw [hc.eq]
      refine ⟨⟨i, by rw [heq, hslot], holdsIndex_create hf hc.lt a⟩, fun j b hb hob => ?_⟩
      by_cases hj : j = i
      · exact absurd hob (hc.old b (hj ▸ hb))
      · rw [List.getElem?_set_ne (Ne.symm hj), hb]

end Create

/-! ## Clearings and rebindings -/

/-- The entry that is deleted with a WAN. -/
theorem hasWanIf_iff {a : Attrs} (ha : WanEntry a ∨ LanEntry a) {w : Int} (hw : 0 ≤ w)
    (hz : w = 0 → unbound (some a) = false) :
    hasWanIf 20 w (some a) = true ↔ wanKey a = some w := by
  have hnum : ∀ {q}, IndexText a pvcIndexAttr q →
      (hasWanIf 20 w (some a) = true ↔ wanKey a = some w) := fun {q} ht => by
    rw [hasWanIf, readAttr, Option.bind_some, ht.2, wanKey, ht.key_eq_iff hw]
    simp only [snprintf_fmtInt ht.1 (by decide : 11 < 20), atoi_fmtInt ht.1, beq_iff_eq]
  rcases ha with ⟨-, hu | ⟨p, -, ht⟩⟩ | ⟨-, q, -, ht⟩
  · have hw0 : w ≠ 0 := fun h => by
      have hub := hz h
      simp [unbound, readAttr, hu] at hub
    rw [wanKey, indexKey_nil hu, hasWanIf, readAttr, Option.bind_some, hu]
    refine iff_of_false (fun h => hw0 ?_) (Option.some_ne_none w).symm
    exact (beq_iff_eq.mp h).symm
  · exact hnum ht
  · exact hnum ht

/-- The loop of a clearing deletes the entries of the WAN and counts them. -/
theorem clearEntries_eq {w : Int} : ∀ {slots : List (Option Attrs)} {n : Nat}, n < 1000 →
    slots.countP (hasWanIf 20 w) ≤ n → clearEntries w slots (fmtNat n) =
      (slots.map fun s => if hasWanIf 20 w s then none else s,
        fmtNat (n - slots.countP (hasWanIf 20 w)))
  | [], n, _, _ => by simp [clearEntries]
  | s :: slots, n, hn, hle => by
    rw [List.countP_cons] at hle ⊢
    by_cases hs : hasWanIf 20 w s = true
    · simp only [hs, if_true] at hle
      rw [clearEntries, if_pos hs, addNum_fmtNat (m := n - 1) hn (by omega) (by omega),
        clearEntries_eq (by omega) (by omega)]
      simp [hs, Nat.sub_sub, Nat.add_comm 1]
    · simp only [hs] at hle
      rw [clearEntries, if_neg hs, clearEntries_eq hn (by omega)]
      simp [hs]

/-- **A clearing keeps the invariant and does what it is to do.** -/
theorem clear_right (hinv : Inv t) {w : Int} (hw : Legal t (.clear w)) (hk : Kept t (.clear w)) :
    Inv (tableStep wlanStart t (.clear w)) ∧ StepRight wlanStart t (.clear w) := by
  have hhas : ∀ a, some a ∈ t.slots → (hasWanIf 20 w (some a) = true ↔ wanKey a = some w) :=
    fun a ha => hasWanIf_iff (hinv.regular _ ha a rfl) hw fun hz => hk hz _ ha
  have hcount := entries_remove (l := t.slots) (hasWanIf 20 w) rfl
  have heq : clearTR181InterfaceNodeByWanIf t w = { t with
      slots := t.slots.map fun s => if hasWanIf 20 w s then none else s
      num := fmtNat (entries (t.slots.map fun s => if hasWanIf 20 w s then none else s)) } := by
    rw [clearTR181InterfaceNodeByWanIf, hinv.num, clearEntries_eq hinv.bound (by omega), ← hcount,
      Nat.add_sub_cancel]
  have himp : ∀ {key : Attrs → Option Int} {k j},
      Holds key (t.slots.map fun s => if hasWanIf 20 w s then none else s) k j →
        Holds key t.slots k j := fun h => by
    obtain ⟨s, hs, a, ha, hkey⟩ := holds_map.mp h
    split at ha
    · simp at ha
    · exact ⟨a, ha ▸ hs, hkey⟩
  have hle : entries (t.slots.map fun s => if hasWanIf 20 w s then none else s) < 1000 := by
    have := hinv.bound
    omega
  refine ⟨?_, ⟨?_, ?_, ?_, nofun, ?_⟩⟩
  · rw [tableStep, heq]
    refine ⟨hinv.node, fun s hs a ha => ?_, hinv.wan.of_imp fun _ _ => himp,
      hinv.lan.of_imp fun _ _ => himp, fun k j h => hinv.short k j (himp h), rfl, hle⟩
    obtain ⟨s', hs', rfl⟩ := List.mem_map.mp hs
    split at ha
    · simp at ha
    · exact hinv.regular s' hs' a ha
  · rw [tableStep, heq]
    exact hinv.wan.of_imp fun _ _ => himp
  · rw [tableStep, heq]
    exact hinv.lan.of_imp fun _ _ => himp
  · rw [tableStep, heq]
    exact atoi_num hle
  · rintro _ ⟨⟩ j s hs
    rw [heq, List.getElem?_map, hs, Option.map_some]
    constructor
    · rintro ⟨a, ha, hkey⟩
      obtain rfl : s = some a := Option.some.inj (hs.symm.trans ha)
      rw [if_pos ((hhas a (List.mem_of_getElem? hs)).mpr hkey)]
    · intro hnot
      have hno : ¬ hasWanIf 20 w s = true := fun hh => by
        cases s with
        | none => exact absurd hh (by simp [hasWanIf, readAttr])
        | some a => exact hnot ⟨a, hs, (hhas a (List.mem_of_getElem? hs)).mp hh⟩
      rw [if_neg hno]

theorem isSome_rebind (old new : Int) (s : Option Attrs) :
    (rebind old new s).isSome = s.isSome := by
  rw [rebind]
  split
  · rw [Option.isSome_map]
  · rfl

section Rebind

variable {a : Attrs} {old new : Int}

theorem hasWanIf_eight {p : Int} (ht : IndexText a pvcIndexAttr p) (hp : 0 ≤ p)
    (hlt : p < 10000000) : hasWanIf 8 old (some a) = true ↔ p = old := by
  obtain ⟨n, rfl⟩ := Int.eq_ofNat_of_zero_le hp
  have hlen : (fmtNat n).length ≤ 7 := (length_fmtNat_le (by decide)).mpr (by omega)
  have hval : atoi (fmtNat n) = n := atoi_fmtNat (by rw [intMax]; omega)
  rw [hasWanIf, readAttr, Option.bind_some, ht.2, fmtInt_natCast]
  simp only [snprintf_eq (by omega : (fmtNat n).length < 8), hval, beq_iff_eq]

/-- A rebinding changes the entry of the old WAN only. -/
theorem rebind_ne (ha : WanEntry a ∨ LanEntry a) (hshort : ∀ k, wanKey a = some k → k < 10000000)
    (hold : 0 ≤ old) (hne : wanKey a ≠ some old) : rebind old new (some a) = some a := by
  rw [rebind, if_neg]
  rintro ⟨hnil, hhas⟩
  rcases ha with ⟨-, hu | ⟨p, hp, ht⟩⟩ | ⟨-, q, hq, ht⟩
  · exact hnil hu
  · have hlt : p < 10000000 := hshort p (ht.key_nonneg hp)
    exact hne ((ht.key_eq_iff hold).mpr ((hasWanIf_eight ht hp hlt).mp hhas))
  · have hneg : atoi ((fmtInt q).take 7) < 0 := atoi_take_fmtInt hq (by decide)
    rw [hasWanIf, readAttr, Option.bind_some, ht.2] at hhas
    have hval : atoi ((fmtInt q).take 7) = old := beq_iff_eq.mp hhas
    omega

/-- The entry of the old WAN afterwards. -/
theorem rebind_self (ha : WanEntry a ∨ LanEntry a) (hkey : wanKey a = some old)
    (hlt : old < 10000000) (hnew : new = -1 ∨ 0 ≤ new ∧ new < 10000000) :
    ∃ b, rebind old new (some a) = some b ∧ WanEntry b ∧
      wanKey b = (if new < 0 then none else some new) ∧ lanKey b = none := by
  rcases ha with ⟨⟨l, hl, htl⟩, hp⟩ | ⟨-, q, hq, ht⟩
  · obtain ⟨p, hp, ht⟩ : ∃ p, 0 ≤ p ∧ IndexText a pvcIndexAttr p := by
      refine hp.resolve_left fun hu => ?_
      rw [wanKey, indexKey_nil hu] at hkey
      exact Option.some_ne_none old hkey.symm
    obtain rfl : p = old := Option.some.inj ((ht.key_nonneg hp).symm.trans hkey)
    have hcond : readAttr (some a) pvcIndexAttr ≠ some [] ∧ hasWanIf 8 p (some a) = true := by
      refine ⟨fun hnil => ?_, (hasWanIf_eight ht hp hlt).mpr rfl⟩
      rw [readAttr, Option.bind_some, ht.2] at hnil
      exact fmtInt_ne_nil p (Option.some.inj hnil)
    have htl' : ∀ text, IndexText (a.set pvcIndexAttr text) lanIndexAttr l := fun text =>
      ⟨htl.1, (Attrs.set_ne pvcIndexAttr_ne.symm text).trans htl.2⟩
    rw [rebind, if_pos hcond]
    rcases hnew with rfl | ⟨hn, hnlt⟩
    · refine ⟨_, rfl, ⟨⟨l, hl, htl' _⟩, .inl (Attrs.set_self _ _)⟩, ?_, (htl' _).key_neg hl⟩
      exact indexKey_nil (Attrs.set_self _ _)
    · have htext : snprintf 8 (fmtInt new) = fmtInt new := by
        obtain ⟨n, rfl⟩ := Int.eq_ofNat_of_zero_le hn
        have hlen : (fmtNat n).length ≤ 7 := (length_fmtNat_le (by decide)).mpr (by omega)
        exact fmtInt_natCast n ▸ snprintf_eq (by omega)
      have ht' : IndexText (a.set pvcIndexAttr (fmtInt new)) pvcIndexAttr new :=
        ⟨⟨by omega, by omega⟩, Attrs.set_self _ _⟩
      simp only [Int.not_lt.mpr hn, if_false, htext]
      exact ⟨_, rfl, ⟨⟨l, hl, htl' _⟩, .inr ⟨new, hn, ht'⟩⟩, ht'.key_nonneg hn,
        (htl' _).key_neg hl⟩
  · exact absurd ((ht.key_neg hq).symm.trans hkey) (Option.some_ne_none old).symm

/-- An entry that a rebinding changed was the one of the old WAN. -/
theorem rebind_cases {b : Attrs} (ha : WanEntry a ∨ LanEntry a)
    (hshort : ∀ k, wanKey a = some k → k < 10000000) (hold : 0 ≤ old)
    (hnew : new = -1 ∨ 0 ≤ new ∧ new < 10000000) (hb : rebind old new (some a) = some b) :
    (wanKey a = some old ∧ WanEntry b ∧ wanKey b = (if new < 0 then none else some new) ∧
      lanKey b = none) ∨ b = a := by
  by_cases hwan : wanKey a = some old
  · obtain ⟨b', hb', hs⟩ := rebind_self ha hwan (hshort old hwan) hnew
    obtain rfl : b = b' := Option.some.inj (hb.symm.trans hb')
    exact .inl ⟨hwan, hs⟩
  · exact .inr (Option.some.inj (hb.symm.trans (rebind_ne ha hshort hold hwan)))

theorem rebind_none (old new : Int) : rebind old new none = none := by
  have hsome : (rebind old new none).isSome = false := isSome_rebind old new none
  simpa using hsome

/-- The entries of a rebound table. -/
theorem getElem?_rebind (hinv : Inv t) (hold : 0 ≤ old)
    (hnew : new = -1 ∨ 0 ≤ new ∧ new < 10000000) {j : Nat} {b : Attrs}
    (h : (t.slots.map (rebind old new))[j]? = some (some b)) :
    ∃ a, t.slots[j]? = some (some a) ∧ (WanEntry b ∨ LanEntry b) ∧
      ((wanKey a = some old ∧ wanKey b = (if new < 0 then none else some new) ∧
        lanKey b = none) ∨ b = a) := by
  rw [List.getElem?_map] at h
  obtain ⟨s, hs, hb⟩ := Option.map_eq_some_iff.mp h
  cases s with
  | none => exact absurd (rebind_none old new ▸ hb) (Option.some_ne_none b).symm
  | some a =>
    have ha := hinv.regular _ (List.mem_of_getElem? hs) a rfl
    have hshort : ∀ k, wanKey a = some k → k < 10000000 := fun k hk => hinv.short k j ⟨a, hs, hk⟩
    rcases rebind_cases ha hshort hold hnew hb with ⟨hkey, hwan, hk, hl⟩ | rfl
    · exact ⟨a, hs, .inl hwan, .inl ⟨hkey, hk, hl⟩⟩
    · exact ⟨b, hs, ha, .inr rfl⟩

/-- The indexes of a rebound table. -/
theorem holds_rebind (hinv : Inv t) (hold : 0 ≤ old) (hnew : new = -1 ∨ 0 ≤ new ∧ new < 10000000)
    {k : Int} {j : Nat} :
    (Holds wanKey (t.slots.map (rebind old new)) k j →
      (Holds wanKey t.slots old j ∧ k = new ∧ 0 ≤ new) ∨ Holds wanKey t.slots k j) ∧
    (Holds lanKey (t.slots.map (rebind old new)) k j → Holds lanKey t.slots k j) := by
  constructor
  · rintro ⟨b, hb, hkey⟩
    obtain ⟨a, hs, -, ⟨hold, hk, -⟩ | rfl⟩ := getElem?_rebind hinv hold hnew hb
    · rw [hk] at hkey
      split at hkey
      · exact absurd hkey (Option.some_ne_none k).symm
      · exact .inl ⟨⟨a, hs, hold⟩, (Option.some.inj hkey).symm, by omega⟩
    · exact .inr ⟨b, hs, hkey⟩
  · rintro ⟨b, hb, hkey⟩
    obtain ⟨a, hs, -, ⟨-, -, hl⟩ | rfl⟩ := getElem?_rebind hinv hold hnew hb
    · exact absurd (hl.symm.trans hkey) (Option.some_ne_none k).symm
    · exact ⟨b, hs, hkey⟩

end Rebind

/-- **A rebinding keeps the invariant and does what it is to do.** -/
theorem setWanIf_right (hinv : Inv t) {old new : Int} (hl : Legal t (.setWanIf old new))
    (hk : Kept t (.setWanIf old new)) :
    Inv (tableStep wlanStart t (.setWanIf old new)) ∧
      StepRight wlanStart t (.setWanIf old new) := by
  by_cases hold : old < 0
  · have htable : tableStep wlanStart t (.setWanIf old new) = t := by
      rw [tableStep, setTR181NodeWanIf, if_pos hold]
    refine ⟨htable.symm ▸ hinv, ⟨htable.symm ▸ hinv.wan, htable.symm ▸ hinv.lan, ?_, nofun, nofun⟩⟩
    rw [htable, hinv.num, atoi_num hinv.bound]
  have htable : tableStep wlanStart t (.setWanIf old new) =
      { t with slots := t.slots.map (rebind old new) } := by
    rw [tableStep, setTR181NodeWanIf, if_neg hold]
    rfl
  have hnew : new = -1 ∨ 0 ≤ new ∧ new < 10000000 := hl.imp_right fun h => ⟨h.1, hk⟩
  have hholds := @holds_rebind t old new hinv (Int.not_lt.mp hold) hnew
  have hentries : entries (t.slots.map (rebind old new)) = entries t.slots :=
    entries_map (isSome_rebind old new)
  have hwan : UniqueKeys wanKey (t.slots.map (rebind old new)) := by
    -- no entry had the new index
    have hfree : 0 ≤ new → ∀ j, ¬ Holds wanKey t.slots new j := fun h => by
      rcases hl with rfl | ⟨-, hfree⟩
      · exact absurd h (by decide)
      · exact hfree
    intro k i j hi hj
    rcases hholds.1 hi with ⟨hio, hki, hn⟩ | hik <;> rcases hholds.1 hj with ⟨hjo, hkj, hn⟩ | hjk
    · exact hinv.wan old i j hio hjo
    · exact absurd (hki ▸ hjk) (hfree hn j)
    · exact absurd (hkj ▸ hik) (hfree hn i)
    · exact hinv.wan k i j hik hjk
  have hlan : UniqueKeys lanKey (t.slots.map (rebind old new)) :=
    hinv.lan.of_imp fun _ _ => hholds.2
  rw [htable]
  refine ⟨⟨hinv.node, fun s hs b hb => ?_, hwan, hlan, fun k j h => ?_, ?_, hentries ▸ hinv.bound⟩,
    ⟨htable ▸ hwan, htable ▸ hlan, ?_, nofun, nofun⟩⟩
  · obtain ⟨j, hj⟩ := List.getElem?_of_mem hs
    exact (getElem?_rebind hinv (Int.not_lt.mp hold) hnew (hb ▸ hj)).choose_spec.2.1
  · rcases hholds.1 h with ⟨-, rfl, -⟩ | hk
    · exact hk
    · exact hinv.short k j hk
  · exact hentries ▸ hinv.num
  · rw [htable]
    exact (congrArg atoi hinv.num).trans ((atoi_num hinv.bound).trans (congrArg _ hentries.symm))

/-! ## Runs -/

theorem step_right {op : TableOp} (hinv : Inv t) (hl : Legal t op) (hk : Kept t op) :
    Inv (tableStep wlanStart t op) ∧ StepRight wlanStart t op := by
  cases op with
  | create f => exact create_right hinv hl hk
  | clear w => exact clear_right hinv hl hk
  | setWanIf old new => exact setWanIf_right hinv hl hk

theorem inv_cleared (h : t.nodeName ∉ wifiNodes) : Inv (clearTR181InterfaceNode t) := by
  have hnone : entries (clearTR181InterfaceNode t).slots = 0 := entries_replicate _
  refine ⟨h, fun s hs a ha => ?_, uniqueKeys_replicate _, uniqueKeys_replicate _, ?_, ?_, ?_⟩
  · rw [List.eq_of_mem_replicate hs] at ha
    exact absurd ha (by simp)
  · rintro k j ⟨a, ha, -⟩
    have hmem := List.eq_of_mem_replicate (List.mem_of_getElem? ha)
    exact absurd hmem (by simp)
  · rw [hnone]
    rfl
  · rw [hnone]
    decide

/-- **In a run from the cleared table whose calls are all of that kind, every call does what it is
to do.** -/
theorem table_run (h : t.nodeName ∉ wifiNodes) {ops : List TableOp}
    (hrun : RunOk (tableStep wlanStart) (fun t op => Legal t op ∧ Kept t op)
      (clearTR181InterfaceNode t) ops) {pre : List TableOp} {op : TableOp}
    (hp : pre ++ [op] <+: ops) :
    StepRight wlanStart (pre.foldl (tableStep wlanStart) (clearTR181InterfaceNode t)) op := by
  have hpre : pre <+: ops := (List.prefix_append pre [op]).trans hp
  have hstep : ∀ t op, Inv t → Legal t op ∧ Kept t op → Inv (tableStep wlanStart t op) :=
    fun _ _ hinv hc => (step_right hinv hc.1 hc.2).1
  have hinv := hrun.inv_prefix hstep (inv_cleared h) hpre
  obtain ⟨hl, hk⟩ := hrun.at_prefix hp
  exact (step_right hinv hl hk).2

/-- A table of two slots. -/
def twoSlots : Table := ⟨"root.tr181ip".toList, [none, none], "0".toList⟩

/-- The interface of a WAN. -/
def wanInterface (wanIf : Int) : Tr181Interface := ⟨wanIf, -1, 1⟩

/-- A WAN is created and cleared. -/
theorem table_run_two :
    twoSlots.nodeName ∉ wifiNodes ∧
    RunOk (tableStep 9) (fun t op => Legal t op ∧ Kept t op) (clearTR181InterfaceNode twoSlots)
      [.create (wanInterface 3), .clear 3] ∧
    StepRight 9 (tableStep 9 (clearTR181InterfaceNode twoSlots) (.create (wanInterface 3)))
      (.clear 3) := by
  have hnode : twoSlots.nodeName ∉ wifiNodes := by decide
  have hint : IsInt 3 ∧ IsInt (-1) := by
    rw [IsInt, IsInt]
    omega
  have hrun : RunOk (tableStep 9) (fun t op => Legal t op ∧ Kept t op)
      (clearTR181InterfaceNode twoSlots) [.create (wanInterface 3), .clear 3] := by
    refine ⟨⟨⟨⟨hint.1, hint.2, .inl (by decide)⟩, by decide, by decide⟩, .inr fun i hi => ?_⟩,
      ⟨?_, ?_⟩, trivial⟩
    · obtain rfl : 0 = i := Option.some.inj hi
      exact ⟨rfl, by decide⟩
    · exact (by decide : (0 : Int) ≤ 3)
    · exact fun h => absurd h (by decide)
  have hp : [.create (wanInterface 3)] ++ [.clear 3] <+:
      [TableOp.create (wanInterface 3), .clear 3] := ⟨[], rfl⟩
  exact ⟨hnode, hrun, table_run hnode hrun hp⟩

/-- The calls by which a WAN is created, unbound, and another WAN created. -/
def recycled : List TableOp :=
  [.create (wanInterface 3), .setWanIf 3 (-1), .create (wanInterface 4)]

/-- The entry is used again, and `Num` counts two. -/
theorem num_twice :
    RunOk (tableStep 9) Legal (clearTR181InterfaceNode twoSlots) recycled ∧
    entries (recycled.foldl (tableStep 9) (clearTR181InterfaceNode twoSlots)).slots = 1 ∧
    (recycled.foldl (tableStep 9) (clearTR181InterfaceNode twoSlots)).num = "2".toList ∧
    ¬ StepRight 9 ((recycled.take 2).foldl (tableStep 9) (clearTR181InterfaceNode twoSlots))
      (.create (wanInterface 4)) := by
  have hint : IsInt 3 ∧ IsInt 4 ∧ IsInt (-1) := by
    rw [IsInt, IsInt, IsInt]
    omega
  have hentries :
      entries (recycled.foldl (tableStep 9) (clearTR181InterfaceNode twoSlots)).slots = 1 := by
    decide
  have hnum : (recycled.foldl (tableStep 9) (clearTR181InterfaceNode twoSlots)).num =
      "2".toList := by
    decide
  refine ⟨⟨⟨⟨hint.1, hint.2.2, .inl (by decide)⟩, by decide, by decide⟩, .inl rfl,
    ⟨⟨hint.2.1, hint.2.2, .inl (by decide)⟩, by decide, by decide⟩, trivial⟩, hentries, hnum,
    fun h => ?_⟩
  have hright := h.num
  change atoi (recycled.foldl (tableStep 9) (clearTR181InterfaceNode twoSlots)).num =
    entries (recycled.foldl (tableStep 9) (clearTR181InterfaceNode twoSlots)).slots at hright
  rw [hentries, hnum] at hright
  exact absurd hright (by decide)

end OnuFirmware.Tr181
