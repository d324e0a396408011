import Mathlib.Data.List.Basic
import Mathlib.Data.List.Count

/-!
# Tables of slots

A table has a fixed number of slots, each free or with an entry. An entry can hold a key; the tables
of interest have no key twice. A new entry goes to the slot that holds its key, else to the first
slot that counts as empty.
-/

namespace OnuFirmware.Lib

variable {α κ : Type*}

/-- Slot `i` has an entry that holds the key `k`. -/
def Holds (key : α → Option κ) (l : List (Option α)) (k : κ) (i : Nat) : Prop :=
  ∃ a, l[i]? = some (some a) ∧ key a = some k

/-- No two slots hold the same key. -/
def UniqueKeys (key : α → Option κ) (l : List (Option α)) : Prop :=
  ∀ k i j, Holds key l k i → Holds key l k j → i = j

/-- The number of entries. -/
def entries (l : List (Option α)) : Nat := l.countP Option.isSome

section Keys

variable {key : α → Option κ} {l l' : List (Option α)} {k : κ} {i j : Nat}

theorem holds_set_ne (h : j ≠ i) {s : Option α} : Holds key (l.set i s) k j ↔ Holds key l k j := by
  rw [Holds, List.getElem?_set_ne (Ne.symm h), Holds]

theorem holds_set_self (hi : i < l.length) {a : α} :
    Holds key (l.set i (some a)) k i ↔ key a = some k := by
  rw [Holds, List.getElem?_set_self hi]
  simp

theorem holds_map {f : Option α → Option α} :
    Holds key (l.map f) k i ↔ ∃ s, l[i]? = some s ∧ ∃ a, f s = some a ∧ key a = some k := by
  rw [Holds, List.getElem?_map]
  constructor
  · rintro ⟨a, ha, hk⟩
    obtain ⟨s, hs, hf⟩ := Option.map_eq_some_iff.mp ha
    exact ⟨s, hs, a, hf, hk⟩
  · rintro ⟨s, hs, a, hf, hk⟩
    exact ⟨a, by rw [hs, Option.map_some, hf], hk⟩

theorem uniqueKeys_replicate (n : Nat) :
    UniqueKeys key (List.replicate n (none : Option α)) := by
  rintro k i j ⟨a, ha, -⟩ -
  rw [List.getElem?_replicate] at ha
  split at ha <;> simp at ha

/-- A table whose slots hold no key that they did not hold has no key twice. -/
theorem UniqueKeys.of_imp (h : UniqueKeys key l)
    (himp : ∀ k i, Holds key l' k i → Holds key l k i) : UniqueKeys key l' :=
  fun k i j hi hj => h k i j (himp k i hi) (himp k j hj)

/-- An entry is written whose key no other slot holds. -/
theorem UniqueKeys.set (h : UniqueKeys key l) {a : α}
    (hnew : ∀ k, key a = some k → ∀ j, j ≠ i → ¬ Holds key l k j) :
    UniqueKeys key (l.set i (some a)) := by
  by_cases hlen : i < l.length
  · intro k m n hm hn
    by_cases hmi : m = i
    · by_cases hni : n = i
      · rw [hmi, hni]
      · subst hmi
        exact absurd ((holds_set_ne hni).mp hn) (hnew k ((holds_set_self hlen).mp hm) n hni)
    · by_cases hni : n = i
      · subst hni
        exact absurd ((holds_set_ne hmi).mp hm) (hnew k ((holds_set_self hlen).mp hn) m hmi)
      · exact h k m n ((holds_set_ne hmi).mp hm) ((holds_set_ne hni).mp hn)
  · rw [List.set_eq_of_length_le (Nat.le_of_not_lt hlen)]
    exact h

/-- The same for a slot that may become free. -/
theorem UniqueKeys.set_slot (h : UniqueKeys key l) {s : Option α}
    (hnew : ∀ k, s.bind key = some k → ∀ j, j ≠ i → ¬ Holds key l k j) :
    UniqueKeys key (l.set i s) := by
  cases s with
  | some a => exact h.set hnew
  | none =>
    refine h.of_imp fun k j hj => ?_
    by_cases hji : j = i
    · obtain ⟨a, ha, -⟩ := hj
      rw [hji, List.getElem?_set_self'] at ha
      obtain ⟨_, -, hnone⟩ := Option.map_eq_some_iff.mp ha
      exact absurd hnone (Option.some_ne_none a).symm
    · exact (holds_set_ne hji).mp hj

end Keys

/-! ## Counting -/

section Count

variable {l : List (Option α)} {i : Nat} {a b : α}

theorem entries_replicate (n : Nat) : entries (List.replicate n (none : Option α)) = 0 := by
  rw [entries, List.countP_replicate]
  rfl

theorem entries_set_new (h : l[i]? = some none) : entries (l.set i (some a)) = entries l + 1 := by
  obtain ⟨hi, hget⟩ := List.getElem?_eq_some_iff.mp h
  rw [entries, List.countP_set hi, hget, entries]
  simp

theorem entries_set_old (h : l[i]? = some (some b)) : entries (l.set i (some a)) = entries l := by
  obtain ⟨hi, hget⟩ := List.getElem?_eq_some_iff.mp h
  have hpos : 0 < l.countP Option.isSome :=
    List.countP_pos_iff.mpr ⟨some b, hget ▸ List.getElem_mem hi, rfl⟩
  rw [entries, List.countP_set hi, hget, entries]
  simp only [Option.isSome_some, if_true]
  omega

theorem entries_set_none (h : l[i]? = some (some b)) : entries (l.set i none) + 1 = entries l := by
  obtain ⟨hi, hget⟩ := List.getElem?_eq_some_iff.mp h
  have hfree : (l.set i none)[i]? = some none := List.getElem?_set_self hi
  rw [← entries_set_new (a := b) hfree, List.set_set, ← hget, List.set_getElem_self]

theorem entries_map {f : Option α → Option α} (hf : ∀ s, (f s).isSome = s.isSome) :
    entries (l.map f) = entries l := by
  rw [entries, List.countP_map, entries]
  congr 1
  funext s
  exact hf s

/-- The entries with a property are taken away. -/
theorem entries_remove (p : Option α → Bool) (hp : p none = false) :
    entries (l.map fun s => if p s then none else s) + l.countP p = entries l := by
  induction l with
  | nil => rfl
  | cons s l ih =>
    rw [entries] at ih ⊢
    rw [entries, List.map_cons, List.countP_cons, List.countP_cons, List.countP_cons]
    rw [entries] at ih
    cases s with
    | none => simp only [hp, Option.isSome_none, Bool.false_eq_true, if_false]; omega
    | some a =>
      by_cases ha : p (some a) = true
      · simp only [ha, Option.isSome_none, Option.isSome_some, Bool.false_eq_true, if_false,
          if_true]
        omega
      · simp only [ha, Option.isSome_some, Bool.false_eq_true, if_false, if_true]
        omega

end Count

/-! ## The slot for a key -/

/-- The slot that holds a key, with `true`, else the first empty one, with `false`. -/
def slotFor {β : Type*} (held empty : β → Bool) (l : List β) : Option (Nat × Bool) :=
  match l.findIdx? held with
  | some i => some (i, true)
  | none => (l.findIdx? empty).map (·, false)

section SlotFor

variable {β : Type*} {held empty : β → Bool} {l : List β} {i : Nat}

theorem slotFor_held (h : slotFor held empty l = some (i, true)) :
    ∃ s, l[i]? = some s ∧ held s = true := by
  rw [slotFor] at h
  split at h
  · next k hk =>
    obtain ⟨rfl, -⟩ := Prod.mk.inj (Option.some.inj h)
    obtain ⟨hlt, hheld, -⟩ := List.findIdx?_eq_some_iff_getElem.mp hk
    exact ⟨l[k], List.getElem?_eq_getElem hlt, hheld⟩
  · obtain ⟨k, -, hk⟩ := Option.map_eq_some_iff.mp h
    exact absurd (Prod.mk.inj hk).2 (by decide)

/-- No slot before the one that is found holds the key. -/
theorem slotFor_first (h : slotFor held empty l = some (i, true)) {j : Nat} (hj : j < i) {s : β}
    (hs : l[j]? = some s) : held s = false := by
  rw [slotFor] at h
  split at h
  · next k hk =>
    obtain ⟨rfl, -⟩ := Prod.mk.inj (Option.some.inj h)
    obtain ⟨_, -, hmin⟩ := List.findIdx?_eq_some_iff_getElem.mp hk
    obtain ⟨hlt, rfl⟩ := List.getElem?_eq_some_iff.mp hs
    exact Bool.not_eq_true _ ▸ hmin j hj
  · obtain ⟨k, -, hk⟩ := Option.map_eq_some_iff.mp h
    exact absurd (Prod.mk.inj hk).2 (by decide)

/-- With an empty slot there is a place. -/
theorem slotFor_ne_none (h : ∃ s ∈ l, empty s = true) : slotFor held empty l ≠ none := by
  obtain ⟨s, hs, hempty⟩ := h
  rw [slotFor]
  split
  · exact Option.some_ne_none _
  · intro hnone
    rw [Option.map_eq_none_iff, List.findIdx?_eq_none_iff] at hnone
    rw [hnone s hs] at hempty
    exact absurd hempty (by decide)

theorem slotFor_empty (h : slotFor held empty l = some (i, false)) :
    (∀ s ∈ l, held s = false) ∧ ∃ s, l[i]? = some s ∧ empty s = true := by
  rw [slotFor] at h
  split at h
  · next k hk => exact absurd (Prod.mk.inj (Option.some.inj h)).2 (by decide)
  · next hnone =>
    refine ⟨List.findIdx?_eq_none_iff.mp hnone, ?_⟩
    obtain ⟨k, hk, heq⟩ := Option.map_eq_some_iff.mp h
    obtain ⟨rfl, -⟩ := Prod.mk.inj heq
    obtain ⟨hlt, hempty, -⟩ := List.findIdx?_eq_some_iff_getElem.mp hk
    exact ⟨l[k], List.getElem?_eq_getElem hlt, hempty⟩

end SlotFor

end OnuFirmware.Lib
