import OnuFirmware.Lib.Slots
import Mathlib.Logic.Function.Basic

/-!
# Open addressing with a bounded search

A key may be in one of a few slots only, those of its window. It is put in the first slot of the
window that is empty or holds it, and looked for in all slots of the window, empty ones or not. The
table stands for a map from keys to values as long as no key is in two slots. A key that is in the
table gets into a second slot if it is put while a slot of its window before the one with the key is
empty.
-/

namespace OnuFirmware.Lib

variable {K V : Type*}

/-! ## Slots -/

/-- Slots from a place on, around the end of the table. -/
def probes (n : Nat) : Nat → Nat → List Nat
  | _, 0 => []
  | curr, i + 1 => curr :: probes n ((curr + 1) % n) i

theorem lt_of_mem_probes {n i curr p : Nat} (hcurr : curr < n) (h : p ∈ probes n curr i) :
    p < n := by
  induction i generalizing curr with
  | zero => exact absurd h List.not_mem_nil
  | succ i ih =>
    rcases List.mem_cons.mp h with rfl | h
    · exact hcurr
    · exact ih (Nat.mod_lt _ (by omega)) h

/-- The key in a slot. -/
def keyAt (t : List (Option (K × V))) (p : Nat) : Option K := (t.getD p none).map Prod.fst

theorem keyAt_eq_some {t : List (Option (K × V))} {p : Nat} {k : K} :
    keyAt t p = some k ↔ ∃ v, t[p]? = some (some (k, v)) := by
  rw [keyAt, List.getD_eq_getElem?_getD, Option.map_eq_some_iff]
  constructor
  · rintro ⟨e, he, rfl⟩
    refine ⟨e.2, ?_⟩
    cases hp : t[p]? with
    | none => rw [hp] at he; cases he
    | some s =>
      rw [hp, Option.getD_some] at he
      rw [he]
  · rintro ⟨v, hv⟩
    exact ⟨(k, v), by rw [hv, Option.getD_some], rfl⟩

theorem keyAt_eq_none {t : List (Option (K × V))} {p : Nat} (hp : p < t.length) :
    keyAt t p = none ↔ t[p]? = some none := by
  rw [keyAt, List.getD_eq_getElem?_getD, Option.map_eq_none_iff, List.getElem?_eq_getElem hp,
    Option.getD_some, Option.some_inj]

theorem keyAt_set_self {t : List (Option (K × V))} {p : Nat} (hp : p < t.length) {k : K} {v : V} :
    keyAt (t.set p (some (k, v))) p = some k :=
  keyAt_eq_some.mpr ⟨v, List.getElem?_set_self hp⟩

theorem keyAt_set_ne {t : List (Option (K × V))} {p q : Nat} (h : q ≠ p) {s : Option (K × V)} :
    keyAt (t.set p s) q = keyAt t q := by
  rw [keyAt, List.getD_eq_getElem?_getD, List.getElem?_set_ne h.symm, keyAt,
    List.getD_eq_getElem?_getD]

/-! ## The map that a table stands for -/

variable {win : Nat → K → List Nat} {t : List (Option (K × V))} {f : K → Option V}

/-- Every key is in a slot of its window. -/
def Sited (win : Nat → K → List Nat) (t : List (Option (K × V))) : Prop :=
  ∀ p e, t[p]? = some (some e) → p ∈ win t.length e.1

/-- The table stands for the map: every key is in one slot at most, which is in its window. -/
structure Represents (win : Nat → K → List Nat) (t : List (Option (K × V))) (f : K → Option V) :
    Prop where
  iff : ∀ k v, (∃ p : Nat, t[p]? = some (some (k, v))) ↔ f k = some v
  single : UniqueKeys (fun e : K × V => some e.1) t
  sited : Sited win t

theorem not_getElem?_replicate {n p : Nat} {e : K × V} :
    (List.replicate n (none : Option (K × V)))[p]? ≠ some (some e) := by
  rw [List.getElem?_replicate]
  split <;> simp

theorem sited_replicate (n : Nat) : Sited win (List.replicate n (none : Option (K × V))) :=
  fun _ _ h => absurd h not_getElem?_replicate

theorem represents_replicate (n : Nat) :
    Represents win (List.replicate n (none : Option (K × V))) fun _ => none where
  iff k v := by
    refine ⟨fun h => ?_, fun h => by cases h⟩
    obtain ⟨p, hp⟩ := h
    exact absurd hp not_getElem?_replicate
  single := uniqueKeys_replicate n
  sited := sited_replicate n

/-- A key in the table has its value in the map. -/
theorem Represents.of_keyAt (h : Represents win t f) {p : Nat} {k : K} (hk : keyAt t p = some k) :
    ∃ v, t[p]? = some (some (k, v)) ∧ f k = some v := by
  obtain ⟨v, hv⟩ := keyAt_eq_some.mp hk
  exact ⟨v, hv, (h.iff k v).mp ⟨p, hv⟩⟩

/-- Two slots with one key are one slot. -/
theorem Represents.eq_of_keyAt (h : Represents win t f) {p q : Nat} {k : K}
    (hp : keyAt t p = some k) (hq : keyAt t q = some k) : p = q := by
  obtain ⟨v, hv⟩ := keyAt_eq_some.mp hp
  obtain ⟨w, hw⟩ := keyAt_eq_some.mp hq
  exact h.single k p q ⟨(k, v), hv, rfl⟩ ⟨(k, w), hw, rfl⟩

theorem Sited.set (h : Sited win t) {p : Nat} {k : K} {v : V} (hp : p ∈ win t.length k) :
    Sited win (t.set p (some (k, v))) := by
  intro q e hq
  rw [List.length_set]
  by_cases hqp : q = p
  · subst hqp
    rw [List.getElem?_set] at hq
    rw [if_pos rfl] at hq
    split at hq
    · obtain rfl : (k, v) = e := Option.some.inj (Option.some.inj hq)
      exact hp
    · cases hq
  · rw [List.getElem?_set_ne (Ne.symm hqp)] at hq
    exact h q e hq

theorem Sited.erase (h : Sited win t) (p : Nat) : Sited win (t.set p none) := by
  intro q e hq
  rw [List.length_set]
  by_cases hqp : q = p
  · subst hqp
    rw [List.getElem?_set, if_pos rfl] at hq
    split at hq <;> cases hq
  · rw [List.getElem?_set_ne (Ne.symm hqp)] at hq
    exact h q e hq

/-- A key that gets into a second slot: the table stands for no map any more. -/
theorem not_represents_set {p q : Nat} {k : K} {v : V} (hlt : p < t.length) (hq : keyAt t q = some k)
    (hne : q ≠ p) : ¬ ∃ g, Represents win (t.set p (some (k, v))) g := by
  rintro ⟨g, hg⟩
  refine hne (hg.eq_of_keyAt ?_ (keyAt_set_self hlt))
  rwa [keyAt_set_ne hne]

/-! ## The keys of a table -/

/-- The keys in the slots, in their order. -/
def keysOf (t : List (Option (K × V))) : List K := t.filterMap (Option.map Prod.fst)

theorem mem_keysOf {k : K} : k ∈ keysOf t ↔ ∃ (v : V) (p : Nat), t[p]? = some (some (k, v)) := by
  rw [keysOf, List.mem_filterMap]
  constructor
  · rintro ⟨s, hs, hk⟩
    obtain ⟨e, rfl, rfl⟩ := Option.map_eq_some_iff.mp hk
    obtain ⟨p, hp⟩ := List.mem_iff_getElem?.mp hs
    exact ⟨e.2, p, hp⟩
  · rintro ⟨v, p, hp⟩
    exact ⟨some (k, v), List.mem_iff_getElem?.mpr ⟨p, hp⟩, rfl⟩

theorem length_keysOf (t : List (Option (K × V))) : (keysOf t).length = entries t := by
  rw [keysOf, entries]
  induction t with
  | nil => rfl
  | cons s t ih =>
    cases s with
    | none => rw [List.filterMap_cons_none rfl, ih, List.countP_cons_of_neg (by simp)]
    | some e =>
      rw [List.filterMap_cons, Option.map_some, List.length_cons, ih,
        List.countP_cons_of_pos (by simp)]

theorem UniqueKeys.nodup_keysOf (h : UniqueKeys (fun e : K × V => some e.1) t) :
    (keysOf t).Nodup := by
  rw [keysOf, List.Nodup, List.pairwise_filterMap, List.pairwise_iff_getElem]
  intro i j hi hj hij k hk k' hk' he
  subst he
  obtain ⟨e, he, rfl⟩ := Option.map_eq_some_iff.mp hk
  obtain ⟨e', he', hkk⟩ := Option.map_eq_some_iff.mp hk'
  have hsame : i = j := h e.1 i j ⟨e, by rw [List.getElem?_eq_getElem hi, he], rfl⟩
    ⟨e', by rw [List.getElem?_eq_getElem hj, he'], congrArg some hkk⟩
  omega

/-- **The keys of a table are those that have a value**, each of them once. -/
theorem Represents.mem_keysOf (h : Represents win t f) (k : K) :
    k ∈ keysOf t ↔ (f k).isSome = true := by
  rw [Lib.mem_keysOf, Option.isSome_iff_exists]
  exact exists_congr fun v => h.iff k v

/-! ## Searching -/

variable [DecidableEq K]

/-- The first of the slots that is empty or holds the key. -/
def freeFor (t : List (Option (K × V))) (k : K) (ps : List Nat) : Option Nat :=
  ps.find? fun p => keyAt t p = none ∨ keyAt t p = some k

/-- The first of the slots that holds the key. -/
def slotOf (t : List (Option (K × V))) (k : K) (ps : List Nat) : Option Nat :=
  ps.find? fun p => keyAt t p = some k

theorem freeFor_some {t : List (Option (K × V))} {k : K} {ps : List Nat} {p : Nat}
    (h : freeFor t k ps = some p) : p ∈ ps ∧ (keyAt t p = none ∨ keyAt t p = some k) :=
  ⟨List.mem_of_find?_eq_some h, by simpa using List.find?_some h⟩

theorem slotOf_some {t : List (Option (K × V))} {k : K} {ps : List Nat} {p : Nat}
    (h : slotOf t k ps = some p) : p ∈ ps ∧ keyAt t p = some k :=
  ⟨List.mem_of_find?_eq_some h, by simpa using List.find?_some h⟩

theorem slotOf_none {t : List (Option (K × V))} {k : K} {ps : List Nat}
    (h : slotOf t k ps = none) {p : Nat} (hp : p ∈ ps) : keyAt t p ≠ some k := by
  simpa using List.find?_eq_none.mp h p hp

/-- A search that asks for more and is met where the first one ended ends there too. -/
theorem find?_of_imp {α : Type*} {P Q : α → Bool} {l : List α} {a : α}
    (himp : ∀ b, Q b = true → P b = true) (h : l.find? P = some a) (ha : Q a = true) :
    l.find? Q = some a := by
  induction l with
  | nil => cases h
  | cons x l ih =>
    rw [List.find?_cons] at h ⊢
    cases hP : P x with
    | true =>
      rw [hP] at h
      obtain rfl : x = a := Option.some.inj h
      rw [ha]
    | false =>
      rw [hP] at h
      have hQ : Q x = false := by
        cases hQ : Q x with
        | false => rfl
        | true => exact absurd (himp x hQ) (by simp [hP])
      rw [hQ]
      exact ih h

/-- **A key is found where it was put**, in whatever state the table is. -/
theorem slotOf_set_freeFor {t : List (Option (K × V))} {k : K} {v : V} {ps : List Nat} {p : Nat}
    (h : freeFor t k ps = some p) (hp : p < t.length) :
    slotOf (t.set p (some (k, v))) k ps = some p := by
  refine find?_of_imp (fun q hq => ?_) h (by simpa using keyAt_set_self hp)
  rw [decide_eq_true_iff] at hq ⊢
  by_cases hqp : q = p
  · rw [hqp]
    exact (freeFor_some h).2
  · rw [keyAt_set_ne hqp] at hq
    exact .inr hq

/-- **A search in the window finds the value in the map.** -/
theorem Represents.lookup (h : Represents win t f) (k : K) :
    ((slotOf t k (win t.length k)).bind fun p => (t.getD p none).map Prod.snd) = f k := by
  cases hs : slotOf t k (win t.length k) with
  | some p =>
    obtain ⟨v, hv, hf⟩ := h.of_keyAt (slotOf_some hs).2
    rw [Option.bind_some, List.getD_eq_getElem?_getD, hv, hf]
    rfl
  | none =>
    rw [Option.bind_none]
    cases hf : f k with
    | none => rfl
    | some v =>
      obtain ⟨p, hp⟩ := (h.iff k v).mpr hf
      exact absurd (keyAt_eq_some.mpr ⟨v, hp⟩) (slotOf_none hs (h.sited p _ hp))

/-! ## Writing a slot -/

/-- **A key is written** where it is, or in a slot with no other key if it is nowhere. -/
theorem Represents.set (h : Represents win t f) {p : Nat} {k : K} (v : V) (hlt : p < t.length)
    (hwin : p ∈ win t.length k) (honly : ∀ q, keyAt t q = some k → q = p)
    (hold : ∀ k', keyAt t p = some k' → k' = k) :
    Represents win (t.set p (some (k, v))) (Function.update f k (some v)) where
  iff k' v' := by
    by_cases hk : k' = k
    · subst hk
      rw [Function.update_self, Option.some_inj]
      constructor
      · rintro ⟨q, hq⟩
        by_cases hqp : q = p
        · subst hqp
          rw [List.getElem?_set_self hlt] at hq
          exact congrArg Prod.snd (Option.some.inj (Option.some.inj hq))
        · rw [List.getElem?_set_ne (Ne.symm hqp)] at hq
          exact absurd (honly q (keyAt_eq_some.mpr ⟨v', hq⟩)) hqp
      · rintro rfl
        exact ⟨p, List.getElem?_set_self hlt⟩
    · rw [Function.update_of_ne hk, ← h.iff]
      constructor
      · rintro ⟨q, hq⟩
        by_cases hqp : q = p
        · subst hqp
          rw [List.getElem?_set_self hlt] at hq
          exact absurd (congrArg Prod.fst (Option.some.inj (Option.some.inj hq))).symm hk
        · rw [List.getElem?_set_ne (Ne.symm hqp)] at hq
          exact ⟨q, hq⟩
      · rintro ⟨q, hq⟩
        have hqp : q ≠ p := by
          rintro rfl
          exact hk (hold k' (keyAt_eq_some.mpr ⟨v', hq⟩))
        exact ⟨q, by rwa [List.getElem?_set_ne (Ne.symm hqp)]⟩
  single := by
    refine h.single.set ?_
    rintro k' hk' q hq ⟨e, he, hek⟩
    have hkk : e.1 = k := Option.some.inj (hek.trans hk'.symm)
    exact hq (honly q (keyAt_eq_some.mpr ⟨e.2, by rw [he, ← hkk]⟩))
  sited := h.sited.set hwin

/-- **A key is taken out.** -/
theorem Represents.erase (h : Represents win t f) {p : Nat} {k : K} (hk : keyAt t p = some k) :
    Represents win (t.set p none) (Function.update f k none) where
  iff k' v' := by
    have hout : ∀ {q e}, (t.set p none)[q]? = some (some e) → q ≠ p ∧ t[q]? = some (some e) := by
      intro q e hq
      by_cases hqp : q = p
      · subst hqp
        rw [List.getElem?_set, if_pos rfl] at hq
        split at hq <;> cases hq
      · exact ⟨hqp, by rwa [List.getElem?_set_ne (Ne.symm hqp)] at hq⟩
    by_cases hkk : k' = k
    · subst hkk
      rw [Function.update_self]
      refine ⟨?_, fun hf => by cases hf⟩
      rintro ⟨q, hq⟩
      obtain ⟨hqp, hq⟩ := hout hq
      exact absurd (h.eq_of_keyAt (keyAt_eq_some.mpr ⟨v', hq⟩) hk) hqp
    · rw [Function.update_of_ne hkk, ← h.iff]
      constructor
      · rintro ⟨q, hq⟩
        exact ⟨q, (hout hq).2⟩
      · rintro ⟨q, hq⟩
        have hqp : q ≠ p := by
          rintro rfl
          exact hkk (Option.some.inj ((keyAt_eq_some.mpr ⟨v', hq⟩).symm.trans hk))
        exact ⟨q, by rwa [List.getElem?_set_ne (Ne.symm hqp)]⟩
  single := by
    refine h.single.set_slot ?_
    intro k' hk'
    cases hk'
  sited := h.sited.erase p

/-! ## Tables without gaps -/

/-- The search for a slot for a key that is in the table ends at the key. -/
def Packed (win : Nat → K → List Nat) (t : List (Option (K × V))) : Prop :=
  ∀ k p, (∃ q, keyAt t q = some k) → freeFor t k (win t.length k) = some p → keyAt t p = some k

theorem packed_replicate (n : Nat) : Packed win (List.replicate n (none : Option (K × V))) := by
  rintro k p ⟨q, hq⟩ -
  obtain ⟨v, hv⟩ := keyAt_eq_some.mp hq
  exact absurd hv not_getElem?_replicate

/-- **Putting keys leaves no gaps.** -/
theorem Packed.set (h : Packed win t) {p : Nat} {k : K} {v : V} (hlt : p < t.length)
    (hp : freeFor t k (win t.length k) = some p) : Packed win (t.set p (some (k, v))) := by
  rintro k' p' ⟨q, hq⟩ hp'
  rw [List.length_set] at hp'
  -- A slot that ends the search now ended it before.
  have himp : ∀ b, decide (keyAt (t.set p (some (k, v))) b = none ∨
      keyAt (t.set p (some (k, v))) b = some k') = true → b ≠ p →
      decide (keyAt t b = none ∨ keyAt t b = some k') = true := by
    intro b hb hbp
    rwa [keyAt_set_ne hbp] at hb
  by_cases hk : k' = k
  · subst hk
    have hsame : freeFor (t.set p (some (k', v))) k' (win t.length k') = some p := by
      refine find?_of_imp (fun b hb => ?_) hp (by simp [keyAt_set_self hlt])
      by_cases hbp : b = p
      · rw [hbp, decide_eq_true_iff]
        exact (freeFor_some hp).2
      · exact himp b hb hbp
    obtain rfl : p = p' := Option.some.inj (hsame.symm.trans hp')
    exact keyAt_set_self hlt
  · have hqp : q ≠ p := by
      rintro rfl
      exact hk (Option.some.inj ((keyAt_set_self hlt).symm.trans hq)).symm
    rw [keyAt_set_ne hqp] at hq
    have hp'p : p' ≠ p := by
      rintro rfl
      rcases (freeFor_some hp').2 with he | he
      · exact absurd he (by rw [keyAt_set_self hlt]; exact Option.some_ne_none k)
      · exact hk (Option.some.inj ((keyAt_set_self hlt).symm.trans he)).symm
    -- The search in the table before ends somewhere, and there at the key.
    obtain ⟨p₁, hp₁⟩ : ∃ p₁, freeFor t k' (win t.length k') = some p₁ := by
      rw [← Option.isSome_iff_exists, freeFor, List.find?_isSome]
      obtain ⟨hmem, hend⟩ := freeFor_some hp'
      exact ⟨p', hmem, himp p' (by rwa [decide_eq_true_iff]) hp'p⟩
    have hkey := h k' p₁ ⟨q, hq⟩ hp₁
    have hp₁p : p₁ ≠ p := by
      rintro rfl
      rcases (freeFor_some hp).2 with he | he
      · rw [he] at hkey
        cases hkey
      · exact hk (Option.some.inj (hkey.symm.trans he))
    have hsame : freeFor (t.set p (some (k, v))) k' (win t.length k') = some p₁ := by
      refine find?_of_imp (fun b hb => ?_) hp₁ ?_
      · by_cases hbp : b = p
        · subst hbp
          rw [keyAt_set_self hlt, decide_eq_true_iff] at hb
          rcases hb with hb | hb
          · cases hb
          · exact absurd (Option.some.inj hb).symm hk
        · exact himp b hb hbp
      · rw [decide_eq_true_iff, keyAt_set_ne hp₁p]
        exact .inr hkey
    obtain rfl : p₁ = p' := Option.some.inj (hsame.symm.trans hp')
    rwa [keyAt_set_ne hp₁p]

end OnuFirmware.Lib
