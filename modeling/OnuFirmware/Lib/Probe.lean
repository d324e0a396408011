import Mathlib.Algebra.Group.Nat.Even
import Mathlib.Data.Finset.Card
import Mathlib.Data.List.Perm.Basic
import Mathlib.Data.Nat.ModEq
import Mathlib.Data.Nat.Prime.Basic
import Mathlib.Tactic.Ring

/-!
# Open addressing with growing steps

A table holds numbers, and 0 in the slots that are empty. A number is looked for first at the slot
that it is congruent to, and then one, two, three and so on slots further, around the end of the
table. It is placed in the first empty slot of the first half of these probes. A number for which
there is none makes the table grow: all numbers are placed again in an empty table of the next size.
If the size is a prime number the probes of the first half are distinct, so that a table which is
less than half full has a slot for every number.
-/

namespace OnuFirmware.Lib

variable {m h c d : Nat} {t : List Nat} {k : Nat}

/-! ## Probes -/

/-- The slot of the probe with a number: the steps up to it add up. -/
def probe (m h c : Nat) : Nat := (h + c * (c + 1) / 2) % m

attribute [grind =] probe

theorem probe_zero (m h : Nat) : probe m h 0 = h % m := by
  rw [probe, Nat.zero_mul, Nat.zero_div, Nat.add_zero]

theorem triangle_succ (c : Nat) : (c + 1) * (c + 1 + 1) / 2 = c * (c + 1) / 2 + (c + 1) := by
  have hsplit : (c + 1) * (c + 1 + 1) = c * (c + 1) + (c + 1) * 2 := by ring
  rw [hsplit, Nat.add_mul_div_right _ _ (by decide)]

theorem probe_succ (m h c : Nat) : probe m h (c + 1) = (probe m h c + (c + 1)) % m := by
  rw [probe, probe, Nat.mod_add_mod, triangle_succ, Nat.add_assoc]

theorem probe_lt (hm : 0 < m) : probe m h c < m := Nat.mod_lt _ hm

/-- Twice the sum of the steps. -/
theorem two_triangle (c : Nat) : 2 * (c * (c + 1) / 2) = c * (c + 1) :=
  Nat.mul_div_cancel' (Nat.even_mul_succ_self c).two_dvd

/-- **In a table of a prime size the probes of the first half are distinct.** -/
theorem probe_inj (hp : m.Prime) (hc : c < m / 2) (hd : d < m / 2)
    (heq : probe m h c = probe m h d) : c = d := by
  wlog hle : c ≤ d generalizing c d
  · exact (this hd hc heq.symm (by omega)).symm
  have hmod : c * (c + 1) / 2 ≡ d * (d + 1) / 2 [MOD m] := Nat.ModEq.add_left_cancel' h heq
  have hprod : c * (c + 1) ≡ d * (d + 1) [MOD m] := by
    rw [← two_triangle c, ← two_triangle d]
    exact hmod.mul_left 2
  have hdvd := (Nat.modEq_iff_dvd' (Nat.mul_le_mul hle (by omega))).mp hprod
  have hfactor : d * (d + 1) - c * (c + 1) = (d - c) * (d + c + 1) := by
    obtain ⟨e, rfl⟩ := Nat.exists_eq_add_of_le hle
    rw [Nat.add_sub_cancel_left, Nat.sub_eq_iff_eq_add (Nat.mul_le_mul hle (by omega))]
    ring
  rw [hfactor] at hdvd
  rcases hp.dvd_mul.mp hdvd with hdiff | hsum
  · have hzero := Nat.eq_zero_of_dvd_of_lt hdiff (by omega)
    omega
  · exact absurd (Nat.le_of_dvd (by omega) hsum) (by omega)

/-! ## Searching -/

/-- The number in a slot. -/
def slotAt (t : List Nat) (p : Nat) : Nat := t.getD p 0

attribute [grind =] slotAt

/-- A probe ends the search: the slot is empty or holds the number. -/
def Stops (t : List Nat) (k c : Nat) : Prop :=
  slotAt t (probe t.length k c) = 0 ∨ slotAt t (probe t.length k c) = k

instance (t : List Nat) (k c : Nat) : Decidable (Stops t k c) :=
  inferInstanceAs (Decidable (_ ∨ _))

/-- The first probe that ends the search. -/
def seek (t : List Nat) (k : Nat) : Option Nat :=
  (List.range t.length).find? fun c => Stops t k c

/-- The slot at which the search is given up, or ended. -/
def endSlot (t : List Nat) (k : Nat) : Nat :=
  probe t.length k ((seek t k).getD (t.length - 1))

attribute [grind =] seek endSlot

theorem seek_eq_some : seek t k = some c ↔
    c < t.length ∧ Stops t k c ∧ ∀ d < c, ¬ Stops t k d := by
  rw [seek, List.find?_range_eq_some, List.mem_range, decide_eq_true_iff]
  simp only [Bool.not_eq_true', decide_eq_false_iff_not]
  tauto

theorem seek_eq_none : seek t k = none ↔ ∀ c < t.length, ¬ Stops t k c := by
  rw [seek, List.find?_range_eq_none]
  simp only [Bool.not_eq_true', decide_eq_false_iff_not]

/-- Every number in the table is in the slot at which the search for it ends. -/
def Reached (t : List Nat) : Prop :=
  ∀ p, p < t.length → slotAt t p ≠ 0 → ∃ c, seek t (slotAt t p) = some c ∧
    probe t.length (slotAt t p) c = p

/-- **A number that is in the table is found.** -/
theorem Reached.endSlot_eq (ht : Reached t) {p : Nat} (hp : p < t.length)
    (hne : slotAt t p ≠ 0) : endSlot t (slotAt t p) = p := by
  obtain ⟨c, hseek, hprobe⟩ := ht p hp hne
  rw [endSlot, hseek, Option.getD_some, hprobe]

theorem slotAt_replicate (m p : Nat) : slotAt (List.replicate m 0) p = 0 := by
  rw [slotAt, List.getD_eq_getElem?_getD, List.getElem?_replicate]
  split <;> rfl

theorem reached_replicate (m : Nat) : Reached (List.replicate m 0) := fun p _ hne =>
  absurd (slotAt_replicate m p) hne

theorem slotAt_set_self {p : Nat} (hp : p < t.length) : slotAt (t.set p k) p = k := by
  rw [slotAt, List.getD_eq_getElem?_getD, List.getElem?_set_self hp, Option.getD_some]

theorem slotAt_set_ne {p q : Nat} (h : q ≠ p) : slotAt (t.set p k) q = slotAt t q := by
  rw [slotAt, List.getD_eq_getElem?_getD, List.getElem?_set_ne h.symm, slotAt,
    List.getD_eq_getElem?_getD]

/-- **A number that is placed in the empty slot at which the search for it ends can be found, and so
can the others.** -/
theorem Reached.set (ht : Reached t) (hseek : seek t k = some c)
    (hempty : slotAt t (probe t.length k c) = 0) : Reached (t.set (probe t.length k c) k) := by
  obtain ⟨hc, -, hfirst⟩ := seek_eq_some.mp hseek
  have hlt : probe t.length k c < t.length := probe_lt (by omega)
  -- A slot that does not end a search is not the one that is filled.
  have hkeep : ∀ {x d}, ¬ Stops t x d → ¬ Stops (t.set (probe t.length k c) k) x d := by
    intro x d hstop
    have hne : probe t.length x d ≠ probe t.length k c := fun he => hstop (.inl (he ▸ hempty))
    rwa [Stops, List.length_set, slotAt_set_ne hne]
  intro p hp hne
  rw [List.length_set] at hp
  by_cases hpc : p = probe t.length k c
  · subst hpc
    rw [slotAt_set_self hlt, List.length_set]
    refine ⟨c, seek_eq_some.mpr ⟨by rwa [List.length_set], .inr ?_, fun d hd =>
      hkeep (hfirst d hd)⟩, rfl⟩
    rw [List.length_set, slotAt_set_self hlt]
  · rw [slotAt_set_ne hpc] at hne ⊢
    obtain ⟨c', hseek', hprobe⟩ := ht p hp hne
    obtain ⟨hc', -, hfirst'⟩ := seek_eq_some.mp hseek'
    rw [List.length_set]
    refine ⟨c', seek_eq_some.mpr ⟨by rwa [List.length_set], .inr ?_, fun d hd =>
      hkeep (hfirst' d hd)⟩, hprobe⟩
    rw [List.length_set, hprobe, slotAt_set_ne hpc]

/-! ## Placing -/

/-- A number is placed, if one of the probes of the first half ends the search. -/
def place (t : List Nat) (k : Nat) : Option (List Nat) :=
  match seek t k with
  | some c => if c < t.length / 2 then some (t.set (probe t.length k c) k) else none
  | none => none

theorem place_eq_some {t' : List Nat} : place t k = some t' ↔
    ∃ c, seek t k = some c ∧ c < t.length / 2 ∧ t' = t.set (probe t.length k c) k := by
  rw [place]
  cases seek t k with
  | none => simp
  | some c =>
    by_cases hc : c < t.length / 2
    · simp [hc, eq_comm]
    · simp [hc]

theorem length_place {t' : List Nat} (h : place t k = some t') : t'.length = t.length := by
  obtain ⟨c, -, -, rfl⟩ := place_eq_some.mp h
  exact List.length_set

/-- Numbers are placed in order. The result is the table and, if there is no place for one of them,
that number and those behind it. -/
def placeAll : List Nat → List Nat → List Nat × List Nat
  | t, [] => (t, [])
  | t, k :: ks =>
    match place t k with
    | some t => placeAll t ks
    | none => (t, k :: ks)

/-- Numbers are placed in a table that can grow to the given sizes. -/
def settle : List Nat → List Nat → List Nat → Option (List Nat × List Nat)
  | [], t, ks =>
    match placeAll t ks with
    | (t, []) => some ([], t)
    | (_, _ :: _) => none
  | m :: sizes, t, ks =>
    match placeAll t ks with
    | (t, []) => some (m :: sizes, t)
    | (t, k :: ks) => settle sizes (List.replicate m 0) (t.filter (· ≠ 0) ++ k :: ks)

attribute [grind =] placeAll settle

/-! ## Enough space -/

/-- The numbers in a table. -/
def content (t : List Nat) : List Nat := t.filter (· ≠ 0)

attribute [grind =] content

theorem content_replicate (m : Nat) : content (List.replicate m 0) = [] := by simp [content]

theorem eq_map_slotAt (t : List Nat) : t = (List.range t.length).map (slotAt t) := by
  refine List.ext_getElem (by simp) fun p hp hp' => ?_
  rw [List.getElem_map, List.getElem_range, slotAt, List.getD_eq_getElem?_getD,
    List.getElem?_eq_getElem hp, Option.getD_some]

theorem card_filled (t : List Nat) :
    ((Finset.range t.length).filter fun p => slotAt t p ≠ 0).card = (content t).length := by
  conv_rhs => rw [content, eq_map_slotAt t, List.filter_map, List.length_map]
  rfl

/-- **A table of a prime size that is less than half full has a slot for every number.** -/
theorem place_isSome (hp : t.length.Prime) (hfull : (content t).length < t.length / 2) (k : Nat) :
    (place t k).isSome = true := by
  have hinj : Set.InjOn (probe t.length k) (Finset.range (t.length / 2)) := by
    intro c hc d hd heq
    exact probe_inj hp (Finset.mem_range.mp hc) (Finset.mem_range.mp hd) heq
  have hcard : ((Finset.range t.length).filter fun p => slotAt t p ≠ 0).card <
      ((Finset.range (t.length / 2)).image (probe t.length k)).card := by
    rw [Finset.card_image_of_injOn hinj, Finset.card_range, card_filled]
    exact hfull
  obtain ⟨p, hmem, hfree⟩ := Finset.exists_mem_notMem_of_card_lt_card hcard
  obtain ⟨c, hc, rfl⟩ := Finset.mem_image.mp hmem
  have hempty : slotAt t (probe t.length k c) = 0 := by
    by_contra hne
    exact hfree (Finset.mem_filter.mpr ⟨Finset.mem_range.mpr (probe_lt hp.pos), hne⟩)
  have hhalf := Finset.mem_range.mp hc
  cases hseek : seek t k with
  | none => exact absurd (.inl hempty) (seek_eq_none.mp hseek c (by omega))
  | some d =>
    have hd : d ≤ c := by
      by_contra hlt
      exact (seek_eq_some.mp hseek).2.2 c (by omega) (.inl hempty)
    rw [place_eq_some.mpr ⟨d, hseek, by omega, rfl⟩]
    rfl

theorem length_content_place {t' : List Nat} (h : place t k = some t') :
    (content t').length ≤ (content t).length + 1 := by
  obtain ⟨c, hseek, -, rfl⟩ := place_eq_some.mp h
  have hlt := (seek_eq_some.mp hseek).1
  rw [content, content, ← List.countP_eq_length_filter, ← List.countP_eq_length_filter,
    List.countP_set (probe_lt (by omega))]
  split <;> split <;> omega

theorem placeAll_length : ∀ {ks t : List Nat},
    (placeAll t ks).1.length = t.length ∧
      (content (placeAll t ks).1).length + (placeAll t ks).2.length ≤
        (content t).length + ks.length
  | [], t => ⟨rfl, Nat.le_refl _⟩
  | k :: ks, t => by
    rw [placeAll]
    cases hplace : place t k with
    | none => exact ⟨rfl, Nat.le_refl _⟩
    | some t' =>
      obtain ⟨hlen, hcontent⟩ := @placeAll_length ks t'
      have hone := length_content_place hplace
      refine ⟨hlen.trans (length_place hplace), hcontent.trans ?_⟩
      rw [List.length_cons]
      omega

theorem placeAll_done : ∀ {ks t : List Nat}, t.length.Prime →
    (content t).length + ks.length ≤ t.length / 2 → (placeAll t ks).2 = []
  | [], _, _, _ => rfl
  | k :: ks, t, hp, hle => by
    rw [List.length_cons] at hle
    obtain ⟨t', hplace⟩ := Option.isSome_iff_exists.mp (place_isSome hp (by omega) k)
    have hone := length_content_place hplace
    rw [placeAll, hplace]
    refine placeAll_done ?_ ?_
    · rwa [length_place hplace]
    · rw [length_place hplace]
      omega

/-- **Numbers that fill at most half of a table of the last size fit, if that is prime.** -/
theorem settle_isSome : ∀ {sizes t ks : List Nat}, (sizes.getLastD t.length).Prime →
    (content t).length + ks.length ≤ sizes.getLastD t.length / 2 →
    (settle sizes t ks).isSome = true
  | [], t, ks, hp, hle => by
    have hdone := placeAll_done hp hle
    rw [settle]
    cases h : placeAll t ks with
    | mk t' rest =>
      rw [h] at hdone
      obtain rfl : rest = [] := hdone
      rfl
  | m :: sizes, t, ks, hp, hle => by
    obtain ⟨-, hlen⟩ := @placeAll_length ks t
    rw [settle]
    cases h : placeAll t ks with
    | mk t' rest =>
      cases rest with
      | nil => rfl
      | cons k rest =>
        rw [h] at hlen
        rw [List.getLastD_cons] at hp hle
        refine settle_isSome (by rwa [List.length_replicate]) ?_
        rw [List.length_replicate, content_replicate, List.length_append, List.length_nil,
          Nat.zero_add]
        exact hlen.trans hle

/-! ## Placing in two parts -/

theorem placeAll_append {ks ks' : List Nat} : ∀ {t t' : List Nat}, placeAll t ks = (t', []) →
    placeAll t (ks ++ ks') = placeAll t' ks' := by
  induction ks with
  | nil =>
    intro t t' h
    obtain rfl : t = t' := congrArg Prod.fst h
    rfl
  | cons k ks ih =>
    intro t t' h
    rw [List.cons_append, placeAll]
    rw [placeAll] at h
    cases hplace : place t k with
    | none =>
      rw [hplace] at h
      exact absurd (congrArg Prod.snd h) (List.cons_ne_nil k ks)
    | some t₁ =>
      rw [hplace] at h
      exact ih h

theorem placeAll_append_stuck {ks ks' : List Nat} {k : Nat} {rest : List Nat} :
    ∀ {t t' : List Nat}, placeAll t ks = (t', k :: rest) →
      placeAll t (ks ++ ks') = (t', k :: (rest ++ ks')) := by
  induction ks with
  | nil =>
    intro t t' h
    exact absurd (congrArg Prod.snd h).symm (List.cons_ne_nil k rest)
  | cons x ks ih =>
    intro t t' h
    rw [List.cons_append, placeAll]
    rw [placeAll] at h
    cases hplace : place t x with
    | none =>
      rw [hplace] at h
      obtain ⟨rfl, hks⟩ := Prod.mk.inj h
      obtain ⟨rfl, rfl⟩ := List.cons.inj hks
      rfl
    | some t₁ =>
      rw [hplace] at h
      exact ih h

/-- **Numbers can be placed in two parts.** -/
theorem settle_append {ks ks' : List Nat} : ∀ {sizes t : List Nat},
    settle sizes t (ks ++ ks') = (settle sizes t ks).bind fun r => settle r.1 r.2 ks' := by
  intro sizes
  induction sizes generalizing ks with
  | nil =>
    intro t
    cases h : placeAll t ks with
    | mk t' rest =>
      cases rest with
      | nil => simp only [settle, placeAll_append h, h, Option.bind_some]
      | cons k rest => simp only [settle, placeAll_append_stuck h, h, Option.bind_none]
  | cons m sizes ih =>
    intro t
    cases h : placeAll t ks with
    | mk t' rest =>
      cases rest with
      | nil => simp only [settle, placeAll_append h, h, Option.bind_some]
      | cons k rest =>
        simp only [settle, placeAll_append_stuck h, h]
        rw [← List.cons_append, ← List.append_assoc]
        exact ih

theorem settle_placed {t' : List Nat} (sizes : List Nat) (h : place t k = some t') :
    settle sizes t [k] = some (sizes, t') := by
  have hall : placeAll t [k] = (t', []) := by simp only [placeAll, h]
  cases sizes with
  | nil => rw [settle, hall]
  | cons m sizes => rw [settle, hall]

theorem settle_stuck_nil (h : place t k = none) : settle [] t [k] = none := by
  rw [settle, placeAll, h]

theorem settle_stuck_cons (m : Nat) (sizes : List Nat) (h : place t k = none) :
    settle (m :: sizes) t [k] = settle sizes (List.replicate m 0) (content t ++ [k]) := by
  rw [settle, placeAll, h, content]

end OnuFirmware.Lib
