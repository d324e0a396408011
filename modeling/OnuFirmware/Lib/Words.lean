import Mathlib.Data.BitVec
import Mathlib.Data.Fintype.Basic

/-!
# Words as sets of bit positions

A word of `w` bits stands for the set of its bits. The union of a table of words, one for each index
of a finite type, is kept up to date when one row of the table changes: remove the bits of the old
row, add the bits of the new one. That gives the union of the new table exactly when no other row
holds a bit that the row has lost.
-/

namespace OnuFirmware.Lib

variable {w n : Nat}

/-- The bitwise or of all rows of a table. -/
def orAll (t : Fin n → BitVec w) : BitVec w :=
  (List.finRange n).foldl (fun acc i => acc ||| t i) 0

/-- The word whose bits are the positions with `p`. -/
def wordOf (w : Nat) (p : Nat → Bool) : BitVec w :=
  (List.range w).foldl (fun acc k => if p k then acc ||| BitVec.twoPow w k else acc) 0

theorem getLsbD_foldl_or {ι : Type*} (t : ι → BitVec w) (k : Nat) : ∀ (l : List ι) (a : BitVec w),
    (l.foldl (fun acc i => acc ||| t i) a).getLsbD k =
      (a.getLsbD k || l.any fun i => (t i).getLsbD k)
  | [], a => by simp
  | i :: l, a => by
    rw [List.foldl_cons, getLsbD_foldl_or t k l, BitVec.getLsbD_or, List.any_cons, Bool.or_assoc]

/-- **A bit of the union is a bit of some row.** -/
theorem getLsbD_orAll (t : Fin n → BitVec w) (k : Nat) :
    (orAll t).getLsbD k = true ↔ ∃ i, (t i).getLsbD k = true := by
  rw [orAll, getLsbD_foldl_or]
  simp

theorem getLsbD_wordOf (p : Nat → Bool) {k : Nat} (hk : k < w) :
    (wordOf w p).getLsbD k = p k := by
  have hfold : ∀ (l : List Nat) (a : BitVec w),
      (l.foldl (fun acc j => if p j then acc ||| BitVec.twoPow w j else acc) a).getLsbD k =
        (a.getLsbD k || l.any fun j => p j && decide (j = k)) := by
    intro l
    induction l with
    | nil => simp
    | cons j l ih =>
      intro a
      rw [List.foldl_cons, ih, List.any_cons, ← Bool.or_assoc]
      congr 1
      by_cases hj : p j
      · rw [if_pos hj, BitVec.getLsbD_or, BitVec.getLsbD_twoPow, hj, Bool.true_and]
        by_cases hjk : j = k
        · simp [hjk, hk]
        · simp [hjk]
      · simp [hj]
  rw [wordOf, hfold, Bool.eq_iff_iff]
  simp only [BitVec.ofNat_eq_ofNat, BitVec.getLsbD_zero, Bool.false_or, List.any_eq_true,
    List.mem_range, Bool.and_eq_true, decide_eq_true_eq]
  constructor
  · rintro ⟨j, -, hp, rfl⟩
    exact hp
  · intro hp
    exact ⟨k, hk, hp, rfl⟩

theorem eq_wordOf {v : BitVec w} {p : Nat → Bool} (h : ∀ k < w, v.getLsbD k = p k) :
    v = wordOf w p :=
  BitVec.eq_of_getLsbD_eq fun k hk => by rw [h k hk, getLsbD_wordOf p hk]

/-! ## Changing one row -/

/-- The union kept incrementally: the old row is taken out, the new one is put in. -/
def replaceRow (all old new : BitVec w) : BitVec w := all &&& ~~~old ||| new

theorem and_eq_zero_iff {a b : BitVec w} :
    a &&& b = 0 ↔ ∀ k, a.getLsbD k = true → b.getLsbD k = false := by
  constructor
  · intro h k hk
    have hz := congrArg (fun v => v.getLsbD k) h
    simpa [BitVec.getLsbD_and, hk] using hz
  · intro h
    refine BitVec.eq_of_getLsbD_eq fun k _ => ?_
    cases ha : a.getLsbD k with
    | false => simp [ha]
    | true => simp [ha, h k ha]

/-- **When the incremental union is the union of the new table.** -/
theorem replaceRow_eq_iff (t : Fin n → BitVec w) (i : Fin n) (new : BitVec w) :
    replaceRow (orAll t) (t i) new = orAll (Function.update t i new) ↔
      ∀ j, j ≠ i → t i &&& ~~~new &&& t j = 0 := by
  constructor
  · intro h j hj
    rw [and_eq_zero_iff]
    intro k hlost
    rw [BitVec.getLsbD_and, BitVec.getLsbD_not, Bool.and_eq_true, Bool.and_eq_true,
      Bool.not_eq_true'] at hlost
    by_contra hbit
    -- the bit is in the new union through row `j`, but the update has removed it
    have hall : (orAll (Function.update t i new)).getLsbD k = true :=
      (getLsbD_orAll _ k).mpr ⟨j, by
        rw [Function.update_of_ne hj]
        exact Bool.eq_true_of_not_eq_false hbit⟩
    rw [← h, replaceRow, BitVec.getLsbD_or, BitVec.getLsbD_and, BitVec.getLsbD_not,
      hlost.1, hlost.2.2] at hall
    simp at hall
  · intro h
    refine BitVec.eq_of_getLsbD_eq fun k hk => ?_
    rw [Bool.eq_iff_iff, getLsbD_orAll, replaceRow, BitVec.getLsbD_or, BitVec.getLsbD_and,
      BitVec.getLsbD_not, Bool.or_eq_true, Bool.and_eq_true, getLsbD_orAll, Bool.and_eq_true,
      Bool.not_eq_true', decide_eq_true_eq]
    constructor
    · rintro (⟨⟨j, hj⟩, -, hold⟩ | hnew)
      · have hji : j ≠ i := by
          rintro rfl
          rw [hj] at hold
          exact absurd hold (by decide)
        exact ⟨j, by rw [Function.update_of_ne hji]; exact hj⟩
      · exact ⟨i, by rw [Function.update_self]; exact hnew⟩
    · rintro ⟨j, hj⟩
      by_cases hji : j = i
      · subst hji
        rw [Function.update_self] at hj
        exact .inr hj
      · rw [Function.update_of_ne hji] at hj
        cases hnew : new.getLsbD k with
        | true => exact .inr rfl
        | false =>
          refine .inl ⟨⟨j, hj⟩, hk, ?_⟩
          by_contra hold
          have hlost : (t i &&& ~~~new).getLsbD k = true := by
            rw [BitVec.getLsbD_and, BitVec.getLsbD_not, hnew, Bool.eq_true_of_not_eq_false hold]
            simpa using hk
          have hz := and_eq_zero_iff.mp (h j hji) k hlost
          rw [hj] at hz
          exact absurd hz (by decide)

end OnuFirmware.Lib
