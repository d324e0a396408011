import Mathlib.Order.Lattice

/-!
# Searching for the least

A loop goes through a list and keeps the least key of the elements that are asked for, with
something about the element. It starts from a bound, so it finds only what is below that bound.
-/

namespace OnuFirmware.Lib

variable {ι κ β : Type*} [LinearOrder κ]

/-- One step of the loop. -/
def leastStep (p : ι → Bool) (key : ι → κ) (val : ι → β) (acc : κ × β) (i : ι) : κ × β :=
  if p i = true ∧ key i < acc.1 then (key i, val i) else acc

/-- **What the loop finds**: nothing if no element is below the bound, and otherwise an element with
the least key of all. -/
theorem foldl_leastStep (p : ι → Bool) (key : ι → κ) (val : ι → β) (l : List ι) (acc : κ × β) :
    ((∀ i ∈ l, p i = true → acc.1 ≤ key i) ∧ l.foldl (leastStep p key val) acc = acc) ∨
      ∃ i ∈ l, p i = true ∧ key i < acc.1 ∧ (∀ j ∈ l, p j = true → key i ≤ key j) ∧
        l.foldl (leastStep p key val) acc = (key i, val i) := by
  induction l generalizing acc with
  | nil => exact .inl ⟨fun i hi => absurd hi List.not_mem_nil, rfl⟩
  | cons x l ih =>
    rw [List.foldl_cons]
    by_cases hx : p x = true ∧ key x < acc.1
    · rw [leastStep, if_pos hx]
      rcases ih (key x, val x) with ⟨hall, hfold⟩ | ⟨i, hi, hpi, hlt, hleast, hfold⟩
      · refine .inr ⟨x, List.mem_cons_self, hx.1, hx.2, ?_, hfold⟩
        intro j hj hpj
        rcases List.mem_cons.mp hj with rfl | hj
        · exact le_refl _
        · exact hall j hj hpj
      · refine .inr ⟨i, List.mem_cons_of_mem x hi, hpi, lt_trans hlt hx.2, ?_, hfold⟩
        intro j hj hpj
        rcases List.mem_cons.mp hj with rfl | hj
        · exact le_of_lt hlt
        · exact hleast j hj hpj
    · rw [leastStep, if_neg hx]
      have hge : p x = true → acc.1 ≤ key x := fun hpx => le_of_not_gt fun hlt => hx ⟨hpx, hlt⟩
      rcases ih acc with ⟨hall, hfold⟩ | ⟨i, hi, hpi, hlt, hleast, hfold⟩
      · refine .inl ⟨?_, hfold⟩
        intro j hj hpj
        rcases List.mem_cons.mp hj with rfl | hj
        · exact hge hpj
        · exact hall j hj hpj
      · refine .inr ⟨i, List.mem_cons_of_mem x hi, hpi, hlt, ?_, hfold⟩
        intro j hj hpj
        rcases List.mem_cons.mp hj with rfl | hj
        · exact le_trans (le_of_lt hlt) (hge hpj)
        · exact hleast j hj hpj

end OnuFirmware.Lib
