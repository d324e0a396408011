import Mathlib.Data.List.Basic

/-!
# Splitting at a separator

A list that is cut anywhere can be split piece by piece: the last field of the first piece is
carried over to the second one. `Lines` is the other reading of separators, where each piece is
followed by one; an induction over it takes a text line by line.
-/

namespace OnuFirmware.Lib

variable {α : Type*} [BEq α] [LawfulBEq α] {x : α}

/-- A list is without the separator, or is cut at the first one. -/
theorem splitOn_cases (x : α) (l : List α) :
    (x ∉ l ∧ l.splitOn x = [l]) ∨
      ∃ a b, l = a ++ x :: b ∧ x ∉ a ∧ l.splitOn x = a :: b.splitOn x := by
  by_cases h : x ∈ l
  · obtain ⟨a, b, rfl, ha⟩ := List.eq_append_cons_of_mem h
    exact .inr ⟨a, b, rfl, ha, List.splitOn_append_cons_self_of_not_mem ha b⟩
  · exact .inl ⟨h, List.splitOn_eq_singleton h⟩

/-- The fields are without the separator. -/
theorem notMem_of_mem_splitOn {l f : List α} (hf : f ∈ l.splitOn x) : x ∉ f := by
  induction hn : l.length using Nat.strongRecOn generalizing l with
  | ind n ih =>
    rcases splitOn_cases x l with ⟨hx, hl⟩ | ⟨a, b, rfl, ha, hl⟩
    · rw [hl, List.mem_singleton] at hf
      rwa [hf]
    · rw [hl] at hf
      rcases List.mem_cons.mp hf with rfl | hb
      · exact ha
      · exact ih b.length (by rw [← hn]; simp; omega) hb rfl

/-- The fields are parts of the list. -/
theorem infix_of_mem_splitOn {l f : List α} (hf : f ∈ l.splitOn x) : f <:+: l := by
  induction hn : l.length using Nat.strongRecOn generalizing l with
  | ind n ih =>
    rcases splitOn_cases x l with ⟨-, hl⟩ | ⟨a, b, rfl, -, hl⟩
    · rw [hl, List.mem_singleton] at hf
      exact hf ▸ List.infix_rfl
    · rw [hl] at hf
      rcases List.mem_cons.mp hf with rfl | hb
      · exact (List.prefix_append _ _).isInfix
      · have hrest := ih b.length (by rw [← hn]; simp; omega) hb rfl
        exact hrest.trans ((List.suffix_cons x b).trans (List.suffix_append a _)).isInfix

/-- A piece without the separator goes to the first field. -/
theorem splitOn_append_of_notMem {a : List α} (h : x ∉ a) (l : List α) :
    (a ++ l).splitOn x = (l.splitOn x).modifyHead (a ++ ·) := by
  rcases splitOn_cases x l with ⟨hx, hl⟩ | ⟨b, c, rfl, hb, hl⟩
  · rw [hl, List.splitOn_eq_singleton (by simp [h, hx])]
    rfl
  · rw [hl, ← List.append_assoc, List.splitOn_append_cons_self_of_not_mem (by simp [h, hb])]
    rfl

/-- **The last field of the first piece is carried over.** -/
theorem splitOn_append (a l : List α) :
    (a ++ l).splitOn x = (a.splitOn x).dropLast ++
      ((a.splitOn x).getLast (List.splitOn_ne_nil x a) ++ l).splitOn x := by
  induction hn : a.length using Nat.strongRecOn generalizing a with
  | ind n ih =>
    rcases splitOn_cases x a with ⟨hx, ha⟩ | ⟨b, c, rfl, hb, ha⟩
    · simp [ha]
    · have hc := ih c.length (by rw [← hn]; simp; omega) c rfl
      have hne := List.splitOn_ne_nil x c
      simp only [ha, List.getLast_cons hne, List.dropLast_cons_of_ne_nil hne]
      rw [List.append_assoc, List.cons_append, List.splitOn_append_cons_self_of_not_mem hb, hc,
        List.cons_append]

/-! ## Lines -/

/-- The list consists of the lines `ls`, each followed by an element that ends it. -/
inductive Lines {β : Type*} (p : β → Bool) : List β → List (List β) → Prop
  | nil : Lines p [] []
  | cons {l rest : List β} {c : β} {ls : List (List β)} (clean : ∀ y ∈ l, p y = false)
      (stop : p c = true) (tail : Lines p rest ls) : Lines p (l ++ c :: rest) (l :: ls)

theorem Lines.cons_head {β : Type*} {p : β → Bool} {a : β} (ha : p a = false) {t : List β}
    {ls : List (List β)} (h : Lines p t ls) (ht : t ≠ []) :
    Lines p (a :: t) (ls.modifyHead (a :: ·)) := by
  cases h with
  | nil => exact absurd rfl ht
  | cons clean stop tail =>
    exact .cons (fun y hy => (List.mem_cons.mp hy).elim (fun h => h ▸ ha) (clean y)) stop tail

/-- The pieces of a list are the lines of the list with an end behind it. -/
theorem lines_splitOnP {β : Type*} {p : β → Bool} {e : β} (he : p e = true) (l : List β) :
    Lines p (l ++ [e]) (l.splitOnP p) := by
  induction l with
  | nil => exact @Lines.cons β p [] [] e [] (by simp) he .nil
  | cons a l ih =>
    rw [List.splitOnP_cons_eq_if_modifyHead]
    split
    · next ha => exact @Lines.cons β p [] _ a _ (by simp) ha ih
    · next ha => exact ih.cons_head (by simpa using ha) (by simp)

end OnuFirmware.Lib
