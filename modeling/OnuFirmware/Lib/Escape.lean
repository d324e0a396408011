import Mathlib.Data.List.Basic

/-!
# Escaping

A text is escaped by putting a mark before each special character. The result consists of plain
characters and of pairs (`Paired`); where the mark itself is special it can be read back, and no
such text ends in a mark that stands alone.
-/

namespace OnuFirmware.Lib

variable {α : Type*} {p : α → Bool} {e : α}

/-- The text with the mark `e` before each character that is special. -/
def escapeBy (p : α → Bool) (e : α) : List α → List α
  | [] => []
  | c :: l => if p c then e :: c :: escapeBy p e l else c :: escapeBy p e l

/-- Every special character belongs to a pair of a mark and a special character. -/
inductive Paired (p : α → Bool) (e : α) : List α → Prop
  | nil : Paired p e []
  | plain {c : α} {l : List α} : p c = false → Paired p e l → Paired p e (c :: l)
  | pair {c : α} {l : List α} : p c = true → Paired p e l → Paired p e (e :: c :: l)

/-- The text without its marks. -/
def unescape [DecidableEq α] (e : α) : List α → List α
  | [] => []
  | [c] => [c]
  | c :: d :: l => if c = e then d :: unescape e l else c :: unescape e (d :: l)

@[simp] theorem escapeBy_nil : escapeBy p e [] = [] := rfl

theorem escapeBy_special {c : α} (h : p c = true) (l : List α) :
    escapeBy p e (c :: l) = e :: c :: escapeBy p e l := if_pos h

theorem escapeBy_plain {c : α} (h : p c = false) (l : List α) :
    escapeBy p e (c :: l) = c :: escapeBy p e l := if_neg (by simp [h])

/-- Each special character makes the text longer by one. -/
theorem length_escapeBy (l : List α) : (escapeBy p e l).length = l.length + l.countP p := by
  induction l with
  | nil => rfl
  | cons c l ih =>
    rw [List.countP_cons, escapeBy]
    split
    · simp only [List.length_cons, ih]
      omega
    · simp only [List.length_cons, ih]
      omega

theorem escapeBy_eq_self {l : List α} (h : ∀ c ∈ l, p c = false) : escapeBy p e l = l := by
  induction l with
  | nil => rfl
  | cons c l ih =>
    rw [escapeBy_plain (h c List.mem_cons_self), ih fun d hd => h d (List.mem_cons_of_mem c hd)]

theorem mem_escapeBy {c : α} {l : List α} (h : c ∈ escapeBy p e l) : c = e ∨ c ∈ l := by
  induction l with
  | nil => exact .inr h
  | cons d l ih =>
    by_cases hd : p d = true
    · rw [escapeBy_special hd, List.mem_cons, List.mem_cons] at h
      rcases h with rfl | rfl | h
      · exact .inl rfl
      · exact .inr List.mem_cons_self
      · exact (ih h).imp_right (List.mem_cons_of_mem d)
    · rw [escapeBy_plain (by simpa using hd), List.mem_cons] at h
      rcases h with rfl | h
      · exact .inr List.mem_cons_self
      · exact (ih h).imp_right (List.mem_cons_of_mem d)

theorem paired_escapeBy (l : List α) : Paired p e (escapeBy p e l) := by
  induction l with
  | nil => exact .nil
  | cons c l ih =>
    rw [escapeBy]
    split
    · next hc => exact .pair hc ih
    · next hc => exact .plain (by simpa using hc) ih

/-- **Reading back**: removing the marks gives the text again, if the mark is special itself. -/
theorem unescape_escapeBy [DecidableEq α] (he : p e = true) (l : List α) :
    unescape e (escapeBy p e l) = l := by
  induction l with
  | nil => rfl
  | cons c l ih =>
    by_cases hc : p c = true
    · rw [escapeBy_special hc, unescape, if_pos rfl, ih]
    · have hce : c ≠ e := fun h => hc (h ▸ he)
      rw [escapeBy_plain (by simpa using hc)]
      cases hl : escapeBy p e l with
      | nil =>
        rw [hl] at ih
        rw [← ih]
        rfl
      | cons d r => rw [unescape, if_neg hce, ← hl, ih]

theorem Paired.of_plain (he : p e = true) {c : α} {l : List α} (hc : p c = false)
    (h : Paired p e (c :: l)) : Paired p e l := by
  cases h with
  | plain _ h => exact h
  | pair _ _ => exact absurd he (by simp [hc])

theorem Paired.of_pair (he : p e = true) {c : α} {l : List α} (h : Paired p e (e :: c :: l)) :
    Paired p e l := by
  cases h with
  | plain hp _ => exact absurd he (by simp [hp])
  | pair _ h => exact h

/-- A mark that stands alone at the end is in no pair. -/
theorem Paired.not_dangling (he : p e = true) {l : List α} (h : Paired p e l) :
    ¬ Paired p e (l ++ [e]) := by
  induction h with
  | nil =>
    intro h
    cases h with
    | plain hp _ => exact absurd he (by simp [hp])
  | plain hc _ ih => exact fun h => ih (h.of_plain he hc)
  | pair _ _ ih => exact fun h => ih (h.of_pair he)

end OnuFirmware.Lib
