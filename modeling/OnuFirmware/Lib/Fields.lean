import OnuFirmware.Lib.Escape
import Mathlib.Algebra.GroupWithZero.Nat

/-!
# Records of escaped fields

The fields of a record are escaped, so that a mark stands before each separator and each mark of
their own, and joined with separators. A record is split at the separators that have no mark before
them. The reader gives the fields back, and from a record that was cut it never does.
-/

namespace OnuFirmware.Lib

variable {α : Type*} [DecidableEq α] {s e : α}

/-- Separators and marks are special. -/
def isSpecial (s e : α) (c : α) : Bool := c = s || c = e

/-- The fields, escaped and with a separator between them. -/
def joinFields (s e : α) : List (List α) → List α
  | [] => []
  | [f] => escapeBy (isSpecial s e) e f
  | f :: g :: fs => escapeBy (isSpecial s e) e f ++ s :: joinFields s e (g :: fs)

/-- The fields of a record: what stands between its separators, without the marks. A mark at the
end of the record that stands before nothing is dropped. -/
def splitFields (s e : α) : List α → List (List α)
  | [] => [[]]
  | [c] => if c = e then [[]] else if c = s then [[], []] else [[c]]
  | c :: d :: l =>
    if c = e then (splitFields s e l).modifyHead (d :: ·)
    else if c = s then [] :: splitFields s e (d :: l)
    else (splitFields s e (d :: l)).modifyHead (c :: ·)

attribute [grind =] joinFields splitFields

theorem isSpecial_iff {c : α} : isSpecial s e c = true ↔ c = s ∨ c = e := by
  rw [isSpecial, Bool.or_eq_true, decide_eq_true_iff, decide_eq_true_iff]

theorem splitFields_ne_nil (l : List α) : splitFields s e l ≠ [] := by
  induction l using splitFields.induct s e with
  | case1 => simp [splitFields]
  | case2 => simp [splitFields]
  | case3 => simp [splitFields, *]
  | case4 c hc hcs => rw [splitFields, if_neg hc, if_neg hcs]; simp
  | case5 d l ih => rw [splitFields, if_pos rfl]; simpa using ih
  | case6 => simp [splitFields, *]
  | case7 c d l hc hcs ih => rw [splitFields, if_neg hc, if_neg hcs]; simpa using ih

theorem splitFields_mark (d : α) (l : List α) :
    splitFields s e (e :: d :: l) = (splitFields s e l).modifyHead (d :: ·) := by
  rw [splitFields, if_pos rfl]

theorem splitFields_sep (hse : s ≠ e) (l : List α) :
    splitFields s e (s :: l) = [] :: splitFields s e l := by
  cases l with
  | nil => simp only [splitFields, if_neg hse, if_true]
  | cons d l => rw [splitFields, if_neg hse, if_pos rfl]

theorem splitFields_plain {c : α} (h : isSpecial s e c = false) (l : List α) :
    splitFields s e (c :: l) = (splitFields s e l).modifyHead (c :: ·) := by
  have hc : c ≠ s ∧ c ≠ e := by
    rw [← not_or, ← isSpecial_iff, h]
    exact Bool.false_ne_true
  cases l with
  | nil => simp only [splitFields, if_neg hc.2, if_neg hc.1, List.modifyHead_cons]
  | cons d l => rw [splitFields, if_neg hc.2, if_neg hc.1]

/-- The reader goes over an escaped text as one field. -/
theorem splitFields_escapeBy (f l : List α) :
    splitFields s e (escapeBy (isSpecial s e) e f ++ l) =
      (splitFields s e l).modifyHead (f ++ ·) := by
  induction f with
  | nil => cases h : splitFields s e l <;> simp [h]
  | cons c f ih =>
    have hhead : ((splitFields s e l).modifyHead (f ++ ·)).modifyHead (c :: ·) =
        (splitFields s e l).modifyHead (c :: f ++ ·) := by
      cases splitFields s e l <;> rfl
    by_cases hc : isSpecial s e c = true
    · rw [escapeBy_special hc, List.cons_append, List.cons_append, splitFields_mark, ih, hhead]
    · rw [escapeBy_plain (by simpa using hc), List.cons_append,
        splitFields_plain (by simpa using hc), ih, hhead]

/-- **Reading back**: the fields of a joined record are the ones it was joined from. -/
theorem splitFields_joinFields (hse : s ≠ e) {fs : List (List α)} (hne : fs ≠ []) :
    splitFields s e (joinFields s e fs) = fs := by
  induction fs with
  | nil => exact absurd rfl hne
  | cons f fs ih =>
    cases fs with
    | nil =>
      have h := splitFields_escapeBy (s := s) (e := e) f []
      rw [List.append_nil] at h
      rw [joinFields, h, splitFields, List.modifyHead_cons, List.append_nil]
    | cons g fs =>
      rw [joinFields, splitFields_escapeBy, splitFields_sep hse, ih (List.cons_ne_nil g fs),
        List.modifyHead_cons, List.append_nil]

/-- The length of a record. -/
theorem length_joinFields {fs : List (List α)} (hne : fs ≠ []) :
    (joinFields s e fs).length + 1 =
      (fs.map fun f => f.length + f.countP (isSpecial s e) + 1).sum := by
  induction fs with
  | nil => exact absurd rfl hne
  | cons f fs ih =>
    cases fs with
    | nil => rw [joinFields, length_escapeBy, List.map_singleton, List.sum_singleton]
    | cons g fs =>
      rw [joinFields, List.map_cons, List.sum_cons, ← ih (List.cons_ne_nil g fs),
        List.length_append, List.length_cons, length_escapeBy]
      omega

/-- The characters of a record. -/
theorem mem_joinFields {c : α} {fs : List (List α)} (h : c ∈ joinFields s e fs) :
    c = s ∨ c = e ∨ ∃ f ∈ fs, c ∈ f := by
  induction fs with
  | nil => exact absurd h List.not_mem_nil
  | cons f fs ih =>
    have hfield : c ∈ escapeBy (isSpecial s e) e f → c = s ∨ c = e ∨ ∃ g ∈ f :: fs, c ∈ g := by
      intro hf
      rcases mem_escapeBy hf with hc | hc
      · exact .inr (.inl hc)
      · exact .inr (.inr ⟨f, List.mem_cons_self, hc⟩)
    cases fs with
    | nil => exact hfield h
    | cons g fs =>
      rcases List.mem_append.mp h with hf | hf
      · exact hfield hf
      rcases List.mem_cons.mp hf with hc | hf
      · exact .inl hc
      rcases ih hf with hc | hc | ⟨k, hk, hc⟩
      · exact .inl hc
      · exact .inr (.inl hc)
      · exact .inr (.inr ⟨k, List.mem_cons_of_mem f hk, hc⟩)

/-! ## Records that were cut -/

theorem joinFields_cons {fs : List (List α)} (f : List α) (hne : fs ≠ []) :
    joinFields s e (f :: fs) = escapeBy (isSpecial s e) e f ++ s :: joinFields s e fs := by
  cases fs with
  | nil => exact absurd rfl hne
  | cons g fs => rfl

/-- A character more in the first field. -/
theorem joinFields_modifyHead (c : α) {fs : List (List α)} (hne : fs ≠ []) :
    joinFields s e (fs.modifyHead (c :: ·)) =
      (if isSpecial s e c then [e, c] else [c]) ++ joinFields s e fs := by
  have hesc : ∀ f : List α, escapeBy (isSpecial s e) e (c :: f) =
      (if isSpecial s e c then [e, c] else [c]) ++ escapeBy (isSpecial s e) e f := fun f => by
    rw [escapeBy]
    split <;> rfl
  cases fs with
  | nil => exact absurd rfl hne
  | cons f fs =>
    cases fs with
    | nil => exact hesc f
    | cons g fs => rw [List.modifyHead_cons, joinFields, joinFields, hesc, List.append_assoc]

/-- What the reader finds takes no more room than it had. -/
theorem length_joinFields_splitFields_le (hse : s ≠ e) (l : List α) :
    (joinFields s e (splitFields s e l)).length ≤ l.length := by
  have hwidth : ∀ c : α, (if isSpecial s e c then [e, c] else [c]).length ≤ 2 := fun c => by
    split <;> simp
  induction l using splitFields.induct s e with
  | case1 => exact Nat.le_refl 0
  | case2 => rw [splitFields, if_pos rfl]; exact Nat.zero_le _
  | case3 => rw [splitFields_sep hse]; exact Nat.le_refl 1
  | case4 c hc hcs =>
    have hplain : isSpecial s e c = false := by
      rw [Bool.eq_false_iff, ne_eq, isSpecial_iff]
      exact not_or.mpr ⟨hcs, hc⟩
    rw [splitFields, if_neg hc, if_neg hcs, joinFields, escapeBy_plain hplain]
    exact Nat.le_refl 1
  | case5 d l ih =>
    rw [splitFields_mark, joinFields_modifyHead d (splitFields_ne_nil l), List.length_append]
    have h := hwidth d
    simp only [List.length_cons]
    omega
  | case6 d l _ ih =>
    rw [splitFields_sep hse, joinFields_cons [] (splitFields_ne_nil (d :: l)), escapeBy_nil,
      List.nil_append, List.length_cons, List.length_cons]
    exact Nat.succ_le_succ ih
  | case7 c d l hc hcs ih =>
    have hplain : isSpecial s e c = false := by
      rw [Bool.eq_false_iff, ne_eq, isSpecial_iff]
      exact not_or.mpr ⟨hcs, hc⟩
    rw [splitFields_plain hplain, joinFields_modifyHead c (splitFields_ne_nil (d :: l)), hplain,
      List.length_append, List.length_cons (a := c)]
    simp only [Bool.false_eq_true, if_false, List.length_singleton]
    omega

/-- **A record that was cut does not read as its fields.** -/
theorem splitFields_take_iff (hse : s ≠ e) {fs : List (List α)} (hne : fs ≠ []) (k : Nat) :
    splitFields s e ((joinFields s e fs).take k) = fs ↔ (joinFields s e fs).length ≤ k := by
  constructor
  · intro h
    have hle := length_joinFields_splitFields_le hse ((joinFields s e fs).take k)
    rw [h, List.length_take] at hle
    omega
  · intro h
    rw [List.take_of_length_le h, splitFields_joinFields hse hne]

end OnuFirmware.Lib
