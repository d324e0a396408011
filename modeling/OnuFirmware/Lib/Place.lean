import Mathlib.Data.List.Basic
import Mathlib.Logic.Function.Basic

/-!
# The place of an element

`l = a ++ x :: b` is an element `x` of `l` together with what stands before it. A loop that treats
an element by what came before it is followed by adding one element at the end.
-/

namespace OnuFirmware.Lib

variable {α : Type*}

/-- A place in a longer list is one in the shorter list, or the new one. -/
theorem place_concat {l a b : List α} {i x : α} (h : l ++ [i] = a ++ x :: b) :
    (∃ rest, l = a ++ x :: rest) ∨ (a = l ∧ x = i) := by
  rcases List.eq_nil_or_concat b with rfl | ⟨rest, y, rfl⟩
  · obtain ⟨rfl, hx⟩ := List.append_inj' h rfl
    exact .inr ⟨rfl, (List.cons.inj hx).1.symm⟩
  · rw [List.concat_eq_append, ← List.cons_append, ← List.append_assoc] at h
    exact .inl ⟨rest, (List.append_inj' h rfl).1⟩

/-- **What holds at some place of a longer list holds at one of the shorter list or at the end.** -/
theorem exists_place_concat {l : List α} {i : α} (P : List α → α → Prop) :
    (∃ a x b, l ++ [i] = a ++ x :: b ∧ P a x) ↔ (∃ a x b, l = a ++ x :: b ∧ P a x) ∨ P l i := by
  constructor
  · rintro ⟨a, x, b, h, hx⟩
    rcases place_concat h with ⟨rest, hl⟩ | ⟨rfl, rfl⟩
    · exact .inl ⟨a, x, rest, hl, hx⟩
    · exact .inr hx
  · rintro (⟨a, x, b, rfl, hx⟩ | hx)
    · exact ⟨a, x, b ++ [i], by simp, hx⟩
    · exact ⟨l, i, [], rfl, hx⟩

/-- Before `x` stand the smaller numbers. -/
theorem range_eq_append {n x : Nat} {a b : List Nat} (h : List.range n = a ++ x :: b) :
    a = List.range x ∧ x < n := by
  have hlen : a.length < n := by
    have hl := congrArg List.length h
    simp only [List.length_range, List.length_append, List.length_cons] at hl
    omega
  have hx : x = a.length := by
    have hget := congrArg (fun l : List Nat => l[a.length]?) h
    simpa [hlen] using hget.symm
  have ha : a = (List.range n).take a.length := by rw [h, List.take_left']; rfl
  rw [List.take_range, Nat.min_eq_left (Nat.le_of_lt hlen), ← hx] at ha
  exact ⟨ha, hx ▸ hlen⟩

/-- A loop of writes that agree on a place leaves what they write, or what was there. -/
theorem foldl_update_apply {ι : Type*} (key : ι → Nat) (val : ι → α) (l : List ι)
    (init : Nat → α) {a : Nat} {v : α} (h : ∀ t ∈ l, key t = a → val t = v) :
    l.foldl (fun arr t => Function.update arr (key t) (val t)) init a =
      if a ∈ l.map key then v else init a := by
  induction l generalizing init with
  | nil => simp
  | cons t ts ih =>
    rw [List.foldl_cons, ih _ fun u hu => h u (List.mem_cons_of_mem t hu), List.map_cons]
    by_cases hts : a ∈ ts.map key
    · rw [if_pos hts, if_pos (List.mem_cons_of_mem _ hts)]
    · rw [if_neg hts]
      by_cases hkey : key t = a
      · rw [if_pos (by simp [hkey]), ← hkey, Function.update_self, h t List.mem_cons_self hkey]
      · rw [if_neg (by simp [hts, Ne.symm hkey]), Function.update_of_ne (Ne.symm hkey)]

/-! ## The last place -/

section Last

variable [DecidableEq α] {l : List α} {a x : α}

/-- The number of the last element that is `a`, counted from 1, and 0 if there is none. -/
def lastRank (l : List α) (a : α) : Nat := l.length - l.reverse.idxOf a

theorem lastRank_concat : lastRank (l ++ [x]) a = if a = x then l.length + 1 else lastRank l a := by
  rw [lastRank, List.reverse_append, List.reverse_singleton, List.singleton_append,
    List.length_append, List.length_singleton, List.idxOf_cons]
  by_cases h : a = x
  · rw [if_pos h, h, beq_self_eq_true, cond_true, Nat.sub_zero]
  · rw [if_neg h, beq_eq_false_iff_ne.mpr (Ne.symm h), cond_false, lastRank, Nat.add_sub_add_right]

theorem lastRank_le : lastRank l a ≤ l.length := Nat.sub_le _ _

theorem lastRank_eq_zero_iff : lastRank l a = 0 ↔ a ∉ l := by
  rw [lastRank, Nat.sub_eq_zero_iff_le, ← @List.length_reverse _ l, ← List.mem_reverse,
    ← List.idxOf_lt_length_iff, Nat.not_lt]

end Last

end OnuFirmware.Lib
