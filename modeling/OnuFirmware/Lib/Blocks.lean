import Mathlib.Data.List.Nodup

/-!
# Lists made of blocks

`l.flatMap f` has a block `f x` for each `x`. If the elements of a block show which one it is, the
block can be taken out again.
-/

namespace OnuFirmware.Lib

variable {α β : Type*}

theorem flatMap_ite (p : α → Bool) (f : α → List β) (l : List α) :
    (l.flatMap fun x => if p x then f x else []) = (l.filter p).flatMap f := by
  induction l with
  | nil => rfl
  | cons x l ih =>
    rw [List.flatMap_cons, ih, List.filter_cons]
    split
    · rw [List.flatMap_cons]
    · rfl

theorem flatMap_single [DecidableEq α] {l : List α} (h : l.Nodup) (x : α) (r : List β) :
    (l.flatMap fun e => if e = x then r else []) = if x ∈ l then r else [] := by
  induction l with
  | nil => rfl
  | cons e l ih =>
    obtain ⟨hnot, hnodup⟩ := List.nodup_cons.mp h
    rw [List.flatMap_cons, ih hnodup]
    by_cases he : e = x
    · subst he
      simp [hnot]
    · have hx : x ≠ e := fun hx => he hx.symm
      simp [he, hx]

/-- **The elements that show `x` are the block of `x`.** -/
theorem filter_flatMap_key [DecidableEq α] {key : β → α} {f : α → List β} {l : List α}
    (h : l.Nodup) (hkey : ∀ x ∈ l, ∀ y ∈ f x, key y = x) (x : α) :
    (l.flatMap f).filter (fun y => key y = x) = if x ∈ l then f x else [] := by
  have hblock : ∀ e ∈ l, (f e).filter (fun y => key y = x) = if e = x then f x else [] := by
    intro e he
    by_cases hex : e = x
    · subst hex
      rw [if_pos rfl, List.filter_eq_self]
      exact fun y hy => decide_eq_true (hkey e he y hy)
    · rw [if_neg hex, List.filter_eq_nil_iff]
      intro y hy
      simpa [hkey e he y hy] using hex
  rw [List.filter_flatMap, ← flatMap_single h x (f x)]
  exact List.flatMap_congr hblock

/-- Blocks of equal elements and of one length show which elements they are made of. -/
theorem flatMap_replicate_inj {k : Nat} (hk : 0 < k) {l₁ l₂ : List α} :
    (l₁.flatMap fun x => List.replicate k x) = (l₂.flatMap fun x => List.replicate k x) ↔
      l₁ = l₂ := by
  refine ⟨fun h => ?_, fun h => h ▸ rfl⟩
  obtain ⟨n, rfl⟩ : ∃ n, k = n + 1 := ⟨k - 1, by omega⟩
  induction l₁ generalizing l₂ with
  | nil =>
    cases l₂ with
    | nil => rfl
    | cons y ys => simp [List.replicate_succ] at h
  | cons x xs ih =>
    cases l₂ with
    | nil => simp [List.replicate_succ] at h
    | cons y ys =>
      rw [List.flatMap_cons, List.flatMap_cons] at h
      have hxy : x = y := by
        rw [List.replicate_succ, List.replicate_succ] at h
        exact (List.cons.inj h).1
      rw [hxy, List.append_cancel_left_eq] at h
      rw [hxy, ih h]

end OnuFirmware.Lib
