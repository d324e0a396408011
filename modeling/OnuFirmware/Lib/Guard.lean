import Mathlib.Data.List.Basic

/-!
# Sequences and loops of steps that can fail

What a sequence that does not fail has done, and what holds after a loop that does not fail. In the
last part a step fails on some elements, whatever the state, and is a function `g` on the others.
The loop fails exactly if one of the elements is of the first kind.
-/

namespace OnuFirmware.Lib

variable {α β ε : Type*} {f : β → α → Except ε β} {g : β → α → β} {P : α → Prop} {l : List α}
  {v r : β}

/-! ## Sequences -/

/-- The result of a sequence of two calls. -/
theorem bind_eq_ok.{u} {α β : Type u} {x : Except ε α} {h : α → Except ε β} {b : β} :
    (x >>= h) = .ok b ↔ ∃ a, x = .ok a ∧ h a = .ok b := by
  cases x with
  | error e => exact ⟨fun h => (by cases h), fun ⟨_, h, _⟩ => (by cases h)⟩
  | ok a => exact ⟨fun h => ⟨a, rfl, h⟩, fun ⟨_, h, hf⟩ => by cases h; exact hf⟩

/-- The result of a call with a function of it. -/
theorem map_eq_ok {x : Except ε α} {h : α → β} {b : β} :
    x.map h = .ok b ↔ ∃ a, x = .ok a ∧ h a = b := by
  cases x with
  | error e => exact ⟨fun h => (by cases h), fun ⟨_, h, _⟩ => (by cases h)⟩
  | ok a => exact ⟨fun h => ⟨a, rfl, Except.ok.inj h⟩, fun ⟨_, h, hf⟩ => by cases h; rw [← hf]; rfl⟩

/-! ## Loops -/

/-- An invariant that every turn keeps holds after the loop. -/
theorem foldlM_inv {inv : β → Prop} (hstep : ∀ v x w, inv v → f v x = .ok w → inv w)
    (h : l.foldlM f v = .ok r) (hv : inv v) : inv r := by
  induction l generalizing v with
  | nil =>
    obtain rfl := Except.ok.inj h
    exact hv
  | cons x l ih =>
    rw [List.foldlM_cons] at h
    obtain ⟨w, hw, hrest⟩ := bind_eq_ok.mp h
    exact ih hrest (hstep v x w hv hw)

/-- **The loop is a fold of `g` if no element fails, and fails otherwise.** -/
theorem foldlM_eq_ok_iff (hok : ∀ v, ∀ x ∈ l, P x → f v x = .ok (g v x))
    (herr : ∀ v, ∀ x ∈ l, ¬ P x → ∃ e, f v x = .error e) :
    l.foldlM f v = .ok r ↔ (∀ x ∈ l, P x) ∧ r = l.foldl g v := by
  induction l generalizing v with
  | nil =>
    rw [List.foldlM_nil, List.foldl_nil]
    constructor
    · intro h
      exact ⟨fun x hx => absurd hx List.not_mem_nil, (Except.ok.inj h).symm⟩
    · rintro ⟨-, rfl⟩
      rfl
  | cons x l ih =>
    rw [List.foldlM_cons, List.foldl_cons, List.forall_mem_cons]
    by_cases hx : P x
    · rw [hok v x List.mem_cons_self hx, and_iff_right hx]
      exact ih (fun w y hy => hok w y (List.mem_cons_of_mem x hy)) fun w y hy =>
        herr w y (List.mem_cons_of_mem x hy)
    · obtain ⟨e, he⟩ := herr v x List.mem_cons_self hx
      rw [he]
      exact iff_of_false (fun h => nomatch h) fun h => hx h.1.1

/-- A loop over those elements that `sel` selects. -/
theorem foldlM_filterMap {γ : Type*} {sel : γ → Option α} {h : β → γ → Except ε β} {l : List γ}
    (hnone : ∀ v c, sel c = none → h v c = .ok v)
    (hsome : ∀ v c x, sel c = some x → h v c = f v x) :
    l.foldlM h v = (l.filterMap sel).foldlM f v := by
  induction l generalizing v with
  | nil => rfl
  | cons c l ih =>
    rw [List.foldlM_cons]
    cases hc : sel c with
    | none =>
      rw [List.filterMap_cons_none hc, hnone v c hc]
      exact ih
    | some x =>
      rw [List.filterMap_cons_some hc, List.foldlM_cons, hsome v c x hc]
      exact congrArg _ (funext fun w => ih)

end OnuFirmware.Lib
