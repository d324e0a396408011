import Mathlib.Data.List.Basic

/-!
# Runs of a step function

A run applies a step function to one event after the other. `RunOk` says that every event of a run
meets a condition in the state in which it happens; an invariant that a step keeps under the
condition then holds after every prefix of the run.
-/

namespace OnuFirmware.Lib

variable {σ ε : Type*} {step : σ → ε → σ} {cond : σ → ε → Prop}

/-- Every event of the run meets the condition, in the state that the events before it lead to. -/
def RunOk (step : σ → ε → σ) (cond : σ → ε → Prop) : σ → List ε → Prop
  | _, [] => True
  | s, e :: es => cond s e ∧ RunOk step cond (step s e) es

instance RunOk.decidable [∀ s e, Decidable (cond s e)] : ∀ (s : σ) (es : List ε),
    Decidable (RunOk step cond s es)
  | _, [] => isTrue trivial
  | s, e :: es =>
    have := RunOk.decidable (step s e) es
    inferInstanceAs (Decidable (cond s e ∧ RunOk step cond (step s e) es))

theorem RunOk.append : ∀ {pre es : List ε} {s : σ}, RunOk step cond s (pre ++ es) →
    RunOk step cond s pre ∧ RunOk step cond (pre.foldl step s) es
  | [], _, _, h => ⟨trivial, h⟩
  | _ :: _, _, _, h => ⟨⟨h.1, (RunOk.append h.2).1⟩, (RunOk.append h.2).2⟩

/-- The condition at the event behind a prefix. -/
theorem RunOk.at_prefix {pre es : List ε} {e : ε} {s : σ} (h : RunOk step cond s es)
    (hp : pre ++ [e] <+: es) : cond (pre.foldl step s) e := by
  obtain ⟨post, rfl⟩ := hp
  rw [List.append_assoc] at h
  exact (RunOk.append h).2.1

/-- A run meets the condition if every event behind a prefix does. -/
theorem RunOk.iff_prefix {es : List ε} {s : σ} :
    RunOk step cond s es ↔ ∀ pre e, pre ++ [e] <+: es → cond (pre.foldl step s) e := by
  refine ⟨fun h pre e hp => h.at_prefix hp, fun h => ?_⟩
  induction es generalizing s with
  | nil => trivial
  | cons e es ih =>
    refine ⟨h [] e ⟨es, rfl⟩, ih fun pre e' hp => ?_⟩
    exact h (e :: pre) e' (List.cons_prefix_cons.mpr ⟨rfl, hp⟩)

/-- Two conditions that agree where an invariant holds are met by the same runs. -/
theorem RunOk.congr {inv : σ → Prop} {cond' : σ → ε → Prop} (hstep : ∀ s e, inv s → inv (step s e))
    (h : ∀ s e, inv s → (cond s e ↔ cond' s e)) {es : List ε} {s : σ} (hs : inv s) :
    RunOk step cond s es ↔ RunOk step cond' s es := by
  induction es generalizing s with
  | nil => exact Iff.rfl
  | cons e es ih => exact and_congr (h s e hs) (ih (hstep s e hs))

/-- **An invariant that every step keeps holds after the run.** -/
theorem RunOk.inv {inv : σ → Prop} (hstep : ∀ s e, inv s → cond s e → inv (step s e))
    {es : List ε} {s : σ} (h : RunOk step cond s es) (hs : inv s) : inv (es.foldl step s) := by
  induction es generalizing s with
  | nil => exact hs
  | cons e es ih => exact ih h.2 (hstep s e hs h.1)

theorem RunOk.inv_prefix {inv : σ → Prop} (hstep : ∀ s e, inv s → cond s e → inv (step s e))
    {es : List ε} {s : σ} (h : RunOk step cond s es) (hs : inv s) {pre : List ε}
    (hp : pre <+: es) : inv (pre.foldl step s) := by
  obtain ⟨post, rfl⟩ := hp
  exact RunOk.inv hstep (RunOk.append h).1 hs

end OnuFirmware.Lib
