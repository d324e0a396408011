import Mathlib.Logic.Function.Basic

/-!
# Links and what they come back from

The rows of one table name rows of another one, and these hold where they are named from. The tables
agree if every row that is named holds the row that names it: then no row is named twice.
-/

namespace OnuFirmware.Lib

variable {V P : Type*} {link : V → Option P} {back : P → Option V}

/-- Every row that is named holds the row that names it. -/
def BackLinked (link : V → Option P) (back : P → Option V) : Prop :=
  ∀ v p, link v = some p → back p = some v

namespace BackLinked

/-- **No row is named twice.** -/
theorem inj (h : BackLinked link back) {v v' : V} {p : P} (hv : link v = some p)
    (hv' : link v' = some p) : v = v' :=
  Option.some_inj.mp ((h v p hv).symm.trans (h v' p hv'))

variable [DecidableEq V] [DecidableEq P]

/-- A row may name a row that no other one names. -/
theorem connect (h : BackLinked link back) {v : V} {p : P}
    (hfree : ∀ v', link v' = some p → v' = v) :
    BackLinked (Function.update link v (some p)) (Function.update back p (some v)) := by
  intro v' p' hv'
  by_cases hv : v' = v
  · rw [hv, Function.update_self] at hv'
    rw [← Option.some_inj.mp hv', Function.update_self, hv]
  · rw [Function.update_of_ne hv] at hv'
    have hp : p' ≠ p := fun he => hv (hfree v' (he ▸ hv'))
    rw [Function.update_of_ne hp]
    exact h v' p' hv'

omit [DecidableEq P] in
/-- A row may name nothing. -/
theorem unlink (h : BackLinked link back) (v : V) :
    BackLinked (Function.update link v none) back := by
  intro v' p' hv'
  by_cases hv : v' = v
  · rw [hv, Function.update_self] at hv'
    exact absurd hv' (Option.some_ne_none p').symm
  · rw [Function.update_of_ne hv] at hv'
    exact h v' p' hv'

omit [DecidableEq V] in
/-- A row that nothing names may hold anything. -/
theorem rewrite (h : BackLinked link back) {p : P} (hfree : ∀ v, link v ≠ some p) (o : Option V) :
    BackLinked link (Function.update back p o) := by
  intro v' p' hv'
  have hp : p' ≠ p := fun he => hfree v' (he ▸ hv')
  rw [Function.update_of_ne hp]
  exact h v' p' hv'

end BackLinked

end OnuFirmware.Lib
