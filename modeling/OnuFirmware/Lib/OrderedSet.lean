import Mathlib.Data.List.Induction
import Mathlib.Data.List.Nodup
import Mathlib.Logic.Function.Basic

/-!
# Sets kept as lists

A set of admitted elements is kept in the order of insertion: a new element goes to the end, an
element that is there stays where it is, and a removed one is taken out. What such a list is after a
run is said by the run alone: its members are the elements that were added and not removed since,
and they stand in the order of their last addition that had an effect.
-/

namespace OnuFirmware.Lib

/-- An addition or a removal. -/
inductive SetOp (α : Type*)
  | add (x : α)
  | del (x : α)
deriving DecidableEq

namespace SetOp

variable {α : Type*}

/-- One operation on the list. -/
def step [DecidableEq α] (ok : α → Bool) (l : List α) : SetOp α → List α
  | .add x => if ok x = true ∧ x ∉ l then l ++ [x] else l
  | .del x => l.erase x

/-- The list after a run. -/
def run [DecidableEq α] (ok : α → Bool) (ops : List (SetOp α)) : List α := ops.foldl (step ok) []

/-- An element that was added and not removed since. -/
def Live (ops : List (SetOp α)) (x : α) : Prop :=
  ∃ pre post, ops = pre ++ .add x :: post ∧ .del x ∉ post

/-- The operation at `i` adds an element that is not in the set. -/
def EffectiveAt (ops : List (SetOp α)) (x : α) (i : Nat) : Prop :=
  ops[i]? = some (.add x) ∧ ¬ Live (ops.take i) x

/-- The last operation that adds an element that is not in the set. -/
def LastEffective (ops : List (SetOp α)) (x : α) (i : Nat) : Prop :=
  EffectiveAt ops x i ∧ ∀ j, EffectiveAt ops x j → j ≤ i

variable {ok : α → Bool} {ops : List (SetOp α)} {op : SetOp α} {x : α} {i : Nat}

theorem not_live_nil : ¬ Live ([] : List (SetOp α)) x := by
  rintro ⟨pre, post, h, -⟩
  simp at h

theorem live_concat : Live (ops ++ [op]) x ↔ op = .add x ∨ (Live ops x ∧ op ≠ .del x) := by
  constructor
  · rintro ⟨pre, post, h, hpost⟩
    rcases List.eq_nil_or_concat post with rfl | ⟨rest, y, rfl⟩
    · obtain ⟨-, hop⟩ := List.append_inj' h rfl
      exact .inl (List.cons.inj hop).1
    · rw [List.concat_eq_append, ← List.cons_append, ← List.append_assoc] at h
      obtain ⟨hops, hop⟩ := List.append_inj' h rfl
      obtain rfl := (List.cons.inj hop).1
      rw [List.concat_eq_append, List.mem_append, List.mem_singleton, not_or] at hpost
      exact .inr ⟨⟨pre, rest, hops, hpost.1⟩, fun hy => hpost.2 hy.symm⟩
  · rintro (rfl | ⟨⟨pre, post, rfl, hpost⟩, hop⟩)
    · exact ⟨ops, [], rfl, List.not_mem_nil⟩
    · refine ⟨pre, post ++ [op], by simp, ?_⟩
      rw [List.mem_append, List.mem_singleton, not_or]
      exact ⟨hpost, fun h => hop h.symm⟩

theorem EffectiveAt.lt (h : EffectiveAt ops x i) : i < ops.length :=
  (List.getElem?_eq_some_iff.mp h.1).1

theorem effectiveAt_concat : EffectiveAt (ops ++ [op]) x i ↔
    EffectiveAt ops x i ∨ (i = ops.length ∧ op = .add x ∧ ¬ Live ops x) := by
  rw [EffectiveAt, EffectiveAt]
  rcases Nat.lt_trichotomy i ops.length with hi | rfl | hi
  · rw [List.getElem?_append_left hi, List.take_append_of_le_length (Nat.le_of_lt hi)]
    exact ⟨.inl, fun h => h.resolve_right fun h' => Nat.ne_of_lt hi h'.1⟩
  · have hnone : ops[ops.length]? = none := List.getElem?_eq_none (Nat.le_refl _)
    rw [List.getElem?_concat_length, List.take_left, hnone, Option.some.injEq]
    exact ⟨fun h => .inr ⟨rfl, h⟩, fun h => h.elim (fun h' => (by cases h'.1)) And.right⟩
  · have hnone : (ops ++ [op])[i]? = none := List.getElem?_eq_none (by simp; omega)
    have hnone' : ops[i]? = none := List.getElem?_eq_none (Nat.le_of_lt hi)
    rw [hnone, hnone']
    refine ⟨fun h => (by cases h.1), ?_⟩
    rintro (h | h)
    · cases h.1
    · exact absurd h.1 (Nat.ne_of_gt hi)

/-- An operation that does not add the element anew leaves its last addition. -/
theorem LastEffective.concat (h : LastEffective ops x i) (hop : op = .add x → Live ops x) :
    LastEffective (ops ++ [op]) x i := by
  refine ⟨effectiveAt_concat.mpr (.inl h.1), fun j hj => ?_⟩
  rcases effectiveAt_concat.mp hj with hj | ⟨-, hadd, hnot⟩
  · exact h.2 j hj
  · exact absurd (hop hadd) hnot

theorem lastEffective_concat_self (hnot : ¬ Live ops x) :
    LastEffective (ops ++ [.add x]) x ops.length := by
  refine ⟨effectiveAt_concat.mpr (.inr ⟨rfl, rfl, hnot⟩), fun j hj => ?_⟩
  rcases effectiveAt_concat.mp hj with hj | ⟨rfl, -⟩
  · exact Nat.le_of_lt hj.lt
  · exact Nat.le_refl _

section

variable [DecidableEq α]

/-- A new element that is admitted goes to the end. -/
theorem step_add_of_notMem {l : List α} (hok : ok x = true) (h : x ∉ l) :
    step ok l (.add x) = l ++ [x] := if_pos ⟨hok, h⟩

theorem step_add_of_mem {l : List α} (h : x ∈ l) : step ok l (.add x) = l :=
  if_neg fun h' => h'.2 h

theorem step_add_of_not_ok {l : List α} (hok : ok x = false) : step ok l (.add x) = l :=
  if_neg fun h' => absurd h'.1 (by simp [hok])

/-- An element is taken out of its place. -/
theorem step_del_append {l₁ l₂ : List α} (h : x ∉ l₁) :
    step ok (l₁ ++ x :: l₂) (.del x) = l₁ ++ l₂ := by
  rw [step, List.erase_append_right _ h, List.erase_cons_head]

theorem step_del_of_notMem {l : List α} (h : x ∉ l) : step ok l (.del x) = l :=
  List.erase_of_not_mem h

theorem run_concat (ok : α → Bool) (ops : List (SetOp α)) (op : SetOp α) :
    run ok (ops ++ [op]) = step ok (run ok ops) op := by
  rw [run, List.foldl_concat, run]

/-- The list has no element twice. -/
theorem nodup_run (ok : α → Bool) (ops : List (SetOp α)) : (run ok ops).Nodup := by
  induction ops using List.reverseRecOn with
  | nil => exact List.nodup_nil
  | append_singleton ops op ih =>
    rw [run_concat]
    cases op with
    | del x => exact ih.erase x
    | add x =>
      rw [step]
      split
      · next h => exact List.nodup_append.mpr ⟨ih, List.nodup_singleton x, by
          rintro a ha b hb rfl
          exact h.2 (List.mem_singleton.mp hb ▸ ha)⟩
      · exact ih

/-- **The members** are the admitted elements that were added and not removed since. -/
theorem mem_run : x ∈ run ok ops ↔ ok x = true ∧ Live ops x := by
  induction ops using List.reverseRecOn with
  | nil => simp [run, not_live_nil]
  | append_singleton ops op ih =>
    rw [run_concat, live_concat]
    cases op with
    | del y =>
      rw [step, (nodup_run ok ops).mem_erase_iff, ih]
      simp only [reduceCtorEq, false_or, ne_eq, del.injEq, eq_comm (a := y)]
      exact ⟨fun h => ⟨h.2.1, h.2.2, h.1⟩, fun h => ⟨h.2.2, h.1, h.2.1⟩⟩
    | add y =>
      simp only [step, add.injEq, ne_eq, reduceCtorEq, not_false_eq_true, and_true]
      by_cases hyx : y = x
      · subst hyx
        by_cases hok : ok y = true
        · by_cases hmem : y ∈ run ok ops
          · simp [hok, hmem]
          · simp [hok, hmem]
        · simp [hok, ih]
      · have hxy : x ≠ y := fun h => hyx h.symm
        simp only [hyx, false_or, ← ih]
        split
        · simp [hxy]
        · rfl

/-- **The order** is that of the last additions that had an effect. -/
theorem run_order (ok : α → Bool) (ops : List (SetOp α)) : ∃ last : α → Nat,
    (∀ x ∈ run ok ops, LastEffective ops x (last x)) ∧
      (run ok ops).Pairwise fun x y => last x < last y := by
  induction ops using List.reverseRecOn with
  | nil => exact ⟨fun _ => 0, by simp [run], List.Pairwise.nil⟩
  | append_singleton ops op ih =>
    obtain ⟨last, hlast, hord⟩ := ih
    have hlive : ∀ x ∈ run ok ops, Live ops x := fun x hx => (mem_run.mp hx).2
    rw [run_concat]
    cases op with
    | del y =>
      refine ⟨last, fun x hx => ?_, hord.sublist List.erase_sublist⟩
      exact (hlast x (List.mem_of_mem_erase hx)).concat fun h => (by cases h)
    | add y =>
      rw [step]
      split
      · next h =>
        have hnot : ¬ Live ops y := fun hl => h.2 (mem_run.mpr ⟨h.1, hl⟩)
        have hne : ∀ x ∈ run ok ops, Function.update last y ops.length x = last x := by
          intro x hx
          have hxy : x ≠ y := fun he => h.2 (he ▸ hx)
          exact Function.update_of_ne hxy _ _
        refine ⟨Function.update last y ops.length, fun x hx => ?_, ?_⟩
        · rcases List.mem_append.mp hx with hx | hx
          · rw [hne x hx]
            exact (hlast x hx).concat fun _ => hlive x hx
          · obtain rfl := List.mem_singleton.mp hx
            rw [Function.update_self]
            exact lastEffective_concat_self hnot
        · refine List.pairwise_append.mpr ⟨?_, List.pairwise_singleton _ _, ?_⟩
          · refine hord.imp_of_mem fun {a b} ha hb hab => ?_
            rwa [hne a ha, hne b hb]
          · intro a ha b hb
            obtain rfl := List.mem_singleton.mp hb
            rw [hne a ha, Function.update_self]
            exact (hlast a ha).1.lt
      · exact ⟨last, fun x hx => (hlast x hx).concat fun _ => hlive x hx, hord⟩

end

end SetOp

end OnuFirmware.Lib
