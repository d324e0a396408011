import Mathlib.Data.Fintype.Card
import Mathlib.Data.Set.Finite.Basic
import Mathlib.Logic.Relation

/-!
# References that end

`r b a` says that `a` refers to `b`. Following references from an element ends (`Acc`) exactly if no
element that can be reached is part of a cycle, when only finitely many elements refer to
something. A partial function is the case of one reference for each element.
-/

namespace OnuFirmware.Lib

open Relation

variable {α : Type*} {r : α → α → Prop} {a b : α}

theorem not_transGen_of_acc (h : Acc r a) : ¬ TransGen r a a := by
  have htrans : Acc (TransGen r) a := h.transGen
  induction htrans with
  | intro a _ ih => exact fun hc => ih a hc (h.inv_of_transGen hc) hc

theorem acc_of_reflTransGen (h : Acc r a) (hb : ReflTransGen r b a) : Acc r b := by
  rcases reflTransGen_iff_eq_or_transGen.mp hb with rfl | hb
  · exact h
  · exact h.inv_of_transGen hb

/-- No cycle is reached, and the elements that are reached and refer to something are finitely
many. -/
theorem acc_of_no_cycle (hfin : {x | ReflTransGen r x a ∧ ∃ b, r b x}.Finite)
    (h : ∀ b, ReflTransGen r b a → ¬ TransGen r b b) : Acc r a := by
  let S := {x // ReflTransGen r x a ∧ ∃ b, r b x}
  have : Finite S := hfin.to_subtype
  let rS : S → S → Prop := fun x y => TransGen r x.1 y.1
  have htrans : IsTrans S rS := ⟨fun _ _ _ hxy hyz => hxy.trans hyz⟩
  have hirrefl : Std.Irrefl rS := ⟨fun x => h x.1 x.2.1⟩
  have hwf : WellFounded rS := Finite.wellFounded_of_trans_of_irrefl rS
  have hmem : ∀ x : S, Acc r x.1 := fun x => by
    induction x using hwf.induction with
    | _ x ih =>
      refine ⟨x.1, fun y hy => ?_⟩
      by_cases hnext : ∃ b, r b y
      · exact ih ⟨y, .head hy x.2.1, hnext⟩ (.single hy)
      · exact ⟨y, fun b hb => absurd ⟨b, hb⟩ hnext⟩
  by_cases hnext : ∃ b, r b a
  · exact hmem ⟨a, .refl, hnext⟩
  · exact ⟨a, fun b hb => absurd ⟨b, hb⟩ hnext⟩

/-- **Following references ends exactly if no cycle is reached.** -/
theorem acc_iff_no_cycle (hfin : {x | ReflTransGen r x a ∧ ∃ b, r b x}.Finite) :
    Acc r a ↔ ∀ b, ReflTransGen r b a → ¬ TransGen r b b :=
  ⟨fun h _ hb => not_transGen_of_acc (acc_of_reflTransGen h hb), acc_of_no_cycle hfin⟩

theorem forall_acc_iff_no_cycle (hfin : ∀ a, {x | ReflTransGen r x a ∧ ∃ b, r b x}.Finite) :
    (∀ a, Acc r a) ↔ ∀ a, ¬ TransGen r a a :=
  ⟨fun h a => not_transGen_of_acc (h a), fun h a => acc_of_no_cycle (hfin a) fun b _ => h b⟩

/-! ## Functions that call themselves last -/

section Follow

variable {β : Type*} {step : α → α ⊕ β} {c : β}

/-- A function that, step by step, goes on with another argument or returns; with fuel. -/
def follow (step : α → α ⊕ β) : Nat → α → Option β
  | 0, _ => none
  | n + 1, a =>
    match step a with
    | .inl a' => follow step n a'
    | .inr c => some c

/-- The function returns. -/
def Returns (step : α → α ⊕ β) (a : α) (c : β) : Prop := ∃ n, follow step n a = some c

theorem returns_inl (h : step a = .inl b) : Returns step a c ↔ Returns step b c := by
  constructor
  · rintro ⟨_ | n, hn⟩
    · exact absurd hn.symm (Option.some_ne_none c)
    · rw [follow, h] at hn
      exact ⟨n, hn⟩
  · rintro ⟨n, hn⟩
    exact ⟨n + 1, by rw [follow, h]; exact hn⟩

theorem returns_inr {d : β} (h : step a = .inr d) : Returns step a c ↔ d = c := by
  constructor
  · rintro ⟨_ | n, hn⟩
    · exact absurd hn.symm (Option.some_ne_none c)
    · rw [follow, h] at hn
      exact Option.some.inj hn
  · rintro rfl
    exact ⟨1, by rw [follow, h]⟩

/-- The arguments of the calls in a run of the function. -/
def Calls (step : α → α ⊕ β) (b a : α) : Prop := step a = .inl b

/-- The function returns what one of its calls returns at once. -/
theorem returns_iff_calls :
    Returns step a c ↔ ∃ b, ReflTransGen (Calls step) b a ∧ step b = .inr c := by
  constructor
  · rintro ⟨n, hn⟩
    induction n generalizing a with
    | zero => exact absurd hn.symm (Option.some_ne_none c)
    | succ n ih =>
      rw [follow] at hn
      split at hn
      · next a' h =>
        obtain ⟨b, hb, hc⟩ := ih hn
        exact ⟨b, hb.tail h, hc⟩
      · next d h => exact ⟨a, .refl, by rw [h, Option.some.inj hn]⟩
  · rintro ⟨b, hb, hc⟩
    induction hb with
    | refl => exact (returns_inr hc).mpr rfl
    | tail _ h ih => exact (returns_inl h).mpr ih

/-- The function returns exactly if its calls end. -/
theorem returns_iff_acc : (∃ c, Returns step a c) ↔ Acc (Calls step) a := by
  constructor
  · rintro ⟨c, n, hn⟩
    induction n generalizing a with
    | zero => exact absurd hn.symm (Option.some_ne_none c)
    | succ n ih =>
      refine ⟨a, fun b hb => ih ?_⟩
      rwa [follow, hb] at hn
  · intro h
    induction h with
    | intro a _ ih =>
      cases hs : step a with
      | inl b =>
        obtain ⟨c, hc⟩ := ih b hs
        exact ⟨c, (returns_inl hs).mpr hc⟩
      | inr c => exact ⟨c, (returns_inr hs).mpr rfl⟩

end Follow

end OnuFirmware.Lib
