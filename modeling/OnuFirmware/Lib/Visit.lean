import Mathlib.Data.List.Basic
import Mathlib.Logic.Relation

/-!
# Depth-first visits

An element has a list of labels, each with a child or without one. A visit lists the labels of an
element in order, each followed by the visit of its child; fuel bounds its depth. Of an element
whose children end, the visit does not depend on the fuel once there is enough.
-/

namespace OnuFirmware.Lib

open Relation

variable {α β : Type*}

/-- The visit of an element. -/
def visit (kids : α → List (β × Option α)) : Nat → α → List β
  | 0, _ => []
  | n + 1, a => (kids a).flatMap fun p => p.1 :: p.2.elim [] (visit kids n)

/-- `b` is a child of `a`. -/
def Child (kids : α → List (β × Option α)) (b a : α) : Prop := ∃ p ∈ kids a, p.2 = some b

/-- The children for which `keep` holds. -/
def prune (keep : α → α → Bool) (kids : α → List (β × Option α)) (a : α) : List (β × Option α) :=
  (kids a).map fun p => (p.1, p.2.filter (keep a))

variable {kids : α → List (β × Option α)} {keep : α → α → Bool} {a b : α} {n m : Nat}

theorem visit_of_nil (h : kids a = []) : ∀ n, visit kids n a = []
  | 0 => rfl
  | n + 1 => by rw [visit, h, List.flatMap_nil]

/-- **A visit whose children end is finished.** -/
theorem visit_stable (h : Acc (Child kids) a) :
    ∃ n, ∀ m, n ≤ m → visit kids m a = visit kids n a := by
  induction h with
  | intro a _ ih =>
    have hall : ∀ l : List (β × Option α), (∀ p ∈ l, p ∈ kids a) → ∃ n, ∀ m, n ≤ m →
        l.flatMap (fun p => p.1 :: p.2.elim [] (visit kids m)) =
          l.flatMap fun p => p.1 :: p.2.elim [] (visit kids n) := fun l => by
      induction l with
      | nil => exact fun _ => ⟨0, fun _ _ => rfl⟩
      | cons p l ihl =>
        intro hl
        obtain ⟨hp, hl⟩ := List.forall_mem_cons.mp hl
        obtain ⟨n, hn⟩ := ihl hl
        obtain ⟨k, hk⟩ : ∃ k, ∀ m, k ≤ m →
            p.2.elim [] (visit kids m) = p.2.elim [] (visit kids k) := by
          cases hc : p.2 with
          | none => exact ⟨0, fun _ _ => rfl⟩
          | some c => exact ih c ⟨p, hp, hc⟩
        refine ⟨max n k, fun m hm => ?_⟩
        rw [List.flatMap_cons, List.flatMap_cons, hn m (by omega), hk m (by omega),
          hn (max n k) (by omega), hk (max n k) (by omega)]
    obtain ⟨n, hn⟩ := hall (kids a) fun _ hp => hp
    refine ⟨n + 1, fun m hm => ?_⟩
    obtain ⟨m, rfl⟩ := Nat.exists_eq_add_of_le' (Nat.one_le_of_lt hm)
    exact hn m (by omega)

/-- The labels of every element that is reached are in the visit, with enough fuel. -/
theorem mem_visit (h : ReflTransGen (Child kids) b a) {p : β × Option α} (hp : p ∈ kids b) :
    ∃ n, ∀ m, n ≤ m → p.1 ∈ visit kids m a := by
  induction h with
  | refl =>
    refine ⟨1, fun m hm => ?_⟩
    obtain ⟨m, rfl⟩ := Nat.exists_eq_add_of_le' hm
    exact List.mem_flatMap.mpr ⟨p, hp, List.mem_cons_self⟩
  | tail _ hc ih =>
    obtain ⟨n, hn⟩ := ih
    obtain ⟨q, hq, hc⟩ := hc
    refine ⟨n + 1, fun m hm => ?_⟩
    obtain ⟨m, rfl⟩ := Nat.exists_eq_add_of_le' (Nat.one_le_of_lt hm)
    refine List.mem_flatMap.mpr ⟨q, hq, List.mem_cons_of_mem _ ?_⟩
    rw [hc]
    exact hn m (by omega)

/-! ## Pruned visits -/

theorem child_of_prune (h : Child (prune keep kids) b a) : Child kids b a := by
  obtain ⟨q, hq, hb⟩ := h
  obtain ⟨p, hp, rfl⟩ := List.mem_map.mp hq
  exact ⟨p, hp, (Option.filter_eq_some_iff.mp hb).1⟩

theorem visit_prune_succ : visit (prune keep kids) (n + 1) a =
    (kids a).flatMap fun p => p.1 :: (p.2.filter (keep a)).elim [] (visit (prune keep kids) n) := by
  rw [visit, prune, List.flatMap_map]

theorem length_flatMap_le {γ : Type*} {f g : γ → List β} {l : List γ}
    (h : ∀ p, (f p).length ≤ (g p).length) : (l.flatMap f).length ≤ (l.flatMap g).length := by
  induction l with
  | nil => exact Nat.le_refl _
  | cons p l ih =>
    rw [List.flatMap_cons, List.flatMap_cons, List.length_append, List.length_append]
    exact Nat.add_le_add (h p) ih

/-- If the parts are no longer and the whole is as long, the parts are as long. -/
theorem length_eq_of_flatMap {γ : Type*} {f g : γ → List β} {l : List γ}
    (h : ∀ p, (f p).length ≤ (g p).length)
    (heq : (l.flatMap f).length = (l.flatMap g).length) : ∀ p ∈ l, (f p).length = (g p).length := by
  induction l with
  | nil => exact fun p hp => absurd hp List.not_mem_nil
  | cons p l ih =>
    rw [List.flatMap_cons, List.flatMap_cons, List.length_append, List.length_append] at heq
    have hp := h p
    have hl := length_flatMap_le (l := l) h
    exact List.forall_mem_cons.mpr ⟨by omega, ih (by omega)⟩

/-- What the pruned visit has behind a label is no longer. -/
theorem length_elim_prune_le (h : ∀ c, (visit (prune keep kids) n c).length ≤
    (visit kids n c).length) (p : β × Option α) :
    (p.1 :: (p.2.filter (keep a)).elim [] (visit (prune keep kids) n)).length ≤
      (p.1 :: p.2.elim [] (visit kids n)).length := by
  refine Nat.succ_le_succ ?_
  cases p.2 with
  | none => exact Nat.le_refl _
  | some c =>
    rw [Option.filter_some]
    split
    · exact h c
    · exact Nat.zero_le _

theorem length_visit_prune_le :
    ∀ n a, (visit (prune keep kids) n a).length ≤ (visit kids n a).length
  | 0, _ => Nat.le_refl _
  | n + 1, a => by
    rw [visit_prune_succ, visit]
    exact length_flatMap_le (length_elim_prune_le (length_visit_prune_le n))

/-- Every child of an element that is reached is kept, or has no labels. -/
def Kept (keep : α → α → Bool) (kids : α → List (β × Option α)) (a : α) : Prop :=
  ∀ b, ReflTransGen (Child kids) b a → ∀ c, Child kids c b → keep b c = true ∨ kids c = []

theorem Kept.child (h : Kept keep kids a) (hb : Child kids b a) : Kept keep kids b :=
  fun c hc => h c (hc.tail hb)

/-- Nothing is lost if all children with labels are kept. -/
theorem visit_prune_of_kept (h : Kept keep kids a) :
    visit (prune keep kids) n a = visit kids n a := by
  induction n generalizing a with
  | zero => rfl
  | succ n ih =>
    rw [visit_prune_succ, visit]
    refine List.flatMap_congr fun p hp => ?_
    congr 1
    cases hc : p.2 with
    | none => rfl
    | some c =>
      have hchild : Child kids c a := ⟨p, hp, hc⟩
      rw [Option.filter_some]
      split
      · exact ih (h.child hchild)
      · next hkeep =>
        have hnil := (h a .refl c hchild).resolve_left hkeep
        exact (visit_of_nil hnil n).symm

/-- A pruned visit has as many labels, with enough fuel. -/
def SameLength (keep : α → α → Bool) (kids : α → List (β × Option α)) (a : α) : Prop :=
  ∃ n, ∀ m, n ≤ m → (visit (prune keep kids) m a).length = (visit kids m a).length

theorem SameLength.child (h : SameLength keep kids a) (hb : Child kids b a) :
    SameLength keep kids b ∧ (keep a b = true ∨ kids b = []) := by
  obtain ⟨n, hn⟩ := h
  obtain ⟨p, hp, hb⟩ := hb
  have hpart : ∀ m, n ≤ m + 1 → ((p.2.filter (keep a)).elim []
      (visit (prune keep kids) m)).length = (visit kids m b).length := fun m hm => by
    have hlen := hn (m + 1) hm
    rw [visit_prune_succ, visit] at hlen
    have hsucc := length_eq_of_flatMap (length_elim_prune_le (length_visit_prune_le m)) hlen p hp
    rw [hb] at hsucc ⊢
    exact Nat.succ.inj hsucc
  rw [hb, Option.filter_some] at hpart
  by_cases hkeep : keep a b = true
  · rw [if_pos hkeep] at hpart
    exact ⟨⟨n, fun m hm => hpart m (Nat.le_succ_of_le hm)⟩, .inl hkeep⟩
  · rw [if_neg hkeep] at hpart
    have hnil : kids b = [] := by
      have hzero : 0 = (visit kids (n + 1) b).length := hpart (n + 1) (by omega)
      rw [visit, List.length_flatMap] at hzero
      rcases hk : kids b with _ | ⟨q, l⟩
      · rfl
      · rw [hk, List.map_cons, List.sum_cons, List.length_cons] at hzero
        omega
    exact ⟨⟨0, fun m _ => by rw [visit_of_nil hnil, visit_of_nil (by rw [prune, hnil]; rfl)]⟩,
      .inr hnil⟩

/-- **If a pruned visit has as many labels, all children with labels are kept.** -/
theorem SameLength.kept (h : SameLength keep kids a) : Kept keep kids a := by
  intro b hb
  have hsame : SameLength keep kids b := by
    induction hb using ReflTransGen.head_induction_on with
    | refl => exact h
    | head hc _ ih => exact (ih.child hc).1
  exact fun c hc => (hsame.child hc).2

end OnuFirmware.Lib
