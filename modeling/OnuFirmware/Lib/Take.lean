import Mathlib.Data.List.Basic
import Mathlib.Data.List.Count
import Mathlib.Data.List.Pairwise

/-!
# The first elements with a property

A loop that collects the first `k` elements with a property `p`, but lets some others with a weaker
property `q` in, collects the right ones as long as it has `k` of them before it meets a wrong one.
-/

namespace OnuFirmware.Lib

variable {α : Type*} {p q : α → Bool}

/-- An element that only has the weaker property. -/
def Stray (p q : α → Bool) (x : α) : Prop := q x = true ∧ p x = false

/-- **The first elements are the right ones if each stray one comes after enough of them.** -/
theorem take_filter_eq_iff (h : ∀ x, p x = true → q x = true) (l : List α) (k : Nat) :
    (l.filter q).take k = (l.filter p).take k ↔
      ∀ a x b, l = a ++ x :: b → Stray p q x → k ≤ a.countP p := by
  induction l generalizing k with
  | nil => simp
  | cons y ys ih =>
    -- a stray element of the rest comes after `y` too
    have hrest : (∀ a x b, y :: ys = a ++ x :: b → Stray p q x → k ≤ a.countP p) ↔
        (Stray p q y → k = 0) ∧
          ∀ a x b, ys = a ++ x :: b → Stray p q x → k ≤ (y :: a).countP p := by
      constructor
      · intro hall
        refine ⟨fun hy => Nat.le_zero.mp (hall [] y ys rfl hy), fun a x b hsplit hx => ?_⟩
        exact hall (y :: a) x b (by rw [hsplit]; rfl) hx
      · rintro ⟨hy, hys⟩ a x b hsplit hx
        cases a with
        | nil =>
          obtain ⟨rfl, rfl⟩ := List.cons.inj hsplit
          exact Nat.le_of_eq (hy hx)
        | cons z zs =>
          obtain ⟨rfl, htail⟩ := List.cons.inj hsplit
          exact hys zs x b htail hx
    rw [hrest]
    by_cases hp : p y = true
    · have hstray : ¬ Stray p q y := fun hs => absurd hp (by simp [hs.2])
      rw [List.filter_cons_of_pos (h y hp), List.filter_cons_of_pos hp]
      simp only [hstray, false_implies, true_and, List.countP_cons_of_pos hp]
      cases k with
      | zero => simp
      | succ k =>
        rw [List.take_succ_cons, List.take_succ_cons, List.cons_inj_right, ih k]
        simp only [Nat.add_le_add_iff_right]
    · by_cases hq : q y = true
      · have hstray : Stray p q y := ⟨hq, by simpa using hp⟩
        rw [List.filter_cons_of_pos hq, List.filter_cons_of_neg hp]
        cases k with
        | zero => simp
        | succ k =>
          refine iff_of_false (fun heq => hp ?_) fun hall => absurd (hall.1 hstray) (by simp)
          have hy : y ∈ (ys.filter p).take (k + 1) := by
            rw [← heq, List.take_succ_cons]
            exact List.mem_cons_self
          exact (List.mem_filter.mp (List.mem_of_mem_take hy)).2
      · have hstray : ¬ Stray p q y := fun hs => hq hs.1
        rw [List.filter_cons_of_neg hq, List.filter_cons_of_neg hp, ih k]
        simp only [hstray, false_implies, true_and, List.countP_cons_of_neg hp]

/-- **The number is right if there is no stray element or there are enough of the right ones.** -/
theorem min_countP_eq_iff (h : ∀ x, p x = true → q x = true) (l : List α) (k : Nat) :
    min k (l.countP q) = min k (l.countP p) ↔ ∀ x ∈ l, Stray p q x → k ≤ l.countP p := by
  have hle : l.countP p ≤ l.countP q := List.countP_mono_left fun x _ => h x
  constructor
  · intro heq x hx hstray
    by_contra hlt
    have hmono : ∀ l : List α, l.countP p ≤ l.countP q := fun l =>
      List.countP_mono_left fun x _ => h x
    obtain ⟨a, b, rfl⟩ := List.append_of_mem hx
    simp only [List.countP_append, List.countP_cons_of_pos hstray.1,
      List.countP_cons_of_neg (show ¬ p x = true by simp [hstray.2])] at heq hlt
    have ha := hmono a
    have hb := hmono b
    omega
  · intro hall
    by_cases hk : k ≤ l.countP p
    · omega
    · have hcount : l.countP q = l.countP p := by
        refine List.countP_congr fun x hx => ⟨fun hq => ?_, h x⟩
        by_contra hp
        exact hk (hall x hx ⟨hq, by simpa using hp⟩)
      rw [hcount]

/-! ## The elements before the first one without a property -/

theorem takeWhile_append_of_neg {a b : List α} (h : ∀ x ∈ b, p x = false) :
    (a ++ b).takeWhile p = a.takeWhile p := by
  induction a with
  | nil =>
    cases b with
    | nil => rfl
    | cons x b => exact List.takeWhile_cons_of_neg (by simp [h x List.mem_cons_self])
  | cons x a ih => rw [List.cons_append, List.takeWhile_cons, List.takeWhile_cons, ih]

/-- **No `q` is behind the first one without `p` if none is behind any.** -/
theorem filter_dropWhile_eq_nil_iff (h : ∀ x, q x = true → p x = true) (l : List α) :
    (l.dropWhile p).filter q = [] ↔ l.Pairwise fun x y => p x = false → q y = false := by
  induction l with
  | nil => exact iff_of_true rfl .nil
  | cons x l ih =>
    rw [List.pairwise_cons]
    by_cases hx : p x = true
    · rw [List.dropWhile_cons_of_pos hx, ih]
      refine (and_iff_right fun y _ hf => ?_).symm
      rw [hx] at hf
      exact absurd hf Bool.noConfusion
    · have hq : q x = false := by
        rw [Bool.eq_false_iff]
        exact fun hqx => hx (h x hqx)
      rw [List.dropWhile_cons_of_neg hx, List.filter_cons_of_neg (by simp [hq]),
        List.filter_eq_nil_iff]
      constructor
      · intro hall
        have hnone : ∀ y ∈ l, q y = false := fun y hy => by simpa using hall y hy
        refine ⟨fun y hy _ => hnone y hy, ?_⟩
        exact List.pairwise_of_forall_mem_list fun _ _ y hy _ => hnone y hy
      · rintro ⟨hall, -⟩ y hy
        simpa using hall y hy (by simpa using hx)

end OnuFirmware.Lib
