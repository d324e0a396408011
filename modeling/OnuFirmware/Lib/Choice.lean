import Mathlib.Data.List.Basic

/-!
# Choosing the first element of the best class

Classes of elements are given by a list of predicates, the best class first. `firstBest` takes the
first element of a list in the first class that has one, and `rank` is the class of an element.
-/

namespace OnuFirmware.Lib

variable {α : Type*}

/-- The first class an element is in, and the number of classes if it is in none. -/
def rank (classes : List (α → Bool)) (x : α) : Nat := classes.findIdx fun p => p x

/-- The first element of the list in the first class that has one. -/
def firstBest (classes : List (α → Bool)) (l : List α) : Option α :=
  classes.findSome? fun p => l.find? p

theorem rank_cons (p : α → Bool) (classes : List (α → Bool)) (x : α) :
    rank (p :: classes) x = if p x then 0 else rank classes x + 1 := by
  rw [rank, List.findIdx_cons]
  cases p x <;> rfl

@[simp] theorem firstBest_nil (l : List α) : firstBest [] l = none := rfl

theorem firstBest_cons (p : α → Bool) (classes : List (α → Bool)) (l : List α) :
    firstBest (p :: classes) l = (l.find? p).or (firstBest classes l) := by
  rw [firstBest, List.findSome?_cons]
  cases l.find? p <;> rfl

/-- There is no choice exactly if no element is in a class. -/
theorem firstBest_eq_none {classes : List (α → Bool)} {l : List α} :
    firstBest classes l = none ↔ ∀ x ∈ l, rank classes x = classes.length := by
  induction classes with
  | nil => simp [rank]
  | cons p classes ih =>
    rw [firstBest_cons, Option.or_eq_none_iff, ih, List.find?_eq_none]
    constructor
    · rintro ⟨hp, hrest⟩ x hx
      rw [rank_cons, if_neg (hp x hx), hrest x hx, List.length_cons]
    · intro h
      refine ⟨fun x hx hp => ?_, fun x hx => ?_⟩
      · have hr := h x hx
        rw [rank_cons, if_pos hp, List.length_cons] at hr
        omega
      · have hr := h x hx
        rw [rank_cons, List.length_cons] at hr
        split at hr <;> omega

/-- **The choice has the least rank, and is the first element of this rank.** -/
theorem firstBest_eq_some {classes : List (α → Bool)} {l : List α} {o : α} :
    firstBest classes l = some o ↔ rank classes o < classes.length ∧ ∃ pre post,
      l = pre ++ o :: post ∧ (∀ x ∈ pre, rank classes o < rank classes x) ∧
        ∀ x ∈ post, rank classes o ≤ rank classes x := by
  induction classes with
  | nil => simp [rank]
  | cons p classes ih =>
    rw [firstBest_cons]
    cases hfind : l.find? p with
    | some o' =>
      rw [Option.some_or, Option.some_inj]
      obtain ⟨hp', as, bs, rfl, has⟩ := List.find?_eq_some_iff_append.mp hfind
      constructor
      · rintro rfl
        have hzero : rank (p :: classes) o' = 0 := by rw [rank_cons, if_pos hp']
        refine ⟨by rw [hzero]; exact Nat.succ_pos _, as, bs, rfl, fun x hx => ?_, fun x _ => ?_⟩
        · have hpx : p x = false := by simpa using has x hx
          rw [hzero, rank_cons, if_neg (by simp [hpx])]
          exact Nat.succ_pos _
        · rw [hzero]
          exact Nat.zero_le _
      · rintro ⟨_, pre, post, heq, hpre, hpost⟩
        -- the element found has rank 0, so the choice has rank 0 too and comes first
        have hzero : rank (p :: classes) o' = 0 := by rw [rank_cons, if_pos hp']
        have hmem : o' ∈ pre ++ o :: post := heq ▸ List.mem_append_right as List.mem_cons_self
        have hpo : p o = true := by
          have hle : rank (p :: classes) o ≤ rank (p :: classes) o' := by
            rcases List.mem_append.mp hmem with hm | hm
            · exact Nat.le_of_lt (hpre o' hm)
            · rcases List.mem_cons.mp hm with rfl | hm
              · exact Nat.le_refl _
              · exact hpost o' hm
          rw [hzero, rank_cons] at hle
          by_contra hn
          rw [if_neg hn] at hle
          omega
        have hfirst : (pre ++ o :: post).find? p = some o := by
          refine List.find?_eq_some_iff_append.mpr ⟨hpo, pre, post, rfl, fun x hx => ?_⟩
          have hlt := hpre x hx
          rw [rank_cons, rank_cons, if_pos hpo] at hlt
          cases hpx : p x with
          | false => rfl
          | true => simp [hpx] at hlt
        rw [heq, hfirst] at hfind
        exact (Option.some.inj hfind).symm
    | none =>
      have hnone := List.find?_eq_none.mp hfind
      rw [Option.none_or, ih]
      have hr : ∀ x ∈ l, rank (p :: classes) x = rank classes x + 1 := fun x hx => by
        rw [rank_cons, if_neg (hnone x hx)]
      constructor
      · rintro ⟨hlt, pre, post, rfl, hpre, hpost⟩
        have ho := hr o (by simp)
        refine ⟨by rw [ho, List.length_cons]; omega, pre, post, rfl, fun x hx => ?_, fun x hx => ?_⟩
        · rw [ho, hr x (by simp [hx])]
          have := hpre x hx
          omega
        · rw [ho, hr x (by simp [hx])]
          have := hpost x hx
          omega
      · rintro ⟨hlt, pre, post, rfl, hpre, hpost⟩
        have ho := hr o (by simp)
        rw [ho, List.length_cons] at hlt
        refine ⟨by omega, pre, post, rfl, fun x hx => ?_, fun x hx => ?_⟩
        · have := hpre x hx
          rw [ho, hr x (by simp [hx])] at this
          omega
        · have := hpost x hx
          rw [ho, hr x (by simp [hx])] at this
          omega

/-- Dropping elements other than the choice does not change it. -/
theorem firstBest_filter {classes : List (α → Bool)} {l : List α} {o : α} {q : α → Bool}
    (h : firstBest classes l = some o) (ho : q o = true) :
    firstBest classes (l.filter q) = some o := by
  obtain ⟨hlt, pre, post, rfl, hpre, hpost⟩ := firstBest_eq_some.mp h
  refine firstBest_eq_some.mpr ⟨hlt, pre.filter q, post.filter q, ?_, fun x hx => ?_,
    fun x hx => ?_⟩
  · rw [List.filter_append, List.filter_cons_of_pos ho]
  · exact hpre x (List.mem_of_mem_filter hx)
  · exact hpost x (List.mem_of_mem_filter hx)

theorem firstBest_mem {classes : List (α → Bool)} {l : List α} {o : α}
    (h : firstBest classes l = some o) : o ∈ l := by
  obtain ⟨_, pre, post, rfl, _⟩ := firstBest_eq_some.mp h
  simp

/-- Another element than the choice comes after it with no better rank, or before it with a worse
one. -/
theorem firstBest_beats {classes : List (α → Bool)} {pre post : List α} {d o : α}
    (h : firstBest classes (pre ++ d :: post) = some o) :
    o = d ∨ (o ∈ pre ∧ rank classes o ≤ rank classes d) ∨
      (o ∈ post ∧ rank classes o < rank classes d) := by
  obtain ⟨_, as, bs, heq, has, hbs⟩ := firstBest_eq_some.mp h
  rcases List.append_eq_append_iff.mp heq with ⟨as', rfl, hd⟩ | ⟨bs', rfl, ho⟩
  · rcases as' with _ | ⟨x, as'⟩
    · exact .inl (List.cons.inj hd).1.symm
    · obtain ⟨rfl, rfl⟩ := List.cons.inj hd
      exact .inr (.inr ⟨by simp, has d (by simp)⟩)
  · rcases bs' with _ | ⟨x, bs'⟩
    · exact .inl (List.cons.inj ho).1
    · obtain ⟨rfl, rfl⟩ := List.cons.inj ho
      exact .inr (.inl ⟨by simp, hbs d (by simp)⟩)

end OnuFirmware.Lib
