import Mathlib.Data.List.Basic

/-!
# Runs of writes that change nothing

A write puts a value in a place of a store. `WriteRules` says how writes interact: a write hides an
earlier one to the same place, and writes to places that are there already go in any order. A run of
writes leaves the store as it is exactly if the last write to each place finds its value there
(`foldl_apply_eq_self_iff`).
-/

namespace OnuFirmware.Lib

variable {σ : Type*} {ω : Type*} {κ : Type*}

/-- How writes interact. A write that changes nothing finds its value there. -/
structure WriteRules (apply : ω → σ → σ) (place : ω → κ) (there : κ → σ → Prop) : Prop where
  hides : ∀ v w s, place v = place w → apply w (apply v s) = apply w s
  commute : ∀ v w s, place v ≠ place w → there (place v) s → there (place w) s →
    apply w (apply v s) = apply v (apply w s)
  frame : ∀ v w s, place v ≠ place w → apply w s = s → apply w (apply v s) = apply v s
  there_of_same : ∀ w s, apply w s = s → there (place w) s
  there_apply : ∀ k w s, there k s → there k (apply w s)

/-- The last write to its place in a list. -/
def LastWrite (place : ω → κ) (l : List ω) (w : ω) : Prop :=
  ∃ a b, l = a ++ w :: b ∧ ∀ v ∈ b, place v ≠ place w

section

variable {apply : ω → σ → σ} {place : ω → κ} {there : κ → σ → Prop}

theorem lastWrite_concat (l : List ω) (w : ω) : LastWrite place (l ++ [w]) w :=
  ⟨l, [], rfl, fun _ hv => absurd hv List.not_mem_nil⟩

/-- A last write is still last if only writes to other places come behind it. -/
theorem LastWrite.append {l b : List ω} {w : ω} (h : LastWrite place l w)
    (hb : ∀ v ∈ b, place v ≠ place w) : LastWrite place (l ++ b) w := by
  obtain ⟨a, c, rfl, hc⟩ := h
  refine ⟨a, c ++ b, by rw [List.append_assoc, List.cons_append], fun v hv => ?_⟩
  rcases List.mem_append.mp hv with hv | hv
  · exact hc v hv
  · exact hb v hv

/-- Writes to one place that are left out of a list leave the last writes to the others. -/
theorem LastWrite.of_filter [DecidableEq κ] {k : κ} {w : ω} : ∀ {l : List ω},
    LastWrite place (l.filter fun v => place v ≠ k) w → LastWrite place l w
  | [], h => h
  | v :: l, h => by
    have hcons : LastWrite place l w → LastWrite place (v :: l) w := by
      rintro ⟨a, b, rfl, hb⟩
      exact ⟨v :: a, b, rfl, hb⟩
    rw [List.filter_cons] at h
    split at h
    · rename_i hv
      obtain ⟨a, b, hab, hb⟩ := h
      cases a with
      | nil =>
        obtain ⟨rfl, rfl⟩ := List.cons.inj hab
        refine ⟨[], l, rfl, fun u hu => ?_⟩
        by_cases huk : place u = k
        · exact fun huv => of_decide_eq_true hv (huv.symm.trans huk)
        · exact hb u (List.mem_filter.mpr ⟨hu, decide_eq_true huk⟩)
      | cons v' a =>
        exact hcons (LastWrite.of_filter ⟨a, b, (List.cons.inj hab).2, hb⟩)
    · exact hcons (LastWrite.of_filter h)

/-- Behind every write stands the last one to its place. -/
theorem exists_lastWrite [DecidableEq κ] : ∀ {l : List ω} {v : ω}, v ∈ l →
    ∃ w, LastWrite place l w ∧ place w = place v
  | u :: l, v, hv => by
    by_cases hlater : ∃ v' ∈ l, place v' = place v
    · obtain ⟨v', hv', hplace⟩ := hlater
      obtain ⟨w, ⟨a, b, rfl, hb⟩, hw⟩ := exists_lastWrite hv'
      exact ⟨w, ⟨u :: a, b, rfl, hb⟩, hw.trans hplace⟩
    · have hnone : ∀ v' ∈ l, place v' ≠ place v := fun v' hv' he => hlater ⟨v', hv', he⟩
      rcases List.mem_cons.mp hv with rfl | hv
      · exact ⟨v, ⟨[], l, rfl, hnone⟩, rfl⟩
      · exact absurd rfl (hnone v hv)

namespace WriteRules

variable (h : WriteRules apply place there)
include h

/-- A write goes past writes to other places. -/
theorem apply_foldl {w : ω} {s : σ} (hw : there (place w) s) {l : List ω}
    (hl : ∀ v ∈ l, place v ≠ place w ∧ there (place v) s) :
    apply w (l.foldl (fun s v => apply v s) s) = l.foldl (fun s v => apply v s) (apply w s) := by
  induction l generalizing s with
  | nil => rfl
  | cons v l ih =>
    obtain ⟨⟨hne, hv⟩, hl⟩ := List.forall_mem_cons.mp hl
    rw [List.foldl_cons, List.foldl_cons, ← h.commute v w s hne hv hw]
    refine ih (h.there_apply _ _ _ hw) fun u hu => ?_
    exact ⟨(hl u hu).1, h.there_apply _ _ _ (hl u hu).2⟩

/-- A write hides all the earlier ones to its place. -/
theorem apply_foldl_filter [DecidableEq κ] {w : ω} {s : σ} {l : List ω} (hw : there (place w) s)
    (hl : ∀ v ∈ l, there (place v) s) :
    apply w (l.foldl (fun s v => apply v s) s) =
      apply w ((l.filter fun v => place v ≠ place w).foldl (fun s v => apply v s) s) := by
  induction l generalizing s with
  | nil => rfl
  | cons v l ih =>
    obtain ⟨hv, hl⟩ := List.forall_mem_cons.mp hl
    have hrest := ih (h.there_apply _ v _ hw) fun u hu => h.there_apply _ v _ (hl u hu)
    rw [List.foldl_cons, hrest, List.filter_cons]
    split
    · rfl
    · rename_i hsame
      rw [decide_eq_true_eq, not_not] at hsame
      have hothers : ∀ u ∈ l.filter (fun v => place v ≠ place w),
          place u ≠ place w ∧ there (place u) s := by
        intro u hu
        obtain ⟨hu, hne⟩ := List.mem_filter.mp hu
        exact ⟨of_decide_eq_true hne, hl u hu⟩
      rw [h.apply_foldl hw hothers, h.apply_foldl (h.there_apply _ v _ hw) fun u hu =>
        ⟨(hothers u hu).1, h.there_apply _ v _ (hothers u hu).2⟩, h.hides v w s hsame]

/-- A write that is not changed later finds its value there. -/
theorem frame_foldl {w : ω} {s : σ} (hs : apply w s = s) {l : List ω}
    (hl : ∀ v ∈ l, place v ≠ place w) : apply w (l.foldl (fun s v => apply v s) s) =
      l.foldl (fun s v => apply v s) s := by
  induction l generalizing s with
  | nil => exact hs
  | cons v l ih =>
    obtain ⟨hv, hl⟩ := List.forall_mem_cons.mp hl
    exact ih (h.frame v w s hv hs) hl

theorem foldl_apply_eq_self [DecidableEq κ] {s : σ} : ∀ (n : Nat) {l : List ω}, l.length ≤ n →
    (∀ w, LastWrite place l w → apply w s = s) → l.foldl (fun s w => apply w s) s = s
  | 0, l, hn, _ => by
    rw [List.length_eq_zero_iff.mp (Nat.le_zero.mp hn)]
    rfl
  | n + 1, l, hn, hl => by
    rcases List.eq_nil_or_concat l with rfl | ⟨l, w, rfl⟩
    · rfl
    rw [List.concat_eq_append] at hn hl ⊢
    have hw : apply w s = s := hl w (lastWrite_concat l w)
    have hthere : ∀ v ∈ l, there (place v) s := by
      intro v hv
      obtain ⟨u, hu, hplace⟩ := @exists_lastWrite _ _ place _ _ _ (List.mem_append_left [w] hv)
      exact hplace ▸ h.there_of_same u s (hl u hu)
    have hshort : (l.filter fun v => place v ≠ place w).length ≤ n := by
      have hle := List.length_filter_le (fun v => decide (place v ≠ place w)) l
      rw [List.length_append, List.length_singleton] at hn
      omega
    rw [List.foldl_append, List.foldl_cons, List.foldl_nil,
      h.apply_foldl_filter (h.there_of_same w s hw) hthere,
      foldl_apply_eq_self n hshort fun u hu => ?_, hw]
    refine hl u (hu.of_filter.append fun v hv => ?_)
    obtain ⟨a, b, hab, -⟩ := hu
    obtain rfl := List.mem_singleton.mp hv
    have hmem : u ∈ l.filter fun u => place u ≠ place v :=
      hab ▸ List.mem_append_right a List.mem_cons_self
    exact (of_decide_eq_true (List.mem_filter.mp hmem).2).symm

/-- **A run of writes leaves the store as it is exactly if the last write to each place does.** -/
theorem foldl_apply_eq_self_iff [DecidableEq κ] (l : List ω) (s : σ) :
    l.foldl (fun s w => apply w s) s = s ↔ ∀ w, LastWrite place l w → apply w s = s := by
  refine ⟨fun hs w hw => ?_, h.foldl_apply_eq_self l.length (Nat.le_refl _)⟩
  obtain ⟨a, b, rfl, hb⟩ := hw
  rw [List.foldl_append, List.foldl_cons] at hs
  have hlast := h.frame_foldl (h.hides w w (a.foldl (fun s w => apply w s) s) rfl) hb
  rw [hs] at hlast
  exact hlast

end WriteRules

end

end OnuFirmware.Lib
