import Mathlib.Data.List.Induction

/-!
# Values grouped by their keys

Pairs are put into a list with one entry for each key. A new key gets a new last entry; the value of
a known key is joined to what its entry holds. What comes out depends on the pairs alone: the keys
in order of first occurrence, each with its own values.
-/

namespace OnuFirmware.Lib

variable {α β : Type*} [DecidableEq α] (f : β → β → β)

/-- A pair is put into the list. -/
def putPair : List (α × β) → α × β → List (α × β)
  | [], p => [p]
  | q :: l, p => if q.1 = p.1 then (q.1, f q.2 p.2) :: l else q :: putPair l p

/-- The keys in order of first occurrence. -/
def firstKeys : List (α × β) → List α
  | [] => []
  | p :: l => p.1 :: (firstKeys l).filter (· ≠ p.1)

/-- The values with a key. -/
def valuesOf (l : List (α × β)) (k : α) : List β := (l.filter (·.1 = k)).map (·.2)

variable {f}

theorem mem_firstKeys {l : List (α × β)} {k : α} : k ∈ firstKeys l ↔ k ∈ l.map (·.1) := by
  induction l with
  | nil => exact Iff.rfl
  | cons p l ih =>
    rw [firstKeys, List.map_cons, List.mem_cons, List.mem_cons, List.mem_filter, ih,
      decide_eq_true_iff]
    by_cases hk : k = p.1 <;> simp [hk]

theorem nodup_firstKeys (l : List (α × β)) : (firstKeys l).Nodup := by
  induction l with
  | nil => exact List.nodup_nil
  | cons p l ih =>
    rw [firstKeys, List.nodup_cons]
    exact ⟨fun h => by simp at h, ih.filter _⟩

theorem firstKeys_concat (l : List (α × β)) (p : α × β) :
    firstKeys (l ++ [p]) = if p.1 ∈ firstKeys l then firstKeys l else firstKeys l ++ [p.1] := by
  induction l with
  | nil => rfl
  | cons q l ih =>
    rw [List.cons_append, firstKeys, ih, firstKeys]
    by_cases hp : p.1 ∈ firstKeys l
    · have hmem : p.1 ∈ q.1 :: (firstKeys l).filter (· ≠ q.1) := by
        by_cases hq : p.1 = q.1 <;> simp [hp, hq]
      rw [if_pos hp, if_pos hmem]
    · rw [if_neg hp, List.filter_append]
      by_cases hq : p.1 = q.1
      · simp [hq]
      · simp [hp, hq]

theorem valuesOf_concat (l : List (α × β)) (p : α × β) (k : α) :
    valuesOf (l ++ [p]) k = valuesOf l k ++ if p.1 = k then [p.2] else [] := by
  rw [valuesOf, valuesOf, List.filter_append, List.map_append]
  by_cases hk : p.1 = k <;> simp [hk]

theorem valuesOf_eq_nil_iff {l : List (α × β)} {k : α} : valuesOf l k = [] ↔ k ∉ firstKeys l := by
  rw [valuesOf, List.map_eq_nil_iff, List.filter_eq_nil_iff, mem_firstKeys, List.mem_map]
  simp only [decide_eq_true_eq, not_exists, not_and]

/-- A pair with a new key. -/
theorem putPair_of_notMem {l : List (α × β)} {p : α × β} (h : p.1 ∉ l.map (·.1)) :
    putPair f l p = l ++ [p] := by
  induction l with
  | nil => rfl
  | cons q l ih =>
    rw [List.map_cons, List.mem_cons, not_or] at h
    rw [putPair, if_neg (Ne.symm h.1), ih h.2, List.cons_append]

/-- A pair with a known key changes the entry of the key. -/
theorem putPair_map {keys : List α} (hkeys : keys.Nodup) (v : α → β) {p : α × β}
    (h : p.1 ∈ keys) : putPair f (keys.map fun k => (k, v k)) p =
      keys.map fun k => (k, if p.1 = k then f (v k) p.2 else v k) := by
  induction keys with
  | nil => exact absurd h List.not_mem_nil
  | cons k keys ih =>
    obtain ⟨hk, hkeys⟩ := List.nodup_cons.mp hkeys
    rw [List.map_cons, List.map_cons, putPair]
    by_cases hp : k = p.1
    · have hrest : keys.map (fun j => (j, if p.1 = j then f (v j) p.2 else v j)) =
          keys.map fun j => (j, v j) := List.map_congr_left fun j hj => by
        have hne : p.1 ≠ j := fun he => hk (hp ▸ he ▸ hj)
        rw [if_neg hne]
      rw [if_pos hp, if_pos hp.symm, hrest]
    · rw [if_neg hp, if_neg (Ne.symm hp), ih hkeys ((List.mem_cons.mp h).resolve_left (Ne.symm hp))]

/-- **What the entries are.** For `join` that takes the values of a key one after the other. -/
theorem foldl_putPair {join : List β → β} (hone : ∀ v, join [v] = v)
    (hjoin : ∀ vs v, vs ≠ [] → join (vs ++ [v]) = f (join vs) v) (l : List (α × β)) :
    l.foldl (putPair f) [] = (firstKeys l).map fun k => (k, join (valuesOf l k)) := by
  induction l using List.reverseRecOn with
  | nil => rfl
  | append_singleton l p ih =>
    rw [List.foldl_append, ih, List.foldl_cons, List.foldl_nil, firstKeys_concat]
    by_cases hp : p.1 ∈ firstKeys l
    · rw [if_pos hp, putPair_map (nodup_firstKeys l) _ hp]
      refine List.map_congr_left fun k hk => ?_
      rw [valuesOf_concat]
      by_cases hpk : p.1 = k
      · rw [if_pos hpk, if_pos hpk, hjoin _ _ fun h => valuesOf_eq_nil_iff.mp h hk]
      · rw [if_neg hpk, if_neg hpk, List.append_nil]
    · have hkeys : p.1 ∉ ((firstKeys l).map fun k => (k, join (valuesOf l k))).map (·.1) := by
        simpa using hp
      have hnew : valuesOf (l ++ [p]) p.1 = [p.2] := by
        rw [valuesOf_concat, if_pos rfl, valuesOf_eq_nil_iff.mpr hp, List.nil_append]
      have hold : ∀ k ∈ firstKeys l, (k, join (valuesOf l k)) = (k, join (valuesOf (l ++ [p]) k)) :=
        fun k hk => by
          have hne : p.1 ≠ k := fun he => hp (he ▸ hk)
          rw [valuesOf_concat, if_neg hne, List.append_nil]
      rw [if_neg hp, putPair_of_notMem hkeys, List.map_append, List.map_congr_left hold,
        List.map_singleton, hnew, hone]

end OnuFirmware.Lib
