import OnuFirmware.Clib.Str
import OnuFirmware.Lib.Split

/-!
# Conversions of `sscanf`
-/

namespace OnuFirmware.Clib

/-- `%d`: the number and the text behind it, if there are digits behind the blanks and the sign. -/
def scanD (s : Str) : Option (Int × Str) :=
  let digits :=
    match s.dropWhile isSpace with
    | '-' :: r => r
    | '+' :: r => r
    | r => r
  if digits.takeWhile isDigit = [] then none else some (atoi s, digits.dropWhile isDigit)

theorem scanD_digits {d : Str} (hd : ∀ c ∈ d, isDigit c = true) (hne : d ≠ []) :
    scanD d = some (atoi d, []) := by
  cases d with
  | nil => exact absurd rfl hne
  | cons c r =>
    have hc := hd c List.mem_cons_self
    have hrange := isDigit_iff.mp hc
    rw [scanD, List.dropWhile_cons_of_neg (by simp [isSpace_eq_false_of_isDigit hc])]
    split
    · next he =>
      obtain ⟨rfl, -⟩ := List.cons.inj he
      exact absurd hrange.1 (by decide)
    · next he =>
      obtain ⟨rfl, -⟩ := List.cons.inj he
      exact absurd hrange.1 (by decide)
    · have hrest := @dropWhile_run isDigit (c :: r) [] hd (by simp)
      rw [List.append_nil] at hrest
      rw [takeWhile_all hd, if_neg (List.cons_ne_nil c r), hrest]

/-- `strtok` and `strtok_r` called until there is no token left. -/
def strtokAll (delim : Char) (s : Str) : List Str := (s.splitOn delim).filter (· ≠ [])

/-- The tokens of the beginning of a text are tokens of the text, up to the last one. -/
theorem mem_strtokAll_append {delim : Char} {a : Str} (l : Str) {item : Str}
    (h : item ∈ (strtokAll delim a).dropLast) : item ∈ strtokAll delim (a ++ l) := by
  have hne := List.splitOn_ne_nil delim a
  have hinit : item ∈ (a.splitOn delim).dropLast.filter (· ≠ []) := by
    rw [strtokAll, ← List.dropLast_append_getLast hne, List.filter_append] at h
    by_cases hlast : (a.splitOn delim).getLast hne = []
    · rw [hlast] at h
      simp only [List.filter_cons, List.filter_nil, ne_eq, not_true, decide_false, List.append_nil,
        Bool.false_eq_true, if_false] at h
      exact (List.dropLast_subset _) h
    · rw [List.filter_cons_of_pos (by simpa using hlast), List.filter_nil,
        List.dropLast_concat] at h
      exact h
  rw [strtokAll, Lib.splitOn_append, List.filter_append]
  exact List.mem_append_left _ hinit

theorem ne_nil_of_mem_strtokAll {delim : Char} {s t : Str} (h : t ∈ strtokAll delim s) :
    t ≠ [] := by
  simpa using (List.mem_filter.mp h).2

/-- There are no more tokens than characters. -/
theorem length_strtokAll_le {delim : Char} (s : Str) : (strtokAll delim s).length ≤ s.length := by
  induction hn : s.length using Nat.strongRecOn generalizing s with
  | ind n ih =>
    rcases Lib.splitOn_cases delim s with ⟨-, hs⟩ | ⟨a, b, rfl, -, hs⟩
    · rw [strtokAll, hs, ← hn]
      cases s <;> simp
    · rw [List.length_append, List.length_cons] at hn
      have hb := ih b.length (by omega) b rfl
      rw [strtokAll] at hb ⊢
      rw [hs]
      cases a with
      | nil =>
        rw [List.filter_cons_of_neg (by simp)]
        rw [List.length_nil] at hn
        omega
      | cons c a =>
        rw [List.filter_cons_of_pos (by simp), List.length_cons]
        rw [List.length_cons] at hn
        omega

/-- The tokens of the beginning of a text are the first ones of the text; the last one may be
cut. -/
theorem strtokAll_prefix {delim : Char} {a : Str} (l : Str) {k : Nat} {t : Str}
    (h : (strtokAll delim a)[k]? = some t) :
    ∃ u, (strtokAll delim (a ++ l))[k]? = some u ∧ t <+: u := by
  have hne := List.splitOn_ne_nil delim a
  have hlast : delim ∉ (a.splitOn delim).getLast hne :=
    Lib.notMem_of_mem_splitOn (List.getLast_mem hne)
  rw [strtokAll, ← List.dropLast_append_getLast hne, List.filter_append, List.getElem?_append] at h
  rw [strtokAll, Lib.splitOn_append, List.filter_append, List.getElem?_append]
  split
  · next hk =>
    rw [if_pos hk] at h
    exact ⟨t, h, List.prefix_rfl⟩
  · next hk =>
    rw [if_neg hk] at h
    generalize (a.splitOn delim).getLast hne = last at h hlast ⊢
    by_cases hnil : last = []
    · rw [hnil] at h
      exact absurd h.symm (Option.some_ne_none t)
    · rw [List.filter_cons_of_pos (by simpa using hnil), List.filter_nil] at h
      obtain ⟨x, xs, hx⟩ := List.exists_cons_of_ne_nil (List.splitOn_ne_nil delim l)
      rw [Lib.splitOn_append_of_notMem hlast, hx, List.modifyHead_cons,
        List.filter_cons_of_pos (by simp [hnil])]
      generalize k - _ = j at h ⊢
      cases j with
      | zero =>
        obtain rfl := Option.some.inj h
        exact ⟨_, rfl, List.prefix_append _ _⟩
      | succ j => exact absurd h.symm (Option.some_ne_none t)

end OnuFirmware.Clib
