import OnuFirmware.Cfg.Path

/-!
# Paths as token lists

Both loops over a path call `cfg_get_token` until it fails. `pathTokens` collects what it delivers,
so a loop over a path is a walk over the collected list (`Cfg/Chain.lean`). `joinDots` goes the
other way; a path that is read to its end is the text of its tokens, up to one separator at the end.
-/

namespace OnuFirmware.Cfg

open Lib Clib

/-! ## Collecting the tokens -/

/-- The tokens of a path up to the first failure of `cfg_get_token`, and the text left there. -/
def pathTokens : Nat → Str → List Str × Except Fault Str
  | 0, tmp => ([], .ok tmp)
  | fuel + 1, tmp =>
    match cfgGetToken tmp with
    | .error e => ([], .error e)
    | .ok none => ([], .ok tmp)
    | .ok (some t) => (t.token :: (pathTokens fuel t.rest).1, (pathTokens fuel t.rest).2)

/-- A token that `cfg_get_token` can deliver: not empty, no separator, fits into its buffer. -/
structure IsToken (t : Str) : Prop where
  ne_nil : t ≠ []
  no_dot : '.' ∉ t
  short : t.length < cfgMaxTypeName

theorem takeWhile_append_dropWhile_dot (s : Str) :
    s.takeWhile (· != '.') ++ s.dropWhile (· != '.') = s :=
  List.takeWhile_append_dropWhile

theorem not_mem_takeWhile_dot (s : Str) : '.' ∉ s.takeWhile (· != '.') := by
  intro h
  have := List.all_eq_true.mp (List.all_takeWhile (p := (· != '.')) (l := s)) '.' h
  simp at this

/-- What a delivered token has to do with the text it was taken from. -/
theorem cfgGetToken_some {s : Str} {t : Token} (h : cfgGetToken s = .ok (some t)) :
    IsToken t.token ∧ (s = t.token ++ '.' :: t.rest ∨ (s = t.token ∧ t.rest = [])) := by
  unfold cfgGetToken at h
  split at h
  · simp at h
  · simp at h
  · next h1 h2 =>
    have hne : s.takeWhile (· != '.') ≠ [] := by
      cases s with
      | nil => exact absurd rfl h1
      | cons c s =>
        have hc : c ≠ '.' := fun hc => h2 s (by rw [hc])
        rw [List.takeWhile_cons_of_pos (by simpa using hc)]
        simp
    have hsplit := takeWhile_append_dropWhile_dot s
    split at h
    · next d rest hd =>
      have hdot : d = '.' := by
        have := List.head?_dropWhile_not (· != '.') s
        rw [hd] at this
        simpa using this
      simp only at h
      split at h
      · simp at h
      · next hlen =>
        simp only [Except.ok.injEq, Option.some.injEq] at h
        subst h
        refine ⟨⟨hne, not_mem_takeWhile_dot s, Nat.not_le.mp hlen⟩, Or.inl ?_⟩
        rw [hd, hdot] at hsplit
        exact hsplit.symm
    · next hd =>
      simp only at h
      split at h
      · simp at h
      · next hlen =>
        simp only [Except.ok.injEq, Option.some.injEq] at h
        subst h
        refine ⟨⟨hne, not_mem_takeWhile_dot s, Nat.not_le.mp hlen⟩, Or.inr ⟨?_, rfl⟩⟩
        rw [hd, List.append_nil] at hsplit
        exact hsplit.symm

theorem cfgGetToken_rest_lt {s : Str} {t : Token} (h : cfgGetToken s = .ok (some t)) :
    t.rest.length < s.length := by
  obtain ⟨ht, hs | ⟨hs, hr⟩⟩ := cfgGetToken_some h
  · rw [hs, List.length_append, List.length_cons]
    omega
  · rw [hr, hs]
    exact List.length_pos_of_ne_nil ht.ne_nil

theorem takeWhile_dropWhile_of_token {t r : Str} (ht : IsToken t) :
    (t ++ '.' :: r).takeWhile (· != '.') = t ∧ (t ++ '.' :: r).dropWhile (· != '.') = '.' :: r := by
  have hp : ∀ c ∈ t, (c != '.') = true := fun c hc => by
    simpa using fun he : c = '.' => ht.no_dot (he ▸ hc)
  rw [List.takeWhile_append_of_pos hp, List.dropWhile_append_of_pos hp]
  simp

/-- A token in front of a separator is delivered. -/
theorem cfgGetToken_dot {t r : Str} (ht : IsToken t) :
    cfgGetToken (t ++ '.' :: r) = .ok (some { ret := 1, token := t, rest := r }) := by
  obtain ⟨h1, h2⟩ := takeWhile_dropWhile_of_token (r := r) ht
  have hs := ht.short
  unfold cfgGetToken
  split
  · next he => simp at he
  · next _ he =>
    cases t with
    | nil => exact absurd rfl ht.ne_nil
    | cons c t =>
      obtain ⟨rfl, _⟩ := List.cons.inj he
      exact absurd List.mem_cons_self ht.no_dot
  · simp only [h1, h2]
    rw [if_neg (by omega)]

/-- A token at the end of the path is delivered. -/
theorem cfgGetToken_end {t : Str} (ht : IsToken t) :
    cfgGetToken t = .ok (some { ret := 0, token := t, rest := [] }) := by
  have hp : ∀ c ∈ t, (c != '.') = true := fun c hc => by
    simpa using fun he : c = '.' => ht.no_dot (he ▸ hc)
  have h1 : t.takeWhile (· != '.') = t := by
    simpa using @List.takeWhile_append_of_pos _ _ t [] hp
  have h2 : t.dropWhile (· != '.') = [] := by
    simpa using @List.dropWhile_append_of_pos _ _ t [] hp
  have hs := ht.short
  unfold cfgGetToken
  split
  · exact absurd rfl ht.ne_nil
  · exact absurd List.mem_cons_self ht.no_dot
  · simp only [h1, h2]
    rw [if_neg (by omega)]

theorem isToken_of_mem_pathTokens : ∀ {fuel : Nat} {s t : Str}, t ∈ (pathTokens fuel s).1 →
    IsToken t
  | 0, _, _, h => absurd h List.not_mem_nil
  | fuel + 1, s, t, h => by
    rw [pathTokens] at h
    split at h
    · simp at h
    · simp at h
    · next tok htok =>
      rcases List.mem_cons.mp h with rfl | h
      · exact (cfgGetToken_some htok).1
      · exact isToken_of_mem_pathTokens h

/-! ## The text of a token list -/

/-- The path that names the given tokens. -/
def joinDots : List Str → Str
  | [] => []
  | [t] => t
  | t :: u :: ts => t ++ '.' :: joinDots (u :: ts)

theorem joinDots_append {ts us : List Str} (ht : ts ≠ []) (hu : us ≠ []) :
    joinDots (ts ++ us) = joinDots ts ++ '.' :: joinDots us := by
  induction ts with
  | nil => exact absurd rfl ht
  | cons t ts ih =>
    cases ts with
    | nil =>
      cases us with
      | nil => exact absurd rfl hu
      | cons u us => rfl
    | cons t' ts =>
      have := ih (by simp)
      simp only [List.cons_append, joinDots, List.append_assoc] at this ⊢
      rw [this]

theorem joinDots_ne_nil {ts : List Str} (hne : ts ≠ []) (h : ∀ t ∈ ts, IsToken t) :
    joinDots ts ≠ [] := by
  cases ts with
  | nil => exact absurd rfl hne
  | cons t ts =>
    have ht := (h t List.mem_cons_self).ne_nil
    cases ts with
    | nil => exact ht
    | cons u ts => simp [joinDots]

theorem length_joinDots_lt {ts : List Str} (h : ∀ t ∈ ts, IsToken t) (hne : ts ≠ []) :
    (joinDots ts).length < cfgMaxTypeName * ts.length := by
  induction ts with
  | nil => exact absurd rfl hne
  | cons t ts ih =>
    have ht := (h t List.mem_cons_self).short
    cases ts with
    | nil =>
      rw [List.length_singleton, Nat.mul_one]
      exact ht
    | cons u ts =>
      have ih := ih (fun x hx => h x (List.mem_cons_of_mem t hx)) (by simp)
      have hlen : (joinDots (t :: u :: ts)).length =
        t.length + (joinDots (u :: ts)).length + 1 := by
        rw [joinDots, List.length_append, List.length_cons, Nat.add_assoc]
      rw [hlen, List.length_cons, Nat.mul_succ]
      omega

/-- Reading the text of a token list gives the list back. -/
theorem pathTokens_joinDots : ∀ (ts : List Str) (fuel : Nat), (∀ t ∈ ts, IsToken t) →
    (joinDots ts).length < fuel → pathTokens fuel (joinDots ts) = (ts, .ok [])
  | _, 0, _, hf => absurd hf (Nat.not_lt_zero _)
  | [], _ + 1, _, _ => rfl
  | [t], fuel + 1, h, hf => by
    have ht := h t List.mem_cons_self
    have hpos := List.length_pos_of_ne_nil ht.ne_nil
    rw [joinDots] at hf ⊢
    rw [pathTokens, cfgGetToken_end ht]
    have hnil := pathTokens_joinDots [] fuel (by simp) (by
      simp only [joinDots, List.length_nil]
      omega)
    rw [joinDots] at hnil
    simp only [hnil]
  | t :: u :: ts, fuel + 1, h, hf => by
    have ht := h t List.mem_cons_self
    rw [joinDots, List.length_append, List.length_cons] at hf
    rw [joinDots, pathTokens, cfgGetToken_dot ht]
    have := pathTokens_joinDots (u :: ts) fuel
      (fun x hx => h x (List.mem_cons_of_mem t hx)) (by omega)
    simp only [this]

/-- A path that is read to its end is the text of its tokens, or that text and one separator. -/
theorem joinDots_pathTokens : ∀ (fuel : Nat) {s : Str}, s.length < fuel →
    (pathTokens fuel s).2 = .ok [] →
    s = joinDots (pathTokens fuel s).1 ∨
      ((pathTokens fuel s).1 ≠ [] ∧ s = joinDots (pathTokens fuel s).1 ++ ['.'])
  | 0, _, hf, _ => absurd hf (Nat.not_lt_zero _)
  | fuel + 1, s, hf, h => by
    rw [pathTokens] at h ⊢
    split at h
    · simp at h
    · left
      simpa [joinDots] using h
    · next t ht =>
      have hlt := cfgGetToken_rest_lt ht
      have ih := joinDots_pathTokens fuel (s := t.rest) (by omega) h
      obtain ⟨_, hs⟩ := cfgGetToken_some ht
      have hnil : t.rest = [] → (pathTokens fuel t.rest).1 = [] := by
        intro hr
        cases fuel with
        | zero => rfl
        | succ fuel => rw [hr]; rfl
      simp only
      rcases hs with hs | ⟨hs, hr⟩
      · rcases ih with ih | ⟨hne, ih⟩
        · generalize (pathTokens fuel t.rest).1 = ts at ih hnil
          cases ts with
          | nil =>
            right
            refine ⟨by simp, ?_⟩
            rw [hs, ih]
            rfl
          | cons u ts =>
            left
            rw [hs, ih]
            rfl
        · right
          refine ⟨by simp, ?_⟩
          generalize (pathTokens fuel t.rest).1 = ts at ih hne hnil
          cases ts with
          | nil => exact absurd rfl hne
          | cons u ts =>
            rw [hs, ih]
            simp [joinDots]
      · left
        rw [hnil hr]
        exact hs

end OnuFirmware.Cfg
