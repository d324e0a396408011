import OnuFirmware.Cfg.Tokens
import OnuFirmware.Lib.Split

/-!
# What the callers of `cfg_get_token` get

Both resolvers hand over a buffer of `CFG_MAX_TYPE_NAME` bytes and call until `-1` comes back. The
length of a token is looked at only where a separator follows, so the last part of a path is copied
whatever its length is.
-/

namespace OnuFirmware.Cfg

open Lib Clib

/-- The path as a caller has seen it when `-1` stops it: the tokens, and the text that is left. -/
def seenParts (ts : List Str) (rest : Str) : List Str := ts ++ if rest = [] then [] else [rest]

/-- The calls store only tokens that fit, end with `-1`, and what they delivered and left is the
path, part by part. -/
def TokensRight (fuel : Nat) (path : Str) : Prop :=
  ∃ ts rest, pathTokens fuel path = (ts, .ok rest) ∧ cfgGetToken rest = .ok none ∧
    (∀ t ∈ ts, t.length < cfgMaxTypeName) ∧ joinDots (seenParts ts rest) = path

/-- A part that can be delivered. -/
def PartFits (t : Str) : Prop := t ≠ [] ∧ t.length < cfgMaxTypeName

instance (t : Str) : Decidable (PartFits t) := inferInstanceAs (Decidable (_ ∧ _))

/-- There is nothing to deliver, `-1` comes before the last part, or the last part fits. -/
def PathFits (path : Str) : Prop :=
  path = [] ∨ (∃ t ∈ (path.splitOn '.').dropLast, ¬ PartFits t) ∨
    PartFits ((path.splitOn '.').getLast (List.splitOn_ne_nil '.' path))

theorem isToken_of_partFits {t : Str} (ht : PartFits t) (hd : '.' ∉ t) : IsToken t :=
  ⟨ht.1, hd, ht.2⟩

/-- A part before a separator that does not fit is refused. -/
theorem cfgGetToken_dot_none {a b : Str} (hd : '.' ∉ a) (ha : ¬ PartFits a) :
    cfgGetToken (a ++ '.' :: b) = .ok none := by
  cases a with
  | nil => rfl
  | cons c a =>
    have hlen : cfgMaxTypeName ≤ (c :: a).length := by
      by_contra hlt
      exact ha ⟨by simp, by omega⟩
    have hp : ∀ x ∈ c :: a, (x != '.') = true := fun x hx => by
      simpa using fun he : x = '.' => hd (he ▸ hx)
    unfold cfgGetToken
    split
    · rfl
    · rfl
    · rw [List.takeWhile_append_of_pos hp, List.dropWhile_append_of_pos hp]
      simpa using hlen

/-- The last part is copied without a look at its length. -/
theorem cfgGetToken_last_overrun {a : Str} (hd : '.' ∉ a) (hlen : cfgMaxTypeName ≤ a.length) :
    cfgGetToken a = .error .overrun := by
  have hp : ∀ x ∈ a, (x != '.') = true := fun x hx => by
    simpa using fun he : x = '.' => hd (he ▸ hx)
  have h1 : a.takeWhile (· != '.') = a := by
    simpa using @List.takeWhile_append_of_pos _ _ a [] hp
  have h2 : a.dropWhile (· != '.') = [] := by
    simpa using @List.dropWhile_append_of_pos _ _ a [] hp
  unfold cfgGetToken
  split
  · simp [cfgMaxTypeName] at hlen
  · exact absurd List.mem_cons_self hd
  · simp only [h1, h2]
    rw [if_pos hlen]

theorem joinDots_cons {t : Str} {us : List Str} (hu : us ≠ []) :
    joinDots (t :: us) = t ++ '.' :: joinDots us := by
  cases us with
  | nil => exact absurd rfl hu
  | cons u us => rfl

/-- One call on the last part. -/
theorem tokensRight_last {fuel : Nat} {a : Str} (hd : '.' ∉ a) :
    TokensRight (fuel + 1) a ↔ a = [] ∨ PartFits a := by
  by_cases ha : PartFits a
  · refine iff_of_true ?_ (.inr ha)
    have hnil : pathTokens fuel [] = ([], .ok []) := by
      cases fuel with
      | zero => rfl
      | succ fuel => rfl
    refine ⟨[a], [], ?_, rfl, by simpa using ha.2, by simp [seenParts, joinDots]⟩
    rw [pathTokens, cfgGetToken_end (isToken_of_partFits ha hd)]
    simp only [hnil]
  · by_cases hnil : a = []
    · subst hnil
      exact iff_of_true ⟨[], [], rfl, rfl, by simp, rfl⟩ (.inl rfl)
    · refine iff_of_false ?_ (by simp [hnil, ha])
      have hlen : cfgMaxTypeName ≤ a.length := by
        by_contra hlt
        exact ha ⟨hnil, by omega⟩
      rintro ⟨ts, rest, h, -⟩
      rw [pathTokens, cfgGetToken_last_overrun hd hlen] at h
      simp at h

/-- One call on a part that a separator follows. -/
theorem tokensRight_dot {fuel : Nat} {a b : Str} (hd : '.' ∉ a) :
    TokensRight (fuel + 1) (a ++ '.' :: b) ↔ ¬ PartFits a ∨ (b ≠ [] ∧ TokensRight fuel b) := by
  by_cases ha : PartFits a
  · have hcall : pathTokens (fuel + 1) (a ++ '.' :: b) =
        (a :: (pathTokens fuel b).1, (pathTokens fuel b).2) := by
      rw [pathTokens, cfgGetToken_dot (isToken_of_partFits ha hd)]
    constructor
    · rintro ⟨ts, rest, h, hstop, hlen, hjoin⟩
      rw [hcall, Prod.mk.injEq] at h
      obtain ⟨rfl, hrest⟩ := h
      have hparts : seenParts (a :: (pathTokens fuel b).1) rest =
          a :: seenParts (pathTokens fuel b).1 rest := rfl
      by_cases hne : seenParts (pathTokens fuel b).1 rest = []
      · rw [hparts, hne, joinDots] at hjoin
        simp at hjoin
      · rw [hparts, joinDots_cons hne] at hjoin
        have hb := (List.cons.inj (List.append_cancel_left hjoin)).2
        refine .inr ⟨?_, _, rest, Prod.ext rfl hrest, hstop,
          fun t ht => hlen t (List.mem_cons_of_mem a ht), hb⟩
        rintro rfl
        apply hne
        have hnil : pathTokens fuel [] = ([], .ok []) := by
          cases fuel with
          | zero => rfl
          | succ fuel => rfl
        rw [hnil] at hrest ⊢
        obtain rfl := Except.ok.inj hrest
        rfl
    · rintro (hna | ⟨hb, ts, rest, h, hstop, hlen, hjoin⟩)
      · exact absurd ha hna
      · have hne : seenParts ts rest ≠ [] := by
          intro he
          rw [he, joinDots] at hjoin
          exact hb hjoin.symm
        refine ⟨a :: ts, rest, by rw [hcall, h], hstop, ?_, ?_⟩
        · intro t ht
          rcases List.mem_cons.mp ht with rfl | ht
          · exact ha.2
          · exact hlen t ht
        · rw [← hjoin]
          exact joinDots_cons hne
  · refine iff_of_true ?_ (.inl ha)
    have hstop := cfgGetToken_dot_none (b := b) hd ha
    refine ⟨[], a ++ '.' :: b, ?_, hstop, by simp, ?_⟩
    · rw [pathTokens, hstop]
    · simp [seenParts, joinDots]

theorem pathFits_last {a : Str} (hd : '.' ∉ a) : PathFits a ↔ a = [] ∨ PartFits a := by
  simp [PathFits, List.splitOn_eq_singleton hd]

theorem pathFits_dot {a b : Str} (hd : '.' ∉ a) :
    PathFits (a ++ '.' :: b) ↔ ¬ PartFits a ∨ (b ≠ [] ∧ PathFits b) := by
  have hne := List.splitOn_ne_nil '.' b
  have hsplit := List.splitOn_append_cons_self_of_not_mem hd b
  simp only [PathFits, hsplit, List.dropLast_cons_of_ne_nil hne, List.getLast_cons hne,
    List.exists_mem_cons_iff]
  by_cases hb : b = []
  · subst hb
    simp [PartFits]
  · simp [hb, or_assoc]

/-- **The calls serve their caller on exactly the paths that fit.** -/
theorem tokensRight_iff_of_lt (fuel : Nat) (path : Str) (hf : path.length < fuel) :
    TokensRight fuel path ↔ PathFits path := by
  induction fuel generalizing path with
  | zero => exact absurd hf (Nat.not_lt_zero _)
  | succ fuel ih =>
    rcases splitOn_cases '.' path with ⟨hd, -⟩ | ⟨a, b, rfl, hd, -⟩
    · rw [tokensRight_last hd, pathFits_last hd]
    · have hb : b.length < fuel := by
        rw [List.length_append, List.length_cons] at hf
        omega
      rw [tokensRight_dot hd, pathFits_dot hd, ih b hb]

/-- One call more than the path has characters is enough to see `-1`. -/
theorem tokensRight_iff (path : Str) :
    TokensRight (path.length + 1) path ↔ PathFits path :=
  tokensRight_iff_of_lt _ path (Nat.lt_succ_self _)

/-- A name of 32 characters overruns the buffer of a resolver when it stands last. -/
theorem tokensRight_wrong : ¬ TokensRight 33 (List.replicate 32 'a') := by
  rintro ⟨ts, rest, h, -⟩
  have hcall : (pathTokens 33 (List.replicate 32 'a')).2 = .error .overrun := by decide
  rw [h] at hcall
  exact absurd hcall (by simp)

end OnuFirmware.Cfg
