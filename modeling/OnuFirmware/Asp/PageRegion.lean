import OnuFirmware.Asp.PageLex

/-!
# One script region

`do_lex_asp` is followed through a region, character by character and over the calls that it takes.
A `%` that belongs to no closing mark is passed over, but the word behind it, if there is one, is
read in the state that waits for the `>`: the assertion fails if that is where the word ends. Apart
from this the region ends where it should.
-/

namespace OnuFirmware.Asp

open Clib

/-! ## Runs from within a call -/

/-- The run from the end of a call on. -/
def CallLexes (res : Except LexFault (Option LexToken × LexState)) (toks : List LexToken)
    (e : LexEnd) : Prop :=
  match res with
  | .error f => toks = [] ∧ e = .fault f
  | .ok (none, _) => toks = [] ∧ e = .eof
  | .ok (some tok, s) => ∃ us, toks = tok :: us ∧ Lexes s us e

theorem lexes_of_call {s : LexState} {toks : List LexToken} {e : LexEnd}
    (h : CallLexes (gbLex s) toks e) : Lexes s toks e := by
  unfold CallLexes at h
  split at h
  · next f hf =>
    obtain ⟨rfl, rfl⟩ := h
    exact .fault hf
  · next s' hs =>
    obtain ⟨rfl, rfl⟩ := h
    exact .eof hs
  · next tok s' hs =>
    obtain ⟨us, rfl, hus⟩ := h
    exact .token hs hus

theorem call_of_lexes {s : LexState} {toks : List LexToken} {e : LexEnd} (h : Lexes s toks e) :
    CallLexes (gbLex s) toks e := by
  cases h with
  | eof call =>
    rw [call]
    exact ⟨rfl, rfl⟩
  | fault call =>
    rw [call]
    exact ⟨rfl, rfl⟩
  | token call calls =>
    rw [call]
    exact ⟨_, rfl, calls⟩

/-- The run from an HTML block on. -/
def HtmlLexes (inAsp : Bool) (t : Str) (toks : List LexToken) (e : LexEnd) : Prop :=
  CallLexes (htmlBlock inAsp t) toks e

/-- The run from the end of `do_lex_asp` on. -/
def AspLexes (res : Except LexFault (Option LexToken × Str)) (toks : List LexToken)
    (e : LexEnd) : Prop :=
  match res with
  | .error f => toks = [] ∧ e = .fault f
  | .ok (none, rest) => HtmlLexes true rest toks e
  | .ok (some tok, rest) => ∃ us, toks = tok :: us ∧ Lexes ⟨rest, true⟩ us e

theorem lexes_of_asp {r : Str} {toks : List LexToken} {e : LexEnd}
    (h : AspLexes (doLexAsp r) toks e) : Lexes ⟨r, true⟩ toks e := by
  by_cases hr : r = []
  · subst hr
    obtain ⟨rfl, rfl⟩ := h
    exact .eof rfl
  · refine lexes_of_call ?_
    unfold AspLexes at h
    split at h
    · next f hf =>
      have hcall : gbLex ⟨r, true⟩ = .error f := by simp [gbLex, hr, hf]
      rw [hcall]
      exact h
    · next rest hrest =>
      have hcall : gbLex ⟨r, true⟩ = htmlBlock true rest := by simp [gbLex, hr, hrest]
      rw [hcall]
      exact h
    · next tok rest htok =>
      have hcall : gbLex ⟨r, true⟩ = .ok (some tok, ⟨rest, true⟩) := by simp [gbLex, hr, htok]
      rw [hcall]
      exact h

/-! ## Words -/

theorem checkId_ne (cur : Str) (len : Nat) : checkId cur len ≠ .gbHtmlBlock := by
  rw [checkId]
  split
  · next k hk =>
    have hall : keywords.all (fun k => k.2 != .gbHtmlBlock) = true := by decide
    simpa using List.all_eq_true.mp hall k (List.mem_of_find?_eq_some hk)
  · simp

theorem textAt_append (w x : Str) : textAt (w ++ x) w.length = .ok w := by
  rw [textAt, if_pos (by simp), List.take_left]

/-- A token is no longer than what has been read. -/
theorem textAt_read (x r : Str) {len : Nat} (h : len ≤ x.length) :
    textAt (x ++ r) len = .ok (x.take len) := by
  rw [textAt, if_pos (Nat.le_trans h (by simp)), List.take_append_of_le_length h]

/-- A word that has been read is classified like the text. -/
theorem wordAt_append (w x : Str) : wordAt (w ++ x) w.length = .ok (wordToken w) := by
  have hkey : (fun k : Str × GbToken => w.length == k.1.length &&
      aspNameCmp (w ++ x) k.1 w.length) = fun k => k.1.map toUpper == w.map toUpper := by
    funext k
    rw [aspNameCmp, List.take_left, Bool.eq_iff_iff, Bool.and_eq_true, beq_iff_eq, beq_iff_eq,
      beq_iff_eq]
    constructor
    · rintro ⟨hlen, hmap⟩
      rw [hlen, List.take_length] at hmap
      exact hmap.symm
    · intro hmap
      have hlen := congrArg List.length hmap
      rw [List.length_map, List.length_map] at hlen
      exact ⟨hlen.symm, by rw [← hlen, List.take_length, hmap]⟩
  have htok : (checkId (w ++ x) w.length, w) = wordToken w := by
    rw [checkId, wordToken, hkey]
    split <;> rfl
  rw [wordAt, textAt_append, ← htok]
  rfl

theorem wordToken_ne (w : Str) : (wordToken w).1 ≠ .gbHtmlBlock := by
  rw [wordToken]
  split
  · next k hk =>
    have hall : keywords.all (fun k => k.2 != .gbHtmlBlock) = true := by decide
    simpa using List.all_eq_true.mp hall k (List.mem_of_find?_eq_some hk)
  · simp

/-! ## The kinds of characters -/

/-- A character is a blank, the quote, the percent sign, a punctuation character, or part of a
word. -/
theorem char_kind (c : Char) :
    (isSpace c = true ∧ c ≠ '"' ∧ c ≠ '%' ∧ isPunct c = false) ∨ c = '"' ∨ c = '%' ∨
      (isPunct c = true ∧ isSpace c = false ∧ c ≠ '"' ∧ c ≠ '%') ∨
      (isSpace c = false ∧ c ≠ '"' ∧ c ≠ '%' ∧ isPunct c = false) := by
  by_cases hq : c = '"'
  · exact .inr (.inl hq)
  by_cases hp : c = '%'
  · exact .inr (.inr (.inl hp))
  cases hs : isSpace c with
  | false =>
    cases hpu : isPunct c with
    | false => exact .inr (.inr (.inr (.inr ⟨rfl, hq, hp, rfl⟩)))
    | true => exact .inr (.inr (.inr (.inl ⟨rfl, rfl, hq, hp⟩)))
  | true =>
    refine .inl ⟨rfl, hq, hp, ?_⟩
    simp only [isSpace, Bool.or_eq_true, decide_eq_true_eq] at hs
    rcases hs with ((((rfl | rfl) | rfl) | rfl) | rfl) | rfl <;> decide

theorem splitRegion_close (r : Str) : splitRegion false ('%' :: '>' :: r) = ([], some r) := by
  rw [splitRegion, if_pos ⟨rfl, rfl⟩]

theorem splitRegion_cons {c : Char} {r : Str} (h : c = '%' → r.head? ≠ some '>') :
    splitRegion false (c :: r) =
      (c :: (splitRegion (c == '"') r).1, (splitRegion (c == '"') r).2) := by
  cases r with
  | nil => cases hc : (c == '"') <;> simp [splitRegion]
  | cons d r =>
    have hno : ¬ (c = '%' ∧ d = '>') := fun hcd => h hcd.1 (by rw [hcd.2]; rfl)
    rw [splitRegion, if_neg hno]

theorem splitRegion_string (c : Char) (r : Str) : splitRegion true (c :: r) =
    (c :: (splitRegion (c != '"') r).1, (splitRegion (c != '"') r).2) := by
  rw [splitRegion]

/-! ## Where the assertion fails -/

/-- Where a region is read: in a string, behind a `%`, in the word behind one, or elsewhere. -/
inductive Scan
  | outside
  | string
  | percent
  | stuck
deriving Repr, DecidableEq

/-- In the region a word behind a `%`, of any characters up to a blank, a quote or a punctuation
character, ends at a `>`. The first character of the word may be a blank. -/
def aborts : Scan → Str → Bool
  | _, [] => false
  | .outside, c :: r =>
    aborts (if c = '"' then .string else if c = '%' then .percent else .outside) r
  | .string, c :: r => aborts (if c = '"' then .outside else .string) r
  | .percent, c :: r =>
    if c = '>' then false
    else aborts (if c = '"' then .string else if isPunct c then .outside else .stuck) r
  | .stuck, c :: r =>
    if c = '>' then true
    else
      aborts (if c = '"' then .string
        else if isSpace c ∨ isPunct c then .outside else .stuck) r

attribute [grind =] aborts

/-! ## The run through a region -/

/-- The run through a region with the tokens `toks`: it fails, it ends with the page, or it goes on
with HTML. -/
def RegionLexes (fails : Bool) (next : Option Str) (toks : List LexToken)
    (run : List LexToken → LexEnd → Prop) : Prop :=
  if fails then run toks (.fault .assertion)
  else
    match next with
    | none => run toks .eof
    | some t => ∀ us e, HtmlLexes true t us e → run (toks ++ us) e

theorem RegionLexes.mono {fails : Bool} {next : Option Str} {toks : List LexToken}
    {tok : List LexToken} {run run' : List LexToken → LexEnd → Prop}
    (himp : ∀ us e, run us e → run' (tok ++ us) e) (h : RegionLexes fails next toks run) :
    RegionLexes fails next (tok ++ toks) run' := by
  unfold RegionLexes at h ⊢
  cases fails with
  | true => exact himp _ _ h
  | false =>
    cases next with
    | none => exact himp _ _ h
    | some t =>
      intro us e hus
      rw [List.append_assoc]
      exact himp _ _ (h us e hus)

/-- A token, and the run through the rest of the region. -/
theorem RegionLexes.token {fails : Bool} {next : Option Str} {toks : List LexToken} {r : Str}
    (tok : LexToken) (h : RegionLexes fails next toks (AspLexes (doLexAsp r))) :
    RegionLexes fails next (tok :: toks) (AspLexes (.ok (some tok, r))) :=
  @RegionLexes.mono _ _ _ [tok] _ _ (fun us _ hus => ⟨us, rfl, lexes_of_asp hus⟩) h

theorem noBlock_cons {tok : LexToken} {toks : List LexToken} (ht : tok.1 ≠ .gbHtmlBlock)
    (h : NoBlock toks) : NoBlock (tok :: toks) := List.forall_mem_cons.mpr ⟨ht, h⟩

theorem noBlock_nil : NoBlock [] := fun _ h => absurd h List.not_mem_nil

/-- The run from each place within a region, with the tokens where they are determined. -/
structure Scans (r : Str) : Prop where
  outside : ∃ toks, NoBlock toks ∧
    (noPercent false (splitRegion false r).1 = true →
      toks = regionTokens (splitRegion false r).2.isSome .none (splitRegion false r).1) ∧
    RegionLexes (aborts .outside r) (splitRegion false r).2 toks (AspLexes (doLexAsp r))
  word : ∀ w, w ≠ [] → ∃ toks, NoBlock toks ∧
    (noPercent false (splitRegion false r).1 = true →
      toks = regionTokens (splitRegion false r).2.isSome (.word w) (splitRegion false r).1) ∧
    RegionLexes (aborts .outside r) (splitRegion false r).2 toks
      (AspLexes (lexLoop false false (w ++ r) w.length r))
  string : ∀ state x len, len ≤ x.length → ∃ toks, NoBlock toks ∧
    (∀ s, x = s → len = s.length → noPercent true (splitRegion true r).1 = true →
      toks = regionTokens (splitRegion true r).2.isSome (.string s) (splitRegion true r).1) ∧
    RegionLexes (aborts .string r) (splitRegion true r).2 toks
      (AspLexes (lexLoop state true (x ++ r) len r))
  percent : ∀ x, ∃ toks, NoBlock toks ∧ (r.head? = some '>' → toks = []) ∧
    RegionLexes (aborts .percent r) (splitRegion false ('%' :: r)).2 toks
      (AspLexes (lexLoop true false (x ++ r) 0 r))
  stuck : ∀ x len, len + 1 ≤ x.length → ∃ toks, NoBlock toks ∧
    RegionLexes (aborts .stuck r) (splitRegion false r).2 toks
      (AspLexes (lexLoop true false (x ++ r) (len + 1) r))

theorem scans_nil : Scans [] where
  outside := ⟨[], noBlock_nil, fun _ => rfl, rfl, rfl⟩
  word := fun _ _ => ⟨[], noBlock_nil, fun _ => rfl, rfl, rfl⟩
  string := fun _ _ _ _ => ⟨[], noBlock_nil, fun _ _ _ _ => rfl, rfl, rfl⟩
  percent := fun _ => ⟨[], noBlock_nil, fun _ => rfl, rfl, rfl⟩
  stuck := fun _ _ _ => ⟨[], noBlock_nil, rfl, rfl⟩

theorem scans_outside_cons {c : Char} {r : Str} (ih : Scans r) : ∃ toks, NoBlock toks ∧
    (noPercent false (splitRegion false (c :: r)).1 = true →
      toks = regionTokens (splitRegion false (c :: r)).2.isSome .none
        (splitRegion false (c :: r)).1) ∧
    RegionLexes (aborts .outside (c :: r)) (splitRegion false (c :: r)).2 toks
      (AspLexes (doLexAsp (c :: r))) := by
  rcases char_kind c with ⟨hs, hq, hp, hu⟩ | rfl | rfl | ⟨hu, hs, hq, hp⟩ | ⟨hs, hq, hp, hu⟩
  · -- blanks in front of a token are skipped
    obtain ⟨toks, hno, htoks, hrun⟩ := ih.outside
    rw [splitRegion_cons fun h => absurd h hp]
    refine ⟨toks, hno, fun hclean => ?_, ?_⟩
    · simp only [noPercent, hq, if_false, beq_eq_false_iff_ne.mpr hq, Bool.and_eq_true] at hclean
      simp only [beq_eq_false_iff_ne.mpr hq, regionTokens, hq, hu, hs, if_false, if_true,
        Bool.false_eq_true]
      exact htoks (by simpa using hclean.2)
    · have hdo : doLexAsp (c :: r) = doLexAsp r := by
        rw [doLexAsp, List.dropWhile_cons_of_pos hs, doLexAsp]
      simpa [aborts, hq, hp, hdo, beq_eq_false_iff_ne.mpr hq] using hrun
  · -- a string begins
    obtain ⟨toks, hno, htoks, hrun⟩ := ih.string false [] 0 (Nat.le_refl 0)
    rw [splitRegion_cons fun h => absurd h (by decide)]
    refine ⟨toks, hno, fun hclean => htoks [] rfl rfl ?_, ?_⟩
    · simpa [noPercent] using hclean
    · simpa [aborts, doLexAsp, lexLoop, isSpace] using hrun
  · -- a closing mark, or a `%` that is none
    obtain ⟨toks, hno, hclose, hrun⟩ := ih.percent ['%']
    refine ⟨toks, hno, fun hclean => ?_, by simpa [aborts, doLexAsp, lexLoop, isSpace] using hrun⟩
    by_cases hr : r.head? = some '>'
    · obtain ⟨r', rfl⟩ := List.head?_eq_some_iff.mp hr
      rw [hclose hr, splitRegion_close]
      rfl
    · rw [splitRegion_cons fun _ => hr] at hclean
      simp [noPercent] at hclean
  · -- a punctuation character
    obtain ⟨toks, hno, htoks, hrun⟩ := ih.outside
    rw [splitRegion_cons fun h => absurd h hp]
    refine ⟨(.char c, []) :: toks, noBlock_cons (by simp) hno, fun hclean => ?_, ?_⟩
    · simp only [noPercent, hq, if_false, beq_eq_false_iff_ne.mpr hq, Bool.and_eq_true] at hclean
      simp only [beq_eq_false_iff_ne.mpr hq, regionTokens, hq, hu, if_false, if_true]
      rw [← htoks (by simpa using hclean.2)]
    · have hdo : doLexAsp (c :: r) = .ok (some (.char c, []), r) := by
        simp [doLexAsp, lexLoop, hs, hq, hp, hu]
      rw [hdo]
      simpa [aborts, hq, hp, beq_eq_false_iff_ne.mpr hq] using hrun.token (.char c, [])
  · -- a word begins
    obtain ⟨toks, hno, htoks, hrun⟩ := ih.word [c] (by simp)
    rw [splitRegion_cons fun h => absurd h hp]
    refine ⟨toks, hno, fun hclean => ?_, ?_⟩
    · simp only [noPercent, hq, if_false, beq_eq_false_iff_ne.mpr hq, Bool.and_eq_true] at hclean
      simp only [beq_eq_false_iff_ne.mpr hq, regionTokens, hq, hu, hs, if_false,
        Bool.false_eq_true]
      exact htoks (by simpa using hclean.2)
    · have hdo : doLexAsp (c :: r) = lexLoop false false ([c] ++ r) [c].length r := by
        simp [doLexAsp, lexLoop, hs, hq, hp, hu]
      rw [hdo]
      simpa [aborts, hq, hp, beq_eq_false_iff_ne.mpr hq] using hrun

/-- The word ends: its token is returned and the character is read again. -/
theorem regionTokens_word {c : Char} (h : isSpace c = true ∨ c = '"' ∨ isPunct c = true)
    (stop : Bool) (w b : Str) : regionTokens stop (.word w) (c :: b) =
      wordToken w :: regionTokens stop .none (c :: b) := by
  by_cases hq : c = '"'
  · subst hq
    simp [regionTokens]
  · cases hu : isPunct c with
    | true => simp [regionTokens, hq, hu]
    | false =>
      have hs : isSpace c = true := by simpa [hq, hu] using h
      simp [regionTokens, hq, hu, hs]

theorem scans_word_cons {c : Char} {r : Str} (ih : Scans r) (w : Str) (hw : w ≠ []) :
    ∃ toks, NoBlock toks ∧
    (noPercent false (splitRegion false (c :: r)).1 = true →
      toks = regionTokens (splitRegion false (c :: r)).2.isSome (.word w)
        (splitRegion false (c :: r)).1) ∧
    RegionLexes (aborts .outside (c :: r)) (splitRegion false (c :: r)).2 toks
      (AspLexes (lexLoop false false (w ++ c :: r) w.length (c :: r))) := by
  have hlen : w.length ≠ 0 := fun h => hw (List.length_eq_zero_iff.mp h)
  by_cases hend : c = '%' ∨ isSpace c = true ∨ c = '"' ∨ isPunct c = true
  · obtain ⟨toks, hno, htoks, hrun⟩ := scans_outside_cons (c := c) ih
    refine ⟨wordToken w :: toks, noBlock_cons (wordToken_ne w) hno, fun hclean => ?_, ?_⟩
    · rw [htoks hclean]
      by_cases hp : c = '%'
      · subst hp
        by_cases hr : r.head? = some '>'
        · obtain ⟨r', rfl⟩ := List.head?_eq_some_iff.mp hr
          rw [splitRegion_close]
          rfl
        · rw [splitRegion_cons fun _ => hr] at hclean
          simp [noPercent] at hclean
      · rw [splitRegion_cons fun h => absurd h hp]
        exact (regionTokens_word (hend.resolve_left hp) _ _ _).symm
    · have hloop : lexLoop false false (w ++ c :: r) w.length (c :: r) =
          .ok (some (wordToken w), c :: r) := by
        rw [lexLoop, wordAt_append]
        by_cases hp : c = '%'
        · simp [hp, hlen, Except.map]
        · simp [hp, hlen, hend.resolve_left hp, Except.map]
      rw [hloop]
      exact hrun.token _
  · obtain ⟨hp, hs, hq, hu⟩ : c ≠ '%' ∧ isSpace c = false ∧ c ≠ '"' ∧ isPunct c = false := by
      simpa [not_or] using hend
    obtain ⟨toks, hno, htoks, hrun⟩ := ih.word (w ++ [c]) (by simp)
    rw [splitRegion_cons fun h => absurd h hp]
    refine ⟨toks, hno, fun hclean => ?_, ?_⟩
    · simp only [noPercent, hq, if_false, beq_eq_false_iff_ne.mpr hq, Bool.and_eq_true] at hclean
      simp only [beq_eq_false_iff_ne.mpr hq, regionTokens, hq, hu, hs, if_false,
        Bool.false_eq_true]
      exact htoks (by simpa using hclean.2)
    · have hloop : lexLoop false false (w ++ c :: r) w.length (c :: r) =
          lexLoop false false (w ++ [c] ++ r) (w ++ [c]).length r := by
        rw [lexLoop]
        simp [hp, hlen, hs, hq, hu]
      rw [hloop]
      simpa [aborts, hq, hp, beq_eq_false_iff_ne.mpr hq] using hrun

theorem scans_string_cons {c : Char} {r : Str} (ih : Scans r) (state : Bool) (x : Str)
    (len : Nat) (hx : len ≤ x.length) : ∃ toks, NoBlock toks ∧
    (∀ s, x = s → len = s.length → noPercent true (splitRegion true (c :: r)).1 = true →
      toks = regionTokens (splitRegion true (c :: r)).2.isSome (.string s)
        (splitRegion true (c :: r)).1) ∧
    RegionLexes (aborts .string (c :: r)) (splitRegion true (c :: r)).2 toks
      (AspLexes (lexLoop state true (x ++ c :: r) len (c :: r))) := by
  rw [splitRegion_string]
  by_cases hq : c = '"'
  · -- the string ends
    subst hq
    obtain ⟨toks, hno, htoks, hrun⟩ := ih.outside
    refine ⟨(.gbString, x.take len) :: toks, noBlock_cons (by simp) hno, ?_, ?_⟩
    · rintro s rfl rfl hclean
      rw [List.take_length, htoks (by simpa [noPercent] using hclean)]
      simp [regionTokens]
    · rw [lexLoop, textAt_read x _ hx]
      simpa [aborts, Except.map] using hrun.token (.gbString, x.take len)
  · have hread : len + 1 ≤ (x ++ [c]).length := by simpa using hx
    obtain ⟨toks, hno, htoks, hrun⟩ := ih.string state (x ++ [c]) (len + 1) hread
    have hne : (c != '"') = true := by simpa using hq
    rw [hne]
    refine ⟨toks, hno, ?_, ?_⟩
    · rintro s rfl rfl hclean
      have hrest := htoks (x ++ [c]) rfl (by simp) (by simpa [noPercent, hq] using hclean)
      simpa [regionTokens, hq] using hrest
    · rw [lexLoop]
      simpa [aborts, hq] using hrun

theorem scans_stuck_cons {c : Char} {r : Str} (ih : Scans r) (x : Str) (len : Nat)
    (hx : len + 1 ≤ x.length) : ∃ toks, NoBlock toks ∧
    RegionLexes (aborts .stuck (c :: r)) (splitRegion false (c :: r)).2 toks
      (AspLexes (lexLoop true false (x ++ c :: r) (len + 1) (c :: r))) := by
  by_cases hgt : c = '>'
  · subst hgt
    exact ⟨[], noBlock_nil, rfl, rfl⟩
  by_cases hend : isSpace c = true ∨ c = '"' ∨ isPunct c = true
  · obtain ⟨toks, hno, -, hrun⟩ := scans_outside_cons (c := c) ih
    refine ⟨(checkId (x ++ c :: r) (len + 1), x.take (len + 1)) :: toks,
      noBlock_cons (checkId_ne _ _) hno, ?_⟩
    have hp : c ≠ '%' := by
      rintro rfl
      revert hend
      decide
    have hloop : lexLoop true false (x ++ c :: r) (len + 1) (c :: r) =
        .ok (some (checkId (x ++ c :: r) (len + 1), x.take (len + 1)), c :: r) := by
      rw [lexLoop, wordAt, textAt_read x _ hx]
      simp [hgt, hend, Except.map]
    have hab : aborts .stuck (c :: r) = aborts .outside (c :: r) := by
      by_cases hq : c = '"'
      · simp [aborts, hq]
      · have hsu : isSpace c = true ∨ isPunct c = true := by simpa [hq] using hend
        simp [aborts, hgt, hq, hp, hsu]
    rw [hloop, hab]
    exact hrun.token _
  · obtain ⟨hs, hq, hu⟩ : isSpace c = false ∧ c ≠ '"' ∧ isPunct c = false := by
      simpa [not_or] using hend
    have hread : len + 1 + 1 ≤ (x ++ [c]).length := by simpa using hx
    obtain ⟨toks, hno, hrun⟩ := ih.stuck (x ++ [c]) (len + 1) hread
    refine ⟨toks, hno, ?_⟩
    have hloop : lexLoop true false (x ++ c :: r) (len + 1) (c :: r) =
        lexLoop true false (x ++ [c] ++ r) (len + 1 + 1) r := by
      rw [lexLoop]
      simp [hgt, hs, hq, hu]
    rw [hloop]
    by_cases hclose : c = '%' ∧ r.head? = some '>'
    · -- the closing mark is not seen: the assertion fails at its second character
      obtain ⟨rfl, hr⟩ := hclose
      obtain ⟨r', rfl⟩ := List.head?_eq_some_iff.mp hr
      simpa [aborts, RegionLexes, isSpace, isPunct] using hrun
    · rw [splitRegion_cons fun hc hr => hclose ⟨hc, hr⟩]
      simpa [aborts, hgt, hq, hs, hu, beq_eq_false_iff_ne.mpr hq] using hrun

theorem scans_percent_cons {c : Char} {r : Str} (ih : Scans r) (x : Str) :
    ∃ toks, NoBlock toks ∧ ((c :: r).head? = some '>' → toks = []) ∧
    RegionLexes (aborts .percent (c :: r)) (splitRegion false ('%' :: c :: r)).2 toks
      (AspLexes (lexLoop true false (x ++ c :: r) 0 (c :: r))) := by
  by_cases hgt : c = '>'
  · -- the region ends
    subst hgt
    refine ⟨[], noBlock_nil, fun _ => rfl, ?_⟩
    rw [splitRegion_close]
    exact fun us e hus => hus
  have hhead : (c :: r).head? ≠ some '>' := by simpa using hgt
  have hsplit : (splitRegion false ('%' :: c :: r)).2 = (splitRegion false (c :: r)).2 := by
    rw [splitRegion_cons fun _ => hhead]
    rfl
  rw [hsplit]
  by_cases hq : c = '"'
  · subst hq
    -- `asp_lex_cur` is advanced by one from wherever it is
    obtain ⟨y, hy⟩ : ∃ y : Str, (x ++ '"' :: r).tail = y ++ r := by
      cases x with
      | nil => exact ⟨[], rfl⟩
      | cons d x => exact ⟨x ++ ['"'], by simp⟩
    obtain ⟨toks, hno, -, hrun⟩ := ih.string true y 0 (Nat.zero_le _)
    refine ⟨toks, hno, fun h => absurd h hhead, ?_⟩
    rw [splitRegion_cons fun h => absurd h (by decide), lexLoop, hy]
    simpa [aborts] using hrun
  cases hu : isPunct c with
  | true =>
    obtain ⟨toks, hno, -, hrun⟩ := ih.outside
    refine ⟨(.char c, []) :: toks, noBlock_cons (by simp) hno, fun h => absurd h hhead, ?_⟩
    have hp : c ≠ '%' := by
      rintro rfl
      exact absurd hu (by decide)
    rw [splitRegion_cons fun h => absurd h hp, lexLoop]
    simpa [aborts, hgt, hq, hu, hp, beq_eq_false_iff_ne.mpr hq] using hrun.token (.char c, [])
  | false =>
    obtain ⟨toks, hno, hrun⟩ := ih.stuck (x ++ [c]) 0 (by simp)
    refine ⟨toks, hno, fun h => absurd h hhead, ?_⟩
    have hloop : lexLoop true false (x ++ c :: r) 0 (c :: r) =
        lexLoop true false (x ++ [c] ++ r) (0 + 1) r := by
      rw [lexLoop]
      simp [hgt, hq, hu]
    rw [hloop]
    by_cases hclose : c = '%' ∧ r.head? = some '>'
    · obtain ⟨rfl, hr⟩ := hclose
      obtain ⟨r', rfl⟩ := List.head?_eq_some_iff.mp hr
      simpa [aborts, RegionLexes, isPunct] using hrun
    · rw [splitRegion_cons fun hc hr => hclose ⟨hc, hr⟩]
      simpa [aborts, hgt, hq, hu, beq_eq_false_iff_ne.mpr hq] using hrun

/-- **The run through every region, from every place in it.** -/
theorem scans (r : Str) : Scans r := by
  induction r with
  | nil => exact scans_nil
  | cons c r ih =>
    exact
      { outside := scans_outside_cons ih
        word := scans_word_cons ih
        string := scans_string_cons ih
        percent := scans_percent_cons ih
        stuck := scans_stuck_cons ih }

end OnuFirmware.Asp
