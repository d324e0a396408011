import Mathlib.Data.List.Induction
import OnuFirmware.Asp.PageRegion

/-!
# Whole pages

A page is read region by region. The state of the HTML loop is one bit: a `<` behind a `<` clears
it, so that an opening mark is seen if the number of `<` in front of it is even. The last word of a
region that is never closed is read but not returned.
-/

namespace OnuFirmware.Asp

open Clib

/-! ## The conditions -/

/-- How many `<` stand at the end of a text. -/
def openRun (a : Str) : Nat := (a.reverse.takeWhile (· == '<')).length

/-- Whether a text ends within a word. -/
def endsInWord : Bool → Bool → Str → Bool
  | _, inWord, [] => inWord
  | inString, _, c :: r =>
    endsInWord (if c = '"' then !inString else inString)
      (!inString && c != '"' && !isPunct c && !isSpace c) r

/-- A region of a page: the stretch in front of it, and the text from it on. -/
inductive RegionOf : Str → Str → Str → Prop
  | first {t a r : Str} (opener : splitOpener t = some (a, r)) : RegionOf t a r
  | later {t a₀ r₀ b t' a r : Str} (opener : splitOpener t = some (a₀, r₀))
      (region : splitRegion false r₀ = (b, some t')) (of : RegionOf t' a r) : RegionOf t a r

/-- The opening mark is seen, no word behind a `%` ends at a `>`, and a region without an end does
not end within a word, where the tokens matter. -/
structure RegionFits (a r : Str) : Prop where
  opener : openRun a % 2 = 0
  words : aborts .outside r = false
  last : (splitRegion false r).2 = none → noPercent false (splitRegion false r).1 = true →
    endsInWord false false (splitRegion false r).1 = false

/-! ## The HTML loop -/

/-- The state of the loop behind a text. -/
def stateAfter (state : Bool) (a : Str) : Bool := a.foldl (fun st c => !st && c == '<') state

theorem stateAfter_eq (a : Str) : stateAfter false a = decide (openRun a % 2 = 1) := by
  induction a using List.reverseRecOn with
  | nil => rfl
  | append_singleton a c ih =>
    have hstep : stateAfter false (a ++ [c]) = (!stateAfter false a && c == '<') := by
      simp [stateAfter]
    rw [hstep, ih, openRun, openRun, List.reverse_append]
    by_cases hc : c = '<'
    · subst hc
      simp only [List.reverse_singleton, List.singleton_append, beq_self_eq_true,
        List.takeWhile_cons_of_pos, List.length_cons, Bool.and_true]
      rw [← decide_not, decide_eq_decide]
      omega
    · have hno : (c == '<') = false := beq_eq_false_iff_ne.mpr hc
      simp [hno]

theorem splitOpener_cons {c d : Char} {r : Str} (h : ¬ (c = '<' ∧ d = '%')) :
    splitOpener (c :: d :: r) = (splitOpener (d :: r)).map fun p => (c :: p.1, p.2) := by
  rw [splitOpener, if_neg h]

theorem splitOpener_eq {t a r : Str} (h : splitOpener t = some (a, r)) :
    t = a ++ '<' :: '%' :: r := by
  induction t using splitOpener.induct generalizing a with
  | case1 => simp [splitOpener] at h
  | case2 => simp [splitOpener] at h
  | case3 c d s hopen =>
    obtain ⟨rfl, rfl⟩ := hopen
    rw [splitOpener, if_pos ⟨rfl, rfl⟩] at h
    obtain ⟨rfl, rfl⟩ := Prod.mk.inj (Option.some.inj h)
    rfl
  | case4 c d s hopen ih =>
    rw [splitOpener_cons hopen] at h
    obtain ⟨⟨a', r'⟩, hp, heq⟩ := Option.map_eq_some_iff.mp h
    obtain ⟨rfl, rfl⟩ := Prod.mk.inj heq
    rw [ih hp]
    rfl

/-- The text up to an opening mark is read without leaving the loop. -/
theorem htmlLoop_opener {t a r : Str} (h : splitOpener t = some (a, r)) (state : Bool) (n : Nat)
    (hst : state = true → t.head? ≠ some '%') : htmlLoop state n t =
      if stateAfter state a then htmlLoop false (n + a.length + 1) ('%' :: r)
      else (true, r, n + a.length + 2) := by
  induction t using splitOpener.induct generalizing a state n with
  | case1 => simp [splitOpener] at h
  | case2 => simp [splitOpener] at h
  | case3 c d s hopen =>
    obtain ⟨rfl, rfl⟩ := hopen
    rw [splitOpener, if_pos ⟨rfl, rfl⟩] at h
    obtain ⟨rfl, rfl⟩ := Prod.mk.inj (Option.some.inj h)
    cases state <;> simp [htmlLoop, stateAfter]
  | case4 c d s hopen ih =>
    rw [splitOpener_cons hopen] at h
    obtain ⟨⟨a', r'⟩, hp, heq⟩ := Option.map_eq_some_iff.mp h
    obtain ⟨rfl, rfl⟩ := Prod.mk.inj heq
    have hlen : n + 1 + a'.length = n + (c :: a').length := by
      rw [List.length_cons]
      omega
    rw [htmlLoop, ← hlen]
    cases state with
    | true =>
      have hc : c ≠ '%' := fun hc => hst rfl (by rw [hc]; rfl)
      rw [if_pos rfl, if_neg hc, ih hp false (n + 1) (fun h => absurd h (by decide))]
      rfl
    | false =>
      have hnext : (c == '<') = true → (d :: s).head? ≠ some '%' := by
        intro hc hd
        exact hopen ⟨by simpa using hc, by simpa using hd⟩
      rw [if_neg (by decide), ih hp (c == '<') (n + 1) hnext]
      rfl

theorem htmlLoop_noOpener {t : Str} (h : splitOpener t = none) (state : Bool) (n : Nat)
    (hst : state = true → t.head? ≠ some '%') :
    htmlLoop state n t = (false, [], n + t.length) := by
  induction t using splitOpener.induct generalizing state n with
  | case1 => cases state <;> rfl
  | case2 c =>
    cases state with
    | true =>
      have hc : c ≠ '%' := fun hc => hst rfl (by rw [hc]; rfl)
      simp [htmlLoop, hc]
    | false => cases hc : (c == '<') <;> simp [htmlLoop]
  | case3 c d s hopen =>
    rw [splitOpener, if_pos hopen] at h
    exact absurd h (by simp)
  | case4 c d s hopen ih =>
    rw [splitOpener_cons hopen, Option.map_eq_none_iff] at h
    have hlen : n + 1 + (d :: s).length = n + (c :: d :: s).length := by
      simp only [List.length_cons]
      omega
    rw [htmlLoop, ← hlen]
    cases state with
    | true =>
      have hc : c ≠ '%' := fun hc => hst rfl (by rw [hc]; rfl)
      rw [if_pos rfl, if_neg hc, ih h false (n + 1) (fun h => absurd h (by decide))]
    | false =>
      have hnext : (c == '<') = true → (d :: s).head? ≠ some '%' := by
        intro hc hd
        exact hopen ⟨by simpa using hc, by simpa using hd⟩
      rw [if_neg (by decide), ih h (c == '<') (n + 1) hnext]

/-- The loop reads on to the end of the text or to an opening mark. -/
theorem htmlLoop_read {t : Str} {state : Bool} {n : Nat} {b : Bool} {rest : Str} {m : Nat}
    (h : htmlLoop state n t = (b, rest, m)) : ∃ u, t = u ++ rest ∧ m = n + u.length ∧
      (b = true → (if state then 1 else 2) ≤ u.length) ∧ (b = false → rest = []) := by
  induction t generalizing state n with
  | nil =>
    rw [htmlLoop] at h
    obtain ⟨rfl, rfl, rfl⟩ := h
    exact ⟨[], rfl, rfl, fun h => absurd h (by decide), fun _ => rfl⟩
  | cons c r ih =>
    rw [htmlLoop] at h
    cases state with
    | true =>
      rw [if_pos rfl] at h
      split at h
      · obtain ⟨rfl, rfl, rfl⟩ := h
        exact ⟨[c], rfl, rfl, fun _ => Nat.le_refl 1, fun h => absurd h (by decide)⟩
      · obtain ⟨u, rfl, rfl, -, hend⟩ := ih h
        refine ⟨c :: u, rfl, ?_, fun _ => ?_, hend⟩
        · rw [List.length_cons]
          omega
        · rw [if_pos rfl, List.length_cons]
          omega
    | false =>
      rw [if_neg (by decide)] at h
      obtain ⟨u, rfl, rfl, hopen, hend⟩ := ih h
      refine ⟨c :: u, rfl, ?_, fun hb => ?_, hend⟩
      · rw [List.length_cons]
        omega
      · have hu := hopen hb
        rw [if_neg (by decide), List.length_cons]
        split at hu <;> omega

theorem htmlBlock_noOpener {t : Str} (h : splitOpener t = none) (inAsp : Bool) :
    htmlBlock inAsp t = .ok (if t = [] then none else some (.gbHtmlBlock, t), ⟨[], inAsp⟩) := by
  rw [htmlBlock, htmlLoop_noOpener h false 0 (fun h => absurd h (by decide))]
  cases t with
  | nil => rfl
  | cons c r => simp [textAt, Except.map]

theorem htmlBlock_opener {t a r : Str} (h : splitOpener t = some (a, r))
    (heven : openRun a % 2 = 0) (inAsp : Bool) :
    htmlBlock inAsp t = .ok (some (.gbHtmlBlock, a), ⟨r, true⟩) := by
  have hst : stateAfter false a = false := by
    rw [stateAfter_eq, decide_eq_false_iff_not]
    omega
  have hread : 0 + a.length + 2 - 2 = a.length := by omega
  rw [htmlBlock, htmlLoop_opener h false 0 (fun h => absurd h (by decide)), hst,
    if_neg (by decide), splitOpener_eq h]
  simp [textAt, Except.map]

/-- An opening mark that is not seen belongs to the block. -/
theorem htmlBlock_missed {t a r : Str} (h : splitOpener t = some (a, r))
    (hodd : openRun a % 2 ≠ 0) (inAsp : Bool) :
    ∃ w s, htmlBlock inAsp t = .ok (some (.gbHtmlBlock, w), s) ∧ a.length < w.length := by
  have hst : stateAfter false a = true := by
    rw [stateAfter_eq, decide_eq_true_eq]
    omega
  have hloop : htmlLoop false 0 t = htmlLoop false (a.length + 1) ('%' :: r) := by
    rw [htmlLoop_opener h false 0 (fun h => absurd h (by decide)), hst, if_pos rfl,
      Nat.zero_add]
  have ht : t.length = a.length + 1 + ('%' :: r).length := by
    rw [splitOpener_eq h, List.length_append, List.length_cons]
    omega
  rw [htmlBlock, hloop]
  rcases hres : htmlLoop false (a.length + 1) ('%' :: r) with ⟨_ | _, rest, n⟩
  · -- the block is the whole text
    obtain ⟨u, hu, rfl, -, hend⟩ := htmlLoop_read hres
    obtain rfl := hend rfl
    have hn : a.length + 1 + u.length = t.length := by rw [ht, hu, List.append_nil]
    have hpos : 0 < t.length := by omega
    refine ⟨t, ⟨[], inAsp⟩, ?_, by omega⟩
    simp only [hn, hpos, if_true, textAt, Nat.le_refl, List.take_length, Except.map]
  · obtain ⟨u, hu, rfl, hopen, -⟩ := htmlLoop_read hres
    have hlen := congrArg List.length hu
    rw [List.length_append] at hlen
    have hu2 : 2 ≤ u.length := hopen rfl
    have hfit : a.length + 1 + u.length - 2 ≤ t.length := by omega
    refine ⟨t.take (a.length + 1 + u.length - 2), ⟨rest, true⟩, ?_, ?_⟩
    · simp only [textAt, if_pos hfit, Except.map]
    · rw [List.length_take, Nat.min_eq_left hfit]
      omega

/-! ## Runs -/

/-- The tokens of the page from a block on. -/
def FromBlock (toks : List LexToken) : Prop := ∀ t ∈ toks.head?, t.1 = .gbHtmlBlock

/-- A call from `HTML_BLOCK` on never fails, and what it leaves is shorter. -/
theorem htmlBlock_result (inAsp : Bool) (t : Str) :
    (∃ s, htmlBlock inAsp t = .ok (none, s)) ∨
      ∃ w s, htmlBlock inAsp t = .ok (some (.gbHtmlBlock, w), s) ∧
        (s.rest = [] ∨ (s.inAsp = true ∧ s.rest.length < t.length)) := by
  rw [htmlBlock]
  rcases hres : htmlLoop false 0 t with ⟨_ | _, rest, n⟩
  · obtain ⟨u, hu, rfl, -, hend⟩ := htmlLoop_read hres
    obtain rfl := hend rfl
    have hfit : 0 + u.length ≤ t.length := by
      rw [hu, List.append_nil]
      omega
    by_cases hpos : 0 < 0 + u.length
    · refine .inr ⟨t.take (0 + u.length), ⟨[], inAsp⟩, ?_, .inl rfl⟩
      simp only [if_pos hpos, textAt, if_pos hfit, Except.map]
    · exact .inl ⟨⟨[], inAsp⟩, by simp only [if_neg hpos]⟩
  · obtain ⟨u, hu, rfl, hopen, -⟩ := htmlLoop_read hres
    have hlen := congrArg List.length hu
    rw [List.length_append] at hlen
    have hu2 : 2 ≤ u.length := hopen rfl
    have hfit : 0 + u.length - 2 ≤ t.length := by omega
    refine .inr ⟨t.take (0 + u.length - 2), ⟨rest, true⟩, ?_, .inr ⟨rfl, ?_⟩⟩
    · simp only [textAt, if_pos hfit, Except.map]
    · simp only
      omega

theorem FromBlock.of_html {inAsp : Bool} {t : Str} {toks : List LexToken} {e : LexEnd}
    (h : HtmlLexes inAsp t toks e) : FromBlock toks := by
  rw [HtmlLexes] at h
  rcases htmlBlock_result inAsp t with ⟨s, hs⟩ | ⟨w, s, hs, -⟩
  · rw [hs] at h
    obtain ⟨rfl, -⟩ := h
    exact fun t ht => absurd ht (by simp)
  · rw [hs] at h
    obtain ⟨us, rfl, -⟩ := h
    rintro t ht
    obtain rfl : (GbToken.gbHtmlBlock, w) = t := by simpa using ht
    rfl

theorem FromBlock.of_right {t : Str} {toks : List LexToken} (h : PageRight t toks) :
    FromBlock toks := by
  intro tok htok
  cases h with
  | empty => exact absurd htok (by simp)
  | plain => exact (Option.some.inj htok) ▸ rfl
  | closed => exact (Option.some.inj htok) ▸ rfl
  | unclosed => exact (Option.some.inj htok) ▸ rfl

/-- The tokens of a region end where a block begins. -/
theorem append_inj_block {ts us vs ws : List LexToken} (h : ts ++ vs = us ++ ws) (ht : NoBlock ts)
    (hu : NoBlock us) (hv : FromBlock vs) (hw : FromBlock ws) : ts = us ∧ vs = ws := by
  induction ts generalizing us with
  | nil =>
    cases us with
    | nil => exact ⟨rfl, h⟩
    | cons u us =>
      rw [List.nil_append] at h
      exact absurd (hv u (by simp [h])) (hu u List.mem_cons_self)
  | cons t ts ih =>
    cases us with
    | nil =>
      rw [List.nil_append] at h
      exact absurd (hw t (by simp [← h])) (ht t List.mem_cons_self)
    | cons u us =>
      obtain ⟨rfl, htail⟩ := List.cons.inj h
      obtain ⟨rfl, rfl⟩ := ih htail (fun x hx => ht x (List.mem_cons_of_mem _ hx))
        (fun x hx => hu x (List.mem_cons_of_mem _ hx))
      exact ⟨rfl, rfl⟩

theorem splitRegion_length : ∀ (inString : Bool) (r t' : Str),
    (splitRegion inString r).2 = some t' → t'.length ≤ r.length := by
  intro inString r
  induction inString, r using splitRegion.induct with
  | case1 => simp [splitRegion]
  | case2 c r ih =>
    intro t' h
    rw [splitRegion] at h
    have := ih t' h
    rw [List.length_cons]
    omega
  | case3 => simp [splitRegion]
  | case4 c d r hclose =>
    intro t' h
    rw [splitRegion, if_pos hclose] at h
    obtain rfl := Option.some.inj h
    simp only [List.length_cons]
    omega
  | case5 c d r hclose ih =>
    intro t' h
    rw [splitRegion, if_neg hclose] at h
    have := ih t' h
    rw [List.length_cons]
    omega

/-- The run from a region on, if the runs over shorter texts are known. -/
theorem region_total {r : Str} (ih : ∀ t : Str, t.length ≤ r.length →
    ∃ toks e, HtmlLexes true t toks e) : ∃ toks e, Lexes ⟨r, true⟩ toks e := by
  obtain ⟨toks, -, -, hrun⟩ := (scans r).outside
  unfold RegionLexes at hrun
  split at hrun
  · exact ⟨_, _, lexes_of_asp hrun⟩
  · cases hnext : (splitRegion false r).2 with
    | none =>
      rw [hnext] at hrun
      exact ⟨_, _, lexes_of_asp hrun⟩
    | some t' =>
      rw [hnext] at hrun
      obtain ⟨us, e, hus⟩ := ih t' (splitRegion_length _ _ _ hnext)
      exact ⟨_, _, lexes_of_asp (hrun us e hus)⟩

/-- **The calls end on every page.** -/
theorem html_total (inAsp : Bool) (t : Str) : ∃ toks e, HtmlLexes inAsp t toks e := by
  induction hn : t.length using Nat.strongRecOn generalizing inAsp t with
  | ind n ih =>
    unfold HtmlLexes
    rcases htmlBlock_result inAsp t with ⟨s, hs⟩ | ⟨w, ⟨rest, flag⟩, hs, hrest⟩
    · exact ⟨[], .eof, by rw [hs]; exact ⟨rfl, rfl⟩⟩
    · rw [hs]
      rcases hrest with rfl | ⟨rfl, hlt⟩
      · exact ⟨_, .eof, [], rfl, .eof rfl⟩
      · simp only at hlt
        obtain ⟨us, e, hus⟩ := @region_total rest fun t' ht' => ih _ (by omega) true t' rfl
        exact ⟨_, e, us, rfl, hus⟩

/-! ## The last word of a region -/

/-- The end of a text is within a word. -/
def endsPart : Part → Str → Bool
  | .none, b => endsInWord false false b
  | .word _, b => endsInWord false true b
  | .string _, b => endsInWord true false b

/-- The end of the text matters to the tokens where it is within a word. -/
theorem regionTokens_stop (b : Str) (p : Part) :
    regionTokens false p b = regionTokens true p b ↔ endsPart p b = false := by
  induction b generalizing p with
  | nil => cases p <;> simp [regionTokens, endsPart, endsInWord]
  | cons c r ih =>
    have hnone := ih .none
    have hstr := fun s => ih (.string s)
    have hword := fun w => ih (.word w)
    simp only [endsPart] at hnone hstr hword
    cases p with
    | none =>
      simp only [regionTokens, endsPart, endsInWord]
      by_cases hq : c = '"'
      · simp [hq, hstr]
      · have hne : (c != '"') = true := by simpa using hq
        cases hu : isPunct c <;> cases hs : isSpace c <;> simp [hq, hne, hnone, hword]
    | word w =>
      simp only [regionTokens, endsPart, endsInWord]
      by_cases hq : c = '"'
      · simp [hq, hstr]
      · have hne : (c != '"') = true := by simpa using hq
        cases hu : isPunct c <;> cases hs : isSpace c <;> simp [hq, hne, hnone, hword]
    | string s =>
      simp only [regionTokens, endsPart, endsInWord]
      by_cases hq : c = '"' <;> simp [hq, hnone, hstr]

/-! ## Whole pages -/

/-- The tokens of a run are right. -/
def HtmlRight (inAsp : Bool) (t : Str) : Prop :=
  ∃ toks, HtmlLexes inAsp t toks .eof ∧ PageRight t toks

theorem regionOf_none {t a r : Str} (h : splitOpener t = none) : ¬ RegionOf t a r := by
  intro hof
  cases hof with
  | first opener => exact absurd (h.symm.trans opener) (by simp)
  | later opener => exact absurd (h.symm.trans opener) (by simp)

/-- The regions of a page are its first one and those of the page behind it. -/
theorem forall_regionOf {t a r : Str} (h : splitOpener t = some (a, r)) (P : Str → Str → Prop) :
    (∀ a' r', RegionOf t a' r' → P a' r') ↔
      P a r ∧ ∀ t', (splitRegion false r).2 = some t' → ∀ a' r', RegionOf t' a' r' → P a' r' := by
  constructor
  · intro hall
    refine ⟨hall a r (.first h), fun t' ht' a' r' hof => hall a' r' ?_⟩
    exact .later h (Prod.ext rfl ht' : splitRegion false r = (_, some t')) hof
  · rintro ⟨hfirst, hlater⟩ a' r' hof
    cases hof with
    | first opener =>
      obtain ⟨rfl, rfl⟩ := Prod.mk.inj (Option.some.inj (h.symm.trans opener))
      exact hfirst
    | later opener region of =>
      obtain ⟨rfl, rfl⟩ := Prod.mk.inj (Option.some.inj (h.symm.trans opener))
      exact hlater _ (by rw [region]) a' r' of

theorem htmlRight_noOpener {t : Str} (h : splitOpener t = none) (inAsp : Bool) :
    HtmlRight inAsp t := by
  unfold HtmlRight HtmlLexes
  rw [htmlBlock_noOpener h]
  by_cases ht : t = []
  · subst ht
    exact ⟨[], ⟨rfl, rfl⟩, .empty⟩
  · rw [if_neg ht]
    exact ⟨_, ⟨[], rfl, .eof rfl⟩, .plain ht h⟩

/-- A page whose first opening mark is not seen is wrong. -/
theorem not_htmlRight_missed {t a r : Str} (h : splitOpener t = some (a, r))
    (hodd : openRun a % 2 ≠ 0) (inAsp : Bool) : ¬ HtmlRight inAsp t := by
  rintro ⟨toks, hlex, hright⟩
  obtain ⟨w, s, hs, hlt⟩ := htmlBlock_missed h hodd inAsp
  rw [HtmlLexes, hs] at hlex
  obtain ⟨us, rfl, -⟩ := hlex
  have hw : w = a := by
    cases hright with
    | plain ne opener => exact absurd (h.symm.trans opener) (by simp)
    | closed opener => exact (Prod.mk.inj (Option.some.inj (opener.symm.trans h))).1
    | unclosed opener => exact (Prod.mk.inj (Option.some.inj (opener.symm.trans h))).1
  exact absurd hlt (by simp [hw])

theorem PageRight.last {t a r : Str} {w : LexToken} {us : List LexToken}
    (h : splitOpener t = some (a, r)) (hnext : (splitRegion false r).2 = none)
    (hp : PageRight t (w :: us)) : RegionRight (splitRegion false r).1 us := by
  cases hp with
  | plain ne opener => exact absurd (h.symm.trans opener) (by simp)
  | closed opener region =>
    obtain ⟨-, rfl⟩ := Prod.mk.inj (Option.some.inj (h.symm.trans opener))
    exact absurd hnext (by simp [region])
  | unclosed opener region right =>
    obtain ⟨-, rfl⟩ := Prod.mk.inj (Option.some.inj (h.symm.trans opener))
    rw [region]
    exact right

theorem PageRight.next {t a r t' : Str} {w : LexToken} {us : List LexToken}
    (h : splitOpener t = some (a, r)) (hnext : (splitRegion false r).2 = some t')
    (hp : PageRight t (w :: us)) :
    ∃ toks rest, us = toks ++ rest ∧ NoBlock toks ∧ PageRight t' rest := by
  cases hp with
  | plain ne opener => exact absurd (h.symm.trans opener) (by simp)
  | closed opener region right page =>
    obtain ⟨-, rfl⟩ := Prod.mk.inj (Option.some.inj (h.symm.trans opener))
    rw [region] at hnext
    obtain rfl := Option.some.inj hnext
    exact ⟨_, _, rfl, right.1, page⟩
  | unclosed opener region =>
    obtain ⟨-, rfl⟩ := Prod.mk.inj (Option.some.inj (h.symm.trans opener))
    exact absurd hnext (by simp [region])

theorem htmlLexes_opener {t a r : Str} (h : splitOpener t = some (a, r))
    (heven : openRun a % 2 = 0) {inAsp : Bool} {toks : List LexToken} {e : LexEnd} :
    HtmlLexes inAsp t toks e ↔
      ∃ us, toks = (.gbHtmlBlock, a) :: us ∧ Lexes ⟨r, true⟩ us e := by
  rw [HtmlLexes, htmlBlock_opener h heven]
  exact Iff.rfl

/-- A page with an opening mark that is seen: its region, and the page behind it. -/
theorem htmlRight_opener {t a r : Str} (h : splitOpener t = some (a, r))
    (heven : openRun a % 2 = 0) (inAsp : Bool) : HtmlRight inAsp t ↔ RegionFits a r ∧
      ∀ t', (splitRegion false r).2 = some t' → HtmlRight true t' := by
  obtain ⟨toks, hno, htoks, hrun⟩ := (scans r).outside
  unfold RegionLexes at hrun
  cases hab : aborts .outside r with
  | true =>
    rw [if_pos hab] at hrun
    constructor
    · rintro ⟨all, hlex, -⟩
      obtain ⟨us, -, hus⟩ := (htmlLexes_opener h heven).mp hlex
      exact absurd (Lexes.unique hus (lexes_of_asp hrun)).2 (by simp)
    · rintro ⟨hfits, -⟩
      exact absurd (hab.symm.trans hfits.words) (by decide)
  | false =>
    rw [if_neg (by simp [hab])] at hrun
    cases hnext : (splitRegion false r).2 with
    | none =>
      simp only [hnext, Option.isSome_none] at hrun htoks
      have hlexes : Lexes ⟨r, true⟩ toks .eof := lexes_of_asp hrun
      have hregion : splitRegion false r = ((splitRegion false r).1, none) :=
        Prod.ext rfl hnext
      constructor
      · rintro ⟨all, hlex, hright⟩
        obtain ⟨us, rfl, hus⟩ := (htmlLexes_opener h heven).mp hlex
        obtain ⟨rfl, -⟩ := Lexes.unique hus hlexes
        refine ⟨⟨heven, hab, fun _ hclean => ?_⟩, fun t' ht' => absurd ht' (by simp)⟩
        refine (regionTokens_stop _ .none).mp ?_
        rw [← htoks hclean, ← (hright.last h hnext).2 hclean]
      · rintro ⟨hfits, -⟩
        refine ⟨_, (htmlLexes_opener h heven).mpr ⟨toks, rfl, hlexes⟩, .unclosed h hregion ?_⟩
        refine ⟨hno, fun hclean => ?_⟩
        rw [htoks hclean]
        exact (regionTokens_stop _ .none).mpr (hfits.last hnext hclean)
    | some t' =>
      simp only [hnext, Option.isSome_some] at hrun htoks
      have hregion : splitRegion false r = ((splitRegion false r).1, some t') :=
        Prod.ext rfl hnext
      have hfits : RegionFits a r := ⟨heven, hab, fun hnone => absurd hnone (by simp [hnext])⟩
      constructor
      · rintro ⟨all, hlex, hright⟩
        refine ⟨hfits, fun t'' ht'' => ?_⟩
        obtain rfl := Option.some.inj ht''
        obtain ⟨us, rfl, hus⟩ := (htmlLexes_opener h heven).mp hlex
        obtain ⟨vs, rest, rfl, hvs, hpage⟩ := hright.next h hnext
        -- the tokens of the region end at the same place in both
        obtain ⟨ws, e, hws⟩ := html_total true t'
        obtain ⟨heq, rfl⟩ := Lexes.unique hus (lexes_of_asp (hrun ws e hws))
        obtain ⟨-, rfl⟩ := append_inj_block heq hvs hno (.of_right hpage) (.of_html hws)
        exact ⟨_, hws, hpage⟩
      · rintro ⟨-, hpage⟩
        obtain ⟨rest, hrest, hright⟩ := hpage t' rfl
        exact ⟨_, (htmlLexes_opener h heven).mpr ⟨_, rfl, lexes_of_asp (hrun _ _ hrest)⟩,
          .closed h hregion ⟨hno, htoks⟩ hright⟩

theorem htmlRight_iff (inAsp : Bool) (t : Str) :
    HtmlRight inAsp t ↔ ∀ a r, RegionOf t a r → RegionFits a r := by
  induction hn : t.length using Nat.strongRecOn generalizing inAsp t with
  | ind n ih =>
    cases h : splitOpener t with
    | none =>
      exact iff_of_true (htmlRight_noOpener h inAsp) fun a r hof => (regionOf_none h hof).elim
    | some p =>
      obtain ⟨a, r⟩ := p
      rw [forall_regionOf h]
      by_cases heven : openRun a % 2 = 0
      · rw [htmlRight_opener h heven]
        refine and_congr_right fun _ => forall_congr' fun t' => imp_congr_right fun ht' => ?_
        have hlt : t'.length < t.length := by
          have hle := splitRegion_length _ _ _ ht'
          rw [splitOpener_eq h, List.length_append, List.length_cons, List.length_cons]
          omega
        exact ih _ (by omega) true t' rfl
      · exact iff_of_false (not_htmlRight_missed h heven inAsp) fun hfits => heven hfits.1.opener

/-- The calls on a page end, read no byte behind it, and return its tokens. -/
def LexRight (page : Str) : Prop := ∃ toks, Lexes ⟨page, false⟩ toks .eof ∧ PageRight page toks

theorem lexes_page {page : Str} {toks : List LexToken} {e : LexEnd} :
    Lexes ⟨page, false⟩ toks e ↔ HtmlLexes false page toks e := by
  have hcall : CallLexes (gbLex ⟨page, false⟩) toks e ↔ HtmlLexes false page toks e := by
    by_cases hp : page = []
    · subst hp
      exact Iff.rfl
    · rw [HtmlLexes, gbLex, if_neg hp, if_neg Bool.false_ne_true]
  exact ⟨fun h => hcall.mp (call_of_lexes h), fun h => lexes_of_call (hcall.mpr h)⟩

/-- **A page is read rightly if and only if each of its regions fits**: an even number of `<` stands
in front of its opening mark, no word behind a `%` in it ends at a `>`, and it has an end, or does
not end within a word. -/
theorem lexRight_iff (page : Str) :
    LexRight page ↔ ∀ a r, RegionOf page a r → RegionFits a r := by
  rw [← htmlRight_iff false page, HtmlRight, LexRight]
  simp only [lexes_page]

/-- A `<` in front of the opening mark hides it. -/
theorem lexRight_wrong : ¬ LexRight "<<%x%>".toList := by
  rintro ⟨toks, hlex, hright⟩
  have hopen : splitOpener "<<%x%>".toList = some (['<'], "x%>".toList) := by decide
  exact not_htmlRight_missed hopen (by decide) false ⟨toks, lexes_page.mp hlex, hright⟩

end OnuFirmware.Asp
