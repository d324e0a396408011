import OnuFirmware.Asp.Program
import OnuFirmware.Clib.Num

/-!
# `gb_parse` on pages

How long `gb_parse` runs on a page and how it can end, in terms of the page: the tokens are not more
than its characters, the statements and the places on the stack not more than the tokens, and a
message has room in the buffers that it is copied to.
-/

namespace OnuFirmware.Asp

open Clib Lib

/-! ## Every token has a character -/

theorem rest_later {p q : Prop} {c : Char} {rest r' : Str} (h : r'.length ≤ rest.length) :
    r'.length ≤ (c :: rest).length ∧ (p → q → r'.length < (c :: rest).length) :=
  ⟨Nat.le_succ_of_le h, fun _ _ => Nat.lt_succ_of_le h⟩

/-- Nothing is read twice, and a token that begins here has a character. -/
theorem lexLoop_rest {state inString : Bool} {cur : Str} {len : Nat} {r r' : Str}
    {tok : Option LexToken} (h : lexLoop state inString cur len r = .ok (tok, r')) :
    r'.length ≤ r.length ∧ (len = 0 → tok ≠ none → r'.length < r.length) := by
  fun_induction lexLoop state inString cur len r with
  | case1 =>
    obtain ⟨rfl, rfl⟩ := Prod.mk.inj (Except.ok.inj h)
    exact ⟨Nat.le_refl _, fun _ hne => absurd rfl hne⟩
  | case2 =>
    obtain ⟨w, -, heq⟩ := map_ok h
    obtain ⟨-, rfl⟩ := Prod.mk.inj heq
    exact rest_later (Nat.le_refl _)
  | case3 =>
    rename_i ih
    exact rest_later (ih h).1
  | case4 =>
    rename_i hlen
    obtain ⟨w, -, heq⟩ := map_ok h
    obtain ⟨-, rfl⟩ := Prod.mk.inj heq
    exact ⟨Nat.le_refl _, fun hzero => absurd hzero hlen⟩
  | case5 =>
    rename_i ih
    exact rest_later (ih h).1
  | case6 => cases h
  | case7 =>
    obtain ⟨-, rfl⟩ := Prod.mk.inj (Except.ok.inj h)
    exact rest_later (Nat.le_refl _)
  | case8 =>
    rename_i ih
    exact rest_later (ih h).1
  | case9 =>
    obtain ⟨-, rfl⟩ := Prod.mk.inj (Except.ok.inj h)
    exact rest_later (Nat.le_refl _)
  | case10 =>
    rename_i ih
    exact rest_later (ih h).1
  | case11 =>
    rename_i hlen _
    obtain ⟨w, -, heq⟩ := map_ok h
    obtain ⟨-, rfl⟩ := Prod.mk.inj heq
    exact ⟨Nat.le_refl _, fun hzero => absurd hzero hlen⟩
  | case12 =>
    rename_i ih
    exact rest_later (ih h).1

theorem doLexAsp_rest {r r' : Str} {tok : Option LexToken} (h : doLexAsp r = .ok (tok, r')) :
    r'.length ≤ r.length ∧ (tok ≠ none → r'.length < r.length) := by
  obtain ⟨hle, hlt⟩ := lexLoop_rest h
  have hspace := (List.dropWhile_suffix isSpace : r.dropWhile isSpace <:+ r).length_le
  exact ⟨Nat.le_trans hle hspace, fun hne => Nat.lt_of_lt_of_le (hlt rfl hne) hspace⟩

theorem htmlBlock_rest {inAsp : Bool} {t : Str} {s : LexState} {tok : LexToken}
    (h : htmlBlock inAsp t = .ok (some tok, s)) : s.rest.length < t.length := by
  rw [htmlBlock] at h
  rcases hres : htmlLoop false 0 t with ⟨_ | _, rest, n⟩
  · obtain ⟨u, rfl, rfl, -, -⟩ := htmlLoop_read hres
    rw [hres] at h
    simp only at h
    split at h
    · rename_i hpos
      obtain ⟨w, -, heq⟩ := map_ok h
      obtain ⟨-, rfl⟩ := Prod.mk.inj heq
      simp only [List.length_append]
      omega
    · cases h
  · obtain ⟨u, rfl, rfl, hopen, -⟩ := htmlLoop_read hres
    rw [hres] at h
    obtain ⟨w, -, heq⟩ := map_ok h
    obtain ⟨-, rfl⟩ := Prod.mk.inj heq
    have hu : 2 ≤ u.length := hopen rfl
    simp only [List.length_append]
    omega

theorem gbLex_rest {s s' : LexState} {tok : LexToken} (h : gbLex s = .ok (some tok, s')) :
    s'.rest.length < s.rest.length := by
  unfold gbLex at h
  split at h
  · cases h
  · split at h
    · split at h
      · cases h
      · rename_i hlex
        obtain ⟨-, rfl⟩ := Prod.mk.inj (Except.ok.inj h)
        exact (doLexAsp_rest hlex).2 (Option.some_ne_none _)
      · rename_i hlex
        exact Nat.lt_of_lt_of_le (htmlBlock_rest h) (doLexAsp_rest hlex).1
    · exact htmlBlock_rest h

/-- **There are not more tokens than characters.** -/
theorem Lexes.length_le {s : LexState} {toks : List LexToken} {e : LexEnd} (h : Lexes s toks e) :
    toks.length ≤ s.rest.length := by
  induction h with
  | eof call => exact Nat.zero_le _
  | fault call => exact Nat.zero_le _
  | token call calls ih => exact Nat.lt_of_le_of_lt ih (gbLex_rest call)

theorem lexes_total (page : Str) : ∃ toks e, Lexes ⟨page, false⟩ toks e := by
  obtain ⟨toks, e, h⟩ := html_total false page
  exact ⟨toks, e, lexes_page.mpr h⟩

/-! ## Every statement has a token -/

/-- The program has not more statements than there are tokens, and does not need more places. -/
structure Small (t : AspTree) (ts : List LexToken) : Prop where
  size : t.size ≤ ts.length
  need : t.need ≤ ts.length

theorem LeafText.need_le {l : AspLeaf} {ts : List LexToken} (h : LeafText l ts) :
    l.need ≤ ts.length := by
  cases h with
  | id t => exact Nat.le_refl _
  | string t => exact Nat.le_refl _
  | call0 f x y => exact Nat.le_refl _
  | call1 f x a y => exact Nat.le_refl _
  | call2 f x a u b y => exact Nat.le_refl _
  | call3 f x a u b v c y => exact Nat.le_refl _

theorem TestText.need_le {op : AspCondOp} {a b : AspLeaf} {ts : List LexToken}
    (h : TestText op a b ts) : 3 ≤ ts.length ∧ testNeed op a b ≤ ts.length := by
  have ha := a.need_pos
  have hb := b.need_pos
  cases h with
  | equ hta x htb =>
    have hla := hta.need_le
    have hlb := htb.need_le
    have heq : testNeed .equ a b = max a.need (2 + b.need) := rfl
    rw [List.length_append, List.length_cons]
    omega
  | neq hta x y htb =>
    have hla := hta.need_le
    have hlb := htb.need_le
    have heq : testNeed .neq a b = max a.need (3 + b.need) := rfl
    rw [List.length_append, List.length_cons, List.length_cons]
    omega

theorem Spells.small {ph : AspPhrase} {t : AspTree} {ts : List LexToken} (h : Spells ph t ts) :
    Small t ts := by
  induction h with
  | one h ih => exact ih
  | @seq c d ts us hc hd ihc ihd =>
    have hc₁ := ihc.size
    have hc₂ := ihc.need
    have hd₁ := ihd.size
    have hd₂ := ihd.need
    have hpos := c.size_pos
    constructor
    · rw [AspTree.size, List.length_append]
      omega
    · rw [AspTree.need, List.length_append]
      omega
  | html t => exact ⟨Nat.le_refl _, Nat.le_refl _⟩
  | script x i y t => exact ⟨Nat.succ_pos 3, Nat.le_refl _⟩
  | @value l ts h => exact ⟨Nat.le_trans l.need_pos h.need_le, h.need_le⟩
  | @cond c ts h x y ih =>
    constructor
    · rw [List.length_append]
      exact Nat.le_add_right_of_le ih.size
    · rw [List.length_append]
      exact Nat.le_add_right_of_le ih.need
  | @condElse c act ts us hc x hact y z ihc ih =>
    have hc₁ := ihc.size
    have hc₂ := ihc.need
    have ha₁ := ih.size
    have ha₂ := ih.need
    have hpos := c.size_pos
    constructor
    · simp only [AspTree.size, List.length_append, List.length_cons, List.length_nil]
      omega
    · simp only [AspTree.need, List.length_append, List.length_cons, List.length_nil]
      omega
  | @arm op a b act ts us x test y hact ih =>
    have ht := test.need_le
    have ha₁ := ih.size
    have ha₂ := ih.need
    constructor
    · simp only [AspTree.size, List.length_append, List.length_cons]
      omega
    · simp only [AspTree.need, List.length_append, List.length_cons]
      omega
  | @elseif c op a b act ts us vs hc x test y hact ihc ih =>
    have ht := test.need_le
    have hc₁ := ihc.size
    have hc₂ := ihc.need
    have ha₁ := ih.size
    have ha₂ := ih.need
    constructor
    · simp only [AspTree.size, List.length_append, List.length_cons]
      omega
    · simp only [AspTree.need, List.length_append, List.length_cons]
      omega

/-! ## Messages -/

theorem names_checked : ∀ s ∈ yytname, s.length ≤ 13 := by decide

theorem yyName_length (yyx : Nat) : (yyName yyx).length ≤ 13 := by
  unfold yyName
  cases hname : yytname[yyx]? with
  | none => exact Nat.zero_le _
  | some s => exact names_checked s (List.mem_of_getElem? hname)

theorem expecting_checked : ∀ yyn ∈ yypact, (yyExpecting yyn).length ≤ 42 ∧
    (yyExpecting yyn).length ≤ yysizeExpecting yyn := by
  decide +kernel

/-- The message fits into `yymsg`. -/
theorem yymsg_fits {yyn : Int} (h : yyn ∈ yypact) (yytoken : Nat) :
    ("syntax error, unexpected ".toList ++ yyName yytoken ++ yyExpecting yyn).length + 1 ≤
      yysize yyn yytoken := by
  have hexp := (expecting_checked yyn h).2
  have hlen : "syntax error, unexpected ".toList.length = "syntax error, unexpected ".length := rfl
  rw [List.length_append, List.length_append, hlen, yysize]
  omega

theorem yySyntaxError_length (state yytoken : Nat) : (yySyntaxError state yytoken).length ≤ 80 := by
  unfold yySyntaxError
  cases hpact : yypact[state]? with
  | none =>
    rw [if_neg (by decide)]
    decide
  | some yyn =>
    simp only [Option.getD_some]
    split
    · have hexp := (expecting_checked yyn (List.mem_of_getElem? hpact)).1
      have hname := yyName_length yytoken
      have hlen : "syntax error, unexpected ".toList.length = 25 := by decide
      rw [List.length_append, List.length_append, hlen]
      omega
    · decide

section Message

variable {room : Nat} {c : YyConf} {msg : Str}

theorem yyNewstate_rejected {q : Nat} {v : YyStype}
    (h : yyNewstate q v c = .done (.rejected msg)) : msg.length ≤ 80 := by
  unfold yyNewstate at h
  split at h
  · obtain rfl := YyResult.rejected.inj (YyStep.done.inj h)
    decide
  · cases h

theorem yyDo_rejected {a : LrAction} (h : yyDo room c a = .done (.rejected msg)) :
    msg.length ≤ 80 := by
  cases a with
  | shift q =>
    simp only [yyDo] at h
    split at h
    · exact yyNewstate_rejected h
    · cases h
  | reduce n =>
    simp only [yyDo, yyReduce] at h
    split at h
    · cases h
    · exact yyNewstate_rejected h
  | accept => cases h
  | error =>
    obtain rfl := YyResult.rejected.inj (YyStep.done.inj h)
    exact yySyntaxError_length _ _

theorem yyBackup_rejected (h : yyBackup room c = .done (.rejected msg)) : msg.length ≤ 80 := by
  unfold yyBackup at h
  split at h
  · exact yyDo_rejected h
  · split at h
    · exact yyDo_rejected h
    · split at h
      · cases h
      · exact yyDo_rejected h

theorem yyParse_rejected {fuel : Nat} (h : yyParse room fuel c = some (.rejected msg)) :
    msg.length ≤ 80 := by
  induction fuel generalizing c with
  | zero => cases h
  | succ fuel ih =>
    rw [yyParse] at h
    cases hstep : yyBackup room c with
    | next c' =>
      rw [hstep] at h
      exact ih h
    | done r =>
      rw [hstep] at h
      obtain rfl := Option.some.inj h
      exact yyBackup_rejected hstep

theorem length_gbErrorText (msg : Str) (line : Int) :
    (gbErrorText msg line).length = 4 + msg.length + 10 + (fmtInt line).length + 1 := by
  have hlen : ∀ a b c : Str, (a ++ msg ++ b ++ fmtInt line ++ c).length =
      a.length + msg.length + b.length + (fmtInt line).length + c.length := by
    intro a b c
    simp only [List.length_append]
  exact hlen _ _ _

/-- **A message has room** in `buff` of `gb_error`, in whatever line. -/
theorem gbError_fits {page : Str} {line : Int} (h : YyEnds room page (.rejected msg))
    (hline : IsInt line) : (gbErrorText msg line).length + 1 ≤ 128 := by
  obtain ⟨fuel, hrun⟩ := h
  have hmsg := yyParse_rejected hrun
  have hnum := length_fmtInt_le hline
  rw [length_gbErrorText]
  omega

/-- A message that lists what was expected, in the line with the longest number. -/
theorem gbError_fits_expecting :
    YyEnds 9362 "<%ab(c%>".toList
      (.rejected "syntax error, unexpected GB_ID, expecting GB_STRING or ')'".toList) ∧
    (gbErrorText "syntax error, unexpected GB_ID, expecting GB_STRING or ')'".toList
      (-2147483648)).length + 1 ≤ 128 := by
  have hends : YyEnds 9362 "<%ab(c%>".toList
      (.rejected "syntax error, unexpected GB_ID, expecting GB_STRING or ')'".toList) :=
    ⟨6, by decide +kernel⟩
  exact ⟨hends, gbError_fits hends ⟨by decide, by decide⟩⟩

end Message

/-! ## The results -/

/-- The page spells the program, and the memory and the stack suffice for it. -/
structure PageSpells (room : Nat) (page : Str) (t : AspTree) : Prop where
  text : ∃ toks, Lexes ⟨page, false⟩ toks .eof ∧ Spells .stmts t toks
  memory : t.size ≤ room
  stack : t.need < yyMaxdepth - 1

/-- **A page has one meaning at most.** -/
theorem pageSpells_unique {page : Str} {toks toks' : List LexToken} {e e' : LexEnd}
    {t t' : AspTree} (hlex : Lexes ⟨page, false⟩ toks e) (htext : Spells .stmts t toks)
    (hlex' : Lexes ⟨page, false⟩ toks' e') (htext' : Spells .stmts t' toks') : t = t' := by
  obtain ⟨rfl, -⟩ := hlex.unique hlex'
  exact htext.unique htext'

/-- The tokens of a page with a call. -/
theorem lexes_call : Lexes ⟨"<%ab()%>".toList, false⟩
    [(.gbHtmlBlock, []), (.gbId, "ab".toList), (.char '(', []), (.char ')', [])] .eof := by
  have hblock : gbLex ⟨"<%ab()%>".toList, false⟩ =
      .ok (some (.gbHtmlBlock, []), ⟨"ab()%>".toList, true⟩) := by decide
  have hname : gbLex ⟨"ab()%>".toList, true⟩ =
      .ok (some (.gbId, "ab".toList), ⟨"()%>".toList, true⟩) := by decide
  have hopen : gbLex ⟨"()%>".toList, true⟩ = .ok (some (.char '(', []), ⟨")%>".toList, true⟩) := by
    decide
  have hclose : gbLex ⟨")%>".toList, true⟩ = .ok (some (.char ')', []), ⟨"%>".toList, true⟩) := by
    decide
  have hend : gbLex ⟨"%>".toList, true⟩ = .ok (none, ⟨[], true⟩) := by decide
  exact .token hblock (.token hname (.token hopen (.token hclose (.eof hend))))

/-- What these tokens spell. -/
theorem spells_call : Spells .stmts (.seq (.leaf (.html [])) (.leaf (.call "ab".toList [])))
    [(.gbHtmlBlock, []), (.gbId, "ab".toList), (.char '(', []), (.char ')', [])] :=
  .seq (.one (.html [])) (.value (.call0 "ab".toList [] []))

/-- The page with a call is no page with a value. -/
theorem pageSpells_unique_call : ¬ ∃ toks e, Lexes ⟨"<%ab()%>".toList, false⟩ toks e ∧
    Spells .stmts (.seq (.leaf (.html [])) (.leaf (.id "ab".toList))) toks := by
  rintro ⟨toks, e, hlex, htext⟩
  have hsame := pageSpells_unique hlex htext lexes_call spells_call
  cases hsame

theorem PageSpells.accepted {room : Nat} {page : Str} {t : AspTree} (h : PageSpells room page t) :
    ∃ r, YyEnds room page (.accepted r) ∧ Holds r t := by
  obtain ⟨toks, hlex, htext⟩ := h.text
  obtain ⟨v, r, hyields, hholds⟩ := htext.yields h.memory
  exact ⟨r, (yyEnds_accepted hlex r).mpr ⟨rfl, v, t.need, hyields, h.stack⟩, hholds⟩

section Page

variable (room : Nat) (page : Str)

/-- **`gb_parse` accepts exactly the pages that spell a program** that the memory and the stack
suffice for, and leaves this program in the memory. -/
theorem gbParse_accepted_iff (r : AspReent) :
    YyEnds room page (.accepted r) ↔ ∃ t, PageSpells room page t ∧ Holds r t := by
  obtain ⟨toks, e, hlex⟩ := lexes_total page
  rw [gbParse_accepted hlex]
  constructor
  · rintro ⟨rfl, t, htext, hsize, hneed, hholds⟩
    exact ⟨t, ⟨⟨toks, hlex, htext⟩, hsize, hneed⟩, hholds⟩
  · rintro ⟨t, ⟨⟨toks', hlex', htext⟩, hsize, hneed⟩, hholds⟩
    obtain ⟨rfl, rfl⟩ := hlex.unique hlex'
    exact ⟨rfl, t, htext, hsize, hneed, hholds⟩

/-- What a result says about the page. -/
inductive YyRight : YyResult → Prop
  | accepted {r : AspReent} {t : AspTree} (spells : PageSpells room page t) (holds : Holds r t) :
      YyRight (.accepted r)
  | rejected {msg : Str} (spells : ∀ t, ¬ PageSpells room page t) (length : msg.length ≤ 80) :
      YyRight (.rejected msg)
  | lex {toks : List LexToken} {f : LexFault} (calls : Lexes ⟨page, false⟩ toks (.fault f)) :
      YyRight (.fault (.lex f))
  | memory (room_lt : room < page.length) (spells : ∀ t, ¬ PageSpells room page t) :
      YyRight (.fault (.action .noMemory))

/-- **`gb_parse` ends on every page**, within a number of steps that is linear in its length. It
fails only where the scanner does, or where there are more characters than places in the memory;
and a message means that the page spells no program that fits. -/
theorem gbParse_ends : ∃ r, yyParse room (6 * (2 * page.length + 1)) (yyStart page) = some r ∧
    YyRight room page r := by
  obtain ⟨toks, e, hlex⟩ := lexes_total page
  have htoks := hlex.length_le
  obtain ⟨r, hr⟩ := yyParse_ends room hlex
  have hends : YyEnds room page r := ⟨_, hr⟩
  have hmore : 6 * (2 * page.length + 1) =
      6 * (2 * toks.length + 1) + 12 * (page.length - toks.length) := by
    simp only at htoks
    omega
  refine ⟨r, by rw [hmore]; exact yyParse_add hr _, ?_⟩
  -- a program that fits would have been accepted
  have hnone : (∀ r', r ≠ .accepted r') → ∀ t, ¬ PageSpells room page t := by
    intro hne t ht
    obtain ⟨r', hr', -⟩ := ht.accepted
    exact hne r' (hends.unique hr')
  cases r with
  | accepted r =>
    obtain ⟨t, hspells, hholds⟩ := (gbParse_accepted_iff room page r).mp hends
    exact .accepted hspells hholds
  | rejected msg => exact .rejected (hnone fun r' hr' => by cases hr') (yyParse_rejected hr)
  | fault f =>
    cases f with
    | lex f =>
      obtain ⟨r₀, -, hagrees⟩ := hends.agrees hlex
      cases hagrees with
      | lex ended => exact .lex (ended ▸ hlex)
    | action f =>
      obtain ⟨rfl, hlt⟩ := gbParse_fault hlex hends
      exact .memory (Nat.lt_of_lt_of_le hlt htoks) (hnone fun r' hr' => by cases hr')

end Page

section Short

variable {room : Nat} {page : Str}

/-- **On a short page** neither the memory nor the stack is ever too small: there are at most as
many statements and places on the stack as the page has characters. -/
theorem gbParse_short (hroom : page.length ≤ room) (hstack : page.length < yyMaxdepth - 1) :
    (∀ r, YyEnds room page (.accepted r) ↔
      ∃ t toks, Lexes ⟨page, false⟩ toks .eof ∧ Spells .stmts t toks ∧ Holds r t) ∧
    ∀ f, ¬ YyEnds room page (.fault (.action f)) := by
  constructor
  · intro r
    rw [gbParse_accepted_iff]
    constructor
    · rintro ⟨t, ⟨⟨toks, hlex, htext⟩, -, -⟩, hholds⟩
      exact ⟨t, toks, hlex, htext, hholds⟩
    · rintro ⟨t, toks, hlex, htext, hholds⟩
      have hlen := hlex.length_le
      have hsmall := htext.small
      exact ⟨t, ⟨⟨toks, hlex, htext⟩, Nat.le_trans hsmall.size (Nat.le_trans hlen hroom),
        Nat.lt_of_le_of_lt (Nat.le_trans hsmall.need hlen) hstack⟩, hholds⟩
  · intro f hends
    obtain ⟨toks, e, hlex⟩ := lexes_total page
    have hlen := hlex.length_le
    have hlt := (gbParse_fault hlex hends).2
    simp only at hlen
    omega

/-- The page with a call is accepted, and does not run out of memory. -/
theorem gbParse_short_call :
    YyEnds 8 "<%ab()%>".toList (.accepted ⟨[⟨some 1, some 1, .html []⟩,
      ⟨none, some 1, .call "ab".toList [none, none, none]⟩], some 0⟩) ∧
    ¬ YyEnds 8 "<%ab()%>".toList (.fault (.action .noMemory)) := by
  obtain ⟨haccepts, hmemory⟩ :=
    gbParse_short (show "<%ab()%>".toList.length ≤ 8 by decide) (by decide)
  exact ⟨(haccepts _).mpr ⟨_, _, lexes_call, spells_call, rfl, rfl, rfl, rfl⟩, hmemory .noMemory⟩

end Short

end OnuFirmware.Asp
