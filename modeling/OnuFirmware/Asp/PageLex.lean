import OnuFirmware.Clib.Str

/-!
# The scanner of pages (`gb-lex.c`)

A page is HTML with script regions between `<%` and `%>`. Each call of `gb_lex` returns one token:
a block of HTML, or a word, a quoted string or a punctuation character of a region. A flag says that
a region has been entered before; `do_lex_asp` returns `0` at the end of one and `gb_lex` then goes
on with HTML.

`asp_lex_pos` is the text behind it, which each loop compares with its end before it reads on, and
the text of a token is taken from that behind `asp_lex_cur`, with a fault where the token would be
longer. Both `asp_lex_cur` and `asp_token_len` are set by each call before it reads them.
`lex_line`, which is for the messages of the parser, is left out.
-/

namespace OnuFirmware.Asp

open Clib

/-! ## Tokens -/

/-- The tokens of the grammar, and the characters that stand for themselves. -/
inductive GbToken
  | gbIf
  | gbElse
  | gbElseif
  | gbEnd
  | gbThen
  | gbScript
  | gbHtmlBlock
  | gbId
  | gbString
  | char (c : Char)
deriving Repr, DecidableEq

/-- A token with `yylval->v_text`. -/
abbrev LexToken := GbToken × Str

/-- `keywords`. -/
def keywords : List (Str × GbToken) :=
  [("If".toList, .gbIf), ("Else".toList, .gbElse), ("ElseIf".toList, .gbElseif),
    ("End".toList, .gbEnd), ("Then".toList, .gbThen), ("@SCRIPT".toList, .gbScript)]

/-- `toupper` in the C locale. -/
def toUpper (c : Char) : Char :=
  if 'a' ≤ c ∧ c ≤ 'z' then Char.ofNat (c.toNat - 32) else c

/-- Whether `asp_name_cmp` returns `0`. -/
def aspNameCmp (s1 s2 : Str) (len : Nat) : Bool :=
  (s1.take len).map toUpper == (s2.take len).map toUpper

/-- `check_id` for the token of length `len` at `token`. -/
def checkId (token : Str) (len : Nat) : GbToken :=
  match keywords.find? fun k => len == k.1.length && aspNameCmp token k.1 len with
  | some k => k.2
  | none => .gbId

/-- The characters that `do_lex_asp` returns as they are. -/
def isPunct (c : Char) : Bool :=
  c = '=' || c = '<' || c = '>' || c = ',' || c = ')' || c = '('

/-! ## The scanner -/

/-- What ends the scanner: the assertion, or a token longer than the text at `asp_lex_cur`. -/
inductive LexFault
  | assertion
  | overrun
deriving Repr, DecidableEq

/-- The text of length `asp_token_len` at `asp_lex_cur`. -/
def textAt (cur : Str) (len : Nat) : Except LexFault Str :=
  if len ≤ cur.length then .ok (cur.take len) else .error .overrun

/-- `check_id`, with the text. -/
def wordAt (cur : Str) (len : Nat) : Except LexFault LexToken :=
  (textAt cur len).map fun w => (checkId cur len, w)

/-- The loop of `do_lex_asp`, from `asp_lex_pos` on: the token, or none for the return value `0`,
and the text behind it. -/
def lexLoop (state inString : Bool) (cur : Str) (len : Nat) :
    Str → Except LexFault (Option LexToken × Str)
  | [] => .ok (none, [])
  | c :: rest =>
    if inString then
      if c = '"' then (textAt cur len).map fun w => (some (.gbString, w), rest)
      else lexLoop state true cur (len + 1) rest
    else if state = false ∧ c = '%' then
      if len ≠ 0 then (wordAt cur len).map fun tok => (some tok, c :: rest)
      else lexLoop true false cur 0 rest
    else if state = true ∧ c = '>' then
      if len ≠ 0 then .error .assertion else .ok (none, rest)
    else if len = 0 then
      if c = '"' then lexLoop state true cur.tail 0 rest
      else if isPunct c then .ok (some (.char c, []), rest)
      else lexLoop state false cur 1 rest
    else if isSpace c ∨ c = '"' ∨ isPunct c then
      (wordAt cur len).map fun tok => (some tok, c :: rest)
    else lexLoop state false cur (len + 1) rest

attribute [grind =] lexLoop

/-- `do_lex_asp`. -/
def doLexAsp (rest : Str) : Except LexFault (Option LexToken × Str) :=
  lexLoop false false (rest.dropWhile isSpace) 0 (rest.dropWhile isSpace)

/-- The loop of `gb_lex` over HTML: whether it ends at an opening mark, the text behind it, and how
many characters it has read. -/
def htmlLoop : Bool → Nat → Str → Bool × Str × Nat
  | _, n, [] => (false, [], n)
  | state, n, c :: rest =>
    if state then
      if c = '%' then (true, rest, n + 1) else htmlLoop false (n + 1) rest
    else htmlLoop (c == '<') (n + 1) rest

/-- What a call leaves for the next one: the text behind `asp_lex_pos`, and `in_asp`. -/
structure LexState where
  rest : Str
  inAsp : Bool
deriving Repr, DecidableEq

/-- `gb_lex` from `HTML_BLOCK` on. -/
def htmlBlock (inAsp : Bool) (cur : Str) : Except LexFault (Option LexToken × LexState) :=
  match htmlLoop false 0 cur with
  | (true, rest, n) =>
    (textAt cur (n - 2)).map fun w => (some (.gbHtmlBlock, w), ⟨rest, true⟩)
  | (false, rest, n) =>
    if 0 < n then (textAt cur n).map fun w => (some (.gbHtmlBlock, w), ⟨rest, inAsp⟩)
    else .ok (none, ⟨rest, inAsp⟩)

attribute [grind =] htmlLoop htmlBlock

/-- `gb_lex`: the token, or none for the return value `0`. -/
def gbLex (s : LexState) : Except LexFault (Option LexToken × LexState) :=
  if s.rest = [] then .ok (none, s)
  else if s.inAsp then
    match doLexAsp s.rest with
    | .error f => .error f
    | .ok (some tok, rest) => .ok (some tok, ⟨rest, true⟩)
    | .ok (none, rest) => htmlBlock true rest
  else htmlBlock false s.rest

/-- How the calls end: with the return value `0`, or at a fault. -/
inductive LexEnd
  | eof
  | fault (f : LexFault)
deriving Repr, DecidableEq

/-- The tokens of repeated calls of `gb_lex`. -/
inductive Lexes : LexState → List LexToken → LexEnd → Prop
  | eof {s s' : LexState} (call : gbLex s = .ok (none, s')) : Lexes s [] .eof
  | fault {s : LexState} {f : LexFault} (call : gbLex s = .error f) : Lexes s [] (.fault f)
  | token {s s' : LexState} {tok : LexToken} {toks : List LexToken} {e : LexEnd}
      (call : gbLex s = .ok (some tok, s')) (calls : Lexes s' toks e) : Lexes s (tok :: toks) e

theorem Lexes.unique {s : LexState} {ts us : List LexToken} {d e : LexEnd} (h : Lexes s ts d)
    (h' : Lexes s us e) : ts = us ∧ d = e := by
  induction h generalizing us with
  | eof call =>
    cases h' with
    | eof => exact ⟨rfl, rfl⟩
    | fault call' => simp [call] at call'
    | token call' => simp [call] at call'
  | fault call =>
    cases h' with
    | eof call' => simp [call] at call'
    | fault call' =>
      obtain rfl := Except.error.inj (call.symm.trans call')
      exact ⟨rfl, rfl⟩
    | token call' => simp [call] at call'
  | token call calls ih =>
    cases h' with
    | eof call' => simp [call] at call'
    | fault call' => simp [call] at call'
    | token call' calls' =>
      obtain ⟨htok, rfl⟩ := Prod.mk.inj (Except.ok.inj (call.symm.trans call'))
      obtain rfl := Option.some.inj htok
      obtain ⟨rfl, rfl⟩ := ih calls'
      exact ⟨rfl, rfl⟩

/-! ## What a page consists of -/

/-- The text before the first opening mark and the text behind it. -/
def splitOpener : Str → Option (Str × Str)
  | [] => none
  | [_] => none
  | c :: d :: r =>
    if c = '<' ∧ d = '%' then some ([], r) else (splitOpener (d :: r)).map fun p => (c :: p.1, p.2)

/-- The text before the first closing mark outside of a string and, if there is one, the text behind
it. The flag says that the text begins within a string. -/
def splitRegion : Bool → Str → Str × Option Str
  | _, [] => ([], none)
  | true, c :: r => ((splitRegion (c != '"') r).1.cons c, (splitRegion (c != '"') r).2)
  | false, [c] => ([c], none)
  | false, c :: d :: r =>
    if c = '%' ∧ d = '>' then ([], some r)
    else ((splitRegion (c == '"') (d :: r)).1.cons c, (splitRegion (c == '"') (d :: r)).2)

/-- No `%` of the text is outside of a string. -/
def noPercent : Bool → Str → Bool
  | _, [] => true
  | inString, c :: r =>
    (inString || c != '%') && noPercent (if c = '"' then !inString else inString) r

attribute [grind =] splitOpener splitRegion noPercent

/-- What has been read of a word or a string. -/
inductive Part
  | none
  | word (w : Str)
  | string (s : Str)
deriving Repr, DecidableEq

/-- A word is a keyword if it is one in any case. -/
def wordToken (w : Str) : LexToken :=
  match keywords.find? fun k => k.1.map toUpper == w.map toUpper with
  | some k => (k.2, w)
  | none => (.gbId, w)

/-- The strings, punctuation characters and words of a text. `stop` says whether the end of the text
ends a word; it never ends a string. -/
def regionTokens (stop : Bool) : Part → Str → List LexToken
  | .none, [] => []
  | .word w, [] => if stop then [wordToken w] else []
  | .string _, [] => []
  | .string s, c :: r =>
    if c = '"' then (.gbString, s) :: regionTokens stop .none r
    else regionTokens stop (.string (s ++ [c])) r
  | .none, c :: r =>
    if c = '"' then regionTokens stop (.string []) r
    else if isPunct c then (.char c, []) :: regionTokens stop .none r
    else if isSpace c then regionTokens stop .none r
    else regionTokens stop (.word [c]) r
  | .word w, c :: r =>
    if c = '"' then wordToken w :: regionTokens stop (.string []) r
    else if isPunct c then wordToken w :: (.char c, []) :: regionTokens stop .none r
    else if isSpace c then wordToken w :: regionTokens stop .none r
    else regionTokens stop (.word (w ++ [c])) r

attribute [grind =] regionTokens

/-- No token is a block of HTML. -/
def NoBlock (toks : List LexToken) : Prop := ∀ t ∈ toks, t.1 ≠ .gbHtmlBlock

/-- The tokens between two blocks are right for the text of a region: in a region in which every `%`
outside of strings belongs to a closing mark they are those of its text. -/
def RegionRight (body : Str) (toks : List LexToken) : Prop :=
  NoBlock toks ∧ (noPercent false body = true → toks = regionTokens true .none body)

/-- The tokens are right for a page: the text before a region, also if it is empty, and the text
behind the last one are blocks, in order, with right tokens in between. -/
inductive PageRight : Str → List LexToken → Prop
  | empty : PageRight [] []
  | plain {t : Str} (ne : t ≠ []) (opener : splitOpener t = none) :
      PageRight t [(.gbHtmlBlock, t)]
  | closed {t a r b t' : Str} {toks rest : List LexToken} (opener : splitOpener t = some (a, r))
      (region : splitRegion false r = (b, some t')) (right : RegionRight b toks)
      (page : PageRight t' rest) : PageRight t ((.gbHtmlBlock, a) :: (toks ++ rest))
  | unclosed {t a r b : Str} {toks : List LexToken} (opener : splitOpener t = some (a, r))
      (region : splitRegion false r = (b, none)) (right : RegionRight b toks) :
      PageRight t ((.gbHtmlBlock, a) :: toks)

end OnuFirmware.Asp
