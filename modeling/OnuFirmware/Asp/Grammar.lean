import OnuFirmware.Asp.PageLex
import OnuFirmware.Lib.Slr

/-!
# The parser of pages (`grammar.c`, `asp.c`)

`gb_parse` is the table-driven parser that Bison has made of `grammar.y`. It reads the tokens of
`gb_lex`, keeps a stack of states with their values, and runs the action of each rule it reduces.
The actions build statements in the memory of `asp_reent` and link them: a list of statements by
`next`, the branches of a condition by `v_cond.next`; the first statement of a list and the first
branch of a condition have a pointer to the last one.

A reduction may read no token, so the text of an HTML block is not taken from the stack but from
`asp_lex_cur` and `asp_token_len` of the scanner, which are `cur` here. The line number of messages
is left out, as it is in the scanner. `new_stmt` does not check what `asp_alloc` returns.
-/

namespace OnuFirmware.Asp

open Clib Lib

/-! ## Statements -/

/-- `asp_cond_op`. -/
inductive AspCondOp
  | equ
  | neq
  | true
deriving Repr, DecidableEq

/-- `asp_cond_stmt`. Statements are known by their numbers in the memory. -/
structure AspCondStmt where
  next : Option Nat
  last : Option Nat
  op : AspCondOp
  stmt1 : Option Nat
  stmt2 : Option Nat
  stmtAct : Option Nat
deriving Repr, DecidableEq

/-- The union of a statement, by `type`. Parameters that are not given are null pointers. -/
inductive AspBody
  | html (text : Str)
  | id (text : Str)
  | call (func : Str) (params : List (Option Str))
  | string (text : Str)
  | null
  | cond (c : AspCondStmt)
deriving Repr, DecidableEq

/-- `asp_stmt`. -/
structure AspStmt where
  next : Option Nat
  last : Option Nat
  body : AspBody
deriving Repr, DecidableEq

/-- The memory of `asp_reent` and its `root`. -/
structure AspReent where
  mem : List AspStmt
  root : Option Nat
deriving Repr, DecidableEq

/-- What ends the parser: `new_stmt` without memory, a null pointer, a value of another kind than
the rule has, or the text of a token where none has been read. -/
inductive ParseFault
  | noMemory
  | null
  | kind
  | noToken
deriving Repr, DecidableEq

/-- How many statements of `size` bytes `asp_alloc` has room for. -/
def stmtRoom (size : Nat) : Nat := 1024 * 512 / (size + (8 - size % 8))

/-- `new_stmt`, with the fields that the action sets right after it. -/
def newStmt (room : Nat) (r : AspReent) (body : Nat → AspBody) :
    Except ParseFault (Nat × AspReent) :=
  if r.mem.length < room then
    .ok (r.mem.length,
      { r with mem := r.mem ++ [⟨none, some r.mem.length, body r.mem.length⟩] })
  else .error .noMemory

/-- An assignment to fields of the statement at a pointer. -/
def AspReent.assign (r : AspReent) (f : AspStmt → AspStmt) :
    Option Nat → Except ParseFault AspReent
  | none => .error .null
  | some p => if p < r.mem.length then .ok { r with mem := r.mem.modify p f } else .error .null

/-- An assignment to fields of `v_cond` of the statement at a pointer. -/
def AspReent.assignCond (r : AspReent) (f : AspCondStmt → AspCondStmt) :
    Option Nat → Except ParseFault AspReent
  | none => .error .null
  | some p =>
    match r.mem[p]? with
    | none => .error .null
    | some s =>
      match s.body with
      | .cond c => .ok { r with mem := r.mem.set p { s with body := .cond (f c) } }
      | _ => .error .kind

/-- `last` of the statement at a pointer. -/
def AspReent.lastOf (r : AspReent) (p : Nat) : Option Nat := r.mem[p]?.bind AspStmt.last

/-- `v_cond.last` of the statement at a pointer. -/
def AspReent.condLastOf (r : AspReent) (p : Nat) : Option Nat :=
  r.mem[p]?.bind fun s =>
    match s.body with
    | .cond c => c.last
    | _ => none

/-! ## The rules -/

/-- The numbers of the nonterminals, as Bison has numbered them. -/
def ntAccept : Nat := 18
def ntAspfile : Nat := 19
def ntStatements : Nat := 20
def ntStatement : Nat := 21
def ntStmt : Nat := 22
def ntStmtCall : Nat := 23
def ntVal : Nat := 24
def ntCond : Nat := 25
def ntCondList : Nat := 26
def ntCondElse : Nat := 27
def ntStmtCond : Nat := 28

/-- `yytokentype`; a character is its own number. -/
def GbToken.code : GbToken → Nat
  | .gbIf => 258
  | .gbElse => 259
  | .gbElseif => 260
  | .gbEnd => 261
  | .gbThen => 262
  | .gbScript => 263
  | .gbHtmlBlock => 264
  | .gbId => 265
  | .gbString => 266
  | .char c => c.toNat

/-- `YYTRANSLATE`. At all places that are not listed the table has `YYUNDEFTOK`. -/
def yytranslate (yychar : Nat) : Nat :=
  ([(0, 0), (40, 13), (41, 14), (44, 15), (60, 16), (61, 12), (62, 17), (256, 1), (258, 3),
    (259, 4), (260, 5), (261, 6), (262, 7), (263, 8), (264, 9), (265, 10),
    (266, 11)].lookup yychar).getD 2

/-- The symbols of the rules that are tokens. -/
def gbTok (t : GbToken) : GramSym GbToken Nat := .term t

/-- The rules of `grammar.y`, from rule 1 on. The end of the input is no symbol here. -/
def aspGrammar : Grammar GbToken Nat where
  rules := [
    (ntAccept, [.nonterm ntAspfile]),
    (ntAspfile, [.nonterm ntStatements]),
    (ntStatements, [.nonterm ntStatement]),
    (ntStatements, [.nonterm ntStatements, .nonterm ntStatement]),
    (ntStatement, [gbTok .gbScript, gbTok .gbId, gbTok (.char '='), gbTok .gbString]),
    (ntStatement, [gbTok .gbHtmlBlock]),
    (ntStatement, [.nonterm ntStmt]),
    (ntStatement, [.nonterm ntCond]),
    (ntStmt, [.nonterm ntStmtCall]),
    (ntStmt, [.nonterm ntVal]),
    (ntStmtCall, [gbTok .gbId, gbTok (.char '('), gbTok (.char ')')]),
    (ntStmtCall, [gbTok .gbId, gbTok (.char '('), gbTok .gbString, gbTok (.char ')')]),
    (ntStmtCall, [gbTok .gbId, gbTok (.char '('), gbTok .gbString, gbTok (.char ','),
      gbTok .gbString, gbTok (.char ')')]),
    (ntStmtCall, [gbTok .gbId, gbTok (.char '('), gbTok .gbString, gbTok (.char ','),
      gbTok .gbString, gbTok (.char ','), gbTok .gbString, gbTok (.char ')')]),
    (ntVal, [gbTok .gbString]),
    (ntVal, [gbTok .gbId]),
    (ntCond, [.nonterm ntCondList, gbTok .gbEnd, gbTok .gbIf]),
    (ntCond, [.nonterm ntCondList, .nonterm ntCondElse, gbTok .gbEnd, gbTok .gbIf]),
    (ntCondList, [gbTok .gbIf, .nonterm ntStmtCond, gbTok .gbThen, .nonterm ntStatements]),
    (ntCondList, [.nonterm ntCondList, gbTok .gbElseif, .nonterm ntStmtCond, gbTok .gbThen,
      .nonterm ntStatements]),
    (ntCondElse, [gbTok .gbElse, .nonterm ntStatements]),
    (ntStmtCond, [.nonterm ntStmt, gbTok (.char '='), .nonterm ntStmt]),
    (ntStmtCond, [.nonterm ntStmt, gbTok (.char '<'), gbTok (.char '>'), .nonterm ntStmt])]

/-- `YYSTYPE`. -/
inductive YyStype
  | text (text : Str)
  | stmt (p : Nat)
deriving Repr, DecidableEq

/-- The action of rule `yyn` on the values of its symbols; `cur` is the text of the token that the
scanner has returned last. -/
def yyAction (room : Nat) (cur : Option Str) (yyn : Nat) (vals : List YyStype) (r : AspReent) :
    Except ParseFault (YyStype × AspReent) :=
  match yyn, vals with
  | 2, [.stmt s] => .ok (.stmt s, { r with root := some s })
  | 3, [.stmt s] => do
    let r ← r.assign (fun x => { x with last := some s }) (some s)
    let r ← r.assign (fun x => { x with next := none }) (some s)
    .ok (.stmt s, r)
  | 4, [.stmt l, .stmt s] => do
    let r ← r.assign (fun x => { x with next := some s }) (r.lastOf l)
    let r ← r.assign (fun x => { x with last := some s }) (some l)
    let r ← r.assign (fun x => { x with next := none }) (some s)
    .ok (.stmt l, r)
  | 5, [_, _, _, _] => do
    let s ← newStmt room r fun _ => .null
    .ok (.stmt s.1, s.2)
  | 6, [_] =>
    match cur with
    | none => .error .noToken
    | some text => do
      let s ← newStmt room r fun _ => .html text
      .ok (.stmt s.1, s.2)
  | 7, [v] => .ok (v, r)
  | 8, [v] => .ok (v, r)
  | 9, [v] => .ok (v, r)
  | 10, [v] => .ok (v, r)
  | 11, [.text f, _, _] => do
    let s ← newStmt room r fun _ => .call f [none, none, none]
    .ok (.stmt s.1, s.2)
  | 12, [.text f, _, .text a, _] => do
    let s ← newStmt room r fun _ => .call f [some a, none, none]
    .ok (.stmt s.1, s.2)
  | 13, [.text f, _, .text a, _, .text b, _] => do
    let s ← newStmt room r fun _ => .call f [some a, some b, none]
    .ok (.stmt s.1, s.2)
  | 14, [.text f, _, .text a, _, .text b, _, .text c, _] => do
    let s ← newStmt room r fun _ => .call f [some a, some b, some c]
    .ok (.stmt s.1, s.2)
  | 15, [.text t] => do
    let s ← newStmt room r fun _ => .string t
    .ok (.stmt s.1, s.2)
  | 16, [.text t] => do
    let s ← newStmt room r fun _ => .id t
    .ok (.stmt s.1, s.2)
  | 17, [.stmt c, _, _] => .ok (.stmt c, r)
  | 18, [.stmt c, .stmt e, _, _] => do
    let r ← r.assignCond (fun x => { x with next := some e }) (r.condLastOf c)
    let r ← r.assignCond (fun x => { x with last := some e }) (some c)
    .ok (.stmt c, r)
  | 19, [_, .stmt c, _, .stmt l] => do
    let r ← r.assignCond (fun x => { x with stmtAct := some l }) (some c)
    .ok (.stmt c, r)
  | 20, [.stmt c, _, .stmt d, _, .stmt l] => do
    let r ← r.assignCond (fun x => { x with stmtAct := some l }) (some d)
    let r ← r.assignCond (fun x => { x with next := some d }) (r.condLastOf c)
    let r ← r.assignCond (fun x => { x with last := some d }) (some c)
    .ok (.stmt c, r)
  | 21, [_, .stmt l] => do
    let s ← newStmt room r fun p => .cond ⟨none, some p, .true, none, none, some l⟩
    .ok (.stmt s.1, s.2)
  | 22, [.stmt a, _, .stmt b] => do
    let s ← newStmt room r fun p => .cond ⟨none, some p, .equ, some a, some b, none⟩
    .ok (.stmt s.1, s.2)
  | 23, [.stmt a, _, _, .stmt b] => do
    let s ← newStmt room r fun p => .cond ⟨none, some p, .neq, some a, some b, none⟩
    .ok (.stmt s.1, s.2)
  | _, _ => .error .kind

/-! ## The tables -/

def yyFinal : Nat := 18

def yyLast : Int := 46

def yyNtokens : Nat := 18

def yypactNinf : Int := -19

def yytableNinf : Int := -1

def yyr1 : List Nat :=
  [0, 18, 19, 20, 20, 21, 21, 21, 21, 22, 22, 23, 23, 23, 23, 24, 24, 25, 25, 26, 26, 27, 28, 28]

def yyr2 : List Nat :=
  [0, 2, 1, 1, 2, 4, 1, 1, 1, 1, 1, 3, 4, 6, 8, 1, 1, 3, 4, 4, 5, 2, 3, 4]

def yydefact : List Nat :=
  [0, 0, 0, 6, 16, 15, 0, 2, 3, 7, 9, 10, 8, 0, 0, 0, 0, 0, 1, 4, 0, 0, 0, 0, 0, 0, 0, 0, 0, 11,
    21, 0, 17, 0, 22, 0, 19, 5, 12, 0, 0, 18, 23, 0, 20, 13, 0, 0, 14]

def yydefgoto : List Int := [-1, 6, 7, 8, 9, 10, 11, 12, 13, 23, 15]

def yypact : List Int :=
  [1, -5, 4, -19, 7, -19, 15, 1, -19, -19, -19, -19, -19, 13, -9, 20, 21, 2, -19, -19, 1, -5, 25,
    26, -5, 17, 1, 27, 11, -19, 1, 29, -19, 36, -19, -5, 1, -19, -19, 30, 1, -19, -19, 16, 1, -19,
    31, 32, -19]

def yypgoto : List Int := [-19, -19, -18, -7, 0, -19, -19, -19, -19, -19, 19]

def yytable : List Int :=
  [19, 14, 30, 24, 1, 4, 5, 25, 36, 2, 3, 4, 5, 28, 16, 18, 29, 20, 21, 22, 17, 14, 44, 19, 34, 38,
    39, 26, 32, 19, 45, 46, 33, 27, 35, 42, 40, 19, 37, 41, 31, 43, 47, 0, 0, 0, 48]

def yycheck : List Int :=
  [7, 1, 20, 12, 3, 10, 11, 16, 26, 8, 9, 10, 11, 11, 10, 0, 14, 4, 5, 6, 13, 21, 40, 30, 24, 14,
    15, 7, 3, 36, 14, 15, 6, 12, 17, 35, 7, 44, 11, 3, 21, 11, 11, -1, -1, -1, 14]

def yytname : List Str :=
  ["$end", "error", "$undefined", "GB_IF", "GB_ELSE", "GB_ELSEIF", "GB_END", "GB_THEN", "GB_SCRIPT",
    "GB_HTML_BLOCK", "GB_ID", "GB_STRING", "'='", "'('", "')'", "','", "'<'", "'>'"].map
    String.toList

/-- `yydefault`. -/
def yyDefault (state : Nat) : LrAction :=
  let yyn := (yydefact[state]?).getD 0
  if yyn = 0 then .error else .reduce yyn

/-- The entry of a table at an index that may be out of its range. -/
def yyAt (table : List Int) (i : Int) : Option Int := if i < 0 then none else table[i.toNat]?

/-- The action in a state in which a token is read. -/
def yyLookup (state yytoken : Nat) : LrAction :=
  let yyn := (yypact[state]?).getD yypactNinf + yytoken
  if yyn < 0 ∨ yyLast < yyn ∨ yyAt yycheck yyn ≠ some (yytoken : Int) then yyDefault state
  else
    let yyn := (yyAt yytable yyn).getD 0
    if yyn ≤ 0 then if yyn = 0 ∨ yyn = yytableNinf then .error else .reduce (-yyn).toNat
    else if yyn = yyFinal then .accept
    else .shift yyn.toNat

/-- The state behind a reduction to the nonterminal `yyn`. -/
def yyGoto (state yyn : Nat) : Nat :=
  let yystate := (yypgoto[yyn - yyNtokens]?).getD 0 + state
  if 0 ≤ yystate ∧ yystate ≤ yyLast ∧ yyAt yycheck yystate = some (state : Int) then
    ((yyAt yytable yystate).getD 0).toNat
  else ((yydefgoto[yyn - yyNtokens]?).getD 0).toNat

/-! ## The messages -/

/-- The tokens that are named as expected in a state. -/
def yyExpected (yyn : Int) : List Nat :=
  (List.range yyNtokens).filter fun yyx =>
    0 ≤ (yyx : Int) + yyn ∧ (yyx : Int) + yyn < yyLast ∧
      yyAt yycheck (yyx + yyn) = some (yyx : Int) ∧ yyx ≠ 1

def yyName (yyx : Nat) : Str := (yytname[yyx]?).getD []

/-- The end of the message, which names the expected tokens if they are fewer than five. -/
def yyExpecting (yyn : Int) : Str :=
  if yyExpected yyn = [] ∨ 5 ≤ (yyExpected yyn).length then []
  else ", expecting ".toList ++ " or ".toList.intercalate ((yyExpected yyn).map yyName)

/-- The message for a token that a state does not take. -/
def yySyntaxError (state yytoken : Nat) : Str :=
  let yyn := (yypact[state]?).getD yypactNinf
  if yypactNinf < yyn ∧ yyn < yyLast then
    "syntax error, unexpected ".toList ++ yyName yytoken ++ yyExpecting yyn
  else "syntax error".toList

/-- The bytes for the end of the message. Every expected token counts with the longer one of the
two texts before it. -/
def yysizeExpecting (yyn : Int) : Nat :=
  if 5 ≤ (yyExpected yyn).length then 0
  else (yyExpected yyn).foldl
    (fun yysize yyx => yysize + (", expecting ".length + (yyName yyx).length)) 0

/-- `yysize`, the size of the buffer `yymsg` for this message. -/
def yysize (yyn : Int) (yytoken : Nat) : Nat :=
  yysizeExpecting yyn + ("syntax error, unexpected ".length + 1) + (yyName yytoken).length

/-- The text of `gb_error` in `buff`. -/
def gbErrorText (msg : Str) (lexLine : Int) : Str :=
  "ASP ".toList ++ msg ++ " at line: ".toList ++ fmtInt lexLine ++ "\n".toList

/-! ## `gb_parse` -/

/-- The states above the first one with their values, the top first, the token that has been read
but not shifted, what the scanner leaves for its next call and the text of its last token, and the
statements. -/
structure YyConf where
  stack : List (Nat × YyStype)
  yychar : Option (Option LexToken)
  lex : LexState
  cur : Option Str
  reent : AspReent

/-- What ends `gb_parse` before it returns. -/
inductive YyFault
  | lex (f : LexFault)
  | action (f : ParseFault)
deriving Repr, DecidableEq

/-- How `gb_parse` ends. The statements are only used where it accepts, as any message sets
`error`. -/
inductive YyResult
  | accepted (r : AspReent)
  | rejected (msg : Str)
  | fault (f : YyFault)
deriving Repr, DecidableEq

inductive YyStep
  | next (c : YyConf)
  | done (r : YyResult)

/-- `YYMAXDEPTH`. -/
def yyMaxdepth : Nat := 10000

/-- The state on the top. -/
def YyConf.state (c : YyConf) : Nat := (c.stack.head?.map Prod.fst).getD 0

/-- `yynewstate`. The stacks are made larger up to `YYMAXDEPTH` states. -/
def yyNewstate (yystate : Nat) (yyval : YyStype) (c : YyConf) : YyStep :=
  if yyMaxdepth - 1 ≤ c.stack.length + 1 then .done (.rejected "parser stack overflow".toList)
  else .next { c with stack := (yystate, yyval) :: c.stack }

/-- `yyreduce`. -/
def yyReduce (room yyn : Nat) (c : YyConf) : YyStep :=
  let yylen := (yyr2[yyn]?).getD 0
  match yyAction room c.cur yyn ((c.stack.take yylen).reverse.map Prod.snd) c.reent with
  | .error f => .done (.fault (.action f))
  | .ok (yyval, r) =>
    let c := { c with stack := c.stack.drop yylen, reent := r }
    yyNewstate (yyGoto c.state ((yyr1[yyn]?).getD 0)) yyval c

/-- The number of the token that has been read, `YYEOF` at the end. -/
def yyToken (tok : Option LexToken) : Nat := yytranslate ((tok.map fun t => t.1.code).getD 0)

/-- What the tables say. No state takes the error token, so that `yyerrlab1` empties the stack and
the parser gives up. -/
def yyDo (room : Nat) (c : YyConf) : LrAction → YyStep
  | .shift q =>
    match c.yychar with
    | some (some tok) => yyNewstate q (.text tok.2) { c with yychar := none }
    | _ => .done (.fault (.action .noToken))
  | .reduce n => yyReduce room n c
  | .accept => .done (.accepted c.reent)
  | .error => .done (.rejected (yySyntaxError c.state (yyToken (c.yychar.getD none))))

/-- `yybackup`. -/
def yyBackup (room : Nat) (c : YyConf) : YyStep :=
  if (yypact[c.state]?).getD yypactNinf = yypactNinf then yyDo room c (yyDefault c.state)
  else
    match c.yychar with
    | some tok => yyDo room c (yyLookup c.state (yyToken tok))
    | none =>
      match gbLex c.lex with
      | .error f => .done (.fault (.lex f))
      | .ok (tok, lex) =>
        yyDo room { c with yychar := some tok, lex := lex, cur := tok.map Prod.snd }
          (yyLookup c.state (yyToken tok))

/-- `gb_parse`, with a bound on the number of shifts and reductions. -/
def yyParse (room : Nat) : Nat → YyConf → Option YyResult
  | 0, _ => none
  | fuel + 1, c =>
    match yyBackup room c with
    | .next c' => yyParse room fuel c'
    | .done r => some r

/-- The start of `gb_parse` on a page. -/
def yyStart (page : Str) : YyConf := ⟨[], none, ⟨page, false⟩, none, ⟨[], none⟩⟩

end OnuFirmware.Asp
