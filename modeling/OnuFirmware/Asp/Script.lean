import OnuFirmware.Asp.PageParse

/-!
# Running a page (`asp.c`)

`do_asp` parses a page and runs the statements that `gb_parse` leaves at `root`; a condition calls
`run_stmts` again for its branch. What a page does is what its program means: `AspTree.exec` runs
the program itself, without statements in a memory.

The functions that pages call and `asp_send_response` are those of the web server, so that they are
parameters here. They return pointers, often to a static buffer that the next call overwrites, and
the characters are read where two texts are compared. A page is the text that `read_asp` has read.
The line number in a message is a parameter, too.
-/

namespace OnuFirmware.Asp

open Clib

variable {σ : Type}

/-! ## The functions of the server -/

/-- Where a text is: on the page, which stays as it is, or at an address of the server. -/
inductive AspStr
  | page (text : Str)
  | memory (addr : Nat)
deriving Repr, DecidableEq

/-- `asp_text`. -/
structure AspText where
  str : AspStr
  len : Nat
deriving Repr, DecidableEq

/-- A text of the page, and the empty one. -/
def AspText.ofPage (text : Str) : AspText := ⟨.page text, text.length⟩

/-- A function for pages: what it returns in `ret`, and what it does to the server. -/
abbrev AspFunc (σ : Type) : Type := List (Option Str) → σ → AspText × σ

/-- `asp_funcs`, the last one that has been appended first, `asp_send_response`, and the characters
in the memory of the server. -/
structure AspEnv (σ : Type) where
  funcs : List (Str × AspFunc σ)
  sendResponse : Str → σ → σ
  memory : σ → Nat → Char

/-- `append_asp_func`. -/
def AspEnv.append (env : AspEnv σ) (name : Str) (func : AspFunc σ) : AspEnv σ :=
  { env with funcs := (name, func) :: env.funcs }

/-- The characters of a text, as they are now. -/
def AspText.chars (env : AspEnv σ) (s : σ) (t : AspText) : Str :=
  match t.str with
  | .page text => text.take t.len
  | .memory addr => (List.range t.len).map fun i => env.memory s (addr + i)

/-- `eq` in `run_cond`: the lengths first, and then `memcmp`. -/
def sameText (env : AspEnv σ) (s : σ) (r1 r2 : AspText) : Bool :=
  r1.len == r2.len && r1.chars env s == r2.chars env s

/-- The names are the same, in any case. -/
def sameName (name other : Str) : Bool :=
  name.length == other.length && aspNameCmp name other name.length

/-- `lookup_asp_func`. -/
def lookupAspFunc (env : AspEnv σ) (name : Str) : Option (AspFunc σ) :=
  (env.funcs.find? fun item => sameName name item.1).map Prod.snd

/-- `on_call`. -/
def onCall (env : AspEnv σ) (func : Str) (params : List (Option Str)) (s : σ) : AspText × σ :=
  match lookupAspFunc env func with
  | some f => f params s
  | none => (.ofPage [], s)

/-! ## `run_stmts` -/

/-- What ends `do_asp` before it returns: `gb_parse`, a null pointer, or the condition of a
statement that has none. The model stops at a bound on the number of steps, too. -/
inductive AspFault
  | parse (f : YyFault)
  | null
  | kind
  | fuel
deriving Repr, DecidableEq

def stmtAt (mem : List AspStmt) : Option Nat → Except AspFault AspStmt
  | none => .error .null
  | some p =>
    match mem[p]? with
    | none => .error .null
    | some x => .ok x

/-- Whether a branch is taken that has a test. -/
def AspCondOp.takes (op : AspCondOp) (eq : Bool) : Bool :=
  (eq && decide (op = .equ)) || (!eq && decide (op = .neq))

mutual

/-- `run_stmt`, with what is in `ret`. -/
def runStmt (env : AspEnv σ) (mem : List AspStmt) :
    Nat → Option Nat → σ → Except AspFault (AspText × σ)
  | 0, _, _ => .error .fuel
  | fuel + 1, stmt, s => do
    let x ← stmtAt mem stmt
    match x.body with
    | .html text => .ok (.ofPage [], env.sendResponse text s)
    | .call func params => .ok (onCall env func params s)
    | .id _ => .ok (.ofPage [], s)
    | .string text => .ok (.ofPage text, s)
    | .null => .ok (.ofPage [], s)
    | .cond _ => do
      let s ← runCond env mem fuel stmt s
      .ok (.ofPage [], s)

/-- `run_stmts`. -/
def runStmts (env : AspEnv σ) (mem : List AspStmt) : Nat → Option Nat → σ → Except AspFault σ
  | 0, _, _ => .error .fuel
  | _ + 1, none, s => .ok s
  | fuel + 1, some p, s => do
    let r ← runStmt env mem fuel (some p) s
    let x ← stmtAt mem (some p)
    runStmts env mem fuel x.next r.2

/-- The loop of `run_cond`. -/
def runCond (env : AspEnv σ) (mem : List AspStmt) : Nat → Option Nat → σ → Except AspFault σ
  | 0, _, _ => .error .fuel
  | _ + 1, none, s => .ok s
  | fuel + 1, some p, s => do
    let x ← stmtAt mem (some p)
    match x.body with
    | .cond c =>
      if c.op = .true then runStmts env mem fuel c.stmtAct s
      else do
        let r1 ← runStmt env mem fuel c.stmt1 s
        let r2 ← runStmt env mem fuel c.stmt2 r1.2
        -- the second call may have overwritten what the first one returned
        if c.op.takes (sameText env r2.2 r1.1 r2.1) then runStmts env mem fuel c.stmtAct r2.2
        else runCond env mem fuel c.next r2.2
    | _ => .error .kind

end

/-- `do_asp` on the text of a page. -/
def doAsp (env : AspEnv σ) (room : Nat) (lexLine : Int) (page : Str) (fuel : Nat) (s : σ) :
    Except AspFault σ :=
  match yyParse room fuel (yyStart page) with
  | none => .error .fuel
  | some (.accepted r) => runStmts env r.mem fuel r.root s
  | some (.rejected msg) => .ok (env.sendResponse (gbErrorText msg lexLine) s)
  | some (.fault f) => .error (.parse f)

/-! ## What a program means -/

/-- A statement without others in it: the text that it returns, and what it does. -/
def AspLeaf.run (env : AspEnv σ) : AspLeaf → σ → AspText × σ
  | .html text, s => (.ofPage [], env.sendResponse text s)
  | .id _, s => (.ofPage [], s)
  | .string text, s => (.ofPage text, s)
  | .call func params, s => onCall env func [params[0]?, params[1]?, params[2]?] s
  | .null, s => (.ofPage [], s)

/-- A branch with a test: its two values are run, and then, as their texts stand after that, what
belongs to the branch or what comes next. -/
def execArm (env : AspEnv σ) (op : AspCondOp) (a b : AspLeaf) (act next : σ → σ) (s : σ) : σ :=
  let r1 := a.run env s
  let r2 := b.run env r1.2
  if op.takes (sameText env r2.2 r1.1 r2.1) then act r2.2 else next r2.2

/-- What a program does. `next` is done where no branch of a condition is taken. -/
def AspTree.exec (env : AspEnv σ) : AspTree → (next : σ → σ) → σ → σ
  | .leaf l, _, s => (l.run env s).2
  | .seq c d, _, s => d.exec env id (c.exec env id s)
  | .arm op a b act, next, s => execArm env op a b (act.exec env id) next s
  | .elseif c op a b act, next, s =>
    c.exec env (execArm env op a b (act.exec env id) next) s
  | .otherwise c act, _, s => c.exec env (act.exec env id) s

/-! ## The statements in the memory do what it means -/

/-- A run ends with enough steps, and with this result from every state. -/
def Ends (run : Nat → σ → Except AspFault σ) (g : σ → σ) : Prop :=
  ∃ n, ∀ fuel, n ≤ fuel → ∀ s, run fuel s = .ok (g s)

section Run

variable {env : AspEnv σ} {mem : List AspStmt} {lo : Nat} {next last : Option Nat}
  {cond : Option Nat × Option Nat} {g g' : σ → σ}

theorem Ends.of_succ {run : Nat → σ → Except AspFault σ} (n : Nat)
    (h : ∀ fuel, n ≤ fuel → ∀ s, run (fuel + 1) s = .ok (g s)) : Ends run g := by
  refine ⟨n + 1, fun fuel hfuel s => ?_⟩
  obtain ⟨fuel, rfl⟩ : ∃ m, fuel = m + 1 := ⟨fuel - 1, by omega⟩
  exact h fuel (by omega) s

theorem runStmts_end : Ends (runStmts env mem · none) id :=
  .of_succ 0 fun fuel _ s => by simp only [runStmts, id_eq]

theorem runCond_end : Ends (runCond env mem · none) id :=
  .of_succ 0 fun fuel _ s => by simp only [runCond, id_eq]

theorem stmtAt_some {p : Nat} {x : AspStmt} (h : mem[p]? = some x) :
    stmtAt mem (some p) = .ok x := by
  simp only [stmtAt, h]

theorem runStmt_leaf {p : Nat} {l : AspLeaf} (h : mem[p]? = some ⟨next, last, l.body⟩)
    (fuel : Nat) (s : σ) : runStmt env mem (fuel + 1) (some p) s = .ok (l.run env s) := by
  rw [runStmt, stmtAt_some h]
  cases l with
  | html t => rfl
  | id t => rfl
  | string t => rfl
  | call f params => rfl
  | null => rfl

/-- One statement, and then those behind it. -/
theorem runStmts_cons {p : Nat} {x : AspStmt} (h : mem[p]? = some x)
    (n : Nat) (hx : ∀ fuel, n ≤ fuel → ∀ s, ∃ ret,
      runStmt env mem (fuel + 1) (some p) s = .ok (ret, g s))
    (hnext : Ends (runStmts env mem · x.next) g') :
    Ends (runStmts env mem · (some p)) fun s => g' (g s) := by
  obtain ⟨k, hk⟩ := hnext
  refine .of_succ (n + k + 1) fun fuel hfuel s => ?_
  obtain ⟨fuel, rfl⟩ : ∃ m, fuel = m + 1 := ⟨fuel - 1, by omega⟩
  obtain ⟨ret, hret⟩ := hx fuel (by omega) s
  have hrest := hk (fuel + 1) (by omega) (g s)
  simp only [runStmts, hret, stmtAt_some h, bind, Except.bind, hrest]

theorem runStmts_leaf {p : Nat} {l : AspLeaf} (h : mem[p]? = some ⟨next, last, l.body⟩)
    (hnext : Ends (runStmts env mem · next) g) :
    Ends (runStmts env mem · (some p)) fun s => g (l.run env s).2 :=
  runStmts_cons h 0 (fun fuel _ s => ⟨_, runStmt_leaf h fuel s⟩) hnext

theorem runStmts_cond {p : Nat} {k : AspCondStmt} (h : mem[p]? = some ⟨next, last, .cond k⟩)
    (hcond : Ends (runCond env mem · (some p)) g) (hnext : Ends (runStmts env mem · next) g') :
    Ends (runStmts env mem · (some p)) fun s => g' (g s) := by
  obtain ⟨n, hn⟩ := hcond
  refine runStmts_cons h n (fun fuel hfuel s => ⟨.ofPage [], ?_⟩) hnext
  have hrun : runCond env mem fuel (some p) s = .ok (g s) := hn fuel hfuel s
  simp only [runStmt, stmtAt_some h, bind, Except.bind, hrun]

/-- A branch with a test: what belongs to it, or the branches behind it. -/
theorem runCond_test {op : AspCondOp} {a b : AspLeaf} {act : Option Nat} (hop : op ≠ .true)
    (h : TestAt mem op a b lo next last cond act) (hact : Ends (runStmts env mem · act) g)
    (hnext : Ends (runCond env mem · cond.1) g') :
    Ends (runCond env mem · (some (lo + 2))) (execArm env op a b g g') := by
  obtain ⟨n, hn⟩ := hact
  obtain ⟨k, hk⟩ := hnext
  refine .of_succ (n + k + 1) fun fuel hfuel s => ?_
  obtain ⟨fuel, rfl⟩ : ∃ m, fuel = m + 1 := ⟨fuel - 1, by omega⟩
  have hfst : runStmt env mem (fuel + 1) (some lo) s = .ok (a.run env s) :=
    runStmt_leaf h.fst fuel s
  have hsnd : runStmt env mem (fuel + 1) (some (lo + 1)) (a.run env s).2 =
      .ok (b.run env (a.run env s).2) := runStmt_leaf h.snd fuel (a.run env s).2
  simp only [runCond, stmtAt_some h.test, bind, Except.bind, if_neg hop, hfst, hsnd, execArm]
  split
  · exact hn (fuel + 1) (by omega) _
  · exact hk (fuel + 1) (by omega) _

/-- The branch behind `Else`. -/
theorem runCond_else {p : Nat} {act : Option Nat}
    (h : mem[p]? = some ⟨next, last, .cond ⟨none, some p, .true, none, none, act⟩⟩)
    (hact : Ends (runStmts env mem · act) g) : Ends (runCond env mem · (some p)) g := by
  obtain ⟨n, hn⟩ := hact
  refine .of_succ n fun fuel hfuel s => ?_
  have hrun : runStmts env mem fuel act s = .ok (g s) := hn fuel hfuel s
  simp only [runCond, stmtAt_some h, bind, Except.bind, if_true, hrun]

theorem TestText.op_ne {op : AspCondOp} {a b : AspLeaf} {ts : List LexToken}
    (h : TestText op a b ts) : op ≠ .true := by
  cases h with
  | equ ha x hb => exact AspCondOp.noConfusion
  | neq ha x y hb => exact AspCondOp.noConfusion

/-- The first statement of a condition is a condition, with the statements behind it. -/
theorem AspTree.At.head_next {t : AspTree} (ht : t.IsArms) (h : t.At mem lo next last cond) :
    ∃ k, mem[t.head lo]? = some ⟨next, last, .cond k⟩ := by
  induction t generalizing lo next last cond with
  | leaf l => exact absurd ht id
  | seq c d _ _ => exact absurd ht id
  | arm op a b act _ => exact ⟨_, h.1.test⟩
  | elseif c op a b act ihc _ =>
    have hc := ihc ht h.1
    exact hc
  | otherwise c act _ _ => exact absurd ht id

/-- The statements of a list or a statement, whatever is run behind them; and the branches of a
condition, whatever is run if none of them is taken. -/
def AspPhrase.Runs (env : AspEnv σ) (mem : List AspStmt) (t : AspTree) : AspPhrase → Prop
  | .arms => ∀ lo next last cond g, t.At mem lo next last cond →
    Ends (runCond env mem · cond.1) g →
      Ends (runCond env mem · (some (t.head lo))) (t.exec env g)
  | _ => ∀ lo next last c g, t.At mem lo next last (none, c) →
    Ends (runStmts env mem · next) g →
      Ends (runStmts env mem · (some (t.head lo))) fun s => g (t.exec env id s)

/-- **What is spelled is run.** -/
theorem Spells.runs {ph : AspPhrase} {t : AspTree} {ts : List LexToken} (h : Spells ph t ts) :
    ph.Runs env mem t := by
  induction h with
  | one h ih => exact ih
  | @seq c d ts us hc hd ihc ihd =>
    intro lo next last k g hat hnext
    -- what is run behind the first part is the last statement and what follows it
    exact ihc lo _ last _ _ hat.1 (ihd (lo + c.size) next _ _ g hat.2 hnext)
  | html t =>
    intro lo next last k g hat hnext
    exact runStmts_leaf hat hnext
  | script x i y t =>
    intro lo next last k g hat hnext
    exact runStmts_leaf hat hnext
  | @value l ts h =>
    intro lo next last k g hat hnext
    exact runStmts_leaf hat hnext
  | @cond c ts h x y ih =>
    intro lo next last k g hat hnext
    obtain ⟨k', hcell⟩ := hat.head_next h.arms
    exact runStmts_cond hcell (ih lo next last _ id hat runCond_end) hnext
  | @condElse c act ts us hc x hact y z ihc ih =>
    intro lo next last k g hat hnext
    obtain ⟨hatC, hatAct, helse⟩ := hat
    obtain ⟨k', hcell⟩ := hatC.head_next hc.arms
    -- the list of a branch ends with it
    have hlist := ih (lo + c.size) none _ _ id hatAct runStmts_end
    have hbranches := ihc lo next last _ _ hatC (runCond_else helse hlist)
    exact runStmts_cond hcell hbranches hnext
  | @arm op a b act ts us x test y hact ih =>
    intro lo next last cond g hat hnext
    exact runCond_test test.op_ne hat.1 (ih (lo + 3) none _ _ id hat.2 runStmts_end) hnext
  | @elseif c op a b act ts us vs hc x test y hact ihc ih =>
    intro lo next last cond g hat hnext
    obtain ⟨hatC, htest, hatAct⟩ := hat
    have hlist := ih (lo + c.size + 3) none _ _ id hatAct runStmts_end
    exact ihc lo next last _ _ hatC (runCond_test test.op_ne htest hlist hnext)

end Run

/-! ## `do_asp` -/

section Page

variable (env : AspEnv σ) (room : Nat) (lexLine : Int) (page : Str)

/-- What `do_asp` may do with a page: run its program, or send one message and nothing of the page.
It does not end where `gb_parse` does not. -/
inductive AspRight (s : σ) : Except AspFault σ → Prop
  | program {t : AspTree} (spells : PageSpells room page t) : AspRight s (.ok (t.exec env id s))
  | message {msg : Str} (spells : ∀ t, ¬ PageSpells room page t) (length : msg.length ≤ 80) :
      AspRight s (.ok (env.sendResponse (gbErrorText msg lexLine) s))
  | lex {toks : List LexToken} {f : LexFault} (calls : Lexes ⟨page, false⟩ toks (.fault f)) :
      AspRight s (.error (.parse (.lex f)))
  | memory (room_lt : room < page.length) (spells : ∀ t, ¬ PageSpells room page t) :
      AspRight s (.error (.parse (.action .noMemory)))

/-- The result of `gb_parse`, with any bound that is large enough. -/
theorem gbParse_result : ∃ r, (∀ fuel, 6 * (2 * page.length + 1) ≤ fuel →
    yyParse room fuel (yyStart page) = some r) ∧ YyRight room page r := by
  obtain ⟨r, hr, hright⟩ := gbParse_ends room page
  refine ⟨r, fun fuel hfuel => ?_, hright⟩
  rw [← Nat.add_sub_cancel' hfuel]
  exact yyParse_add hr _

/-- **A program is run** as it means. -/
theorem PageSpells.does {t : AspTree} (h : PageSpells room page t) :
    ∃ n, ∀ fuel, n ≤ fuel → ∀ s, doAsp env room lexLine page fuel s = .ok (t.exec env id s) := by
  obtain ⟨r, ⟨k, hk⟩, hholds⟩ := h.accepted
  obtain ⟨toks, -, htext⟩ := h.text
  have hruns : AspPhrase.stmts.Runs env r.mem t := htext.runs
  obtain ⟨n, hn⟩ := hruns 0 none _ _ id hholds.built runStmts_end
  refine ⟨k + n, fun fuel hfuel s => ?_⟩
  have hparse : yyParse room fuel (yyStart page) = some (.accepted r) := by
    rw [← Nat.add_sub_cancel' (Nat.le_of_add_right_le hfuel)]
    exact yyParse_add hk _
  have hrun : runStmts env r.mem fuel r.root s = .ok (t.exec env id s) := by
    rw [hholds.root]
    exact hn fuel (by omega) s
  rw [doAsp, hparse]
  exact hrun

/-- **A page does what its program means**, from every state of the server and whatever its
functions do; and a page that is no program does nothing but send a message. Running it always ends,
follows no null pointer and takes no other statement for a condition. -/
theorem doAsp_right : ∃ n, ∀ fuel, n ≤ fuel → ∀ s,
    AspRight env room lexLine page s (doAsp env room lexLine page fuel s) := by
  obtain ⟨r, hparse, hright⟩ := gbParse_result room page
  cases hright with
  | accepted spells holds =>
    obtain ⟨n, hn⟩ := spells.does env room lexLine page
    refine ⟨n, fun fuel hfuel s => ?_⟩
    rw [hn fuel hfuel s]
    exact .program spells
  | rejected spells length =>
    refine ⟨6 * (2 * page.length + 1), fun fuel hfuel s => ?_⟩
    rw [doAsp, hparse fuel hfuel]
    exact .message spells length
  | lex calls =>
    refine ⟨6 * (2 * page.length + 1), fun fuel hfuel s => ?_⟩
    rw [doAsp, hparse fuel hfuel]
    exact .lex calls
  | memory room_lt spells =>
    refine ⟨6 * (2 * page.length + 1), fun fuel hfuel s => ?_⟩
    rw [doAsp, hparse fuel hfuel]
    exact .memory room_lt spells

end Page

/-! ## Other functions -/

section Append

variable {env env' : AspEnv σ}

def AspLeaf.funcs : AspLeaf → List Str
  | .call func _ => [func]
  | _ => []

/-- The functions that a program calls. -/
def AspTree.funcs : AspTree → List Str
  | .leaf l => l.funcs
  | .seq c d => c.funcs ++ d.funcs
  | .arm _ a b act => a.funcs ++ b.funcs ++ act.funcs
  | .elseif c _ a b act => c.funcs ++ (a.funcs ++ b.funcs ++ act.funcs)
  | .otherwise c act => c.funcs ++ act.funcs

/-- The servers send in the same way, have the same memory and the same functions of these names. -/
structure Agrees (env env' : AspEnv σ) (funcs : List Str) : Prop where
  send : env.sendResponse = env'.sendResponse
  memory : env.memory = env'.memory
  lookup : ∀ f ∈ funcs, lookupAspFunc env f = lookupAspFunc env' f

theorem Agrees.left {fs gs : List Str} (h : Agrees env env' (fs ++ gs)) : Agrees env env' fs where
  send := h.send
  memory := h.memory
  lookup := fun f hf => h.lookup f (List.mem_append_left _ hf)

theorem Agrees.right {fs gs : List Str} (h : Agrees env env' (fs ++ gs)) : Agrees env env' gs where
  send := h.send
  memory := h.memory
  lookup := fun f hf => h.lookup f (List.mem_append_right _ hf)

theorem AspLeaf.run_congr {l : AspLeaf} (h : Agrees env env' l.funcs) : l.run env = l.run env' := by
  funext s
  cases l with
  | html t => simp only [AspLeaf.run, h.send]
  | id t => rfl
  | string t => rfl
  | call f params => simp only [AspLeaf.run, onCall, h.lookup f List.mem_cons_self]
  | null => rfl

/-- Only the memory of the server matters to a text. -/
theorem sameText_congr (h : env.memory = env'.memory) : sameText env = sameText env' := by
  funext s r1 r2
  simp only [sameText, AspText.chars, h]

theorem execArm_congr {op : AspCondOp} {a b : AspLeaf} (h : Agrees env env' (a.funcs ++ b.funcs)) :
    execArm env op a b = execArm env' op a b := by
  funext act next s
  simp only [execArm, AspLeaf.run_congr h.left, AspLeaf.run_congr h.right, sameText_congr h.memory]

/-- Only the functions that it calls matter to a program. -/
theorem AspTree.exec_congr {t : AspTree} (h : Agrees env env' t.funcs) :
    t.exec env = t.exec env' := by
  induction t with
  | leaf l =>
    funext next s
    simp only [AspTree.exec, AspLeaf.run_congr h]
  | seq c d ihc ihd =>
    funext next s
    simp only [AspTree.exec, ihc h.left, ihd h.right]
  | arm op a b act ih =>
    funext next s
    simp only [AspTree.exec, execArm_congr h.left, ih h.right]
  | elseif c op a b act ihc ih =>
    funext next s
    simp only [AspTree.exec, ihc h.left, execArm_congr h.right.left, ih h.right.right]
  | otherwise c act ihc ih =>
    funext next s
    simp only [AspTree.exec, ihc h.left, ih h.right]

theorem LeafText.funcs_mem {l : AspLeaf} {ts : List LexToken} (h : LeafText l ts) :
    ∀ f ∈ l.funcs, (.gbId, f) ∈ ts := by
  cases h with
  | id t => exact fun f hf => absurd hf List.not_mem_nil
  | string t => exact fun f hf => absurd hf List.not_mem_nil
  | call0 => exact fun f hf => List.mem_singleton.mp hf ▸ List.mem_cons_self
  | call1 => exact fun f hf => List.mem_singleton.mp hf ▸ List.mem_cons_self
  | call2 => exact fun f hf => List.mem_singleton.mp hf ▸ List.mem_cons_self
  | call3 => exact fun f hf => List.mem_singleton.mp hf ▸ List.mem_cons_self

theorem TestText.funcs_mem {op : AspCondOp} {a b : AspLeaf} {ts : List LexToken}
    (h : TestText op a b ts) : ∀ f ∈ a.funcs ++ b.funcs, (.gbId, f) ∈ ts := by
  intro f hf
  cases h with
  | equ ha x hb =>
    rcases List.mem_append.mp hf with hf | hf
    · exact List.mem_append_left _ (ha.funcs_mem f hf)
    · exact List.mem_append_right _ (List.mem_cons_of_mem _ (hb.funcs_mem f hf))
  | neq ha x y hb =>
    rcases List.mem_append.mp hf with hf | hf
    · exact List.mem_append_left _ (ha.funcs_mem f hf)
    · exact List.mem_append_right _
        (List.mem_cons_of_mem _ (List.mem_cons_of_mem _ (hb.funcs_mem f hf)))

/-- The names of the functions stand on the page. -/
theorem Spells.funcs_mem {ph : AspPhrase} {t : AspTree} {ts : List LexToken} (h : Spells ph t ts) :
    ∀ f ∈ t.funcs, (.gbId, f) ∈ ts := by
  induction h with
  | one h ih => exact ih
  | seq hc hd ihc ihd =>
    intro f hf
    rcases List.mem_append.mp hf with hf | hf
    · exact List.mem_append_left _ (ihc f hf)
    · exact List.mem_append_right _ (ihd f hf)
  | html t => exact fun f hf => absurd hf List.not_mem_nil
  | script x i y t => exact fun f hf => absurd hf List.not_mem_nil
  | value h => exact h.funcs_mem
  | cond h x y ih => exact fun f hf => List.mem_append_left _ (ih f hf)
  | condElse hc x hact y z ihc ih =>
    intro f hf
    refine List.mem_append_left _ ?_
    rcases List.mem_append.mp hf with hf | hf
    · exact List.mem_append_left _ (ihc f hf)
    · exact List.mem_append_right _ (List.mem_cons_of_mem _ (ih f hf))
  | arm x test y hact ih =>
    intro f hf
    rcases List.mem_append.mp hf with hf | hf
    · exact List.mem_append_left _ (List.mem_cons_of_mem _ (test.funcs_mem f hf))
    · exact List.mem_append_right _ (List.mem_cons_of_mem _ (ih f hf))
  | elseif hc x test y hact ihc ih =>
    intro f hf
    rcases List.mem_append.mp hf with hf | hf
    · exact List.mem_append_left _ (List.mem_append_left _ (ihc f hf))
    · rcases List.mem_append.mp hf with hf | hf
      · exact List.mem_append_left _
          (List.mem_append_right _ (List.mem_cons_of_mem _ (test.funcs_mem f hf)))
      · exact List.mem_append_right _ (List.mem_cons_of_mem _ (ih f hf))

/-- The name is no word of the page, in any case. -/
def NotNamed (page name : Str) : Prop :=
  ∀ toks e, Lexes ⟨page, false⟩ toks e → ∀ f, (.gbId, f) ∈ toks → sameName f name = false

/-- **Another function changes no page** that does not name it. -/
theorem doAsp_append {page name : Str} (hname : NotNamed page name) (env : AspEnv σ)
    (func : AspFunc σ) (room : Nat) (lexLine : Int) :
    ∃ n, ∀ fuel, n ≤ fuel → ∀ s, doAsp (env.append name func) room lexLine page fuel s =
      doAsp env room lexLine page fuel s := by
  obtain ⟨r, hparse, hright⟩ := gbParse_result room page
  cases hright with
  | @accepted r t spells holds =>
    obtain ⟨toks, hlex, htext⟩ := spells.text
    obtain ⟨n, hn⟩ := spells.does env room lexLine page
    obtain ⟨k, hk⟩ := spells.does (env.append name func) room lexLine page
    have hagrees : Agrees (env.append name func) env t.funcs := by
      refine ⟨rfl, rfl, fun f hf => ?_⟩
      have hne := hname toks .eof hlex f (htext.funcs_mem f hf)
      simp only [lookupAspFunc, AspEnv.append, List.find?_cons, hne]
    refine ⟨n + k, fun fuel hfuel s => ?_⟩
    rw [hn fuel (by omega) s, hk fuel (by omega) s, AspTree.exec_congr hagrees]
  | rejected spells length =>
    refine ⟨6 * (2 * page.length + 1), fun fuel hfuel s => ?_⟩
    simp only [doAsp, hparse fuel hfuel, AspEnv.append]
  | lex calls =>
    refine ⟨6 * (2 * page.length + 1), fun fuel hfuel s => ?_⟩
    simp only [doAsp, hparse fuel hfuel]
  | memory room_lt spells =>
    refine ⟨6 * (2 * page.length + 1), fun fuel hfuel s => ?_⟩
    simp only [doAsp, hparse fuel hfuel]

/-- A page that calls one function, and another one. -/
theorem doAsp_append_call : ∃ n, ∀ fuel, n ≤ fuel → ∀ s : Str,
    doAsp (AspEnv.append ⟨[], fun text s => s ++ text, fun s i => s.getD i 'x'⟩ "cd".toList
      fun _ s => (⟨.memory 0, s.length⟩, 'x' :: s)) 9362 1 "<%ab()%>".toList fuel s =
    doAsp ⟨[], fun text s => s ++ text, fun s i => s.getD i 'x'⟩ 9362 1 "<%ab()%>".toList fuel
      s := by
  have hname : NotNamed "<%ab()%>".toList "cd".toList := by
    intro toks e hlex
    obtain ⟨rfl, -⟩ := hlex.unique lexes_call
    intro f hf
    have hmem : f ∈ ["ab".toList] := by simpa using hf
    rw [List.mem_singleton.mp hmem]
    decide
  exact doAsp_append hname _ _ 9362 1

end Append

end OnuFirmware.Asp
