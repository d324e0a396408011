import OnuFirmware.Asp.Rules

/-!
# Pages and programs

`gb_parse` accepts exactly the pages whose tokens spell a program, as far as the memory and the
stack suffice, and then `root` is the program in the memory. The only fault of its actions is the
lack of memory.
-/

namespace OnuFirmware.Asp

open Clib Lib

/-! ## What is derived is spelled -/

section Sound

variable {room : Nat} {ss : List (GramSym GbToken Nat)} {ts : List LexToken} {m m' : AspReent}
  {vs : List YyStype} {p : Nat}

/-- The first rule has no action. -/
theorem aspSem_accept (vs : List YyStype) (m : AspReent) :
    (aspSem room).act 0 vs m = .error .kind := rfl

theorem aspSem_ok {n : Nat} {r : Nat × List (GramSym GbToken Nat)} {m₁ : AspReent} {v : YyStype}
    (hr : aspGrammar.rules[n]? = some r) (hmeans : SymsMean room r.2 ts m vs m₁ p)
    (hact : (aspSem room).act n vs m₁ = .ok (v, m')) :
    NtMeans room r.1 ts m v m' p ∧ m'.mem.length = m₁.mem.length + aspMakes n := by
  have hn : n ≠ 0 := by
    rintro rfl
    rw [aspSem_accept] at hact
    cases hact
  have hacts := aspSem_acts hr hn hmeans
  rw [hact] at hacts
  cases hacts with
  | ok means length => exact ⟨means, length⟩

/-- **What is derived stands for programs** that its tokens spell. -/
theorem yields_means (h : Yields aspGrammar (aspSem room) ss ts m vs m' p) :
    SymsMean room ss ts m vs m' p := by
  induction h with
  | nil m => exact .nil m
  | term rest ih => exact .term ih
  | rule num inner act rest ihInner ih => exact .nonterm (aspSem_ok num ihInner act).1 ih

def isTerm : GramSym GbToken Nat → Bool
  | .term _ => true
  | .nonterm _ => false

theorem makes_checked : ∀ n ∈ List.range 23, ∀ r ∈ (aspGrammar.rules[n]?).toList,
    aspMakes n ≤ r.2.countP isTerm := by
  decide

theorem aspMakes_le {n : Nat} {r : Nat × List (GramSym GbToken Nat)}
    (hr : aspGrammar.rules[n]? = some r) : aspMakes n ≤ r.2.countP isTerm :=
  makes_checked n (List.mem_range.mpr (List.getElem?_eq_some_iff.mp hr).choose) r
    (Option.mem_toList.mpr hr)

/-- **There is a token for each statement**, besides those that stand among the symbols. -/
theorem yields_length (h : Yields aspGrammar (aspSem room) ss ts m vs m' p) :
    m'.mem.length + ss.countP isTerm ≤ m.mem.length + ts.length := by
  induction h with
  | nil m => exact Nat.le_refl _
  | term rest ih =>
    rw [List.countP_cons_of_pos rfl, List.length_cons]
    omega
  | @rule n r ss ts ts' m m₁ m₂ m' ws vs v p p' num inner act rest ihInner ih =>
    have hmakes := aspMakes_le num
    have hlen := (aspSem_ok num (yields_means inner) act).2
    have hnot : ¬ isTerm (.nonterm r.1) = true := Bool.false_ne_true
    rw [List.countP_cons_of_neg hnot, List.length_append]
    omega

end Sound

/-! ## What is spelled is derived -/

/-- The value of a symbol as what it stands for. -/
inductive AspValue
  | text (t : Str)
  | leaf (l : AspLeaf)
  | test (op : AspCondOp) (a b : AspLeaf)
  | code (t : AspTree)
deriving Repr, DecidableEq

/-- The rules on what the symbols stand for. -/
def treeAction : Nat → List AspValue → Option AspValue
  | 1, [.code t] => some (.code t)
  | 2, [.code t] => some (.code t)
  | 3, [.code c, .code d] => some (.code (.seq c d))
  | 4, [_, _, _, _] => some (.code (.leaf .null))
  | 5, [.text t] => some (.code (.leaf (.html t)))
  | 6, [.leaf l] => some (.code (.leaf l))
  | 7, [.code t] => some (.code t)
  | 8, [.leaf l] => some (.leaf l)
  | 9, [.leaf l] => some (.leaf l)
  | 10, [.text f, _, _] => some (.leaf (.call f []))
  | 11, [.text f, _, .text a, _] => some (.leaf (.call f [a]))
  | 12, [.text f, _, .text a, _, .text b, _] => some (.leaf (.call f [a, b]))
  | 13, [.text f, _, .text a, _, .text b, _, .text c, _] => some (.leaf (.call f [a, b, c]))
  | 14, [.text t] => some (.leaf (.string t))
  | 15, [.text t] => some (.leaf (.id t))
  | 16, [.code c, _, _] => some (.code c)
  | 17, [.code c, .code act, _, _] => some (.code (.otherwise c act))
  | 18, [_, .test op a b, _, .code act] => some (.code (.arm op a b act))
  | 19, [.code c, _, .test op a b, _, .code act] => some (.code (.elseif c op a b act))
  | 20, [_, .code act] => some (.code act)
  | 21, [.leaf a, _, .leaf b] => some (.test .equ a b)
  | 22, [.leaf a, _, _, .leaf b] => some (.test .neq a b)
  | _, _ => none

def treeSem : Semantics GbToken LexToken AspValue Unit Unit where
  kind := Prod.fst
  value := fun t => .text t.2
  act := fun n vals m => (treeAction n vals).elim (.error ()) fun v => .ok (v, m)

section Complete

variable {room : Nat} {ss : List (GramSym GbToken Nat)} {ts us : List LexToken} {k k' p p' : Nat}
  {as bs : List AspValue}

/-- The tokens derive from the symbols, which stand for the values, and the actions succeed if there
is room for `k` statements more. -/
structure Derives (room : Nat) (ss : List (GramSym GbToken Nat)) (ts : List LexToken) (k p : Nat)
    (as : List AspValue) : Prop where
  tree : Yields aspGrammar treeSem ss ts () as () p
  made : ∀ m : AspReent, m.mem.length + k ≤ room → ∃ vs m',
    Yields aspGrammar (aspSem room) ss ts m vs m' p ∧ m'.mem.length = m.mem.length + k

theorem derives_nil : Derives room [] [] 0 0 [] where
  tree := .nil ()
  made := fun m _ => ⟨[], m, .nil m, rfl⟩

theorem Derives.term (h : Derives room ss ts k p as) (t : LexToken) :
    Derives room (gbTok t.1 :: ss) (t :: ts) k (p + 1) (.text t.2 :: as) where
  tree := .term h.tree
  made := fun m hfits => by
    obtain ⟨vs, m', hy, hlen⟩ := h.made m hfits
    exact ⟨.text t.2 :: vs, m', .term hy, hlen⟩

theorem Derives.cons {a : Nat} {v : AspValue} (h : Derives room [.nonterm a] ts k p [v])
    (h' : Derives room ss us k' p' as) :
    Derives room (.nonterm a :: ss) (ts ++ us) (k + k') (max p (p' + 1)) (v :: as) where
  tree := by
    have happ := h.tree.append h'.tree
    rw [List.length_singleton, Nat.add_comm 1] at happ
    exact happ
  made := fun m hfits => by
    obtain ⟨vs, m₁, hy, hlen⟩ := h.made m (by omega)
    obtain ⟨ws, m₂, hy', hlen'⟩ := h'.made m₁ (by omega)
    have happ := hy.append hy'
    rw [List.length_singleton, Nat.add_comm 1] at happ
    exact ⟨vs ++ ws, m₂, happ, by omega⟩

theorem Derives.one {a : Nat} (h : Derives room [.nonterm a] ts k p as) (hp : 0 < p) :
    Derives room [.nonterm a] (ts ++ []) (k + 0) (max p (0 + 1)) as := by
  rw [List.append_nil, Nat.max_eq_left hp]
  exact h

theorem Derives.rule {n : Nat} {r : Nat × List (GramSym GbToken Nat)} {v : AspValue}
    (hr : aspGrammar.rules[n]? = some r) (hn : n ≠ 0) (hv : treeAction n as = some v)
    (h : Derives room r.2 ts k p as) (hp : 0 < p) :
    Derives room [.nonterm r.1] ts (k + aspMakes n) p [v] where
  tree := by
    have hact : treeSem.act n as () = .ok (v, ()) := by
      simp only [treeSem, hv, Option.elim_some]
    have hrule := Yields.rule hr h.tree hact (.nil ())
    rw [List.append_nil, Nat.max_eq_left hp] at hrule
    exact hrule
  made := fun m hfits => by
    obtain ⟨vs, m₁, hy, hlen⟩ := h.made m (by omega)
    have hacts := aspSem_acts hr hn (yields_means hy)
    generalize hact : (aspSem room).act n vs m₁ = res at hacts
    cases hacts with
    | @ok v m' means length =>
      have hrule := Yields.rule hr hy hact (.nil m')
      rw [List.append_nil, Nat.max_eq_left hp] at hrule
      exact ⟨[v], m', hrule, by omega⟩
    | full hfull => omega

theorem Derives.cast (h : Derives room ss ts k p as) (hts : ts = us) (hk : k = k') :
    Derives room ss us k' p as := by
  subst hts hk
  exact h

theorem derives_tokens (toks : List LexToken) :
    Derives room (toks.map fun t => gbTok t.1) toks 0 toks.length
      (toks.map fun t => .text t.2) := by
  induction toks with
  | nil => exact derives_nil
  | cons t toks ih => exact ih.term t

theorem LeafText.derives (room : Nat) {l : AspLeaf} (h : LeafText l ts) :
    Derives room [.nonterm ntStmt] ts 1 l.need [.leaf l] := by
  have hval : Derives room [.nonterm ntVal] ts 1 l.need [.leaf l] →
      Derives room [.nonterm ntStmt] ts 1 l.need [.leaf l] :=
    fun h => .rule (n := 9) rfl (by decide) rfl h l.need_pos
  have hcall : Derives room [.nonterm ntStmtCall] ts 1 l.need [.leaf l] →
      Derives room [.nonterm ntStmt] ts 1 l.need [.leaf l] :=
    fun h => .rule (n := 8) rfl (by decide) rfl h l.need_pos
  cases h with
  | id t =>
    exact hval (.rule (n := 15) rfl (by decide) rfl (derives_tokens [(.gbId, t)]) Nat.one_pos)
  | string t =>
    exact hval (.rule (n := 14) rfl (by decide) rfl (derives_tokens [(.gbString, t)]) Nat.one_pos)
  | call0 f x y =>
    exact hcall (.rule (n := 10) rfl (by decide) rfl
      (derives_tokens [(.gbId, f), (.char '(', x), (.char ')', y)]) (Nat.succ_pos 2))
  | call1 f x a y =>
    exact hcall (.rule (n := 11) rfl (by decide) rfl
      (derives_tokens [(.gbId, f), (.char '(', x), (.gbString, a), (.char ')', y)])
      (Nat.succ_pos 3))
  | call2 f x a u b y =>
    exact hcall (.rule (n := 12) rfl (by decide) rfl
      (derives_tokens [(.gbId, f), (.char '(', x), (.gbString, a), (.char ',', u), (.gbString, b),
        (.char ')', y)]) (Nat.succ_pos 5))
  | call3 f x a u b v c y =>
    exact hcall (.rule (n := 13) rfl (by decide) rfl
      (derives_tokens [(.gbId, f), (.char '(', x), (.gbString, a), (.char ',', u), (.gbString, b),
        (.char ',', v), (.gbString, c), (.char ')', y)]) (Nat.succ_pos 7))

theorem TestText.derives (room : Nat) {op : AspCondOp} {a b : AspLeaf} (h : TestText op a b ts) :
    Derives room [.nonterm ntStmtCond] ts 3 (testNeed op a b) [.test op a b] := by
  cases h with
  | @equ a b ts us ha x hb =>
    have hneed : max a.need (max b.need (0 + 1) + 1 + 1) = testNeed .equ a b := by
      rw [Nat.max_eq_left b.need_pos, testNeed, if_pos rfl, Nat.add_comm 2]
    have hall := (ha.derives room).cons (((hb.derives room).one b.need_pos).term (.char '=', x))
    rw [hneed, List.append_nil] at hall
    exact .rule (n := 21) rfl (by decide) rfl hall
      (Nat.lt_of_lt_of_le a.need_pos (Nat.le_max_left _ _))
  | @neq a b ts us ha x y hb =>
    have hneed : max a.need (max b.need (0 + 1) + 1 + 1 + 1) = testNeed .neq a b := by
      rw [Nat.max_eq_left b.need_pos, testNeed, if_neg (by decide), Nat.add_comm 3]
    have hall := (ha.derives room).cons
      ((((hb.derives room).one b.need_pos).term (.char '>', y)).term (.char '<', x))
    rw [hneed, List.append_nil] at hall
    exact .rule (n := 22) rfl (by decide) rfl hall
      (Nat.lt_of_lt_of_le a.need_pos (Nat.le_max_left _ _))

/-- The nonterminal of a phrase. -/
def phraseNt : AspPhrase → Nat
  | .stmts => ntStatements
  | .stmt => ntStatement
  | .arms => ntCondList

/-- **What is spelled is derived.** -/
theorem Spells.derives (room : Nat) {ph : AspPhrase} {t : AspTree} (h : Spells ph t ts) :
    Derives room [.nonterm (phraseNt ph)] ts t.size t.need [.code t] := by
  induction h with
  | @one c ts h ih => exact .rule (n := 2) rfl (by decide) rfl ih h.need_pos
  | @seq c d ts us hc hd ihc ihd =>
    have hall := ihc.cons (ihd.one hd.need_pos)
    rw [Nat.max_eq_left hd.need_pos, List.append_nil] at hall
    exact .rule (n := 3) rfl (by decide) rfl hall (Spells.seq hc hd).need_pos
  | html t =>
    exact .rule (n := 5) rfl (by decide) rfl (derives_tokens [(.gbHtmlBlock, t)]) Nat.one_pos
  | script x i y t =>
    exact .rule (n := 4) rfl (by decide) rfl
      (derives_tokens [(.gbScript, x), (.gbId, i), (.char '=', y), (.gbString, t)])
      (Nat.succ_pos 3)
  | @value l ts h => exact .rule (n := 6) rfl (by decide) rfl (h.derives room) l.need_pos
  | @cond c ts h x y ih =>
    have hall := ih.cons (derives_tokens [(.gbEnd, x), (.gbIf, y)])
    have hneed : max c.need ([(GbToken.gbEnd, x), (GbToken.gbIf, y)].length + 1) = c.need :=
      Nat.max_eq_left h.arms.need_le
    rw [hneed] at hall
    exact .rule (n := 7) rfl (by decide) rfl
      (.rule (n := 16) rfl (by decide) rfl hall h.need_pos) h.need_pos
  | @condElse c act ts us hc x hact y z ihc ih =>
    have helse := Derives.rule (n := 20) rfl (by decide) rfl
      ((ih.one hact.need_pos).term (.gbElse, x)) (Nat.succ_pos _)
    have hall := ihc.cons (helse.cons (derives_tokens [(.gbEnd, y), (.gbIf, z)]))
    have hpos := (Spells.condElse hc x hact y z).need_pos
    have hneed : max c.need (max (max act.need (0 + 1) + 1)
        ([(GbToken.gbEnd, y), (GbToken.gbIf, z)].length + 1) + 1) =
          (AspTree.otherwise c act).need := by
      rw [Nat.max_eq_left hact.need_pos, AspTree.need]
      simp only [List.length_cons, List.length_nil]
      omega
    rw [hneed, List.append_nil] at hall
    refine .rule (n := 7) rfl (by decide) rfl
      (.rule (n := 17) rfl (by decide) rfl (hall.cast ?_ rfl) hpos) hpos
    exact (List.append_assoc ..).symm
  | @arm op a b act ts us x test y hact ih =>
    have hall :=
      ((test.derives room).cons ((ih.one hact.need_pos).term (.gbThen, y))).term (.gbIf, x)
    have hneed : max (testNeed op a b) (max act.need (0 + 1) + 1 + 1) + 1 =
        (AspTree.arm op a b act).need := by
      rw [Nat.max_eq_left hact.need_pos, AspTree.need]
      omega
    rw [hneed, List.append_nil] at hall
    exact (Derives.rule (n := 18) rfl (by decide) rfl hall
      (Spells.arm x test y hact).need_pos).cast rfl (Nat.add_comm 3 act.size)
  | @elseif c op a b act ts us vs hc x test y hact ihc ih =>
    have hall := ihc.cons
      (((test.derives room).cons ((ih.one hact.need_pos).term (.gbThen, y))).term (.gbElseif, x))
    have hneed : max c.need (max (testNeed op a b) (max act.need (0 + 1) + 1 + 1) + 1 + 1) =
        (AspTree.elseif c op a b act).need := by
      rw [Nat.max_eq_left hact.need_pos, AspTree.need]
      omega
    rw [hneed, List.append_nil] at hall
    refine (Derives.rule (n := 19) rfl (by decide) rfl hall
      (Spells.elseif hc x test y hact).need_pos).cast ?_ ?_
    · rw [List.append_assoc, List.cons_append]
    · exact congrArg (c.size + ·) (Nat.add_comm 3 act.size)

/-- The derivation of a whole page. -/
theorem Spells.file (room : Nat) {t : AspTree} (h : Spells .stmts t ts) :
    Derives room [.nonterm ntAspfile] ts t.size t.need [.code t] :=
  .rule (n := 1) rfl (by decide) rfl (h.derives room) h.need_pos

/-- **No page has two meanings.** -/
theorem Spells.unique {t t' : AspTree} (h : Spells .stmts t ts) (h' : Spells .stmts t' ts) :
    t = t' :=
  AspValue.code.inj (aspSlrComplete.unambiguous (h.file 0).tree (h'.file 0).tree).1

end Complete

/-! ## `gb_parse` -/

section Parse

variable {page : Str} {toks : List LexToken} {e : LexEnd} {room : Nat}

/-- `asp_reent` after `gb_parse`: the program and nothing else. -/
structure Holds (r : AspReent) (t : AspTree) : Prop where
  root : r.root = some (t.head 0)
  length : r.mem.length = t.size
  built : t.Built r.mem 0

theorem Holds.unique {r r' : AspReent} {t : AspTree} (h : Holds r t) (h' : Holds r' t) :
    r = r' := by
  obtain ⟨mem, root⟩ := r
  obtain ⟨mem', root'⟩ := r'
  have hroot : root = root' := h.root.trans h'.root.symm
  have hmem : mem = mem' := by
    refine List.ext_getElem? fun i => ?_
    by_cases hi : i < t.size
    · exact (h.built.unique h'.built i (Nat.zero_le i) (by omega)).symm
    · have hle : mem.length ≤ i := Nat.le_trans (Nat.le_of_eq h.length) (Nat.le_of_not_lt hi)
      have hle' : mem'.length ≤ i := Nat.le_trans (Nat.le_of_eq h'.length) (Nat.le_of_not_lt hi)
      rw [List.getElem?_eq_none hle, List.getElem?_eq_none hle']
  rw [hroot, hmem]

/-- The program of a derivation of the whole page. -/
theorem yields_file {v : YyStype} {r : AspReent} {p : Nat}
    (h : Yields aspGrammar (aspSem room) [.nonterm ntAspfile] toks ⟨[], none⟩ [v] r p) :
    ∃ t, Spells .stmts t toks ∧ t.size ≤ room ∧ p = t.need ∧ Holds r t := by
  have hmeans := yields_means h
  obtain ⟨v', q, hv, hfile, hp⟩ := hmeans.one_inv
  generalize ha : ntAspfile = a at hfile
  have hcode : ∀ x ∈ codeNts, ntAspfile ≠ x.1 := by decide
  generalize hm : (⟨[], none⟩ : AspReent) = m at hfile
  cases hfile with
  | code nt => exact absurd ha (hcode _ nt)
  | leaf nt =>
    subst ha
    exact absurd nt (by decide)
  | test => exact absurd ha (by decide)
  | otherwise => exact absurd ha (by decide)
  | @file t ts m m' text made =>
    subst hm
    have hlen : m'.mem.length = t.size := made.ext.length.trans (Nat.zero_add _)
    refine ⟨t, text, hlen ▸ made.ext.fits, ?_, rfl, hlen, made.built⟩
    rw [hp, Nat.max_eq_left text.need_pos]

/-- A program that there is room for is made. -/
theorem Spells.yields {t : AspTree} (h : Spells .stmts t toks) (hsize : t.size ≤ room) :
    ∃ v r, Yields aspGrammar (aspSem room) [.nonterm ntAspfile] toks ⟨[], none⟩ [v] r t.need ∧
      Holds r t := by
  obtain ⟨vs, r, hyields, -⟩ := (h.file room).made ⟨[], none⟩
    (Nat.le_trans (Nat.le_of_eq (Nat.zero_add _)) hsize)
  obtain ⟨v, rfl⟩ : ∃ v, vs = [v] := List.length_eq_one_iff.mp hyields.length
  obtain ⟨t', htext', -, -, hholds⟩ := yields_file hyields
  obtain rfl := h.unique htext'
  exact ⟨v, r, hyields, hholds⟩

/-- **`gb_parse` accepts exactly the pages that spell a program**, if the memory has room for its
statements and the stack for its symbols, and then leaves the program at `root`. -/
theorem gbParse_accepted (h : Lexes ⟨page, false⟩ toks e) (r : AspReent) :
    YyEnds room page (.accepted r) ↔
      e = .eof ∧ ∃ t, Spells .stmts t toks ∧ t.size ≤ room ∧ t.need < yyMaxdepth - 1 ∧
        Holds r t := by
  rw [yyEnds_accepted h]
  constructor
  · rintro ⟨heof, v, p, hyields, hp⟩
    obtain ⟨t, htext, hsize, rfl, hholds⟩ := yields_file hyields
    exact ⟨heof, t, htext, hsize, hp, hholds⟩
  · rintro ⟨heof, t, htext, hsize, hneed, hholds⟩
    obtain ⟨v, r', hyields, hholds'⟩ := htext.yields hsize
    obtain rfl := hholds.unique hholds'
    exact ⟨heof, v, t.need, hyields, hneed⟩

/-- **The actions do not fail** for any other reason than that the memory is full, and then there
are more tokens than places in it. -/
theorem gbParse_fault (h : Lexes ⟨page, false⟩ toks e) {f : ParseFault}
    (hends : YyEnds room page (.fault (.action f))) : f = .noMemory ∧ room < toks.length := by
  obtain ⟨r₀, hr₀, hagrees⟩ := hends.agrees h
  cases hagrees with
  | fault =>
    obtain ⟨n, r, ss, ts₁, ts₂, rest, m₁, m₂, vs₁, vs₂, p₁, p₂, hr, hn, hbefore, hyields, rfl,
      hact⟩ := aspSlr.fault (by decide) hr₀
    have hacts := aspSem_acts hr hn (yields_means hyields)
    rw [hact] at hacts
    cases hacts with
    | full hfull =>
      have hmakes := aspMakes_le hr
      have hlen₁ := yields_length hbefore
      have hlen₂ := yields_length hyields
      rw [List.length_nil, Nat.zero_add] at hlen₁
      rw [List.length_append, List.length_append]
      exact ⟨rfl, by omega⟩

end Parse

end OnuFirmware.Asp
