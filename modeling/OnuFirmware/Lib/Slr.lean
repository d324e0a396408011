import Mathlib.Data.List.Basic
import Mathlib.Order.Lattice

/-!
# Shift-reduce parsing

A parser is driven by tables: for a state and the next token they say whether the token is shifted,
a rule is reduced, or the input is accepted or rejected; after a reduction they give the state for
the symbol of the rule. A rule runs an action, which makes a value from those of the symbols and may
change a memory or fail. The stack of states has a limit.

`Yields` says what a grammar derives, with the values and the memory of the actions and the height
the stack needs. The conditions of `Slr`, about the items of each state, are finite for given
tables. They imply that the parser accepts exactly what is derived (`accepts_iff`) and that it
always ends (`runs`).
-/

namespace OnuFirmware.Lib

/-! ## Grammars -/

/-- A symbol of a grammar with terminals `T` and nonterminals `N`. -/
inductive GramSym (T N : Type)
  | term (t : T)
  | nonterm (n : N)
deriving Repr, DecidableEq

/-- The rules, by number, with their left and right sides. -/
structure Grammar (T N : Type) where
  rules : List (N × List (GramSym T N))

/-- The kind and the value of a token, and the actions of the rules. -/
structure Semantics (T Tok V M F : Type) where
  kind : Tok → T
  value : Tok → V
  act : Nat → List V → M → Except F (V × M)

variable {T N Tok V M F : Type}

/-- The tokens derive from the symbols. The actions, from left to right and the inner ones first,
yield the values and lead from one memory to the other, with the given number of places on the
stack. -/
inductive Yields (g : Grammar T N) (sem : Semantics T Tok V M F) :
    List (GramSym T N) → List Tok → M → List V → M → Nat → Prop
  | nil (m : M) : Yields g sem [] [] m [] m 0
  | term {t : Tok} {ss : List (GramSym T N)} {ts : List Tok} {m m' : M} {vs : List V} {p : Nat}
      (rest : Yields g sem ss ts m vs m' p) :
      Yields g sem (.term (sem.kind t) :: ss) (t :: ts) m (sem.value t :: vs) m' (p + 1)
  | rule {n : Nat} {r : N × List (GramSym T N)} {ss : List (GramSym T N)} {ts ts' : List Tok}
      {m m₁ m₂ m' : M} {ws vs : List V} {v : V} {p p' : Nat} (num : g.rules[n]? = some r)
      (inner : Yields g sem r.2 ts m ws m₁ p) (act : sem.act n ws m₁ = .ok (v, m₂))
      (rest : Yields g sem ss ts' m₂ vs m' p') :
      Yields g sem (.nonterm r.1 :: ss) (ts ++ ts') m (v :: vs) m' (max p (p' + 1))

section Yields

variable {g : Grammar T N} {sem : Semantics T Tok V M F} {ss ss' : List (GramSym T N)}
  {ts ts' : List Tok} {m m₁ m' : M} {vs vs' : List V} {p p' : Nat}

theorem Yields.length (h : Yields g sem ss ts m vs m' p) : vs.length = ss.length := by
  induction h with
  | nil => rfl
  | term rest ih => rw [List.length_cons, List.length_cons, ih]
  | rule num inner act rest _ ih => rw [List.length_cons, List.length_cons, ih]

theorem Yields.length_le (h : Yields g sem ss ts m vs m' p) : ss.length ≤ p := by
  induction h with
  | nil => exact Nat.le_refl 0
  | term rest ih => exact Nat.succ_le_succ ih
  | rule num inner act rest _ ih => exact Nat.le_trans (Nat.succ_le_succ ih) (Nat.le_max_right _ _)

theorem Yields.append (h : Yields g sem ss ts m vs m₁ p) (h' : Yields g sem ss' ts' m₁ vs' m' p') :
    Yields g sem (ss ++ ss') (ts ++ ts') m (vs ++ vs') m' (max p (ss.length + p')) := by
  induction h with
  | nil =>
    have hp : max 0 (([] : List (GramSym T N)).length + p') = p' := by simp
    rw [hp]
    exact h'
  | @term t ss ts m m₁ vs p rest ih =>
    have hp : max (p + 1) ((GramSym.term (sem.kind t) :: ss).length + p') =
        max p (ss.length + p') + 1 := by
      rw [List.length_cons]
      omega
    rw [hp]
    exact .term (ih h')
  | @rule n r ss ts₁ ts₂ m m₁ m₂ m₃ ws vs v p₁ p₂ num inner act rest _ ih =>
    have hp : max (max p₁ (p₂ + 1)) ((GramSym.nonterm r.1 :: ss).length + p') =
        max p₁ (max p₂ (ss.length + p') + 1) := by
      rw [List.length_cons]
      omega
    rw [hp, List.append_assoc]
    exact .rule num inner act (ih h')

theorem Yields.split {n : Nat} (hn : n = ss.length) {us : List (GramSym T N)} (hus : us = ss ++ ss')
    (h : Yields g sem us ts m vs m' p) :
    ∃ ts₁ ts₂ m₁ p₁ p₂, ts = ts₁ ++ ts₂ ∧ Yields g sem ss ts₁ m (vs.take n) m₁ p₁ ∧
      Yields g sem ss' ts₂ m₁ (vs.drop n) m' p₂ ∧ p = max p₁ (n + p₂) := by
  induction h generalizing ss n with
  | nil m =>
    obtain ⟨rfl, rfl⟩ := List.append_eq_nil_iff.mp hus.symm
    obtain rfl : n = 0 := hn
    exact ⟨[], [], m, 0, 0, rfl, .nil m, .nil m, rfl⟩
  | @term t us ts m m' vs p rest ih =>
    cases ss with
    | nil =>
      obtain rfl : n = 0 := hn
      rw [List.nil_append] at hus
      refine ⟨[], t :: ts, m, 0, p + 1, rfl, .nil m, ?_, by omega⟩
      rw [← hus]
      exact .term rest
    | cons s ss =>
      obtain rfl : n = ss.length + 1 := hn
      obtain ⟨rfl, htail⟩ := List.cons.inj hus
      obtain ⟨ts₁, ts₂, m₁, p₁, p₂, rfl, h₁, h₂, rfl⟩ := ih rfl htail
      exact ⟨t :: ts₁, ts₂, m₁, p₁ + 1, p₂, rfl, .term h₁, h₂, by omega⟩
  | @rule k r us ts ts' m m₁ m₂ m' ws vs v p p' num inner act rest _ ih =>
    cases ss with
    | nil =>
      obtain rfl : n = 0 := hn
      rw [List.nil_append] at hus
      refine ⟨[], ts ++ ts', m, 0, max p (p' + 1), rfl, .nil m, ?_, by omega⟩
      rw [← hus]
      exact .rule num inner act rest
    | cons s ss =>
      obtain rfl : n = ss.length + 1 := hn
      obtain ⟨rfl, htail⟩ := List.cons.inj hus
      obtain ⟨ts₁, ts₂, m₃, p₁, p₂, rfl, h₁, h₂, rfl⟩ := ih rfl htail
      exact ⟨ts ++ ts₁, ts₂, m₃, max p (p₁ + 1), p₂, (List.append_assoc ..).symm,
        .rule num inner act h₁, h₂, by omega⟩

end Yields

/-! ## The parser -/

/-- What the tables say to do. -/
inductive LrAction
  | shift (q : Nat)
  | reduce (n : Nat)
  | accept
  | error
deriving Repr, DecidableEq

/-- The tables of a parser: what to do in a state before a token or the end, and the state that
follows behind a nonterminal. -/
structure LrTables (T N : Type) where
  init : Nat
  action : Nat → Option T → LrAction
  goto : Nat → N → Nat

/-- The states above the first one with the values of their symbols, the top first, the tokens to
come, and the memory. -/
structure LrConfig (Tok V M : Type) where
  stack : List (Nat × V)
  input : List Tok
  mem : M

/-- How a parser ends. -/
inductive LrResult (Tok V M F : Type)
  | accepted (v : V) (mem : M)
  | rejected (c : LrConfig Tok V M)
  | overflow (mem : M)
  | fault (f : F)

/-- A step of a parser. -/
inductive LrStep (Tok V M F : Type)
  | next (c : LrConfig Tok V M)
  | done (r : LrResult Tok V M F)

section Parser

variable (g : Grammar T N) (tb : LrTables T N) (sem : Semantics T Tok V M F) (limit : Nat)

/-- The state on the top of the stack. -/
def LrTables.top (st : List (Nat × V)) : Nat := (st.head?.map Prod.fst).getD tb.init

/-- A state is pushed, unless it takes the place at `limit`. -/
def lrPush (q : Nat) (v : V) (c : LrConfig Tok V M) : LrStep Tok V M F :=
  if limit ≤ c.stack.length + 1 then .done (.overflow c.mem)
  else .next { c with stack := (q, v) :: c.stack }

/-- One shift or reduction. -/
def lrStep (c : LrConfig Tok V M) : LrStep Tok V M F :=
  match tb.action (tb.top c.stack) (c.input.head?.map sem.kind) with
  | .shift q =>
    match c.input with
    | [] => .done (.rejected c)
    | t :: ts => lrPush limit q (sem.value t) { c with input := ts }
  | .reduce n =>
    match g.rules[n]? with
    | none => .done (.rejected c)
    | some r =>
      match sem.act n ((c.stack.take r.2.length).reverse.map Prod.snd) c.mem with
      | .error f => .done (.fault f)
      | .ok (v, m) =>
        lrPush limit (tb.goto (tb.top (c.stack.drop r.2.length)) r.1) v
          { c with stack := c.stack.drop r.2.length, mem := m }
  | .accept =>
    match c.stack with
    | [] => .done (.rejected c)
    | e :: _ => .done (.accepted e.2 c.mem)
  | .error => .done (.rejected c)

/-- The parser, with a bound on the number of steps. -/
def lrRun : Nat → LrConfig Tok V M → Option (LrResult Tok V M F)
  | 0, _ => none
  | fuel + 1, c =>
    match lrStep g tb sem limit c with
    | .next c' => lrRun fuel c'
    | .done r => some r

/-- The parser gets from one configuration to the other. -/
def LrLeads (c c' : LrConfig Tok V M) : Prop :=
  ∃ k, ∀ fuel, lrRun g tb sem limit (fuel + k) c = lrRun g tb sem limit fuel c'

variable {g tb sem limit} {c c' c'' : LrConfig Tok V M} {r r' : LrResult Tok V M F}

theorem LrLeads.refl : LrLeads g tb sem limit c c := ⟨0, fun _ => rfl⟩

theorem LrLeads.trans (h : LrLeads g tb sem limit c c') (h' : LrLeads g tb sem limit c' c'') :
    LrLeads g tb sem limit c c'' := by
  obtain ⟨k, hk⟩ := h
  obtain ⟨k', hk'⟩ := h'
  exact ⟨k' + k, fun fuel => by rw [← Nat.add_assoc, hk, hk']⟩

theorem LrLeads.step (h : lrStep g tb sem limit c = .next c') : LrLeads g tb sem limit c c' :=
  ⟨1, fun fuel => by rw [lrRun, h]⟩

/-- A result is the result with more steps, too. -/
theorem lrRun_add {fuel : Nat} (h : lrRun g tb sem limit fuel c = some r) (k : Nat) :
    lrRun g tb sem limit (fuel + k) c = some r := by
  induction fuel generalizing c with
  | zero => cases h
  | succ fuel ih =>
    rw [Nat.succ_add, lrRun]
    rw [lrRun] at h
    cases hstep : lrStep g tb sem limit c with
    | next c' =>
      rw [hstep] at h
      exact ih h
    | done r' =>
      rw [hstep] at h
      exact h

/-- The parser ends with the result. -/
def LrEnds (g : Grammar T N) (tb : LrTables T N) (sem : Semantics T Tok V M F) (limit : Nat)
    (c : LrConfig Tok V M) (r : LrResult Tok V M F) : Prop :=
  ∃ fuel, lrRun g tb sem limit fuel c = some r

theorem LrEnds.unique (h : LrEnds g tb sem limit c r) (h' : LrEnds g tb sem limit c r') :
    r = r' := by
  obtain ⟨fuel, hr⟩ := h
  obtain ⟨fuel', hr'⟩ := h'
  have h₁ := lrRun_add hr fuel'
  have h₂ := lrRun_add hr' fuel
  rw [Nat.add_comm] at h₂
  exact Option.some.inj (h₁.symm.trans h₂)

theorem LrEnds.of_leads (h : LrLeads g tb sem limit c c') (hr : LrEnds g tb sem limit c' r) :
    LrEnds g tb sem limit c r := by
  obtain ⟨k, hk⟩ := h
  obtain ⟨fuel, hfuel⟩ := hr
  exact ⟨fuel + k, (hk fuel).trans hfuel⟩

end Parser

/-! ## Items -/

/-- The items of a state are the rules it may be in, with the number of their symbols that stand on
the stack already. The other fields are the rule for the whole input, the tokens with which a
nonterminal can begin, and those that can follow it. -/
structure LrItems (T N : Type) where
  start : Nat
  items : Nat → List (Nat × Nat)
  first : N → List T
  follow : N → List (Option T)

/-- The symbol behind the first `d` symbols of a rule. -/
def Grammar.next (g : Grammar T N) (n d : Nat) : Option (GramSym T N) :=
  g.rules[n]?.bind fun r => r.2[d]?

/-- The tokens with which a symbol can begin. -/
def LrItems.firstOf (it : LrItems T N) : GramSym T N → List T
  | .term t => [t]
  | .nonterm a => it.first a

/-- A symbol leads from a state to another one. -/
inductive LrTrans (g : Grammar T N) (tb : LrTables T N) (it : LrItems T N) :
    Nat → GramSym T N → Nat → Prop
  | term {q q' : Nat} {t : T} (action : tb.action q (some t) = .shift q') :
      LrTrans g tb it q (.term t) q'
  | nonterm {q n : Nat} {r : N × List (GramSym T N)} (num : g.rules[n]? = some r)
      (inner : n ≠ it.start) (item : (n, 0) ∈ it.items q) :
      LrTrans g tb it q (.nonterm r.1) (tb.goto q r.1)

/-- A state that can stand on the stack. -/
def LrEntered (g : Grammar T N) (tb : LrTables T N) (it : LrItems T N) (q : Nat) : Prop :=
  q = tb.init ∨ ∃ q₀ X, LrTrans g tb it q₀ X q

/-- The items bear out the tables: what is reduced or accepted stands on the stack. The symbols of
the rule for the whole input are `top`. -/
structure Slr (g : Grammar T N) (tb : LrTables T N) (it : LrItems T N) (top : N × N) : Prop where
  start_rule : g.rules[it.start]? = some (top.1, [.nonterm top.2])
  initial : ∀ {n d}, (n, d) ∈ it.items tb.init → d = 0
  entered : ∀ {q X q'}, LrTrans g tb it q X q' → q' ≠ tb.init
  starts : ∀ {q}, (it.start, 0) ∈ it.items q → q = tb.init
  back : ∀ {q X q' n d}, LrTrans g tb it q X q' → (n, d + 1) ∈ it.items q' →
    g.next n d = some X ∧ (n, d) ∈ it.items q
  reduced : ∀ {q la n}, LrEntered g tb it q → tb.action q la = .reduce n →
    ∃ r, g.rules[n]? = some r ∧ (n, r.2.length) ∈ it.items q ∧ n ≠ it.start
  accepted : ∀ {q la}, tb.action q la = .accept → la = none ∧ (it.start, 1) ∈ it.items q

section Sound

variable {g : Grammar T N} {tb : LrTables T N} {it : LrItems T N} {top : N × N}
  {sem : Semantics T Tok V M F} {limit : Nat} {c c' : LrConfig Tok V M} {st : List (Nat × V)}
  {ss : List (GramSym T N)}

/-- The states lead from one to the other with the symbols, the top first. -/
inductive LrPath (g : Grammar T N) (tb : LrTables T N) (it : LrItems T N) :
    List (Nat × V) → List (GramSym T N) → Prop
  | nil : LrPath g tb it [] []
  | cons {st : List (Nat × V)} {ss : List (GramSym T N)} {q : Nat} {X : GramSym T N} (v : V)
      (trans : LrTrans g tb it (tb.top st) X q) (path : LrPath g tb it st ss) :
      LrPath g tb it ((q, v) :: st) (X :: ss)

theorem LrPath.entered (hp : LrPath g tb it st ss) : LrEntered g tb it (tb.top st) := by
  cases hp with
  | nil => exact .inl rfl
  | cons v trans path => exact .inr ⟨_, _, trans⟩

/-- The symbols of an item stand on the stack. -/
theorem LrPath.pop (h : Slr g tb it top) {n d : Nat} {r : N × List (GramSym T N)}
    (hr : g.rules[n]? = some r) (hp : LrPath g tb it st ss)
    (hitem : (n, d) ∈ it.items (tb.top st)) :
    d ≤ st.length ∧ (n, 0) ∈ it.items (tb.top (st.drop d)) ∧
      ∃ ss', ss = (r.2.take d).reverse ++ ss' ∧ LrPath g tb it (st.drop d) ss' := by
  induction d generalizing st ss with
  | zero => exact ⟨Nat.zero_le _, hitem, ss, rfl, hp⟩
  | succ d ih =>
    cases hp with
    | nil => exact absurd (h.initial hitem) (Nat.succ_ne_zero d)
    | @cons st ss q X v trans path =>
      obtain ⟨hnext, hprev⟩ := h.back trans hitem
      obtain ⟨hle, hzero, ss', rfl, hpath⟩ := ih path hprev
      refine ⟨Nat.succ_le_succ hle, hzero, ss', ?_, hpath⟩
      rw [Grammar.next, hr, Option.bind_some] at hnext
      rw [List.take_add_one, hnext, Option.toList_some, List.reverse_append, List.reverse_singleton,
        List.append_assoc, List.singleton_append]

/-- What a step can be. -/
inductive LrStepsTo (g : Grammar T N) (tb : LrTables T N) (sem : Semantics T Tok V M F)
    (limit : Nat) (c : LrConfig Tok V M) : LrStep Tok V M F → Prop
  | shift {q : Nat} {t : Tok} {ts : List Tok}
      (action : tb.action (tb.top c.stack) (some (sem.kind t)) = .shift q)
      (input : c.input = t :: ts) (fits : c.stack.length + 1 < limit) :
      LrStepsTo g tb sem limit c (.next ⟨(q, sem.value t) :: c.stack, ts, c.mem⟩)
  | reduce {n : Nat} {r : N × List (GramSym T N)} {v : V} {m : M}
      (action : tb.action (tb.top c.stack) (c.input.head?.map sem.kind) = .reduce n)
      (num : g.rules[n]? = some r)
      (act : sem.act n ((c.stack.take r.2.length).reverse.map Prod.snd) c.mem = .ok (v, m))
      (fits : (c.stack.drop r.2.length).length + 1 < limit) :
      LrStepsTo g tb sem limit c
        (.next ⟨(tb.goto (tb.top (c.stack.drop r.2.length)) r.1, v) :: c.stack.drop r.2.length,
          c.input, m⟩)
  | accept {e : Nat × V} {st : List (Nat × V)}
      (action : tb.action (tb.top c.stack) (c.input.head?.map sem.kind) = .accept)
      (stack : c.stack = e :: st) : LrStepsTo g tb sem limit c (.done (.accepted e.2 c.mem))
  | fault {n : Nat} {r : N × List (GramSym T N)} {f : F}
      (action : tb.action (tb.top c.stack) (c.input.head?.map sem.kind) = .reduce n)
      (num : g.rules[n]? = some r)
      (act : sem.act n ((c.stack.take r.2.length).reverse.map Prod.snd) c.mem = .error f) :
      LrStepsTo g tb sem limit c (.done (.fault f))
  | overflow {m : M} : LrStepsTo g tb sem limit c (.done (.overflow m))
  | rejected : LrStepsTo g tb sem limit c (.done (.rejected c))

theorem lrStep_cases (g : Grammar T N) (tb : LrTables T N) (sem : Semantics T Tok V M F)
    (limit : Nat) (c : LrConfig Tok V M) :
    LrStepsTo g tb sem limit c (lrStep g tb sem limit c) := by
  unfold lrStep
  cases haction : tb.action (tb.top c.stack) (c.input.head?.map sem.kind) with
  | shift q =>
    cases hinput : c.input with
    | nil => exact .rejected
    | cons t ts =>
      rw [hinput] at haction
      simp only [lrPush]
      split
      · exact .overflow
      · exact .shift haction hinput (by omega)
  | reduce n =>
    cases hr : g.rules[n]? with
    | none =>
      simp only [hr]
      exact .rejected
    | some r =>
      cases hact : sem.act n ((c.stack.take r.2.length).reverse.map Prod.snd) c.mem with
      | error f =>
        simp only [hr, hact]
        exact .fault haction hr hact
      | ok vm =>
        simp only [hr, hact, lrPush]
        split
        · exact .overflow
        · exact .reduce haction hr hact (by omega)
  | accept =>
    cases hst : c.stack with
    | nil => exact .rejected
    | cons e st => exact .accept haction hst
  | error => exact .rejected

/-- What has been read of the tokens derives from the symbols on the stack. -/
def LrInv (g : Grammar T N) (tb : LrTables T N) (it : LrItems T N)
    (sem : Semantics T Tok V M F) (limit : Nat) (toks : List Tok) (m : M)
    (c : LrConfig Tok V M) : Prop :=
  ∃ ss ts p, LrPath g tb it c.stack ss.reverse ∧
    Yields g sem ss ts m (c.stack.map Prod.snd).reverse c.mem p ∧ toks = ts ++ c.input ∧ p < limit

theorem lrInv_init {toks : List Tok} {m : M} (h : 0 < limit) :
    LrInv g tb it sem limit toks m ⟨[], toks, m⟩ :=
  ⟨[], [], 0, .nil, .nil m, rfl, h⟩

theorem LrPath.drop (hp : LrPath g tb it st ss) (k : Nat) :
    LrPath g tb it (st.drop k) (ss.drop k) := by
  induction hp generalizing k with
  | nil =>
    rw [List.drop_nil, List.drop_nil]
    exact .nil
  | cons v trans path ih =>
    cases k with
    | zero => exact .cons v trans path
    | succ k => exact ih k

/-- All states on the stack can stand there. -/
theorem LrInv.entered {toks : List Tok} {m : M} (hinv : LrInv g tb it sem limit toks m c)
    (k : Nat) : LrEntered g tb it (tb.top (c.stack.drop k)) := by
  obtain ⟨ss, ts, p, hpath, -, -, -⟩ := hinv
  exact (hpath.drop k).entered

/-- Where a rule is reduced, its symbols are derived on top of the others. -/
theorem LrInv.reduced (h : Slr g tb it top) {toks : List Tok} {m : M} {n : Nat}
    {r : N × List (GramSym T N)} (hinv : LrInv g tb it sem limit toks m c)
    (haction : tb.action (tb.top c.stack) (c.input.head?.map sem.kind) = .reduce n)
    (hr : g.rules[n]? = some r) :
    n ≠ it.start ∧ (n, 0) ∈ it.items (tb.top (c.stack.drop r.2.length)) ∧
      ∃ ss' ts₁ ts₂ m₁ p₁ p₂, LrPath g tb it (c.stack.drop r.2.length) ss' ∧
        Yields g sem ss'.reverse ts₁ m ((c.stack.drop r.2.length).map Prod.snd).reverse m₁ p₁ ∧
        Yields g sem r.2 ts₂ m₁ ((c.stack.take r.2.length).reverse.map Prod.snd) c.mem p₂ ∧
        toks = ts₁ ++ ts₂ ++ c.input ∧ ss'.length = (c.stack.drop r.2.length).length ∧
        p₁ < limit ∧ ss'.length + p₂ < limit := by
  obtain ⟨ss, ts, p, hpath, hyields, rfl, hp⟩ := hinv
  obtain ⟨r', hr', hitem, hinner⟩ := h.reduced hpath.entered haction
  obtain rfl := Option.some.inj (hr.symm.trans hr')
  obtain ⟨hle, hzero, ss', hss, hpath'⟩ := hpath.pop h hr hitem
  rw [List.take_length] at hss
  have hsplit : ss = ss'.reverse ++ r.2 := by
    rw [← List.reverse_reverse ss, hss, List.reverse_append, List.reverse_reverse]
  obtain ⟨ts₁, ts₂, m₁, p₁, p₂, rfl, h₁, h₂, rfl⟩ := hyields.split rfl hsplit
  have hlen := hyields.length
  rw [hsplit, List.length_reverse, List.length_map, List.length_append, List.length_reverse]
    at hlen
  have hdrop : ss'.length = (c.stack.drop r.2.length).length := by
    rw [List.length_drop]
    omega
  have hcut : ss'.reverse.length = (c.stack.map Prod.snd).length - r.2.length := by
    rw [List.length_reverse, List.length_map, hdrop, List.length_drop]
  rw [hcut, ← List.reverse_drop, ← List.map_drop] at h₁
  rw [hcut, ← List.reverse_take, ← List.map_take, ← List.map_reverse] at h₂
  rw [List.length_reverse] at hp
  exact ⟨hinner, hzero, ss', ts₁, ts₂, m₁, p₁, p₂, hpath', h₁, h₂, rfl, hdrop, by omega, by omega⟩

theorem LrInv.step (h : Slr g tb it top) {toks : List Tok} {m : M}
    (hinv : LrInv g tb it sem limit toks m c) (hstep : lrStep g tb sem limit c = .next c') :
    LrInv g tb it sem limit toks m c' := by
  have hcases := lrStep_cases g tb sem limit c
  rw [hstep] at hcases
  cases hcases with
  | @shift q t us haction hinput hlt =>
    obtain ⟨ss, ts, p, hpath, hyields, rfl, hp⟩ := hinv
    have hlen := hyields.length
    rw [List.length_reverse, List.length_map] at hlen
    refine ⟨ss ++ [.term (sem.kind t)], ts ++ [t], max p (ss.length + 1), ?_, ?_, ?_, ?_⟩
    · rw [List.reverse_append]
      exact .cons _ (.term haction) hpath
    · rw [List.map_cons, List.reverse_cons]
      exact hyields.append (.term (.nil c.mem))
    · rw [hinput, List.append_assoc, List.singleton_append]
    · omega
  | @reduce n r v m' haction hr hact hlt =>
    obtain ⟨hinner, hzero, ss', ts₁, ts₂, m₁, p₁, p₂, hpath, h₁, h₂, rfl, hlen, hp₁, hp₂⟩ :=
      hinv.reduced h haction hr
    have hnew := h₁.append (.rule hr h₂ hact (.nil m'))
    refine ⟨ss'.reverse ++ [.nonterm r.1], ts₁ ++ (ts₂ ++ []),
      max p₁ (ss'.reverse.length + max p₂ (0 + 1)), ?_, ?_, ?_, ?_⟩
    · rw [List.reverse_append, List.reverse_reverse]
      exact .cons _ (.nonterm hr hinner hzero) hpath
    · rw [List.map_cons, List.reverse_cons]
      exact hnew
    · rw [List.append_nil]
    · rw [List.length_reverse]
      omega

theorem LrInv.accepted (h : Slr g tb it top) {toks : List Tok} {m m' : M} {v : V}
    (hinv : LrInv g tb it sem limit toks m c)
    (hstep : lrStep g tb sem limit c = .done (.accepted v m')) :
    ∃ p, Yields g sem [.nonterm top.2] toks m [v] m' p ∧ p < limit := by
  obtain ⟨ss, ts, p, hpath, hyields, rfl, hp⟩ := hinv
  have hcases := lrStep_cases g tb sem limit c
  rw [hstep] at hcases
  cases hcases with
  | @accept e st haction hst =>
    obtain ⟨hla, hitem⟩ := h.accepted haction
    have hinput : c.input = [] := List.head?_eq_none_iff.mp (Option.map_eq_none_iff.mp hla)
    obtain ⟨-, hzero, ss', hss, hrest⟩ := hpath.pop h h.start_rule hitem
    rw [hst, List.drop_succ_cons, List.drop_zero] at hzero hrest
    -- nothing leads to the first state, so it is on the top only if nothing is above it
    have hnil : st = [] ∧ ss' = [] := by
      cases hrest with
      | nil => exact ⟨rfl, rfl⟩
      | cons v trans path => exact absurd (h.starts hzero) (h.entered trans)
    obtain ⟨rfl, rfl⟩ := hnil
    have hone : ss = [.nonterm top.2] := by
      rw [← List.reverse_reverse ss, hss]
      rfl
    rw [hst, hone] at hyields
    rw [hinput, List.append_nil]
    exact ⟨p, hyields, hp⟩

/-- **What is accepted is derived.** -/
theorem Slr.sound (h : Slr g tb it top) (hlimit : 0 < limit) {toks : List Tok} {m m' : M}
    {v : V} (hends : LrEnds g tb sem limit ⟨[], toks, m⟩ (.accepted v m')) :
    ∃ p, Yields g sem [.nonterm top.2] toks m [v] m' p ∧ p < limit := by
  obtain ⟨fuel, hrun⟩ := hends
  have hinv : LrInv g tb it sem limit toks m ⟨[], toks, m⟩ := lrInv_init hlimit
  generalize (⟨[], toks, m⟩ : LrConfig Tok V M) = c at hrun hinv
  induction fuel generalizing c with
  | zero => cases hrun
  | succ fuel ih =>
    rw [lrRun] at hrun
    cases hstep : lrStep g tb sem limit c with
    | next c' =>
      rw [hstep] at hrun
      exact ih c' hrun (hinv.step h hstep)
    | done r =>
      rw [hstep] at hrun
      obtain rfl := Option.some.inj hrun
      exact hinv.accepted h hstep

/-- **A fault is that of an action**, on the values of symbols that have been derived. -/
theorem Slr.fault (h : Slr g tb it top) (hlimit : 0 < limit) {toks : List Tok} {m : M} {f : F}
    (hends : LrEnds g tb sem limit ⟨[], toks, m⟩ (.fault f)) :
    ∃ n r ss ts₁ ts₂ rest m₁ m₂ vs₁ vs₂ p₁ p₂, g.rules[n]? = some r ∧ n ≠ it.start ∧
      Yields g sem ss ts₁ m vs₁ m₁ p₁ ∧ Yields g sem r.2 ts₂ m₁ vs₂ m₂ p₂ ∧
      toks = ts₁ ++ ts₂ ++ rest ∧ sem.act n vs₂ m₂ = .error f := by
  obtain ⟨fuel, hrun⟩ := hends
  have hinv : LrInv g tb it sem limit toks m ⟨[], toks, m⟩ := lrInv_init hlimit
  generalize (⟨[], toks, m⟩ : LrConfig Tok V M) = c at hrun hinv
  induction fuel generalizing c with
  | zero => cases hrun
  | succ fuel ih =>
    rw [lrRun] at hrun
    cases hstep : lrStep g tb sem limit c with
    | next c' =>
      rw [hstep] at hrun
      exact ih c' hrun (hinv.step h hstep)
    | done r =>
      rw [hstep] at hrun
      obtain rfl := Option.some.inj hrun
      have hcases := lrStep_cases g tb sem limit c
      rw [hstep] at hcases
      cases hcases with
      | @fault n r f haction hr hact =>
        obtain ⟨hne, -, ss', ts₁, ts₂, m₁, p₁, p₂, -, hbefore, hyields, hts, -⟩ :=
          hinv.reduced h haction hr
        exact ⟨n, r, ss'.reverse, ts₁, ts₂, c.input, m₁, c.mem, _, _, p₁, p₂, hr, hne, hbefore,
          hyields, hts, hact⟩

end Sound

/-! ## Everything that is derived is accepted -/

/-- The items are complete, and their tokens lead on. No rule has an empty right side. -/
structure SlrComplete (g : Grammar T N) (tb : LrTables T N) (it : LrItems T N) (top : N × N) :
    Prop extends Slr g tb it top where
  start_item : (it.start, 0) ∈ it.items tb.init
  bound : ∀ {q n d}, (n, d) ∈ it.items q → ∃ r, g.rules[n]? = some r ∧ d ≤ r.2.length
  shift : ∀ {q n d t}, (n, d) ∈ it.items q → g.next n d = some (.term t) →
    ∃ q', tb.action q (some t) = .shift q' ∧ (n, d + 1) ∈ it.items q'
  goto : ∀ {q n d a}, (n, d) ∈ it.items q → g.next n d = some (.nonterm a) →
    (n, d + 1) ∈ it.items (tb.goto q a)
  closure : ∀ {q n d a k} {r : N × List (GramSym T N)}, (n, d) ∈ it.items q →
    g.next n d = some (.nonterm a) → g.rules[k]? = some r → r.1 = a →
      (k, 0) ∈ it.items q ∧ k ≠ it.start
  reduce : ∀ {q n la} {r : N × List (GramSym T N)}, (n, r.2.length) ∈ it.items q →
    g.rules[n]? = some r → n ≠ it.start → la ∈ it.follow r.1 → tb.action q la = .reduce n
  accept : ∀ {q}, (it.start, 1) ∈ it.items q → tb.action q none = .accept
  nonempty : ∀ {n : Nat} {r : N × List (GramSym T N)}, g.rules[n]? = some r → r.2 ≠ []
  first_rule : ∀ {n : Nat} {X t} {r : N × List (GramSym T N)}, g.rules[n]? = some r →
    g.next n 0 = some X → t ∈ it.firstOf X → t ∈ it.first r.1
  follow_next : ∀ {n d a X t}, g.next n d = some (.nonterm a) → g.next n (d + 1) = some X →
    t ∈ it.firstOf X → some t ∈ it.follow a
  follow_last : ∀ {n d : Nat} {a la} {r : N × List (GramSym T N)}, g.rules[n]? = some r →
    g.next n d = some (.nonterm a) → r.2.length = d + 1 → la ∈ it.follow r.1 → la ∈ it.follow a
  follow_end : none ∈ it.follow top.1

section Complete

variable {g : Grammar T N} {tb : LrTables T N} {it : LrItems T N} {top : N × N}
  {sem : Semantics T Tok V M F} {limit : Nat} {ss : List (GramSym T N)} {ts : List Tok}
  {m m' : M} {vs : List V} {p : Nat}

/-- What derives from a symbol begins with one of its tokens. -/
theorem Yields.first (h : SlrComplete g tb it top) (hy : Yields g sem ss ts m vs m' p)
    {X : GramSym T N} (hX : ss.head? = some X) :
    ∃ t ts', ts = t :: ts' ∧ sem.kind t ∈ it.firstOf X := by
  induction hy generalizing X with
  | nil => cases hX
  | @term t ss ts m m' vs p rest ih =>
    obtain rfl := Option.some.inj hX
    exact ⟨t, ts, rfl, List.mem_singleton.mpr rfl⟩
  | @rule n r ss ts ts' m m₁ m₂ m' ws vs v p p' num inner act rest ih _ =>
    obtain rfl := Option.some.inj hX
    obtain ⟨Y, rhs, hrhs⟩ := List.exists_cons_of_ne_nil (h.nonempty num)
    obtain ⟨t, us, rfl, ht⟩ := ih (X := Y) (by rw [hrhs]; rfl)
    refine ⟨t, us ++ ts', rfl, h.first_rule num ?_ ht⟩
    rw [Grammar.next, num, Option.bind_some, hrhs]
    rfl

/-- The token behind a symbol of a rule is one that can follow it. -/
theorem Yields.follow (h : SlrComplete g tb it top) (hy : Yields g sem ss ts m vs m' p)
    {n d : Nat} {r : N × List (GramSym T N)} {a : N} (hr : g.rules[n]? = some r)
    (hdrop : r.2.drop d = .nonterm a :: ss) {rest : List Tok}
    (hrest : rest.head?.map sem.kind ∈ it.follow r.1) :
    (ts ++ rest).head?.map sem.kind ∈ it.follow a := by
  have hat : ∀ k, r.2[d + k]? = (.nonterm a :: ss)[k]? := by
    intro k
    rw [← hdrop, List.getElem?_drop]
  have hnext : g.next n d = some (.nonterm a) := by
    rw [Grammar.next, hr, Option.bind_some]
    exact hat 0
  cases ss with
  | nil =>
    cases hy with
    | nil m =>
      refine h.follow_last hr hnext ?_ hrest
      have hlen := congrArg List.length hdrop
      rw [List.length_drop, List.length_singleton] at hlen
      omega
  | cons X ss =>
    obtain ⟨t, ts', rfl, ht⟩ := hy.first h rfl
    refine h.follow_next hnext ?_ ht
    rw [Grammar.next, hr, Option.bind_some]
    exact hat 1

/-- The parser follows a derivation from any item before its symbols. -/
theorem Yields.leads (h : SlrComplete g tb it top) (hy : Yields g sem ss ts m vs m' p)
    {n d : Nat} {r : N × List (GramSym T N)} {st : List (Nat × V)} {rest : List Tok}
    (hr : g.rules[n]? = some r) (hdrop : r.2.drop d = ss)
    (hitem : (n, d) ∈ it.items (tb.top st)) (hrest : rest.head?.map sem.kind ∈ it.follow r.1)
    (hp : st.length + p < limit) :
    ∃ st', LrLeads g tb sem limit ⟨st, ts ++ rest, m⟩ ⟨st' ++ st, rest, m'⟩ ∧
      (st'.map Prod.snd).reverse = vs ∧ (n, r.2.length) ∈ it.items (tb.top (st' ++ st)) := by
  induction hy generalizing n d r st rest with
  | nil m =>
    obtain ⟨r', hr', hle⟩ := h.bound hitem
    obtain rfl := Option.some.inj (hr.symm.trans hr')
    have hge := List.drop_eq_nil_iff.mp hdrop
    have hd : d = r.2.length := Nat.le_antisymm hle hge
    exact ⟨[], .refl, rfl, hd ▸ hitem⟩
  | @term t ss ts m m' vs p _ ih =>
    have hnext : g.next n d = some (.term (sem.kind t)) := by
      rw [Grammar.next, hr, Option.bind_some, ← Nat.add_zero d, ← List.getElem?_drop, hdrop]
      rfl
    obtain ⟨q, haction, hnew⟩ := h.shift hitem hnext
    have hstep : lrStep g tb sem limit ⟨st, t :: (ts ++ rest), m⟩ =
        .next ⟨(q, sem.value t) :: st, ts ++ rest, m⟩ := by
      have hact : tb.action (tb.top st) ((t :: (ts ++ rest)).head?.map sem.kind) = .shift q :=
        haction
      simp only [lrStep, hact, lrPush]
      rw [if_neg (by omega)]
    have hdrop' : r.2.drop (d + 1) = ss := by
      rw [← List.drop_drop, hdrop, List.drop_succ_cons, List.drop_zero]
    have hitem' : (n, d + 1) ∈ it.items (tb.top ((q, sem.value t) :: st)) := hnew
    have hp' : ((q, sem.value t) :: st).length + p < limit := by
      rw [List.length_cons]
      omega
    obtain ⟨st', hleads, hvals, hlast⟩ := ih hr hdrop' hitem' hrest hp'
    refine ⟨st' ++ [(q, sem.value t)], ?_, ?_, ?_⟩
    · rw [List.append_assoc, List.singleton_append]
      exact (LrLeads.step hstep).trans hleads
    · rw [List.map_append, List.reverse_append, hvals]
      rfl
    · rw [List.append_assoc, List.singleton_append]
      exact hlast
  | @rule k s ss ts ts' m m₁ m₂ m' ws vs v p p' num inner act hrest' ihInner ih =>
    have hnext : g.next n d = some (.nonterm s.1) := by
      rw [Grammar.next, hr, Option.bind_some, ← Nat.add_zero d, ← List.getElem?_drop, hdrop]
      rfl
    obtain ⟨hzero, hne⟩ := h.closure hitem hnext num rfl
    have hfollow := hrest'.follow h hr hdrop hrest
    obtain ⟨st₁, hleads₁, hvals₁, hlast₁⟩ := ihInner num List.drop_zero hzero hfollow
      (by omega)
    have hlen : st₁.length = s.2.length := by
      rw [← inner.length, ← hvals₁, List.length_reverse, List.length_map]
    have hact := h.reduce hlast₁ num hne hfollow
    have htake : (st₁ ++ st).take s.2.length = st₁ := by rw [← hlen, List.take_left]
    have hdropped : (st₁ ++ st).drop s.2.length = st := by rw [← hlen, List.drop_left]
    have hstep : lrStep g tb sem limit ⟨st₁ ++ st, ts' ++ rest, m₁⟩ =
        .next ⟨(tb.goto (tb.top st) s.1, v) :: st, ts' ++ rest, m₂⟩ := by
      simp only [lrStep, hact, num, htake, hdropped, List.map_reverse, hvals₁, act, lrPush]
      rw [if_neg (by omega)]
    have hdrop' : r.2.drop (d + 1) = ss := by
      rw [← List.drop_drop, hdrop, List.drop_succ_cons, List.drop_zero]
    have hitem' : (n, d + 1) ∈ it.items (tb.top ((tb.goto (tb.top st) s.1, v) :: st)) :=
      h.goto hitem hnext
    have hp' : ((tb.goto (tb.top st) s.1, v) :: st).length + p' < limit := by
      rw [List.length_cons]
      omega
    obtain ⟨st', hleads, hvals, hlast⟩ := ih hr hdrop' hitem' hrest hp'
    refine ⟨st' ++ [(tb.goto (tb.top st) s.1, v)], ?_, ?_, ?_⟩
    · rw [List.append_assoc, List.append_assoc, List.singleton_append]
      exact hleads₁.trans ((LrLeads.step hstep).trans hleads)
    · rw [List.map_append, List.reverse_append, hvals]
      rfl
    · rw [List.append_assoc, List.singleton_append]
      exact hlast

/-- **What is derived is accepted**, if the stack is high enough. -/
theorem SlrComplete.complete (h : SlrComplete g tb it top) {v : V}
    (hy : Yields g sem [.nonterm top.2] ts m [v] m' p) (hp : p < limit) :
    LrEnds g tb sem limit ⟨[], ts, m⟩ (.accepted v m') := by
  have hfit : ([] : List (Nat × V)).length + p < limit := by
    rw [List.length_nil, Nat.zero_add]
    exact hp
  have hend : ([] : List Tok).head?.map sem.kind ∈ it.follow top.1 := h.follow_end
  have hitem : (it.start, 0) ∈ it.items (tb.top ([] : List (Nat × V))) := h.start_item
  obtain ⟨st, hleads, hvals, hlast⟩ := hy.leads h h.start_rule List.drop_zero hitem hend hfit
  rw [List.append_nil, List.append_nil] at hleads
  rw [List.append_nil] at hlast
  obtain ⟨e, rfl⟩ : ∃ e, st = [e] := by
    cases st with
    | nil => cases hvals
    | cons e st =>
      cases st with
      | nil => exact ⟨e, rfl⟩
      | cons e' st =>
        have hlen := congrArg List.length hvals
        rw [List.length_reverse, List.length_map] at hlen
        cases hlen
  obtain rfl : e.2 = v := List.cons.inj hvals |>.1
  refine .of_leads hleads ⟨1, ?_⟩
  have hact : tb.action (tb.top [e]) (([] : List Tok).head?.map sem.kind) = .accept :=
    h.accept hlast
  simp only [lrRun, lrStep, hact]

/-- **Exactly what is derived is accepted.** -/
theorem SlrComplete.accepts_iff (h : SlrComplete g tb it top) (hlimit : 0 < limit) {v : V} :
    LrEnds g tb sem limit ⟨[], ts, m⟩ (.accepted v m') ↔
      ∃ p, Yields g sem [.nonterm top.2] ts m [v] m' p ∧ p < limit :=
  ⟨fun hends => h.toSlr.sound hlimit hends, fun hy => h.complete hy.choose_spec.1 hy.choose_spec.2⟩

/-- **A grammar with such tables is unambiguous**: the input has one value only. -/
theorem SlrComplete.unambiguous (h : SlrComplete g tb it top) {v v' : V} {m₁ m₂ : M} {p' : Nat}
    (hy : Yields g sem [.nonterm top.2] ts m [v] m₁ p)
    (hy' : Yields g sem [.nonterm top.2] ts m [v'] m₂ p') : v = v' ∧ m₁ = m₂ := by
  have hends : LrEnds g tb sem (max p p' + 1) ⟨[], ts, m⟩ (.accepted v m₁) :=
    h.complete hy (Nat.lt_succ_of_le (Nat.le_max_left p p'))
  have hends' : LrEnds g tb sem (max p p' + 1) ⟨[], ts, m⟩ (.accepted v' m₂) :=
    h.complete hy' (Nat.lt_succ_of_le (Nat.le_max_right p p'))
  exact LrResult.accepted.inj (hends.unique hends')

end Complete

/-! ## The parser ends -/

/-- The ranks of the states grow with every reduction of a single symbol. -/
structure LrRanked (g : Grammar T N) (tb : LrTables T N) (it : LrItems T N) (rank : Nat → Nat)
    (top : Nat) : Prop where
  le : ∀ q, rank q ≤ top
  nonempty : ∀ {n : Nat} {r : N × List (GramSym T N)}, g.rules[n]? = some r → r.2 ≠ []
  unit : ∀ {q n la} {r : N × List (GramSym T N)}, LrEntered g tb it q →
    tb.action q la = .reduce n → g.rules[n]? = some r → r.2.length = 1 →
    ∀ q', LrEntered g tb it q' → rank q < rank (tb.goto q' r.1)

/-- A bound on the steps to come. -/
def lrWeight (tb : LrTables T N) (rank : Nat → Nat) (most : Nat) (c : LrConfig Tok V M) : Nat :=
  (most + 1) * (2 * c.input.length + c.stack.length) + (most - rank (tb.top c.stack))

section Ends

variable {g : Grammar T N} {tb : LrTables T N} {it : LrItems T N} {top : N × N}
  {sem : Semantics T Tok V M F} {limit : Nat} {c c' : LrConfig Tok V M} {rank : Nat → Nat}
  {most : Nat} {toks : List Tok} {m : M}

theorem LrInv.weight_lt (h : Slr g tb it top) (hrank : LrRanked g tb it rank most)
    (hinv : LrInv g tb it sem limit toks m c) (hstep : lrStep g tb sem limit c = .next c') :
    lrWeight tb rank most c' < lrWeight tb rank most c := by
  obtain ⟨ss, ts, p, hpath, -, -, -⟩ := hinv
  have hle := hrank.le
  have hcases := lrStep_cases g tb sem limit c
  rw [hstep] at hcases
  cases hcases with
  | @shift q t us _ hinput _ =>
    -- a token counts twice
    have hsum : 2 * c.input.length + c.stack.length =
        2 * us.length + (c.stack.length + 1) + 1 := by
      rw [hinput, List.length_cons]
      omega
    rw [lrWeight, lrWeight, hsum, Nat.mul_succ (most + 1)]
    simp only [List.length_cons]
    omega
  | @reduce n r v m' haction hr _ _ =>
    obtain ⟨r', hr', hitem, -⟩ := h.reduced hpath.entered haction
    obtain rfl := Option.some.inj (hr.symm.trans hr')
    obtain ⟨hfits, -, ss', -, hbelow⟩ := hpath.pop h hr hitem
    have hpos : 0 < r.2.length := List.length_pos_iff.mpr (hrank.nonempty hr)
    rw [lrWeight, lrWeight]
    simp only [List.length_cons, List.length_drop]
    by_cases hone : r.2.length = 1
    · have hlt := hrank.unit hpath.entered haction hr hone _ hbelow.entered
      have hmost := hle (tb.goto (tb.top (c.stack.drop r.2.length)) r.1)
      have hsum : c.stack.length - r.2.length + 1 = c.stack.length := by omega
      rw [hsum]
      simp only [LrTables.top, List.head?_cons, Option.map_some, Option.getD_some] at hlt hmost ⊢
      omega
    · obtain ⟨k, hk⟩ : ∃ k, 2 * c.input.length + c.stack.length =
          2 * c.input.length + (c.stack.length - r.2.length + 1) + 1 + k :=
        ⟨r.2.length - 2, by omega⟩
      have hmul : (most + 1) * (2 * c.input.length + c.stack.length) =
          (most + 1) * (2 * c.input.length + (c.stack.length - r.2.length + 1)) + (most + 1) +
            (most + 1) * k := by
        rw [hk, Nat.mul_add, Nat.mul_succ (most + 1)]
      rw [hmul]
      omega

/-- **The parser ends** within a number of steps that is linear in the number of the tokens. -/
theorem Slr.runs (h : Slr g tb it top) (hrank : LrRanked g tb it rank most)
    (hlimit : 0 < limit) (toks : List Tok) (m : M) :
    ∃ r, lrRun g tb sem limit ((most + 1) * (2 * toks.length + 1)) ⟨[], toks, m⟩ = some r := by
  have hinv : LrInv g tb it sem limit toks m ⟨[], toks, m⟩ := lrInv_init hlimit
  have hweight : lrWeight tb rank most (⟨[], toks, m⟩ : LrConfig Tok V M) <
      (most + 1) * (2 * toks.length + 1) := by
    rw [lrWeight, Nat.mul_succ]
    simp only [List.length_nil, Nat.add_zero]
    omega
  generalize (most + 1) * (2 * toks.length + 1) = fuel at hweight
  generalize (⟨[], toks, m⟩ : LrConfig Tok V M) = c at hinv hweight
  induction fuel generalizing c with
  | zero => cases hweight
  | succ fuel ih =>
    rw [lrRun]
    cases hstep : lrStep g tb sem limit c with
    | next c' =>
      have hlt := hinv.weight_lt h hrank hstep
      exact ih c' (hinv.step h hstep) (by omega)
    | done r => exact ⟨r, rfl⟩

end Ends

end OnuFirmware.Lib
