import OnuFirmware.Asp.Grammar
import OnuFirmware.Asp.PageRuns

/-!
# What the parser of pages accepts

The tables of Bison are those of an SLR parser for the rules of `grammar.y`, so that `gb_parse`
accepts exactly the pages whose tokens derive from `aspfile`, and it always ends.
-/

namespace OnuFirmware.Asp

open Clib Lib

/-! ## The tables as those of a parser -/

/-- The tokens of the grammar. -/
def gbTokens : List GbToken :=
  [.gbIf, .gbElse, .gbElseif, .gbEnd, .gbThen, .gbScript, .gbHtmlBlock, .gbId, .gbString,
    .char '=', .char '(', .char ')', .char ',', .char '<', .char '>']

/-- What the tables say in a state before a token or the end. -/
def yyTable (q : Nat) (la : Option GbToken) : LrAction :=
  if (yypact[q]?).getD yypactNinf = yypactNinf then yyDefault q
  else
    match la with
    | none => yyLookup q 0
    | some t => if t ∈ gbTokens then yyLookup q (yytranslate t.code) else .error

/-- The first rule has number 0 in the grammar. -/
def ruleIndex : LrAction → LrAction
  | .reduce n => .reduce (n - 1)
  | a => a

def aspTables : LrTables GbToken Nat where
  init := 0
  action := fun q la => ruleIndex (yyTable q la)
  goto := yyGoto

/-- The actions. The text of an HTML block is the value of its token. -/
def aspSem (room : Nat) : Semantics GbToken LexToken YyStype AspReent ParseFault where
  kind := Prod.fst
  value := fun t => .text t.2
  act := fun n vals r =>
    yyAction room
      (match vals with
        | [.text t] => some t
        | _ => none) (n + 1) vals r

/-- The rules that `stmt`, `stmt_cond`, `statement` and `statements` begin with, nothing of them
read. -/
def stmt0 : List (Nat × Nat) := (List.range' 8 8).map fun n => (n, 0)
def stmtCond0 : List (Nat × Nat) := stmt0 ++ [(21, 0), (22, 0)]
def statement0 : List (Nat × Nat) := (List.range' 4 16).map fun n => (n, 0)
def statements0 : List (Nat × Nat) := [(2, 0), (3, 0)] ++ statement0

/-- The rules of each state, with the number of symbols that have been read. -/
def aspStates : List (List (Nat × Nat)) :=
  [[(0, 0), (1, 0)] ++ statements0, [(18, 1)] ++ stmtCond0, [(4, 1)], [(5, 1)], [(10, 1),
    (11, 1), (12, 1), (13, 1), (15, 1)], [(14, 1)], [(0, 1)], [(1, 1), (3, 1)] ++ statement0,
    [(2, 1)], [(6, 1)], [(8, 1)], [(9, 1)], [(7, 1)], [(16, 1), (17, 1), (19, 1), (20, 0)],
    [(21, 1), (22, 1)], [(18, 2)], [(4, 2)], [(10, 2), (11, 2), (12, 2), (13, 2)], [], [(3, 2)],
    [(20, 1)] ++ statements0, [(19, 2)] ++ stmtCond0, [(16, 2)], [(17, 2)], [(21, 2)] ++ stmt0,
    [(22, 2)], [(18, 3)] ++ statements0, [(4, 3)], [(11, 3), (12, 3), (13, 3)], [(10, 3)],
    [(3, 1), (20, 2)] ++ statement0, [(19, 3)], [(16, 3)], [(17, 3)], [(21, 3)],
    [(22, 3)] ++ stmt0, [(3, 1), (18, 4)] ++ statement0, [(4, 4)], [(11, 4)], [(12, 4),
    (13, 4)], [(19, 4)] ++ statements0, [(17, 4)], [(22, 4)], [(12, 5), (13, 5)], [(3, 1),
    (19, 5)] ++ statement0, [(12, 6)], [(13, 6)], [(13, 7)], [(13, 8)]]

/-- The tokens that the nonterminals from `$accept` on begin with. -/
def aspFirst : List (List GbToken) :=
  let stmt := [.gbId, .gbString]
  let all := [.gbIf, .gbScript, .gbHtmlBlock] ++ stmt
  [all, all, all, all, stmt, [.gbId], stmt, [.gbIf], [.gbIf], [.gbElse], stmt]

/-- The tokens that follow them. -/
def aspFollow : List (List (Option GbToken)) :=
  let all := [none, some .gbElse, some .gbElseif, some .gbEnd, some .gbIf, some .gbScript,
    some .gbHtmlBlock, some .gbId, some .gbString]
  let stmt := all ++ [some .gbThen, some (.char '='), some (.char '<')]
  [[none], [none], all, all, stmt, stmt, stmt, all,
    [some .gbElse, some .gbElseif, some .gbEnd], [some .gbEnd], [some .gbThen]]

def aspItems : LrItems GbToken Nat where
  start := 0
  items := fun q => (aspStates[q]?).getD []
  first := fun a => (aspFirst[a - ntAccept]?).getD []
  follow := fun a => (aspFollow[a - ntAccept]?).getD []

/-! ## What is checked of the tables -/

/-- The states that the parser enters. It accepts instead of entering state 18. -/
def statesEntered : List Nat := (List.range 49).filter (· != 18)

/-- The state that a token leads to. -/
def shiftTarget : LrAction → List Nat
  | .shift q => [q]
  | _ => []

theorem mem_shiftTarget {a : LrAction} {q : Nat} (h : a = .shift q) : q ∈ shiftTarget a := by
  rw [h]
  exact List.mem_singleton.mpr rfl

/-- All items of a state come from items of another one, by a symbol. -/
def comesFrom (q : Nat) (X : GramSym GbToken Nat) (q' : Nat) : Bool :=
  (aspItems.items q').all fun i =>
    i.2 == 0 || (aspGrammar.next i.1 (i.2 - 1) == some X &&
      (aspItems.items q).contains (i.1, i.2 - 1))

/-- The table leads on with a symbol, and has the items of its rules. -/
def leadsOn (q : Nat) (i : Nat × Nat) : GramSym GbToken Nat → Bool
  | .term t => (shiftTarget (aspTables.action q (some t))).any fun q' =>
      (aspItems.items q').contains (i.1, i.2 + 1)
  | .nonterm a => (aspItems.items (aspTables.goto q a)).contains (i.1, i.2 + 1) &&
      (List.range aspGrammar.rules.length).all fun k =>
        (aspGrammar.rules[k]?).all fun r =>
          r.1 != a || (aspItems.items q).contains (k, 0) && k != aspItems.start

/-- The symbol as a nonterminal. -/
def nontermOf : GramSym GbToken Nat → List Nat
  | .nonterm a => [a]
  | .term _ => []

/-- What can stand behind a symbol of a rule can follow it. -/
def followsIn (r : Nat × List (GramSym GbToken Nat)) (d : Nat) (a : Nat) : Bool :=
  match r.2[d + 1]? with
  | some X => (aspItems.firstOf X).all fun t => (aspItems.follow a).contains (some t)
  | none => (aspItems.follow r.1).all (aspItems.follow a).contains

/-- The rank of a state: how far the symbol before it is from a token, by rules of one symbol. -/
def aspRank (q : Nat) : Nat :=
  if q = 6 then 5
  else if q ∈ [7, 30, 36, 44] then 4
  else if q ∈ [8, 19] then 3
  else if q ∈ [9, 12, 14, 34, 42] then 2
  else if q ∈ [10, 11] then 1
  else 0

/-- What is checked of the tables, once, by the instance below. -/
class YyTables : Prop where
  shifts : ∀ q ∈ List.range 49, ∀ t ∈ gbTokens,
    ∀ q' ∈ shiftTarget (aspTables.action q (some t)),
      q' ≠ 0 ∧ q' ∈ statesEntered ∧ comesFrom q (gbTok t) q' = true
  gotos : ∀ q ∈ List.range 49, ∀ i ∈ aspItems.items q, i.2 = 0 → i.1 ≠ 0 →
    ∀ r ∈ (aspGrammar.rules[i.1]?).toList, yyGoto q r.1 ≠ 0 ∧ yyGoto q r.1 ∈ statesEntered ∧
      comesFrom q (.nonterm r.1) (yyGoto q r.1) = true
  defaults : ∀ q ∈ statesEntered, (yydefact[q]?).getD 0 ≠ 0 →
    (yydefact[q]?).getD 0 ≠ 1 ∧
      ∃ r ∈ (aspGrammar.rules[(yydefact[q]?).getD 0 - 1]?).toList,
        ((yydefact[q]?).getD 0 - 1, r.2.length) ∈ aspItems.items q
  leads : ∀ q ∈ List.range 49, ∀ i ∈ aspItems.items q,
    (∃ r ∈ (aspGrammar.rules[i.1]?).toList, i.2 ≤ r.2.length) ∧
      ∀ X ∈ (aspGrammar.next i.1 i.2).toList, leadsOn q i X = true
  reductions : ∀ q ∈ List.range 49, ∀ i ∈ aspItems.items q, i.1 ≠ 0 →
    ∀ r ∈ (aspGrammar.rules[i.1]?).toList, i.2 = r.2.length →
      ∀ la ∈ aspItems.follow r.1, aspTables.action q la = .reduce i.1
  follows : ∀ r ∈ aspGrammar.rules, ∀ d ∈ List.range r.2.length,
    ∀ X ∈ r.2[d]?.toList, ∀ a ∈ nontermOf X, followsIn r d a = true
  accepts : ∀ q ∈ List.range 49,
    (aspTables.action q none = .accept → (0, 1) ∈ aspItems.items q) ∧
      ((0, 1) ∈ aspItems.items q → aspTables.action q none = .accept) ∧
      (∀ t ∈ gbTokens, aspTables.action q (some t) ≠ .accept) ∧
      shiftTarget (aspTables.action q none) = []
  initial : (∀ i ∈ aspItems.items 0, i.2 = 0) ∧
    ∀ q ∈ List.range 49, (0, 0) ∈ aspItems.items q → q = 0
  firsts : ∀ r ∈ aspGrammar.rules, r.2 ≠ [] ∧
    ∀ X ∈ r.2[0]?.toList, ∀ t ∈ aspItems.firstOf X, t ∈ aspItems.first r.1
  ranks : ∀ q ∈ statesEntered,
    ∀ r ∈ (aspGrammar.rules[(yydefact[q]?).getD 0 - 1]?).toList, (yydefact[q]?).getD 0 ≠ 0 →
      r.2.length = 1 → ∀ q' ∈ statesEntered, aspRank q < aspRank (yyGoto q' r.1)
  /-- Only state 3 reduces the rule of an HTML block. No token is read in it, and no nonterminal
  leads to it. -/
  html : (∀ q ∈ statesEntered, (yydefact[q]?).getD 0 = 6 → q = 3) ∧
    (yypact[3]?).getD yypactNinf = yypactNinf ∧
    ∀ q ∈ statesEntered, ∀ r ∈ aspGrammar.rules, yyGoto q r.1 ≠ 3
  rules : ∀ n ∈ List.range' 1 22, ∀ r ∈ (aspGrammar.rules[n]?).toList,
    (yyr1[n + 1]?).getD 0 = r.1 ∧ (yyr2[n + 1]?).getD 0 = r.2.length

instance : YyTables where
  shifts := by decide +kernel
  gotos := by decide +kernel
  defaults := by decide +kernel
  leads := by decide +kernel
  reductions := by decide +kernel
  follows := by decide +kernel
  accepts := by decide +kernel
  initial := by decide +kernel
  firsts := by decide +kernel
  ranks := by decide +kernel
  html := by decide +kernel
  rules := by decide +kernel

/-! ## The tables have the items -/

theorem items_range {q : Nat} {i : Nat × Nat} (h : i ∈ aspItems.items q) : q ∈ List.range 49 := by
  refine List.mem_range.mpr (Nat.lt_of_not_le fun hge => ?_)
  have hnone : aspStates[q]? = none := List.getElem?_eq_none hge
  have hnil : aspItems.items q = [] := by
    simp only [aspItems, hnone, Option.getD_none]
  rw [hnil] at h
  cases h

theorem yyDefault_cases (q : Nat) : yyDefault q = .error ∨
    (yydefact[q]?).getD 0 ≠ 0 ∧ yyDefault q = .reduce ((yydefact[q]?).getD 0) := by
  unfold yyDefault
  by_cases h : (yydefact[q]?).getD 0 = 0
  · exact .inl (if_pos h)
  · exact .inr ⟨h, if_neg h⟩

/-- No state has a reduction that is not its default one. -/
theorem yyLookup_cases (q t : Nat) : yyLookup q t = yyDefault q ∨ yyLookup q t = .error ∨
    yyLookup q t = .accept ∨ ∃ q', yyLookup q t = .shift q' := by
  have hentry : ∀ i, 0 ≤ (yyAt yytable i).getD 0 := by
    intro i
    unfold yyAt
    split
    · exact Int.le_refl 0
    · cases hat : yytable[i.toNat]? with
      | none => exact Int.le_refl 0
      | some x =>
        have hall : ∀ x ∈ yytable, 0 ≤ x := by decide
        exact hall x (List.mem_of_getElem? hat)
  unfold yyLookup
  by_cases hdef : (yypact[q]?).getD yypactNinf + t < 0 ∨
      yyLast < (yypact[q]?).getD yypactNinf + t ∨
      yyAt yycheck ((yypact[q]?).getD yypactNinf + t) ≠ some (t : Int)
  · exact .inl (if_pos hdef)
  · have hnonneg := hentry ((yypact[q]?).getD yypactNinf + t)
    simp only [if_neg hdef]
    split
    · exact .inr (.inl (if_pos (.inl (by omega))))
    · split
      · exact .inr (.inr (.inl rfl))
      · exact .inr (.inr (.inr ⟨_, rfl⟩))

theorem yyTable_reduce {q n : Nat} {la : Option GbToken} (h : yyTable q la = .reduce n) :
    (yydefact[q]?).getD 0 ≠ 0 ∧ n = (yydefact[q]?).getD 0 := by
  have hdef : yyDefault q = .reduce n := by
    have hlookup : ∀ t, yyLookup q t = .reduce n → yyDefault q = .reduce n := by
      intro t ht
      rcases yyLookup_cases q t with hd | hd | hd | ⟨q', hd⟩
      · rw [← hd, ht]
      · rw [hd] at ht
        cases ht
      · rw [hd] at ht
        cases ht
      · rw [hd] at ht
        cases ht
    unfold yyTable at h
    split at h
    · exact h
    · cases la with
      | none => exact hlookup 0 h
      | some t =>
        simp only at h
        split at h
        · exact hlookup _ h
        · cases h
  rcases yyDefault_cases q with hd | ⟨hne, hd⟩
  · rw [hd] at hdef
    cases hdef
  · rw [hd] at hdef
    exact ⟨hne, (LrAction.reduce.inj hdef).symm⟩

/-- A shift or the acceptance is in a state of the table, before a token of the grammar. -/
theorem yyTable_range {q : Nat} {la : Option GbToken} (hreduce : ∀ n, yyTable q la ≠ .reduce n)
    (herr : yyTable q la ≠ .error) : q ∈ List.range 49 ∧ ∀ t ∈ la, t ∈ gbTokens := by
  unfold yyTable at hreduce herr
  by_cases hpact : (yypact[q]?).getD yypactNinf = yypactNinf
  · simp only [if_pos hpact] at hreduce herr
    rcases yyDefault_cases q with hd | ⟨-, hd⟩
    · exact absurd hd herr
    · exact absurd hd (hreduce _)
  · refine ⟨List.mem_range.mpr (Nat.lt_of_not_le fun hge => hpact ?_), ?_⟩
    · have hnone : yypact[q]? = none := List.getElem?_eq_none hge
      rw [hnone]
      rfl
    · intro t ht
      obtain rfl := Option.mem_def.mp ht
      by_contra hmem
      rw [if_neg hpact] at herr
      exact herr (if_neg hmem)

theorem ruleIndex_cases {a b : LrAction} (h : ruleIndex a = b) :
    (∃ q, a = .shift q ∧ b = .shift q) ∨ (∃ n, a = .reduce n ∧ b = .reduce (n - 1)) ∨
      (a = .accept ∧ b = .accept) ∨ (a = .error ∧ b = .error) := by
  subst h
  cases a with
  | shift q => exact .inl ⟨q, rfl, rfl⟩
  | reduce n => exact .inr (.inl ⟨n, rfl, rfl⟩)
  | accept => exact .inr (.inr (.inl ⟨rfl, rfl⟩))
  | error => exact .inr (.inr (.inr ⟨rfl, rfl⟩))

theorem aspAction_shift {q q' : Nat} {la : Option GbToken}
    (h : aspTables.action q la = .shift q') : yyTable q la = .shift q' ∧ q ∈ List.range 49 ∧
      ∃ t ∈ gbTokens, la = some t := by
  have hshift : yyTable q la = .shift q' := by
    rcases ruleIndex_cases h with ⟨_, ha, hb⟩ | ⟨_, -, hb⟩ | ⟨-, hb⟩ | ⟨-, hb⟩
    · rw [ha, LrAction.shift.inj hb]
    · cases hb
    · cases hb
    · cases hb
  obtain ⟨hq, hla⟩ := yyTable_range (fun n hn => by rw [hshift] at hn; cases hn)
    (fun hn => by rw [hshift] at hn; cases hn)
  refine ⟨hshift, hq, ?_⟩
  cases la with
  | none =>
    have hnil := (YyTables.accepts q hq).2.2.2
    rw [h] at hnil
    cases hnil
  | some t => exact ⟨t, hla t rfl, rfl⟩

theorem aspAction_accept {q : Nat} {la : Option GbToken} (h : aspTables.action q la = .accept) :
    yyTable q la = .accept ∧ la = none ∧ (0, 1) ∈ aspItems.items q := by
  have haccept : yyTable q la = .accept := by
    rcases ruleIndex_cases h with ⟨_, -, hb⟩ | ⟨_, -, hb⟩ | ⟨ha, -⟩ | ⟨-, hb⟩
    · cases hb
    · cases hb
    · exact ha
    · cases hb
  obtain ⟨hq, hla⟩ := yyTable_range (fun n hn => by rw [haccept] at hn; cases hn)
    (fun hn => by rw [haccept] at hn; cases hn)
  refine ⟨haccept, ?_⟩
  cases la with
  | none => exact ⟨rfl, (YyTables.accepts q hq).1 h⟩
  | some t => exact absurd h ((YyTables.accepts q hq).2.2.1 t (hla t rfl))

theorem aspAction_reduce {q n : Nat} {la : Option GbToken}
    (h : aspTables.action q la = .reduce n) :
    yyTable q la = .reduce (n + 1) ∧ (yydefact[q]?).getD 0 = n + 1 := by
  rcases ruleIndex_cases h with ⟨_, -, hb⟩ | ⟨k, ha, hb⟩ | ⟨-, hb⟩ | ⟨-, hb⟩
  · cases hb
  · obtain ⟨hne, hk⟩ := yyTable_reduce ha
    have hn := LrAction.reduce.inj hb
    obtain rfl : k = n + 1 := by omega
    exact ⟨ha, hk.symm⟩
  · cases hb
  · cases hb

theorem aspTrans {q q' : Nat} {X : GramSym GbToken Nat}
    (h : LrTrans aspGrammar aspTables aspItems q X q') :
    q' ≠ 0 ∧ q' ∈ statesEntered ∧ comesFrom q X q' = true := by
  cases h with
  | term haction =>
    obtain ⟨-, hq, t, ht, hla⟩ := aspAction_shift haction
    obtain rfl := Option.some.inj hla
    exact YyTables.shifts q hq _ ht q' (mem_shiftTarget haction)
  | @nonterm n r num inner item =>
    exact YyTables.gotos q (items_range item) _ item rfl inner r (Option.mem_toList.mpr num)

theorem aspEntered {q : Nat} (h : LrEntered aspGrammar aspTables aspItems q) :
    q ∈ statesEntered := by
  rcases h with rfl | ⟨q₀, X, h⟩
  · decide
  · exact (aspTrans h).2.1

/-- **The tables are those of an SLR parser.** -/
theorem aspSlr : Slr aspGrammar aspTables aspItems (ntAccept, ntAspfile) where
  start_rule := rfl
  initial := fun h => YyTables.initial.1 _ h
  entered := fun h => (aspTrans h).1
  starts := fun h => YyTables.initial.2 _ (items_range h) h
  back := by
    intro q X q' n d htrans hitem
    have hall := List.all_eq_true.mp (aspTrans htrans).2.2 (n, d + 1) hitem
    simp only [Nat.add_one_sub_one, Bool.or_eq_true, beq_iff_eq, Nat.add_one_ne_zero, false_or,
      Bool.and_eq_true, List.contains_iff_mem] at hall
    exact hall
  reduced := by
    intro q la n hentered haction
    obtain ⟨-, hdef⟩ := aspAction_reduce haction
    obtain ⟨hne, r, hr, hitem⟩ := YyTables.defaults q (aspEntered hentered) (by omega)
    rw [hdef] at hr hitem hne
    exact ⟨r, Option.mem_toList.mp hr, hitem, fun hstart => hne (congrArg Nat.succ hstart)⟩
  accepted := fun h => (aspAction_accept h).2

/-- **Everything that is derived is accepted by them.** -/
theorem aspSlrComplete : SlrComplete aspGrammar aspTables aspItems (ntAccept, ntAspfile) where
  toSlr := aspSlr
  start_item := List.mem_cons_self
  bound := by
    intro q n d hitem
    obtain ⟨r, hr, hle⟩ := (YyTables.leads q (items_range hitem) _ hitem).1
    exact ⟨r, Option.mem_toList.mp hr, hle⟩
  shift := by
    intro q n d t hitem hnext
    have hleads := (YyTables.leads q (items_range hitem) _ hitem).2 _ (Option.mem_toList.mpr hnext)
    obtain ⟨q', hq', hmem⟩ := List.any_eq_true.mp hleads
    refine ⟨q', ?_, List.contains_iff_mem.mp hmem⟩
    cases haction : aspTables.action q (some t) with
    | shift q'' =>
      rw [haction] at hq'
      rw [List.mem_singleton.mp hq']
    | reduce n =>
      rw [haction] at hq'
      cases hq'
    | accept =>
      rw [haction] at hq'
      cases hq'
    | error =>
      rw [haction] at hq'
      cases hq'
  goto := by
    intro q n d a hitem hnext
    have hleads := (YyTables.leads q (items_range hitem) _ hitem).2 _ (Option.mem_toList.mpr hnext)
    exact List.contains_iff_mem.mp (Bool.and_eq_true_iff.mp hleads).1
  closure := by
    intro q n d a k r hitem hnext hr hra
    have hleads := (YyTables.leads q (items_range hitem) _ hitem).2 _ (Option.mem_toList.mpr hnext)
    have hlt : k < aspGrammar.rules.length := (List.getElem?_eq_some_iff.mp hr).choose
    have hk := List.all_eq_true.mp (Bool.and_eq_true_iff.mp hleads).2 k (List.mem_range.mpr hlt)
    rw [hr] at hk
    simpa only [Option.all_some, hra, bne_self_eq_false, Bool.false_or, Bool.and_eq_true,
      List.contains_iff_mem, bne_iff_ne, ne_eq] using hk
  reduce := by
    intro q n la r hitem hr hne hla
    have hr := Option.mem_toList.mpr hr
    exact YyTables.reductions q (items_range hitem) _ hitem hne r hr rfl la hla
  accept := fun h => (YyTables.accepts _ (items_range h)).2.1 h
  nonempty := fun h => (YyTables.firsts _ (List.mem_of_getElem? h)).1
  first_rule := by
    intro n X t r hr hnext ht
    rw [Grammar.next, hr, Option.bind_some] at hnext
    exact (YyTables.firsts r (List.mem_of_getElem? hr)).2 X (Option.mem_toList.mpr hnext) t ht
  follow_next := by
    intro n d a X t hnext hnext' ht
    obtain ⟨r, hr, hd⟩ := Option.bind_eq_some_iff.mp hnext
    rw [Grammar.next, hr, Option.bind_some] at hnext'
    have hlt : d < r.2.length := (List.getElem?_eq_some_iff.mp hd).choose
    have hf := YyTables.follows r (List.mem_of_getElem? hr) d (List.mem_range.mpr hlt) _
      (Option.mem_toList.mpr hd) a List.mem_cons_self
    simp only [followsIn, hnext'] at hf
    exact List.contains_iff_mem.mp (List.all_eq_true.mp hf t ht)
  follow_last := by
    intro n d a la r hr hnext hlast hla
    rw [Grammar.next, hr, Option.bind_some] at hnext
    have hlt : d < r.2.length := (List.getElem?_eq_some_iff.mp hnext).choose
    have hf := YyTables.follows r (List.mem_of_getElem? hr) d (List.mem_range.mpr hlt) _
      (Option.mem_toList.mpr hnext) a List.mem_cons_self
    have hnone : r.2[d + 1]? = none := List.getElem?_eq_none (Nat.le_of_eq hlast)
    simp only [followsIn, hnone] at hf
    exact List.contains_iff_mem.mp (List.all_eq_true.mp hf la hla)
  follow_end := List.mem_cons_self

theorem aspRanked : LrRanked aspGrammar aspTables aspItems aspRank 5 where
  le := by
    intro q
    unfold aspRank
    repeat' split
    all_goals decide
  nonempty := fun h => (YyTables.firsts _ (List.mem_of_getElem? h)).1
  unit := by
    intro q n la r hentered haction hr hone q' hentered'
    obtain ⟨-, hdef⟩ := aspAction_reduce haction
    have hrank := YyTables.ranks q (aspEntered hentered) r
    rw [hdef] at hrank
    exact hrank (Option.mem_toList.mpr hr) (Nat.succ_ne_zero n) hone q' (aspEntered hentered')

theorem aspRuns (room : Nat) (toks : List LexToken) (m : AspReent) :
    ∃ r, lrRun aspGrammar aspTables (aspSem room) (yyMaxdepth - 1) (6 * (2 * toks.length + 1))
      ⟨[], toks, m⟩ = some r :=
  aspSlr.runs aspRanked (by decide) toks m

/-! ## The tokens of the scanner -/

theorem checkId_mem (token : Str) (len : Nat) : checkId token len ∈ gbTokens := by
  unfold checkId
  split
  · rename_i k hk
    have hall : ∀ k ∈ keywords, k.2 ∈ gbTokens := by decide
    exact hall k (List.mem_of_find?_eq_some hk)
  · decide

theorem wordAt_mem {cur : Str} {len : Nat} {tok : LexToken} (h : wordAt cur len = .ok tok) :
    tok.1 ∈ gbTokens := by
  unfold wordAt at h
  cases htext : textAt cur len with
  | error f =>
    rw [htext] at h
    cases h
  | ok w =>
    rw [htext] at h
    obtain rfl := Except.ok.inj h
    exact checkId_mem cur len

theorem punct_mem {c : Char} (h : isPunct c = true) : GbToken.char c ∈ gbTokens := by
  simp only [isPunct, Bool.or_eq_true, decide_eq_true_eq] at h
  rcases h with ((((rfl | rfl) | rfl) | rfl) | rfl) | rfl <;> decide

theorem map_ok {α β : Type} {x : Except LexFault α} {f : α → β} {b : β}
    (h : x.map f = .ok b) : ∃ a, x = .ok a ∧ f a = b := by
  cases x with
  | error e => cases h
  | ok a => exact ⟨a, rfl, Except.ok.inj h⟩

theorem lexLoop_token {state inString : Bool} {cur : Str} {len : Nat} {r r' : Str}
    {tok : LexToken} (h : lexLoop state inString cur len r = .ok (some tok, r')) :
    tok.1 ∈ gbTokens := by
  have hword : ∀ {cur : Str} {len : Nat} {r : Str},
      (wordAt cur len).map (fun t => (some t, r)) = .ok (some tok, r') → tok.1 ∈ gbTokens := by
    intro cur len r hmap
    obtain ⟨t, ht, heq⟩ := map_ok hmap
    rw [← Option.some.inj (Prod.mk.inj heq).1]
    exact wordAt_mem ht
  have hstring : GbToken.gbString ∈ gbTokens := by decide
  fun_induction lexLoop state inString cur len r with
  | case1 => cases h
  | case2 =>
    obtain ⟨w, -, heq⟩ := map_ok h
    rw [← Option.some.inj (Prod.mk.inj heq).1]
    exact hstring
  | case3 =>
    rename_i ih
    exact ih h
  | case4 => exact hword h
  | case5 =>
    rename_i ih
    exact ih h
  | case6 => cases h
  | case7 => cases h
  | case8 =>
    rename_i ih
    exact ih h
  | case9 =>
    rename_i hpunct
    rw [← Option.some.inj (Prod.mk.inj (Except.ok.inj h)).1]
    exact punct_mem hpunct
  | case10 =>
    rename_i ih
    exact ih h
  | case11 => exact hword h
  | case12 =>
    rename_i ih
    exact ih h

theorem htmlBlock_token {inAsp : Bool} {cur : Str} {s' : LexState} {tok : LexToken}
    (h : htmlBlock inAsp cur = .ok (some tok, s')) : tok.1 ∈ gbTokens := by
  have hblock : ∀ {w : Except LexFault Str} {st : LexState},
      w.map (fun w => (some (GbToken.gbHtmlBlock, w), st)) = .ok (some tok, s') →
        tok.1 ∈ gbTokens := by
    have hhtml : GbToken.gbHtmlBlock ∈ gbTokens := by decide
    intro w st hmap
    obtain ⟨w', -, heq⟩ := map_ok hmap
    rw [← Option.some.inj (Prod.mk.inj heq).1]
    exact hhtml
  unfold htmlBlock at h
  split at h
  · exact hblock h
  · split at h
    · exact hblock h
    · cases h

theorem gbLex_token {s s' : LexState} {tok : LexToken} (h : gbLex s = .ok (some tok, s')) :
    tok.1 ∈ gbTokens := by
  unfold gbLex at h
  split at h
  · cases h
  · split at h
    · split at h
      · cases h
      · rename_i hlex
        obtain ⟨htok, -⟩ := Prod.mk.inj (Except.ok.inj h)
        rw [← Option.some.inj htok]
        exact lexLoop_token hlex
      · exact htmlBlock_token h
    · exact htmlBlock_token h

theorem Lexes.tokens {s : LexState} {toks : List LexToken} {e : LexEnd} (h : Lexes s toks e) :
    ∀ t ∈ toks, t.1 ∈ gbTokens := by
  induction h with
  | eof call => exact fun t ht => absurd ht List.not_mem_nil
  | fault call => exact fun t ht => absurd ht List.not_mem_nil
  | token call calls ih =>
    intro t ht
    rcases List.mem_cons.mp ht with rfl | ht
    · exact gbLex_token call
    · exact ih t ht

/-! ## `gb_parse` is this parser -/

/-- What has been read of the tokens: none of them, one, or their end. -/
inductive YyReads (e : LexEnd) :
    Option (Option LexToken) → LexState → Option Str → List LexToken → Prop
  | unread {lex : LexState} {cur : Option Str} {toks : List LexToken} (calls : Lexes lex toks e) :
      YyReads e none lex cur toks
  | token {t : LexToken} {lex : LexState} {toks : List LexToken} (calls : Lexes lex toks e) :
      YyReads e (some (some t)) lex (some t.2) (t :: toks)
  | eof {lex : LexState} {cur : Option Str} (ended : e = .eof) : YyReads e (some none) lex cur []

/-- `gb_parse` and the parser are in the same state. Where an HTML block is to be reduced, its token
is the last one that has been read. -/
structure YySim (e : LexEnd) (c : YyConf) (d : LrConfig LexToken YyStype AspReent) : Prop where
  stack : d.stack = c.stack
  mem : d.mem = c.reent
  reads : YyReads e c.yychar c.lex c.cur d.input
  tokens : ∀ t ∈ d.input, t.1 ∈ gbTokens
  html : c.state = 3 →
    c.yychar = none ∧ ∃ text st, c.stack = (3, .text text) :: st ∧ c.cur = some text

/-- The results are the same. The messages have no counterpart. -/
inductive YyAgrees (e : LexEnd) :
    LrResult LexToken YyStype AspReent ParseFault → YyResult → Prop
  | accepted {v : YyStype} {r : AspReent} (ended : e = .eof) :
      YyAgrees e (.accepted v r) (.accepted r)
  | rejected {d : LrConfig LexToken YyStype AspReent} {msg : Str} :
      YyAgrees e (.rejected d) (.rejected msg)
  | overflow {r : AspReent} {msg : Str} : YyAgrees e (.overflow r) (.rejected msg)
  | fault {f : ParseFault} : YyAgrees e (.fault f) (.fault (.action f))
  | lex {r : LrResult LexToken YyStype AspReent ParseFault} {f : LexFault} (ended : e = .fault f) :
      YyAgrees e r (.fault (.lex f))

/-- The steps are the same, unless the scanner ends `gb_parse`. -/
inductive YyFollows (e : LexEnd) :
    LrStep LexToken YyStype AspReent ParseFault → YyStep → Prop
  | next {d : LrConfig LexToken YyStype AspReent} {c : YyConf} (sim : YySim e c d) :
      YyFollows e (.next d) (.next c)
  | done {r : LrResult LexToken YyStype AspReent ParseFault} {r' : YyResult}
      (agrees : YyAgrees e r r') : YyFollows e (.done r) (.done r')
  | lex {s : LrStep LexToken YyStype AspReent ParseFault} {f : LexFault} (ended : e = .fault f) :
      YyFollows e s (.done (.fault (.lex f)))

section Sim

variable {e : LexEnd} {c : YyConf} {d : LrConfig LexToken YyStype AspReent} {room : Nat}

theorem YySim.top (h : YySim e c d) : aspTables.top d.stack = c.state := by
  rw [LrTables.top, h.stack]
  rfl

/-- The token that the tables look at, once it has been read. -/
theorem YyReads.look {tok : Option LexToken} {lex : LexState} {cur : Option Str}
    {toks : List LexToken} (h : YyReads e (some tok) lex cur toks) : toks.head? = tok := by
  cases h with
  | token calls => rfl
  | eof ended => rfl

theorem YyReads.shifted {tok : Option LexToken} {lex : LexState} {cur : Option Str}
    {t : LexToken} {toks : List LexToken} (h : YyReads e (some tok) lex cur (t :: toks)) :
    tok = some t ∧ Lexes lex toks e ∧ cur = some t.2 := by
  cases h with
  | token calls => exact ⟨rfl, calls, rfl⟩

theorem YyReads.ended {tok : Option LexToken} {lex : LexState} {cur : Option Str}
    (h : YyReads e (some tok) lex cur []) : e = .eof := by
  cases h with
  | eof ended => exact ended

theorem YyReads.calls {lex : LexState} {cur : Option Str} {toks : List LexToken}
    (h : YyReads e none lex cur toks) : Lexes lex toks e := by
  cases h with
  | unread calls => exact calls

theorem yyNewstate_follows {q : Nat} {v : YyStype} (hstack : d.stack = c.stack)
    (hmem : d.mem = c.reent) (hreads : YyReads e c.yychar c.lex c.cur d.input)
    (htokens : ∀ t ∈ d.input, t.1 ∈ gbTokens)
    (hhtml : q = 3 → c.yychar = none ∧ ∃ text, v = .text text ∧ c.cur = some text) :
    YyFollows e (lrPush (yyMaxdepth - 1) q v d) (yyNewstate q v c) := by
  unfold lrPush yyNewstate
  rw [hstack]
  split
  · exact .done .overflow
  · refine .next ⟨rfl, hmem, hreads, htokens, ?_⟩
    intro hq
    obtain ⟨hnone, text, rfl, hcur⟩ := hhtml hq
    obtain rfl : q = 3 := hq
    exact ⟨hnone, text, c.stack, rfl, hcur⟩

/-- Only one rule takes a text from the scanner. -/
theorem yyAction_cur {n : Nat} (hn : n ≠ 6) (cur cur' : Option Str) (vals : List YyStype)
    (r : AspReent) : yyAction room cur n vals r = yyAction room cur' n vals r := by
  unfold yyAction
  split <;> first | rfl | exact absurd rfl hn

theorem aspSem_act {n : Nat} {vals : List YyStype} {r : AspReent} {cur : Option Str}
    (h : n = 5 → ∃ text, vals = [.text text] ∧ cur = some text) :
    (aspSem room).act n vals r = yyAction room cur (n + 1) vals r := by
  by_cases hn : n = 5
  · obtain ⟨text, rfl, rfl⟩ := h hn
    rfl
  · exact yyAction_cur (fun h => hn (Nat.succ.inj h)) _ _ vals r

theorem yyReduce_follows {n : Nat} (h : YySim e c d)
    (hentered : ∀ k, aspTables.top (d.stack.drop k) ∈ statesEntered)
    (htable : aspTables.action (aspTables.top d.stack) (d.input.head?.map Prod.fst) = .reduce n)
    (hn : n ∈ List.range' 1 22) :
    YyFollows e (lrStep aspGrammar aspTables (aspSem room) (yyMaxdepth - 1) d)
      (yyReduce room (n + 1) c) := by
  obtain ⟨-, hdef⟩ := aspAction_reduce htable
  have hlt : n < aspGrammar.rules.length := by
    have hle := (List.mem_range'_1.mp hn).2
    exact hle
  obtain ⟨r, hr⟩ : ∃ r, aspGrammar.rules[n]? = some r := ⟨_, List.getElem?_eq_getElem hlt⟩
  obtain ⟨hr1, hr2⟩ := YyTables.rules n hn r (Option.mem_toList.mpr hr)
  have hact : (aspSem room).act n ((d.stack.take r.2.length).reverse.map Prod.snd) d.mem =
      yyAction room c.cur (n + 1) ((c.stack.take r.2.length).reverse.map Prod.snd) c.reent := by
    rw [h.stack, h.mem]
    refine aspSem_act fun hfive => ?_
    subst hfive
    have htop : c.state = 3 := by
      rw [← h.top]
      exact YyTables.html.1 _ (hentered 0) hdef
    obtain ⟨-, text, st, hst, hcur⟩ := h.html htop
    obtain rfl := Option.some.inj hr
    exact ⟨text, by rw [hst]; rfl, hcur⟩
  have hkind : d.input.head?.map (aspSem room).kind = d.input.head?.map Prod.fst := rfl
  unfold yyReduce
  simp only [lrStep, hkind, htable, hr, hact, hr1, hr2]
  cases hres : yyAction room c.cur (n + 1)
      ((c.stack.take r.2.length).reverse.map Prod.snd) c.reent with
  | error f => exact .done .fault
  | ok vr =>
    have hstack : d.stack.drop r.2.length = c.stack.drop r.2.length := congrArg _ h.stack
    have hstate : aspTables.goto (aspTables.top (d.stack.drop r.2.length)) r.1 =
        yyGoto (YyConf.state { c with stack := c.stack.drop r.2.length, reent := vr.2 }) r.1 := by
      rw [hstack]
      rfl
    simp only [← hstate]
    refine yyNewstate_follows hstack rfl h.reads h.tokens fun hq => ?_
    exact absurd hq (YyTables.html.2.2 _ (hentered _) r (List.mem_of_getElem? hr))

theorem yyDo_follows {a : LrAction} (h : YySim e c d)
    (hentered : ∀ k, aspTables.top (d.stack.drop k) ∈ statesEntered)
    (htable : yyTable c.state (d.input.head?.map Prod.fst) = a)
    (hread : c.yychar = none → yyDefault c.state = a) :
    YyFollows e (lrStep aspGrammar aspTables (aspSem room) (yyMaxdepth - 1) d) (yyDo room c a) := by
  have htop : aspTables.action (aspTables.top d.stack) (d.input.head?.map (aspSem room).kind) =
      ruleIndex a := by
    rw [h.top, ← htable]
    rfl
  have hkind : d.input.head?.map (aspSem room).kind = d.input.head?.map Prod.fst := rfl
  cases a with
  | shift q =>
    obtain ⟨-, -, t, -, ht⟩ := aspAction_shift htop
    cases hinput : d.input with
    | nil =>
      rw [hinput] at ht
      cases ht
    | cons tok toks =>
      cases hchar : c.yychar with
      | none =>
        rcases yyDefault_cases c.state with hd | ⟨-, hd⟩
        · rw [hread hchar] at hd
          cases hd
        · rw [hread hchar] at hd
          cases hd
      | some look =>
        have hreads := h.reads
        rw [hchar, hinput] at hreads
        obtain ⟨rfl, hcalls, hcur⟩ := hreads.shifted
        rw [hinput] at htop
        simp only [lrStep, hinput, htop, ruleIndex, yyDo, hchar]
        refine yyNewstate_follows h.stack h.mem (.unread hcalls) ?_ fun _ => ⟨rfl, tok.2, rfl, hcur⟩
        exact fun t ht => h.tokens t (hinput ▸ List.mem_cons_of_mem tok ht)
  | reduce n =>
    obtain ⟨hne, hdef⟩ := yyTable_reduce htable
    have hchecked := YyTables.defaults _ (hentered 0) (by rw [List.drop_zero, h.top]; exact hne)
    rw [List.drop_zero, h.top, ← hdef] at hchecked
    obtain ⟨hone, r, hr, -⟩ := hchecked
    have hlt : n - 1 < 23 := (List.getElem?_eq_some_iff.mp (Option.mem_toList.mp hr)).choose
    obtain ⟨k, rfl⟩ : ∃ k, n = k + 1 := ⟨n - 1, by omega⟩
    exact yyReduce_follows h hentered htop (List.mem_range'_1.mpr (by omega))
  | accept =>
    obtain ⟨-, hla, hitem⟩ := aspAction_accept htop
    have hinput : d.input = [] := List.head?_eq_none_iff.mp (Option.map_eq_none_iff.mp hla)
    cases hst : d.stack with
    | nil =>
      rw [hst] at hitem
      cases YyTables.initial.1 _ hitem
    | cons v st =>
      cases hchar : c.yychar with
      | none =>
        rcases yyDefault_cases c.state with hd | ⟨-, hd⟩
        · rw [hread hchar] at hd
          cases hd
        · rw [hread hchar] at hd
          cases hd
      | some look =>
        have hreads := h.reads
        rw [hchar, hinput] at hreads
        rw [hst] at htop
        simp only [lrStep, hst, htop, ruleIndex, yyDo, ← h.mem]
        exact .done (.accepted hreads.ended)
  | error =>
    simp only [lrStep, htop, ruleIndex]
    exact .done .rejected

/-- **One step.** -/
theorem yyBackup_follows (h : YySim e c d)
    (hentered : ∀ k, aspTables.top (d.stack.drop k) ∈ statesEntered) :
    YyFollows e (lrStep aspGrammar aspTables (aspSem room) (yyMaxdepth - 1) d)
      (yyBackup room c) := by
  unfold yyBackup
  by_cases hpact : (yypact[c.state]?).getD yypactNinf = yypactNinf
  · rw [if_pos hpact]
    exact yyDo_follows h hentered (if_pos hpact) fun _ => rfl
  · rw [if_neg hpact]
    have hstate : c.state ≠ 3 := fun hthree => hpact (hthree ▸ YyTables.html.2.1)
    -- the token that is looked at, once it has been read
    have hlook : ∀ {c' : YyConf} {tok : Option LexToken}, c'.yychar = some tok →
        c'.state = c.state → YySim e c' d →
          YyFollows e (lrStep aspGrammar aspTables (aspSem room) (yyMaxdepth - 1) d)
            (yyDo room c' (yyLookup c'.state (yyToken tok))) := by
      intro c' tok hchar hsame hsim
      have hreads := hsim.reads
      rw [hchar] at hreads
      refine yyDo_follows hsim hentered ?_ fun hnone => ?_
      · rw [hreads.look, hsame]
        unfold yyTable
        rw [if_neg hpact]
        cases tok with
        | none => rfl
        | some t =>
          have ht := hsim.tokens t (List.mem_of_mem_head? (Option.mem_def.mpr hreads.look))
          exact if_pos ht
      · rw [hchar] at hnone
        cases hnone
    cases hchar : c.yychar with
    | some tok => exact hlook hchar rfl h
    | none =>
      have hreads := h.reads
      rw [hchar] at hreads
      have hcalls := hreads.calls
      have htokens := h.tokens
      generalize hinput : d.input = toks at hcalls htokens
      cases hcalls with
      | eof call =>
        simp only [call]
        exact hlook rfl rfl ⟨h.stack, h.mem, hinput ▸ .eof rfl, h.tokens, fun h => absurd h hstate⟩
      | fault call =>
        simp only [call]
        exact .lex rfl
      | token call calls =>
        simp only [call]
        exact hlook rfl rfl
          ⟨h.stack, h.mem, hinput ▸ .token calls, h.tokens, fun h => absurd h hstate⟩

/-- **A whole run**: `gb_parse` ends as the parser does, unless the scanner ends it before. -/
theorem yyParse_agrees {toks : List LexToken} {m : AspReent} {fuel : Nat}
    {r : LrResult LexToken YyStype AspReent ParseFault} (h : YySim e c d)
    (hinv : LrInv aspGrammar aspTables aspItems (aspSem room) (yyMaxdepth - 1) toks m d)
    (hrun : lrRun aspGrammar aspTables (aspSem room) (yyMaxdepth - 1) fuel d = some r) :
    ∃ r', yyParse room fuel c = some r' ∧ YyAgrees e r r' := by
  induction fuel generalizing c d with
  | zero => cases hrun
  | succ fuel ih =>
    have hentered : ∀ k, aspTables.top (d.stack.drop k) ∈ statesEntered := fun k =>
      aspEntered (hinv.entered k)
    have hfollows : YyFollows e
        (lrStep aspGrammar aspTables (aspSem room) (yyMaxdepth - 1) d) (yyBackup room c) :=
      yyBackup_follows h hentered
    rw [lrRun] at hrun
    rw [yyParse]
    cases hstep : lrStep aspGrammar aspTables (aspSem room) (yyMaxdepth - 1) d with
    | next d' =>
      rw [hstep] at hrun hfollows
      generalize yyBackup room c = s at hfollows
      cases hfollows with
      | next sim => exact ih sim (hinv.step aspSlr hstep) hrun
      | lex ended => exact ⟨_, rfl, .lex ended⟩
    | done r' =>
      rw [hstep] at hrun hfollows
      obtain rfl := Option.some.inj hrun
      generalize yyBackup room c = s at hfollows
      cases hfollows with
      | done agrees => exact ⟨_, rfl, agrees⟩
      | lex ended => exact ⟨_, rfl, .lex ended⟩

end Sim

/-! ## Pages -/

section Page

variable {page : Str} {toks : List LexToken} {e : LexEnd} {room : Nat}

theorem yyStart_sim (h : Lexes ⟨page, false⟩ toks e) :
    YySim e (yyStart page) ⟨[], toks, ⟨[], none⟩⟩ where
  stack := rfl
  mem := rfl
  reads := .unread h
  tokens := h.tokens
  html := fun hthree => absurd hthree (Nat.zero_ne_add_one 2)

theorem yyParse_add {fuel : Nat} {c : YyConf} {r : YyResult} (h : yyParse room fuel c = some r)
    (k : Nat) : yyParse room (fuel + k) c = some r := by
  induction fuel generalizing c with
  | zero => cases h
  | succ fuel ih =>
    rw [Nat.succ_add, yyParse]
    rw [yyParse] at h
    cases hstep : yyBackup room c with
    | next c' =>
      rw [hstep] at h
      exact ih h
    | done r' =>
      rw [hstep] at h
      exact h

/-- `gb_parse` ends with a result on a page. -/
def YyEnds (room : Nat) (page : Str) (r : YyResult) : Prop :=
  ∃ fuel, yyParse room fuel (yyStart page) = some r

theorem YyEnds.unique {r r' : YyResult} (h : YyEnds room page r) (h' : YyEnds room page r') :
    r = r' := by
  obtain ⟨fuel, hr⟩ := h
  obtain ⟨fuel', hr'⟩ := h'
  have h₁ := yyParse_add hr fuel'
  have h₂ := yyParse_add hr' fuel
  rw [Nat.add_comm] at h₂
  exact Option.some.inj (h₁.symm.trans h₂)

/-- **`gb_parse` ends on every page**, within a number of steps that is linear in the number of its
tokens. -/
theorem yyParse_ends (room : Nat) (h : Lexes ⟨page, false⟩ toks e) :
    ∃ r, yyParse room (6 * (2 * toks.length + 1)) (yyStart page) = some r := by
  obtain ⟨r, hr⟩ := aspRuns room toks ⟨[], none⟩
  obtain ⟨r', hr', -⟩ := yyParse_agrees (yyStart_sim h) (lrInv_init (by decide)) hr
  exact ⟨r', hr'⟩

/-- A result is that of the parser, unless the scanner has ended it. -/
theorem YyEnds.agrees {r : YyResult} (h : YyEnds room page r) (hlex : Lexes ⟨page, false⟩ toks e) :
    ∃ r₀, LrEnds aspGrammar aspTables (aspSem room) (yyMaxdepth - 1) ⟨[], toks, ⟨[], none⟩⟩ r₀ ∧
      YyAgrees e r₀ r := by
  obtain ⟨r₀, hr₀⟩ := aspRuns room toks ⟨[], none⟩
  obtain ⟨r', hr', hagrees⟩ := yyParse_agrees (yyStart_sim hlex) (lrInv_init (by decide)) hr₀
  obtain rfl := h.unique ⟨_, hr'⟩
  exact ⟨r₀, ⟨_, hr₀⟩, hagrees⟩

/-- **`gb_parse` accepts what `grammar.y` derives**, with the actions in the order of the
derivation, if the stack is high enough. -/
theorem yyEnds_accepted (h : Lexes ⟨page, false⟩ toks e) (r : AspReent) :
    YyEnds room page (.accepted r) ↔ e = .eof ∧ ∃ v p,
      Yields aspGrammar (aspSem room) [.nonterm ntAspfile] toks ⟨[], none⟩ [v] r p ∧
        p < yyMaxdepth - 1 := by
  have hlimit : 0 < yyMaxdepth - 1 := by decide
  constructor
  · intro hends
    obtain ⟨r₀, hr₀, hagrees⟩ := hends.agrees h
    cases hagrees with
    | @accepted v r heof => exact ⟨heof, v, (aspSlrComplete.accepts_iff hlimit).mp hr₀⟩
  · rintro ⟨rfl, v, hyields⟩
    obtain ⟨fuel, hfuel⟩ := (aspSlrComplete.accepts_iff hlimit).mpr hyields
    obtain ⟨r', hr', hagrees⟩ := yyParse_agrees (yyStart_sim h) (lrInv_init hlimit) hfuel
    cases hagrees with
    | accepted heof => exact ⟨fuel, hr'⟩
    | lex ended => cases ended

end Page

end OnuFirmware.Asp
