import OnuFirmware.Asp.Grammar

/-!
# The programs of pages

What the tokens of a page mean: a list of statements, some of which are conditions with branches.
`Spells` says which tokens spell which program. A program lies in the memory of `asp_reent` in one
piece, in the order in which its statements have been made: those of a test before it, the one of an
`Else` behind its branch. `At` says what its statements are then, and how they are linked.
-/

namespace OnuFirmware.Asp

open Clib

/-! ## Programs -/

/-- A statement without others in it. -/
inductive AspLeaf
  | html (text : Str)
  | id (text : Str)
  | string (text : Str)
  | call (func : Str) (params : List Str)
  | null
deriving Repr, DecidableEq

/-- A list of statements, its last one behind the others. A condition is the list of its branches,
each with its test; `otherwise` adds the branch behind `Else`. -/
inductive AspTree
  | leaf (l : AspLeaf)
  | seq (c d : AspTree)
  | arm (op : AspCondOp) (a b : AspLeaf) (act : AspTree)
  | elseif (c : AspTree) (op : AspCondOp) (a b : AspLeaf) (act : AspTree)
  | otherwise (c act : AspTree)
deriving Repr, DecidableEq

def AspLeaf.body : AspLeaf → AspBody
  | .html text => .html text
  | .id text => .id text
  | .string text => .string text
  | .call func params => .call func [params[0]?, params[1]?, params[2]?]
  | .null => .null

/-- The tokens of a value or a call. -/
inductive LeafText : AspLeaf → List LexToken → Prop
  | id (t : Str) : LeafText (.id t) [(.gbId, t)]
  | string (t : Str) : LeafText (.string t) [(.gbString, t)]
  | call0 (f x y : Str) : LeafText (.call f []) [(.gbId, f), (.char '(', x), (.char ')', y)]
  | call1 (f x a y : Str) :
      LeafText (.call f [a]) [(.gbId, f), (.char '(', x), (.gbString, a), (.char ')', y)]
  | call2 (f x a u b y : Str) :
      LeafText (.call f [a, b])
        [(.gbId, f), (.char '(', x), (.gbString, a), (.char ',', u), (.gbString, b), (.char ')', y)]
  | call3 (f x a u b v c y : Str) :
      LeafText (.call f [a, b, c])
        [(.gbId, f), (.char '(', x), (.gbString, a), (.char ',', u), (.gbString, b), (.char ',', v),
          (.gbString, c), (.char ')', y)]

/-- The tokens of a test. -/
inductive TestText : AspCondOp → AspLeaf → AspLeaf → List LexToken → Prop
  | equ {a b : AspLeaf} {ts us : List LexToken} (ha : LeafText a ts) (x : Str)
      (hb : LeafText b us) : TestText .equ a b (ts ++ (.char '=', x) :: us)
  | neq {a b : AspLeaf} {ts us : List LexToken} (ha : LeafText a ts) (x y : Str)
      (hb : LeafText b us) : TestText .neq a b (ts ++ (.char '<', x) :: (.char '>', y) :: us)

/-- What is spelled: a list of statements, a statement, or the branches of a condition before
`Else` or `End`. -/
inductive AspPhrase
  | stmts
  | stmt
  | arms
deriving Repr, DecidableEq

/-- **The tokens spell the program.** -/
inductive Spells : AspPhrase → AspTree → List LexToken → Prop
  | one {c : AspTree} {ts : List LexToken} (h : Spells .stmt c ts) : Spells .stmts c ts
  | seq {c d : AspTree} {ts us : List LexToken} (hc : Spells .stmts c ts)
      (hd : Spells .stmt d us) : Spells .stmts (.seq c d) (ts ++ us)
  | html (t : Str) : Spells .stmt (.leaf (.html t)) [(.gbHtmlBlock, t)]
  | script (x i y t : Str) :
      Spells .stmt (.leaf .null) [(.gbScript, x), (.gbId, i), (.char '=', y), (.gbString, t)]
  | value {l : AspLeaf} {ts : List LexToken} (h : LeafText l ts) : Spells .stmt (.leaf l) ts
  | cond {c : AspTree} {ts : List LexToken} (h : Spells .arms c ts) (x y : Str) :
      Spells .stmt c (ts ++ [(.gbEnd, x), (.gbIf, y)])
  | condElse {c act : AspTree} {ts us : List LexToken} (hc : Spells .arms c ts) (x : Str)
      (hact : Spells .stmts act us) (y z : Str) :
      Spells .stmt (.otherwise c act) (ts ++ (.gbElse, x) :: us ++ [(.gbEnd, y), (.gbIf, z)])
  | arm {op : AspCondOp} {a b : AspLeaf} {act : AspTree} {ts us : List LexToken} (x : Str)
      (test : TestText op a b ts) (y : Str) (hact : Spells .stmts act us) :
      Spells .arms (.arm op a b act) ((.gbIf, x) :: ts ++ (.gbThen, y) :: us)
  | elseif {c : AspTree} {op : AspCondOp} {a b : AspLeaf} {act : AspTree}
      {ts us vs : List LexToken} (hc : Spells .arms c vs) (x : Str) (test : TestText op a b ts)
      (y : Str) (hact : Spells .stmts act us) :
      Spells .arms (.elseif c op a b act) (vs ++ (.gbElseif, x) :: ts ++ (.gbThen, y) :: us)

/-- The places on the stack of the parser that a program needs. -/
def AspLeaf.need : AspLeaf → Nat
  | .call _ params => 2 * params.length + 2 + if params = [] then 1 else 0
  | .null => 4
  | _ => 1

def testNeed (op : AspCondOp) (a b : AspLeaf) : Nat :=
  max a.need ((if op = .equ then 2 else 3) + b.need)

def AspTree.need : AspTree → Nat
  | .leaf l => l.need
  | .seq c d => max c.need (d.need + 1)
  | .arm op a b act => max (testNeed op a b + 1) (act.need + 3)
  | .elseif c op a b act => max c.need (max (testNeed op a b + 2) (act.need + 4))
  | .otherwise c act => max c.need (max (act.need + 2) 4)

/-! ## Its place in the memory -/

/-- The number of its statements. -/
def AspTree.size : AspTree → Nat
  | .leaf _ => 1
  | .seq c d => c.size + d.size
  | .arm _ _ _ act => act.size + 3
  | .elseif c _ _ _ act => c.size + (act.size + 3)
  | .otherwise c act => c.size + (act.size + 1)

/-- The first statement of a program that lies at `lo`. A test comes behind its two values. -/
def AspTree.head (lo : Nat) : AspTree → Nat
  | .leaf _ => lo
  | .seq c _ => c.head lo
  | .arm _ _ _ _ => lo + 2
  | .elseif c _ _ _ _ => c.head lo
  | .otherwise c _ => c.head lo

/-- The last statement of the list. -/
def AspTree.tail (lo : Nat) : AspTree → Nat
  | .leaf _ => lo
  | .seq c d => d.tail (lo + c.size)
  | .arm _ _ _ _ => lo + 2
  | .elseif c _ _ _ _ => c.tail lo
  | .otherwise c _ => c.tail lo

/-- The last branch. -/
def AspTree.lastArm (lo : Nat) : AspTree → Nat
  | .leaf _ => lo
  | .seq _ _ => lo
  | .arm _ _ _ _ => lo + 2
  | .elseif c _ _ _ _ => lo + c.size + 2
  | .otherwise c act => lo + c.size + act.size

/-- The statements of a test: the two values and the condition, with its links. -/
structure TestAt (mem : List AspStmt) (op : AspCondOp) (a b : AspLeaf) (lo : Nat)
    (next last : Option Nat) (cond : Option Nat × Option Nat) (act : Option Nat) : Prop where
  fst : mem[lo]? = some ⟨none, some lo, a.body⟩
  snd : mem[lo + 1]? = some ⟨none, some (lo + 1), b.body⟩
  test : mem[lo + 2]? =
    some ⟨next, last, .cond ⟨cond.1, cond.2, op, some lo, some (lo + 1), act⟩⟩

/-- The program lies at `lo`. Its last statement is followed by `next`, its last branch by
`cond.1`; its first statement has `last` and `cond.2` as the pointers to the last ones. -/
def AspTree.At (mem : List AspStmt) :
    AspTree → (lo : Nat) → (next last : Option Nat) → (cond : Option Nat × Option Nat) → Prop
  | .leaf l, lo, next, last, _ => mem[lo]? = some ⟨next, last, l.body⟩
  | .seq c d, lo, next, last, _ =>
    c.At mem lo (some (d.head (lo + c.size))) last (none, some (c.lastArm lo)) ∧
      d.At mem (lo + c.size) next (some (d.head (lo + c.size)))
        (none, some (d.lastArm (lo + c.size)))
  | .arm op a b act, lo, next, last, cond =>
    TestAt mem op a b lo next last cond (some (act.head (lo + 3))) ∧
      act.At mem (lo + 3) none (some (act.tail (lo + 3))) (none, some (act.lastArm (lo + 3)))
  | .elseif c op a b act, lo, next, last, cond =>
    c.At mem lo next last (some (lo + c.size + 2), cond.2) ∧
      TestAt mem op a b (lo + c.size) none (some (lo + c.size + 2))
        (cond.1, some (lo + c.size + 2)) (some (act.head (lo + c.size + 3))) ∧
      act.At mem (lo + c.size + 3) none (some (act.tail (lo + c.size + 3)))
        (none, some (act.lastArm (lo + c.size + 3)))
  | .otherwise c act, lo, next, last, cond =>
    c.At mem lo next last (some (lo + c.size + act.size), cond.2) ∧
      act.At mem (lo + c.size) none (some (act.tail (lo + c.size)))
        (none, some (act.lastArm (lo + c.size))) ∧
      mem[lo + c.size + act.size]? =
        some ⟨none, some (lo + c.size + act.size),
          .cond ⟨none, some (lo + c.size + act.size), .true, none, none,
            some (act.head (lo + c.size))⟩⟩

/-- The program lies at `lo` as a list of its own. -/
def AspTree.Built (mem : List AspStmt) (t : AspTree) (lo : Nat) : Prop :=
  t.At mem lo none (some (t.tail lo)) (none, some (t.lastArm lo))

section Place

variable {t : AspTree} {lo : Nat}

theorem AspTree.size_pos (t : AspTree) : 0 < t.size := by
  induction t with
  | leaf l => exact Nat.one_pos
  | seq c d ihc _ => exact Nat.add_pos_left ihc d.size
  | arm op a b act _ => exact Nat.succ_pos _
  | elseif c op a b act ihc _ => exact Nat.add_pos_left ihc _
  | otherwise c act ihc _ => exact Nat.add_pos_left ihc _

theorem AspTree.head_range (t : AspTree) (lo : Nat) :
    lo ≤ t.head lo ∧ t.head lo < lo + t.size := by
  induction t generalizing lo with
  | leaf l => exact ⟨Nat.le_refl _, Nat.lt_succ_self _⟩
  | seq c d ihc _ =>
    have h := ihc lo
    simp only [AspTree.head, AspTree.size]
    omega
  | arm op a b act _ =>
    simp only [AspTree.head, AspTree.size]
    omega
  | elseif c op a b act ihc _ =>
    have h := ihc lo
    simp only [AspTree.head, AspTree.size]
    omega
  | otherwise c act ihc _ =>
    have h := ihc lo
    simp only [AspTree.head, AspTree.size]
    omega

theorem AspTree.tail_range (t : AspTree) (lo : Nat) :
    lo ≤ t.tail lo ∧ t.tail lo < lo + t.size := by
  induction t generalizing lo with
  | leaf l => exact ⟨Nat.le_refl _, Nat.lt_succ_self _⟩
  | seq c d _ ihd =>
    have h := ihd (lo + c.size)
    simp only [AspTree.tail, AspTree.size]
    omega
  | arm op a b act _ =>
    simp only [AspTree.tail, AspTree.size]
    omega
  | elseif c op a b act ihc _ =>
    have h := ihc lo
    simp only [AspTree.tail, AspTree.size]
    omega
  | otherwise c act ihc _ =>
    have h := ihc lo
    simp only [AspTree.tail, AspTree.size]
    omega

end Place

/-! ## Changes of the memory -/

section Change

variable {mem mem' : List AspStmt} {t : AspTree} {lo : Nat} {next last : Option Nat}
  {cond : Option Nat × Option Nat}

theorem TestAt.congr {op : AspCondOp} {a b : AspLeaf} {act : Option Nat}
    (h : TestAt mem op a b lo next last cond act)
    (hmem : ∀ i, lo ≤ i → i < lo + 3 → mem'[i]? = mem[i]?) :
    TestAt mem' op a b lo next last cond act where
  fst := by rw [hmem lo (by omega) (by omega), h.fst]
  snd := by rw [hmem (lo + 1) (by omega) (by omega), h.snd]
  test := by rw [hmem (lo + 2) (by omega) (by omega), h.test]

/-- Only the place of the program matters. -/
theorem AspTree.At.congr (h : t.At mem lo next last cond)
    (hmem : ∀ i, lo ≤ i → i < lo + t.size → mem'[i]? = mem[i]?) :
    t.At mem' lo next last cond := by
  induction t generalizing lo next last cond with
  | leaf l =>
    have hlo := hmem lo (Nat.le_refl lo) (Nat.lt_succ_self lo)
    exact hlo.trans h
  | seq c d ihc ihd =>
    simp only [AspTree.size] at hmem
    exact ⟨ihc h.1 fun i hi hi' => hmem i hi (by omega),
      ihd h.2 fun i hi hi' => hmem i (by omega) (by omega)⟩
  | arm op a b act ih =>
    simp only [AspTree.size] at hmem
    exact ⟨h.1.congr fun i hi hi' => hmem i hi (by omega),
      ih h.2 fun i hi hi' => hmem i (by omega) (by omega)⟩
  | elseif c op a b act ihc ih =>
    simp only [AspTree.size] at hmem
    exact ⟨ihc h.1 fun i hi hi' => hmem i hi (by omega),
      h.2.1.congr fun i hi hi' => hmem i (by omega) (by omega),
      ih h.2.2 fun i hi hi' => hmem i (by omega) (by omega)⟩
  | otherwise c act ihc ih =>
    simp only [AspTree.size] at hmem
    refine ⟨ihc h.1 fun i hi hi' => hmem i hi (by omega),
      ih h.2.1 fun i hi hi' => hmem i (by omega) (by omega), ?_⟩
    rw [hmem _ (by omega) (by omega)]
    exact h.2.2

/-- The memory at its place is determined by the program. -/
theorem AspTree.At.unique (h : t.At mem lo next last cond) (h' : t.At mem' lo next last cond) :
    ∀ i, lo ≤ i → i < lo + t.size → mem'[i]? = mem[i]? := by
  have htest : ∀ {op a b lo next last cond act}, TestAt mem op a b lo next last cond act →
      TestAt mem' op a b lo next last cond act → ∀ i, lo ≤ i → i < lo + 3 →
        mem'[i]? = mem[i]? := by
    intro op a b lo next last cond act ht ht' i hi hi'
    obtain rfl | rfl | rfl : i = lo ∨ i = lo + 1 ∨ i = lo + 2 := by omega
    · rw [ht.fst, ht'.fst]
    · rw [ht.snd, ht'.snd]
    · rw [ht.test, ht'.test]
  induction t generalizing lo next last cond with
  | leaf l =>
    intro i hi hi'
    obtain rfl : i = lo := Nat.le_antisymm (Nat.le_of_lt_succ hi') hi
    exact Eq.trans h' (Eq.symm h)
  | seq c d ihc ihd =>
    intro i hi hi'
    simp only [AspTree.size] at hi'
    by_cases hc : i < lo + c.size
    · exact ihc h.1 h'.1 i hi hc
    · exact ihd h.2 h'.2 i (by omega) (by omega)
  | arm op a b act ih =>
    intro i hi hi'
    simp only [AspTree.size] at hi'
    by_cases hc : i < lo + 3
    · exact htest h.1 h'.1 i hi hc
    · exact ih h.2 h'.2 i (by omega) (by omega)
  | elseif c op a b act ihc ih =>
    intro i hi hi'
    simp only [AspTree.size] at hi'
    by_cases hc : i < lo + c.size
    · exact ihc h.1 h'.1 i hi hc
    · by_cases ht : i < lo + c.size + 3
      · exact htest h.2.1 h'.2.1 i (by omega) ht
      · exact ih h.2.2 h'.2.2 i (by omega) (by omega)
  | otherwise c act ihc ih =>
    intro i hi hi'
    simp only [AspTree.size] at hi'
    by_cases hc : i < lo + c.size
    · exact ihc h.1 h'.1 i hi hc
    · by_cases hact : i < lo + c.size + act.size
      · exact ih h.2.1 h'.2.1 i (by omega) hact
      · obtain rfl : i = lo + c.size + act.size := by omega
        exact Eq.trans h'.2.2 (Eq.symm h.2.2)

/-- A statement at its place is changed, and no other. -/
structure Changes (mem mem' : List AspStmt) (p : Nat) (f : AspStmt → AspStmt) : Prop where
  at_eq : mem'[p]? = mem[p]?.map f
  other : ∀ i, i ≠ p → mem'[i]? = mem[i]?

theorem changes_modify (mem : List AspStmt) (p : Nat) (f : AspStmt → AspStmt) :
    Changes mem (mem.modify p f) p f where
  at_eq := by rw [List.getElem?_modify_eq]; rfl
  other := fun i hi => by rw [List.getElem?_modify_ne f mem (Ne.symm hi)]

theorem Changes.congr {p : Nat} {f : AspStmt → AspStmt} (hc : Changes mem mem' p f)
    (h : t.At mem lo next last cond) (hp : p < lo ∨ lo + t.size ≤ p) :
    t.At mem' lo next last cond :=
  h.congr fun i hi hi' => hc.other i (by omega)

theorem Changes.congr_test {p : Nat} {f : AspStmt → AspStmt} {op : AspCondOp} {a b : AspLeaf}
    {act : Option Nat} (hc : Changes mem mem' p f)
    (h : TestAt mem op a b lo next last cond act) (hp : p < lo ∨ lo + 3 ≤ p) :
    TestAt mem' op a b lo next last cond act :=
  h.congr fun i hi hi' => hc.other i (by omega)

/-- A change of the condition of a test. -/
theorem Changes.set_test {f : AspStmt → AspStmt} {op : AspCondOp} {a b : AspLeaf}
    {act : Option Nat} (hc : Changes mem mem' (lo + 2) f)
    (h : TestAt mem op a b lo next last cond act) {next' last' : Option Nat}
    {cond' : Option Nat × Option Nat} {act' : Option Nat}
    (hf : f ⟨next, last, .cond ⟨cond.1, cond.2, op, some lo, some (lo + 1), act⟩⟩ =
      ⟨next', last', .cond ⟨cond'.1, cond'.2, op, some lo, some (lo + 1), act'⟩⟩) :
    TestAt mem' op a b lo next' last' cond' act' where
  fst := by rw [hc.other lo (by omega), h.fst]
  snd := by rw [hc.other (lo + 1) (by omega), h.snd]
  test := by rw [hc.at_eq, h.test, Option.map_some, hf]

/-- Another statement is linked behind the list. -/
theorem Changes.set_next {next' : Option Nat}
    (hc : Changes mem mem' (t.tail lo) fun x => { x with next := next' })
    (h : t.At mem lo next last cond) : t.At mem' lo next' last cond := by
  induction t generalizing lo next last cond with
  | leaf l =>
    have hlo := hc.at_eq
    rw [AspTree.tail, (h : mem[lo]? = _)] at hlo
    exact hlo
  | seq c d ihc ihd =>
    have hd := d.tail_range (lo + c.size)
    exact ⟨hc.congr h.1 (by simp only [AspTree.tail]; omega), ihd hc h.2⟩
  | arm op a b act ih =>
    exact ⟨hc.set_test h.1 rfl, hc.congr h.2 (by simp only [AspTree.tail]; omega)⟩
  | elseif c op a b act ihc ih =>
    have ht := c.tail_range lo
    exact ⟨ihc hc h.1, hc.congr_test h.2.1 (by simp only [AspTree.tail]; omega),
      hc.congr h.2.2 (by simp only [AspTree.tail]; omega)⟩
  | otherwise c act ihc ih =>
    have ht := c.tail_range lo
    simp only [AspTree.tail] at hc
    refine ⟨ihc hc h.1, hc.congr h.2.1 (by omega), ?_⟩
    rw [hc.other _ (by omega)]
    exact h.2.2

/-- The pointer to the last statement is changed. -/
theorem Changes.set_last {last' : Option Nat}
    (hc : Changes mem mem' (t.head lo) fun x => { x with last := last' })
    (h : t.At mem lo next last cond) : t.At mem' lo next last' cond := by
  induction t generalizing lo next last cond with
  | leaf l =>
    have hlo := hc.at_eq
    rw [AspTree.head, (h : mem[lo]? = _)] at hlo
    exact hlo
  | seq c d ihc ihd =>
    have hd := c.head_range lo
    exact ⟨ihc hc h.1, hc.congr h.2 (by simp only [AspTree.head]; omega)⟩
  | arm op a b act ih =>
    exact ⟨hc.set_test h.1 rfl, hc.congr h.2 (by simp only [AspTree.head]; omega)⟩
  | elseif c op a b act ihc ih =>
    have ht := c.head_range lo
    exact ⟨ihc hc h.1, hc.congr_test h.2.1 (by simp only [AspTree.head]; omega),
      hc.congr h.2.2 (by simp only [AspTree.head]; omega)⟩
  | otherwise c act ihc ih =>
    have ht := c.head_range lo
    simp only [AspTree.head] at hc
    refine ⟨ihc hc h.1, hc.congr h.2.1 (by omega), ?_⟩
    rw [hc.other _ (by omega)]
    exact h.2.2

/-- The same for the fields of a condition. -/
def AspStmt.onCond (f : AspCondStmt → AspCondStmt) (x : AspStmt) : AspStmt :=
  match x.body with
  | .cond k => { x with body := .cond (f k) }
  | _ => x

/-- The program is the branches of a condition before `Else` or `End`. -/
def AspTree.IsArms : AspTree → Prop
  | .arm _ _ _ _ => True
  | .elseif c _ _ _ _ => c.IsArms
  | _ => False

theorem AspTree.IsArms.lastArm_range (h : t.IsArms) (lo : Nat) :
    lo ≤ t.lastArm lo ∧ t.lastArm lo < lo + t.size := by
  cases t with
  | leaf l => exact absurd h id
  | seq c d => exact absurd h id
  | arm op a b act =>
    simp only [AspTree.lastArm, AspTree.size]
    omega
  | elseif c op a b act =>
    simp only [AspTree.lastArm, AspTree.size]
    omega
  | otherwise c act => exact absurd h id

/-- Another branch is linked behind the last one. -/
theorem Changes.set_condNext {next' : Option Nat} (ht : t.IsArms)
    (hc : Changes mem mem' (t.lastArm lo) (AspStmt.onCond fun k => { k with next := next' }))
    (h : t.At mem lo next last cond) : t.At mem' lo next last (next', cond.2) := by
  cases t with
  | leaf l => exact absurd ht id
  | seq c d => exact absurd ht id
  | arm op a b act =>
    exact ⟨hc.set_test h.1 rfl, hc.congr h.2 (by simp only [AspTree.lastArm]; omega)⟩
  | elseif c op a b act =>
    simp only [AspTree.lastArm] at hc
    exact ⟨hc.congr h.1 (by omega), hc.set_test h.2.1 rfl, hc.congr h.2.2 (by omega)⟩
  | otherwise c act => exact absurd ht id

/-- The pointer to the last branch is changed. -/
theorem Changes.set_condLast {last' : Option Nat} (ht : t.IsArms)
    (hc : Changes mem mem' (t.head lo) (AspStmt.onCond fun k => { k with last := last' }))
    (h : t.At mem lo next last cond) : t.At mem' lo next last (cond.1, last') := by
  induction t generalizing lo next last cond with
  | leaf l => exact absurd ht id
  | seq c d _ _ => exact absurd ht id
  | arm op a b act _ =>
    exact ⟨hc.set_test h.1 rfl, hc.congr h.2 (by simp only [AspTree.head]; omega)⟩
  | elseif c op a b act ihc _ =>
    have hrange := c.head_range lo
    exact ⟨ihc ht hc h.1, hc.congr_test h.2.1 (by simp only [AspTree.head]; omega),
      hc.congr h.2.2 (by simp only [AspTree.head]; omega)⟩
  | otherwise c act _ _ => exact absurd ht id

/-- The first statement has the pointer to the last one. -/
theorem AspTree.At.head_last (h : t.At mem lo next last cond) :
    ∃ s, mem[t.head lo]? = some s ∧ s.last = last := by
  induction t generalizing lo next last cond with
  | leaf l => exact ⟨_, h, rfl⟩
  | seq c d ihc _ => exact ihc h.1
  | arm op a b act _ => exact ⟨_, h.1.test, rfl⟩
  | elseif c op a b act ihc _ => exact ihc h.1
  | otherwise c act ihc _ => exact ihc h.1

/-- The first branch has the pointer to the last one, -/
theorem AspTree.At.head_cond (ht : t.IsArms) (h : t.At mem lo next last cond) :
    ∃ s k, mem[t.head lo]? = some s ∧ s.body = .cond k ∧ k.last = cond.2 := by
  induction t generalizing lo next last cond with
  | leaf l => exact absurd ht id
  | seq c d _ _ => exact absurd ht id
  | arm op a b act _ => exact ⟨_, _, h.1.test, rfl, rfl⟩
  | elseif c op a b act ihc _ =>
    have hc := ihc ht h.1
    exact hc
  | otherwise c act _ _ => exact absurd ht id

/-- and this is a branch, too. -/
theorem AspTree.At.lastArm_cond (ht : t.IsArms) (h : t.At mem lo next last cond) :
    ∃ s k, mem[t.lastArm lo]? = some s ∧ s.body = .cond k := by
  cases t with
  | leaf l => exact absurd ht id
  | seq c d => exact absurd ht id
  | arm op a b act => exact ⟨_, _, h.1.test, rfl⟩
  | elseif c op a b act => exact ⟨_, _, h.2.1.test, rfl⟩
  | otherwise c act => exact absurd ht id

end Change

/-! ## What is spelled -/

theorem Spells.arms {t : AspTree} {ts : List LexToken} (h : Spells .arms t ts) : t.IsArms := by
  generalize hp : AspPhrase.arms = p at h
  induction h with
  | arm x test y hact => trivial
  | elseif hc x test y hact ih _ => exact ih rfl
  | one => cases hp
  | seq => cases hp
  | html => cases hp
  | script => cases hp
  | value => cases hp
  | cond => cases hp
  | condElse => cases hp

theorem AspTree.IsArms.tail_eq {t : AspTree} (h : t.IsArms) (lo : Nat) : t.tail lo = t.head lo := by
  induction t with
  | leaf l => exact absurd h id
  | seq c d _ _ => exact absurd h id
  | arm op a b act _ => rfl
  | elseif c op a b act ihc _ => exact ihc h
  | otherwise c act _ _ => exact absurd h id

/-- A statement is a list of one. -/
theorem Spells.tail_eq {t : AspTree} {ts : List LexToken} (h : Spells .stmt t ts) (lo : Nat) :
    t.tail lo = t.head lo := by
  generalize hp : AspPhrase.stmt = p at h
  cases h with
  | html => rfl
  | script => rfl
  | value => rfl
  | cond h => exact h.arms.tail_eq lo
  | condElse hc => exact hc.arms.tail_eq lo
  | one => cases hp
  | seq => cases hp
  | arm => cases hp
  | elseif => cases hp

theorem AspLeaf.need_pos (l : AspLeaf) : 0 < l.need := by
  cases l with
  | html t => exact Nat.one_pos
  | id t => exact Nat.one_pos
  | string t => exact Nat.one_pos
  | call f params => exact Nat.add_pos_left (Nat.succ_pos _) _
  | null => exact Nat.succ_pos 3

theorem Spells.need_pos {ph : AspPhrase} {t : AspTree} {ts : List LexToken} (h : Spells ph t ts) :
    0 < t.need := by
  induction h with
  | one h ih => exact ih
  | seq hc hd ihc _ => exact Nat.lt_of_lt_of_le ihc (Nat.le_max_left _ _)
  | html t => exact Nat.one_pos
  | script x i y t => exact Nat.succ_pos 3
  | @value l ts h => exact l.need_pos
  | cond h x y ih => exact ih
  | condElse hc x hact y z ihc _ => exact Nat.lt_of_lt_of_le ihc (Nat.le_max_left _ _)
  | arm x test y hact _ => exact Nat.lt_of_lt_of_le (Nat.succ_pos _) (Nat.le_max_right _ _)
  | elseif hc x test y hact ihc _ => exact Nat.lt_of_lt_of_le ihc (Nat.le_max_left _ _)

theorem AspTree.IsArms.need_le {t : AspTree} (h : t.IsArms) : 3 ≤ t.need := by
  induction t with
  | leaf l => exact absurd h id
  | seq c d _ _ => exact absurd h id
  | arm op a b act _ => exact Nat.le_trans (Nat.le_add_left 3 _) (Nat.le_max_right _ _)
  | elseif c op a b act ihc _ => exact Nat.le_trans (ihc h) (Nat.le_max_left _ _)
  | otherwise c act _ _ => exact absurd h id

end OnuFirmware.Asp
