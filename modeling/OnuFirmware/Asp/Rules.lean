import OnuFirmware.Asp.Code
import OnuFirmware.Asp.Parser
import Mathlib.Tactic.IntervalCases

/-!
# What the actions of the rules make

The values of the symbols of a rule stand for programs that lie behind each other in the memory. An
action puts them together, unless there is no room for another statement; the pointers that it
follows are set then.
-/

namespace OnuFirmware.Asp

open Clib Lib

/-! ## Assignments -/

/-- One statement has been changed. -/
structure Assigned (r r' : AspReent) (p : Nat) (f : AspStmt → AspStmt) : Prop where
  changes : Changes r.mem r'.mem p f
  length : r'.mem.length = r.mem.length
  root : r'.root = r.root

theorem assign_ok {r : AspReent} {p : Nat} (f : AspStmt → AspStmt) (hp : p < r.mem.length) :
    ∃ r', r.assign f (some p) = .ok r' ∧ Assigned r r' p f :=
  ⟨{ r with mem := r.mem.modify p f }, if_pos hp, changes_modify _ _ _, List.length_modify .., rfl⟩

theorem assignCond_ok {r : AspReent} {p : Nat} {s : AspStmt} {k : AspCondStmt}
    (f : AspCondStmt → AspCondStmt) (hs : r.mem[p]? = some s) (hk : s.body = .cond k) :
    ∃ r', r.assignCond f (some p) = .ok r' ∧ Assigned r r' p (AspStmt.onCond f) := by
  refine ⟨{ r with mem := r.mem.set p { s with body := .cond (f k) } }, ?_, ⟨?_, ?_⟩,
    List.length_set, rfl⟩
  · simp only [AspReent.assignCond, hs, hk]
  · have hlt : p < r.mem.length := (List.getElem?_eq_some_iff.mp hs).choose
    simp only [List.getElem?_set_self hlt, hs, Option.map_some, AspStmt.onCond, hk]
  · exact fun i hi => List.getElem?_set_ne (Ne.symm hi)

/-- `n` statements have been made, and those before are as they were. -/
structure Extends (room : Nat) (m m' : AspReent) (n : Nat) : Prop where
  length : m'.mem.length = m.mem.length + n
  below : ∀ i, i < m.mem.length → m'.mem[i]? = m.mem[i]?
  root : m'.root = m.root
  fits : m'.mem.length ≤ room

section Extends

variable {room : Nat} {m m₁ m₂ : AspReent} {n k : Nat}

theorem Extends.trans (h : Extends room m m₁ n) (h' : Extends room m₁ m₂ k) :
    Extends room m m₂ (n + k) where
  length := by rw [h'.length, h.length, Nat.add_assoc]
  below := fun i hi => by
    have hle := h.length
    rw [h'.below i (by omega), h.below i hi]
  root := h'.root.trans h.root
  fits := h'.fits

theorem Extends.assigned {p : Nat} {f : AspStmt → AspStmt} (h : Extends room m m₁ n)
    (ha : Assigned m₁ m₂ p f) (hp : m.mem.length ≤ p) : Extends room m m₂ n where
  length := ha.length.trans h.length
  below := fun i hi => by rw [ha.changes.other i (by omega), h.below i hi]
  root := ha.root.trans h.root
  fits := by rw [ha.length]; exact h.fits

theorem Extends.at {t : AspTree} {lo : Nat} {next last : Option Nat}
    {cond : Option Nat × Option Nat} (h : Extends room m₁ m₂ k)
    (hat : t.At m₁.mem lo next last cond) (hle : lo + t.size ≤ m₁.mem.length) :
    t.At m₂.mem lo next last cond :=
  hat.congr fun i _ hi => h.below i (by omega)

end Extends

/-- A program has been made. -/
structure Made (room : Nat) (m : AspReent) (t : AspTree) (m' : AspReent) : Prop where
  ext : Extends room m m' t.size
  built : t.Built m'.mem m.mem.length

/-- A test has been made. -/
structure MadeTest (room : Nat) (m : AspReent) (op : AspCondOp) (a b : AspLeaf) (m' : AspReent) :
    Prop where
  ext : Extends room m m' 3
  test : TestAt m'.mem op a b m.mem.length none (some (m.mem.length + 2))
    (none, some (m.mem.length + 2)) none

/-! ## What the values stand for -/

/-- The nonterminals that stand for programs. -/
def codeNts : List (Nat × AspPhrase) :=
  [(ntStatements, .stmts), (ntStatement, .stmt), (ntCond, .stmt), (ntCondList, .arms)]

/-- Those that stand for values and calls. -/
def leafNts : List Nat := [ntStmt, ntStmtCall, ntVal]

/-- What the value of a nonterminal stands for, which its tokens spell. -/
inductive NtMeans (room : Nat) :
    Nat → List LexToken → AspReent → YyStype → AspReent → Nat → Prop
  | code {a : Nat} {ph : AspPhrase} {t : AspTree} {ts : List LexToken} {m m' : AspReent}
      (nt : (a, ph) ∈ codeNts) (text : Spells ph t ts) (made : Made room m t m') :
      NtMeans room a ts m (.stmt (t.head m.mem.length)) m' t.need
  | leaf {a : Nat} {l : AspLeaf} {ts : List LexToken} {m m' : AspReent} (nt : a ∈ leafNts)
      (text : LeafText l ts) (made : Made room m (.leaf l) m') :
      NtMeans room a ts m (.stmt m.mem.length) m' l.need
  | test {op : AspCondOp} {a b : AspLeaf} {ts : List LexToken} {m m' : AspReent}
      (text : TestText op a b ts) (made : MadeTest room m op a b m') :
      NtMeans room ntStmtCond ts m (.stmt (m.mem.length + 2)) m' (testNeed op a b)
  | otherwise {act : AspTree} {ts : List LexToken} {m m' : AspReent} (x : Str)
      (text : Spells .stmts act ts) (ext : Extends room m m' (act.size + 1))
      (built : act.Built m'.mem m.mem.length)
      (cell : m'.mem[m.mem.length + act.size]? =
        some ⟨none, some (m.mem.length + act.size),
          .cond ⟨none, some (m.mem.length + act.size), .true, none, none,
            some (act.head m.mem.length)⟩⟩) :
      NtMeans room ntCondElse ((.gbElse, x) :: ts) m (.stmt (m.mem.length + act.size)) m'
        (act.need + 1)
  | file {t : AspTree} {ts : List LexToken} {m m' : AspReent} (text : Spells .stmts t ts)
      (made : Made room m t m') :
      NtMeans room ntAspfile ts m (.stmt (t.head m.mem.length))
        { m' with root := some (t.head m.mem.length) } t.need

/-- What the values of some symbols stand for, one behind the other. -/
inductive SymsMean (room : Nat) : List (GramSym GbToken Nat) → List LexToken → AspReent →
    List YyStype → AspReent → Nat → Prop
  | nil (m : AspReent) : SymsMean room [] [] m [] m 0
  | term {t : LexToken} {ss : List (GramSym GbToken Nat)} {ts : List LexToken} {m m' : AspReent}
      {vs : List YyStype} {p : Nat} (rest : SymsMean room ss ts m vs m' p) :
      SymsMean room (.term t.1 :: ss) (t :: ts) m (.text t.2 :: vs) m' (p + 1)
  | nonterm {a : Nat} {ss : List (GramSym GbToken Nat)} {ts us : List LexToken}
      {m m₁ m' : AspReent} {v : YyStype} {vs : List YyStype} {p p' : Nat}
      (fst : NtMeans room a ts m v m₁ p) (rest : SymsMean room ss us m₁ vs m' p') :
      SymsMean room (.nonterm a :: ss) (ts ++ us) m (v :: vs) m' (max p (p' + 1))

section Means

variable {room : Nat} {ts : List LexToken} {m m' : AspReent} {v : YyStype} {vs : List YyStype}
  {p : Nat} {ss : List (GramSym GbToken Nat)}

theorem NtMeans.code_inv {a : Nat} {ph : AspPhrase} (h : NtMeans room a ts m v m' p)
    (nt : (a, ph) ∈ codeNts) :
    ∃ t, Spells ph t ts ∧ Made room m t m' ∧ v = .stmt (t.head m.mem.length) ∧ p = t.need := by
  have hother : ∀ x ∈ codeNts,
      x.1 ∉ leafNts ∧ x.1 ≠ ntStmtCond ∧ x.1 ≠ ntCondElse ∧ x.1 ≠ ntAspfile ∧
        ∀ y ∈ codeNts, x.1 = y.1 → x.2 = y.2 := by
    decide
  obtain ⟨hleaf, htest, helse, hfile, hsame⟩ := hother _ nt
  cases h with
  | @code a ph' t ts m m' nt' text made =>
    have hph : ph = ph' := hsame _ nt' rfl
    subst hph
    exact ⟨t, text, made, rfl, rfl⟩
  | leaf nt' => exact absurd nt' hleaf
  | test => exact absurd rfl htest
  | otherwise => exact absurd rfl helse
  | file => exact absurd rfl hfile

theorem NtMeans.leaf_inv {a : Nat} (h : NtMeans room a ts m v m' p) (nt : a ∈ leafNts) :
    ∃ l, LeafText l ts ∧ Made room m (.leaf l) m' ∧ v = .stmt m.mem.length ∧ p = l.need := by
  have hother : ∀ x ∈ leafNts,
      x ≠ ntStmtCond ∧ x ≠ ntCondElse ∧ x ≠ ntAspfile ∧ ∀ y ∈ codeNts, x ≠ y.1 := by
    decide
  obtain ⟨htest, helse, hfile, hcode⟩ := hother _ nt
  cases h with
  | code nt' => exact absurd rfl (hcode _ nt')
  | @leaf a l ts m m' nt' text made => exact ⟨l, text, made, rfl, rfl⟩
  | test => exact absurd rfl htest
  | otherwise => exact absurd rfl helse
  | file => exact absurd rfl hfile

theorem NtMeans.test_inv (h : NtMeans room ntStmtCond ts m v m' p) :
    ∃ op a b, TestText op a b ts ∧ MadeTest room m op a b m' ∧
      v = .stmt (m.mem.length + 2) ∧ p = testNeed op a b := by
  generalize ha : ntStmtCond = a at h
  have hcode : ∀ x ∈ codeNts, ntStmtCond ≠ x.1 := by decide
  cases h with
  | code nt' => exact absurd ha (hcode _ nt')
  | leaf nt' =>
    subst ha
    exact absurd nt' (by decide)
  | @test op a b ts m m' text made => exact ⟨op, a, b, text, made, rfl, rfl⟩
  | otherwise => exact absurd ha (by decide)
  | file => exact absurd ha (by decide)

theorem NtMeans.else_inv (h : NtMeans room ntCondElse ts m v m' p) :
    ∃ x us act, ts = (.gbElse, x) :: us ∧ Spells .stmts act us ∧
      Extends room m m' (act.size + 1) ∧ act.Built m'.mem m.mem.length ∧
      m'.mem[m.mem.length + act.size]? =
        some ⟨none, some (m.mem.length + act.size),
          .cond ⟨none, some (m.mem.length + act.size), .true, none, none,
            some (act.head m.mem.length)⟩⟩ ∧
      v = .stmt (m.mem.length + act.size) ∧ p = act.need + 1 := by
  generalize ha : ntCondElse = a at h
  have hcode : ∀ x ∈ codeNts, ntCondElse ≠ x.1 := by decide
  cases h with
  | code nt' => exact absurd ha (hcode _ nt')
  | leaf nt' =>
    subst ha
    exact absurd nt' (by decide)
  | test => exact absurd ha (by decide)
  | @otherwise act ts m m' x text ext built cell =>
    exact ⟨x, ts, act, rfl, text, ext, built, cell, rfl, rfl⟩
  | file => exact absurd ha (by decide)

theorem SymsMean.nil_inv (h : SymsMean room [] ts m vs m' p) :
    ts = [] ∧ vs = [] ∧ m' = m ∧ p = 0 := by
  cases h with
  | nil => exact ⟨rfl, rfl, rfl, rfl⟩

theorem SymsMean.term_inv {k : GbToken} (h : SymsMean room (gbTok k :: ss) ts m vs m' p) :
    ∃ x us ws q, ts = (k, x) :: us ∧ vs = .text x :: ws ∧ p = q + 1 ∧
      SymsMean room ss us m ws m' q := by
  generalize hs : gbTok k :: ss = syms at h
  cases h with
  | nil => cases hs
  | @term t ss ts m m' vs p rest =>
    obtain ⟨hk, rfl⟩ := List.cons.inj hs
    obtain rfl : k = t.1 := GramSym.term.inj hk
    exact ⟨t.2, ts, vs, p, rfl, rfl, rfl, rest⟩
  | nonterm fst rest => cases (List.cons.inj hs).1

theorem SymsMean.nonterm_inv {a : Nat} (h : SymsMean room (.nonterm a :: ss) ts m vs m' p) :
    ∃ ts₁ us v ws m₁ q q', ts = ts₁ ++ us ∧ vs = v :: ws ∧ p = max q (q' + 1) ∧
      NtMeans room a ts₁ m v m₁ q ∧ SymsMean room ss us m₁ ws m' q' := by
  cases h with
  | @nonterm a ss ts us m m₁ m' v vs p p' fst rest =>
    exact ⟨ts, us, v, vs, m₁, p, p', rfl, rfl, rfl, fst, rest⟩

end Means

/-! ## The rules -/

/-- How many statements the action of a rule makes. -/
def aspMakes (n : Nat) : Nat := if n ∈ [4, 5, 10, 11, 12, 13, 14, 15, 20, 21, 22] then 1 else 0

/-- An action makes what the nonterminal stands for, with `k` statements more, unless there is no
room for them. -/
inductive Acts (room a : Nat) (ts : List LexToken) (m m₁ : AspReent) (p k : Nat) :
    Except ParseFault (YyStype × AspReent) → Prop
  | ok {v : YyStype} {m' : AspReent} (means : NtMeans room a ts m v m' p)
      (length : m'.mem.length = m₁.mem.length + k) : Acts room a ts m m₁ p k (.ok (v, m'))
  | full (h : room < m₁.mem.length + k) : Acts room a ts m m₁ p k (.error .noMemory)

section Rules

variable {room a : Nat} {ts : List LexToken} {m m₁ : AspReent} {vs : List YyStype} {p : Nat}
  {cur : Option Str}

theorem newStmt_cases (room : Nat) (m : AspReent) (body : Nat → AspBody) :
    (room < m.mem.length + 1 ∧ newStmt room m body = .error .noMemory) ∨
      ∃ m', newStmt room m body = .ok (m.mem.length, m') ∧ Extends room m m' 1 ∧
        m'.mem[m.mem.length]? = some ⟨none, some m.mem.length, body m.mem.length⟩ := by
  unfold newStmt
  by_cases h : m.mem.length < room
  · rw [if_pos h]
    refine .inr ⟨_, rfl, ⟨List.length_append, ?_, rfl, ?_⟩, List.getElem?_concat_length⟩
    · exact fun i hi => List.getElem?_append_left hi
    · rw [List.length_append]
      exact h
  · rw [if_neg h]
    exact .inl ⟨Nat.lt_succ_of_le (Nat.le_of_not_lt h), rfl⟩

/-- A statement without others in it. -/
theorem newStmt_leaf {l : AspLeaf} (hmeans : ∀ m', Made room m (.leaf l) m' →
      NtMeans room a ts m (.stmt m.mem.length) m' p) :
    Acts room a ts m m p 1 (do
      let s ← newStmt room m fun _ => l.body
      .ok (.stmt s.1, s.2)) := by
  rcases newStmt_cases room m fun _ => l.body with ⟨hfull, hnew⟩ | ⟨m', hnew, hext, hcell⟩
  · rw [hnew]
    exact .full hfull
  · rw [hnew]
    exact .ok (hmeans m' ⟨hext, hcell⟩) hext.length

theorem stmts_nt : (ntStatements, AspPhrase.stmts) ∈ codeNts := by decide

theorem stmt_nt : (ntStatement, AspPhrase.stmt) ∈ codeNts := by decide

theorem cond_nt : (ntCond, AspPhrase.stmt) ∈ codeNts := by decide

theorem arms_nt : (ntCondList, AspPhrase.arms) ∈ codeNts := by decide

/-- A rule with one nonterminal. -/
theorem SymsMean.one_inv {b : Nat} (h : SymsMean room [.nonterm b] ts m vs m₁ p) :
    ∃ v q, vs = [v] ∧ NtMeans room b ts m v m₁ q ∧ p = max q 1 := by
  obtain ⟨ts, us, v, ws, m', q, q', rfl, rfl, rfl, hfst, hrest⟩ := h.nonterm_inv
  obtain ⟨rfl, rfl, rfl, rfl⟩ := hrest.nil_inv
  rw [List.append_nil]
  exact ⟨v, q, rfl, hfst, rfl⟩

theorem rule_aspfile (h : SymsMean room [.nonterm ntStatements] ts m vs m₁ p) :
    Acts room ntAspfile ts m m₁ p 0 (yyAction room cur 2 vs m₁) := by
  obtain ⟨v, q, rfl, hfst, rfl⟩ := h.one_inv
  obtain ⟨t, htext, hmade, rfl, rfl⟩ := hfst.code_inv stmts_nt
  rw [Nat.max_eq_left htext.need_pos]
  exact .ok (.file htext hmade) rfl

theorem rule_one (h : SymsMean room [.nonterm ntStatement] ts m vs m₁ p) :
    Acts room ntStatements ts m m₁ p 0 (yyAction room cur 3 vs m₁) := by
  obtain ⟨v, q, rfl, hfst, rfl⟩ := h.one_inv
  obtain ⟨t, htext, hmade, rfl, rfl⟩ := hfst.code_inv stmt_nt
  have hhead := t.head_range m.mem.length
  have hlen := hmade.ext.length
  have htail := htext.tail_eq m.mem.length
  obtain ⟨m₂, hm₂, ha₂⟩ := assign_ok (fun x => { x with last := some (t.head m.mem.length) })
    (by omega : t.head m.mem.length < m₁.mem.length)
  obtain ⟨m₃, hm₃, ha₃⟩ := assign_ok (fun x => { x with next := none })
    (by rw [ha₂.length]; omega : t.head m.mem.length < m₂.mem.length)
  have hact : yyAction room cur 3 [.stmt (t.head m.mem.length)] m₁ =
      .ok (.stmt (t.head m.mem.length), m₃) := by
    simp only [yyAction, hm₂, hm₃, bind, Except.bind]
  have hchange := ha₃.changes
  rw [← htail] at hchange
  have hbuilt := hchange.set_next (ha₂.changes.set_last hmade.built)
  rw [← htail] at hbuilt
  rw [hact, Nat.max_eq_left htext.need_pos]
  exact .ok (.code stmts_nt (.one htext)
    ⟨(hmade.ext.assigned ha₂ hhead.1).assigned ha₃ hhead.1, hbuilt⟩) (ha₃.length.trans ha₂.length)

theorem rule_seq (h : SymsMean room [.nonterm ntStatements, .nonterm ntStatement] ts m vs m₁ p) :
    Acts room ntStatements ts m m₁ p 0 (yyAction room cur 4 vs m₁) := by
  obtain ⟨ts, us, v, ws, m', q, q', rfl, rfl, rfl, hfst, hrest⟩ := h.nonterm_inv
  obtain ⟨v', q'', rfl, hsnd, rfl⟩ := hrest.one_inv
  obtain ⟨c, hc, hmadeC, rfl, rfl⟩ := hfst.code_inv stmts_nt
  obtain ⟨d, hd, hmadeD, rfl, rfl⟩ := hsnd.code_inv stmt_nt
  have hlenC := hmadeC.ext.length
  have hlenD := hmadeD.ext.length
  have hheadC := c.head_range m.mem.length
  have htailC := c.tail_range m.mem.length
  have hheadD := d.head_range m'.mem.length
  have htailD := hd.tail_eq m'.mem.length
  have hatC := hmadeD.ext.at hmadeC.built (by omega)
  obtain ⟨s, hs, hlast⟩ := hatC.head_last
  have hlastOf : m₁.lastOf (c.head m.mem.length) = some (c.tail m.mem.length) := by
    rw [AspReent.lastOf, hs, Option.bind_some, hlast]
  obtain ⟨m₂, hm₂, ha₂⟩ := assign_ok (fun x => { x with next := some (d.head m'.mem.length) })
    (by omega : c.tail m.mem.length < m₁.mem.length)
  obtain ⟨m₃, hm₃, ha₃⟩ := assign_ok (fun x => { x with last := some (d.head m'.mem.length) })
    (by rw [ha₂.length]; omega : c.head m.mem.length < m₂.mem.length)
  obtain ⟨m₄, hm₄, ha₄⟩ := assign_ok (fun x => { x with next := none })
    (by rw [ha₃.length, ha₂.length]; omega : d.head m'.mem.length < m₃.mem.length)
  have hact : yyAction room cur 4 [.stmt (c.head m.mem.length), .stmt (d.head m'.mem.length)] m₁ =
      .ok (.stmt (c.head m.mem.length), m₄) := by
    simp only [yyAction, hlastOf, hm₂, hm₃, hm₄, bind, Except.bind]
  have hext := (((hmadeC.ext.trans hmadeD.ext).assigned ha₂ (by omega)).assigned ha₃
    (by omega)).assigned ha₄ (by omega)
  have hchange := ha₄.changes
  rw [← htailD] at hchange
  have hcode : (AspTree.seq c d).Built m₄.mem m.mem.length := by
    have hbuiltC := ha₄.changes.congr (ha₃.changes.set_last (ha₂.changes.set_next hatC))
      (.inr (by omega))
    have hbuiltD := hchange.set_next (ha₃.changes.congr (ha₂.changes.congr hmadeD.built
      (.inl (by omega))) (.inl (by omega)))
    rw [hlenC] at hbuiltC hbuiltD htailD
    simp only [AspTree.Built, AspTree.At, AspTree.tail, htailD]
    rw [htailD] at hbuiltD
    exact ⟨hbuiltC, hbuiltD⟩
  rw [hact, Nat.max_eq_left hd.need_pos]
  exact .ok (.code stmts_nt (.seq hc hd) ⟨hext, hcode⟩)
    ((ha₄.length.trans ha₃.length).trans ha₂.length)

theorem rule_script (h : SymsMean room
      [gbTok .gbScript, gbTok .gbId, gbTok (.char '='), gbTok .gbString] ts m vs m₁ p) :
    Acts room ntStatement ts m m₁ p 1 (yyAction room cur 5 vs m₁) := by
  obtain ⟨x, us, ws, q, rfl, rfl, rfl, h₁⟩ := h.term_inv
  obtain ⟨i, us, ws, q, rfl, rfl, rfl, h₂⟩ := h₁.term_inv
  obtain ⟨y, us, ws, q, rfl, rfl, rfl, h₃⟩ := h₂.term_inv
  obtain ⟨t, us, ws, q, rfl, rfl, rfl, h₄⟩ := h₃.term_inv
  obtain ⟨rfl, rfl, rfl, rfl⟩ := h₄.nil_inv
  exact newStmt_leaf fun m' hmade => .code stmt_nt (.script x i y t) hmade

theorem rule_html (h : SymsMean room [gbTok .gbHtmlBlock] ts m vs m₁ p)
    (hcur : ∀ text, vs = [.text text] → cur = some text) :
    Acts room ntStatement ts m m₁ p 1 (yyAction room cur 6 vs m₁) := by
  obtain ⟨t, us, ws, q, rfl, rfl, rfl, h₁⟩ := h.term_inv
  obtain ⟨rfl, rfl, rfl, rfl⟩ := h₁.nil_inv
  obtain rfl := hcur t rfl
  exact newStmt_leaf fun m' hmade => .code stmt_nt (.html t) hmade

theorem rule_value (h : SymsMean room [.nonterm ntStmt] ts m vs m₁ p) :
    Acts room ntStatement ts m m₁ p 0 (yyAction room cur 7 vs m₁) := by
  obtain ⟨v, q, rfl, hfst, rfl⟩ := h.one_inv
  obtain ⟨l, htext, hmade, rfl, rfl⟩ := hfst.leaf_inv (by decide)
  rw [Nat.max_eq_left l.need_pos]
  exact .ok (.code stmt_nt (.value htext) hmade) rfl

theorem rule_cond (h : SymsMean room [.nonterm ntCond] ts m vs m₁ p) :
    Acts room ntStatement ts m m₁ p 0 (yyAction room cur 8 vs m₁) := by
  obtain ⟨v, q, rfl, hfst, rfl⟩ := h.one_inv
  obtain ⟨t, htext, hmade, rfl, rfl⟩ := hfst.code_inv cond_nt
  rw [Nat.max_eq_left htext.need_pos]
  exact .ok (.code stmt_nt htext hmade) rfl

/-- `stmt` is a call or a value. -/
theorem rule_stmt {b : Nat} (hb : b ∈ leafNts) (h : SymsMean room [.nonterm b] ts m vs m₁ p) :
    ∃ v, vs = [v] ∧ Acts room ntStmt ts m m₁ p 0 (.ok (v, m₁)) := by
  obtain ⟨v, q, rfl, hfst, rfl⟩ := h.one_inv
  obtain ⟨l, htext, hmade, rfl, rfl⟩ := hfst.leaf_inv hb
  rw [Nat.max_eq_left l.need_pos]
  exact ⟨_, rfl, .ok (.leaf (by decide) htext hmade) rfl⟩

theorem rule_call0 (h : SymsMean room [gbTok .gbId, gbTok (.char '('), gbTok (.char ')')]
      ts m vs m₁ p) : Acts room ntStmtCall ts m m₁ p 1 (yyAction room cur 11 vs m₁) := by
  obtain ⟨f, us, ws, q, rfl, rfl, rfl, h₁⟩ := h.term_inv
  obtain ⟨x, us, ws, q, rfl, rfl, rfl, h₂⟩ := h₁.term_inv
  obtain ⟨y, us, ws, q, rfl, rfl, rfl, h₃⟩ := h₂.term_inv
  obtain ⟨rfl, rfl, rfl, rfl⟩ := h₃.nil_inv
  exact newStmt_leaf (l := .call f []) fun m' hmade => .leaf (by decide) (.call0 f x y) hmade

theorem rule_call1 (h : SymsMean room
      [gbTok .gbId, gbTok (.char '('), gbTok .gbString, gbTok (.char ')')] ts m vs m₁ p) :
    Acts room ntStmtCall ts m m₁ p 1 (yyAction room cur 12 vs m₁) := by
  obtain ⟨f, us, ws, q, rfl, rfl, rfl, h₁⟩ := h.term_inv
  obtain ⟨x, us, ws, q, rfl, rfl, rfl, h₂⟩ := h₁.term_inv
  obtain ⟨a, us, ws, q, rfl, rfl, rfl, h₃⟩ := h₂.term_inv
  obtain ⟨y, us, ws, q, rfl, rfl, rfl, h₄⟩ := h₃.term_inv
  obtain ⟨rfl, rfl, rfl, rfl⟩ := h₄.nil_inv
  exact newStmt_leaf (l := .call f [a]) fun m' hmade => .leaf (by decide) (.call1 f x a y) hmade

theorem rule_call2 (h : SymsMean room
      [gbTok .gbId, gbTok (.char '('), gbTok .gbString, gbTok (.char ','), gbTok .gbString,
        gbTok (.char ')')] ts m vs m₁ p) :
    Acts room ntStmtCall ts m m₁ p 1 (yyAction room cur 13 vs m₁) := by
  obtain ⟨f, us, ws, q, rfl, rfl, rfl, h₁⟩ := h.term_inv
  obtain ⟨x, us, ws, q, rfl, rfl, rfl, h₂⟩ := h₁.term_inv
  obtain ⟨a, us, ws, q, rfl, rfl, rfl, h₃⟩ := h₂.term_inv
  obtain ⟨u, us, ws, q, rfl, rfl, rfl, h₄⟩ := h₃.term_inv
  obtain ⟨b, us, ws, q, rfl, rfl, rfl, h₅⟩ := h₄.term_inv
  obtain ⟨y, us, ws, q, rfl, rfl, rfl, h₆⟩ := h₅.term_inv
  obtain ⟨rfl, rfl, rfl, rfl⟩ := h₆.nil_inv
  exact newStmt_leaf (l := .call f [a, b]) fun m' hmade =>
    .leaf (by decide) (.call2 f x a u b y) hmade

theorem rule_call3 (h : SymsMean room
      [gbTok .gbId, gbTok (.char '('), gbTok .gbString, gbTok (.char ','), gbTok .gbString,
        gbTok (.char ','), gbTok .gbString, gbTok (.char ')')] ts m vs m₁ p) :
    Acts room ntStmtCall ts m m₁ p 1 (yyAction room cur 14 vs m₁) := by
  obtain ⟨f, us, ws, q, rfl, rfl, rfl, h₁⟩ := h.term_inv
  obtain ⟨x, us, ws, q, rfl, rfl, rfl, h₂⟩ := h₁.term_inv
  obtain ⟨a, us, ws, q, rfl, rfl, rfl, h₃⟩ := h₂.term_inv
  obtain ⟨u, us, ws, q, rfl, rfl, rfl, h₄⟩ := h₃.term_inv
  obtain ⟨b, us, ws, q, rfl, rfl, rfl, h₅⟩ := h₄.term_inv
  obtain ⟨w, us, ws, q, rfl, rfl, rfl, h₆⟩ := h₅.term_inv
  obtain ⟨c, us, ws, q, rfl, rfl, rfl, h₇⟩ := h₆.term_inv
  obtain ⟨y, us, ws, q, rfl, rfl, rfl, h₈⟩ := h₇.term_inv
  obtain ⟨rfl, rfl, rfl, rfl⟩ := h₈.nil_inv
  exact newStmt_leaf (l := .call f [a, b, c]) fun m' hmade =>
    .leaf (by decide) (.call3 f x a u b w c y) hmade

theorem rule_string (h : SymsMean room [gbTok .gbString] ts m vs m₁ p) :
    Acts room ntVal ts m m₁ p 1 (yyAction room cur 15 vs m₁) := by
  obtain ⟨t, us, ws, q, rfl, rfl, rfl, h₁⟩ := h.term_inv
  obtain ⟨rfl, rfl, rfl, rfl⟩ := h₁.nil_inv
  exact newStmt_leaf (l := .string t) fun m' hmade => .leaf (by decide) (.string t) hmade

theorem rule_id (h : SymsMean room [gbTok .gbId] ts m vs m₁ p) :
    Acts room ntVal ts m m₁ p 1 (yyAction room cur 16 vs m₁) := by
  obtain ⟨t, us, ws, q, rfl, rfl, rfl, h₁⟩ := h.term_inv
  obtain ⟨rfl, rfl, rfl, rfl⟩ := h₁.nil_inv
  exact newStmt_leaf (l := .id t) fun m' hmade => .leaf (by decide) (.id t) hmade

theorem rule_end (h : SymsMean room [.nonterm ntCondList, gbTok .gbEnd, gbTok .gbIf] ts m vs m₁ p) :
    Acts room ntCond ts m m₁ p 0 (yyAction room cur 17 vs m₁) := by
  obtain ⟨ts, us, v, ws, m', q, q', rfl, rfl, rfl, hfst, h₁⟩ := h.nonterm_inv
  obtain ⟨x, us, ws, q, rfl, rfl, rfl, h₂⟩ := h₁.term_inv
  obtain ⟨y, us, ws, q, rfl, rfl, rfl, h₃⟩ := h₂.term_inv
  obtain ⟨rfl, rfl, rfl, rfl⟩ := h₃.nil_inv
  obtain ⟨c, hc, hmade, rfl, rfl⟩ := hfst.code_inv arms_nt
  rw [Nat.max_eq_left hc.arms.need_le]
  exact .ok (.code cond_nt (.cond hc x y) hmade) rfl

theorem rule_else (h : SymsMean room [gbTok .gbElse, .nonterm ntStatements] ts m vs m₁ p) :
    Acts room ntCondElse ts m m₁ p 1 (yyAction room cur 21 vs m₁) := by
  obtain ⟨x, us, ws, q, rfl, rfl, rfl, h₁⟩ := h.term_inv
  obtain ⟨v, q', rfl, hfst, rfl⟩ := h₁.one_inv
  obtain ⟨act, hact, hmade, rfl, rfl⟩ := hfst.code_inv stmts_nt
  have hlen := hmade.ext.length
  rcases newStmt_cases room m₁ fun p =>
      .cond ⟨none, some p, .true, none, none, some (act.head m.mem.length)⟩ with
    ⟨hfull, hnew⟩ | ⟨m₂, hnew, hext, hcell⟩
  · have hres : yyAction room cur 21 [.text x, .stmt (act.head m.mem.length)] m₁ =
        .error .noMemory := by
      simp only [yyAction, hnew, bind, Except.bind]
    rw [hres]
    exact .full hfull
  · have hres : yyAction room cur 21 [.text x, .stmt (act.head m.mem.length)] m₁ =
        .ok (.stmt m₁.mem.length, m₂) := by
      simp only [yyAction, hnew, bind, Except.bind]
    rw [hlen] at hcell
    rw [hres, Nat.max_eq_left hact.need_pos, hlen]
    exact .ok (.otherwise x hact (hmade.ext.trans hext)
      (hext.at hmade.built (Nat.le_of_eq hlen.symm)) hcell) hext.length

/-- A test, with its two values before it. -/
theorem newStmt_test {op : AspCondOp} {x y : AspLeaf} {m' : AspReent} {us : List LexToken}
    (htext : TestText op x y us) (hx : Made room m (.leaf x) m') (hy : Made room m' (.leaf y) m₁) :
    Acts room ntStmtCond us m m₁ (testNeed op x y) 1 (do
      let s ← newStmt room m₁ fun p =>
        .cond ⟨none, some p, op, some m.mem.length, some m'.mem.length, none⟩
      .ok (.stmt s.1, s.2)) := by
  have hlen : m'.mem.length = m.mem.length + 1 := hx.ext.length
  have hlen₁ : m₁.mem.length = m'.mem.length + 1 := hy.ext.length
  rcases newStmt_cases room m₁ fun p =>
      .cond ⟨none, some p, op, some m.mem.length, some m'.mem.length, none⟩ with
    ⟨hfull, hnew⟩ | ⟨m₂, hnew, hext, hcell⟩
  · rw [hnew]
    exact .full hfull
  · rw [hnew]
    have hlen₂ : m₁.mem.length = m.mem.length + 2 := by omega
    have hfst := (hy.ext.trans hext).below m.mem.length (by omega)
    have hsnd := hext.below m'.mem.length (by omega)
    have hmade : MadeTest room m op x y m₂ := by
      refine ⟨(hx.ext.trans hy.ext).trans hext, ?_, ?_, ?_⟩
      · exact hfst.trans hx.built
      · rw [← hlen]
        exact hsnd.trans hy.built
      · rw [← hlen₂, ← hlen]
        exact hcell
    have hval : (YyStype.stmt m₁.mem.length) = .stmt (m.mem.length + 2) := by rw [hlen₂]
    simp only [bind, Except.bind, hval]
    exact .ok (.test htext hmade) hext.length

theorem rule_equ (h : SymsMean room [.nonterm ntStmt, gbTok (.char '='), .nonterm ntStmt]
      ts m vs m₁ p) : Acts room ntStmtCond ts m m₁ p 1 (yyAction room cur 22 vs m₁) := by
  obtain ⟨ts, us, v, ws, m', q, q', rfl, rfl, rfl, hfst, h₁⟩ := h.nonterm_inv
  obtain ⟨x, us, ws, q', rfl, rfl, rfl, h₂⟩ := h₁.term_inv
  obtain ⟨w, q', rfl, hsnd, rfl⟩ := h₂.one_inv
  obtain ⟨a, ha, hmadeA, rfl, rfl⟩ := hfst.leaf_inv (by decide)
  obtain ⟨b, hb, hmadeB, rfl, rfl⟩ := hsnd.leaf_inv (by decide)
  have hneed : max a.need (max b.need 1 + 1 + 1) = testNeed .equ a b := by
    rw [Nat.max_eq_left b.need_pos, testNeed, if_pos rfl, Nat.add_comm 2]
  rw [hneed]
  exact newStmt_test (.equ ha x hb) hmadeA hmadeB

theorem rule_neq (h : SymsMean room
      [.nonterm ntStmt, gbTok (.char '<'), gbTok (.char '>'), .nonterm ntStmt] ts m vs m₁ p) :
    Acts room ntStmtCond ts m m₁ p 1 (yyAction room cur 23 vs m₁) := by
  obtain ⟨ts, us, v, ws, m', q, q', rfl, rfl, rfl, hfst, h₁⟩ := h.nonterm_inv
  obtain ⟨x, us, ws, q', rfl, rfl, rfl, h₂⟩ := h₁.term_inv
  obtain ⟨y, us, ws, q', rfl, rfl, rfl, h₃⟩ := h₂.term_inv
  obtain ⟨w, q', rfl, hsnd, rfl⟩ := h₃.one_inv
  obtain ⟨a, ha, hmadeA, rfl, rfl⟩ := hfst.leaf_inv (by decide)
  obtain ⟨b, hb, hmadeB, rfl, rfl⟩ := hsnd.leaf_inv (by decide)
  have hneed : max a.need (max b.need 1 + 1 + 1 + 1) = testNeed .neq a b := by
    rw [Nat.max_eq_left b.need_pos, testNeed, if_neg (by decide), Nat.add_comm 3]
  rw [hneed]
  exact newStmt_test (.neq ha x y hb) hmadeA hmadeB

theorem rule_if (h : SymsMean room
      [gbTok .gbIf, .nonterm ntStmtCond, gbTok .gbThen, .nonterm ntStatements] ts m vs m₁ p) :
    Acts room ntCondList ts m m₁ p 0 (yyAction room cur 19 vs m₁) := by
  obtain ⟨x, us, ws, q, rfl, rfl, rfl, h₁⟩ := h.term_inv
  obtain ⟨ts, us, v, ws, m', q, q', rfl, rfl, rfl, htest, h₂⟩ := h₁.nonterm_inv
  obtain ⟨y, us, ws, q', rfl, rfl, rfl, h₃⟩ := h₂.term_inv
  obtain ⟨w, q', rfl, hstmts, rfl⟩ := h₃.one_inv
  obtain ⟨op, a, b, htext, hmadeT, rfl, rfl⟩ := htest.test_inv
  obtain ⟨act, hact, hmade, rfl, rfl⟩ := hstmts.code_inv stmts_nt
  have hlenT := hmadeT.ext.length
  have htestAt := hmadeT.test.congr fun i _ hi => hmade.ext.below i (by omega)
  obtain ⟨m₂, hm₂, ha₂⟩ := assignCond_ok
    (fun k => { k with stmtAct := some (act.head m'.mem.length) }) htestAt.test rfl
  have hres : yyAction room cur 19
      [.text x, .stmt (m.mem.length + 2), .text y, .stmt (act.head m'.mem.length)] m₁ =
        .ok (.stmt (m.mem.length + 2), m₂) := by
    simp only [yyAction, hm₂, bind, Except.bind]
  have hcode : (AspTree.arm op a b act).Built m₂.mem m.mem.length := by
    have hbuilt := ha₂.changes.congr hmade.built (.inl (by omega))
    rw [hlenT] at hbuilt
    refine ⟨ha₂.changes.set_test htestAt ?_, hbuilt⟩
    rw [hlenT]
    rfl
  have hext := (hmadeT.ext.trans hmade.ext).assigned ha₂ (Nat.le_add_right _ 2)
  rw [Nat.add_comm 3] at hext
  have hneed : max (testNeed op a b) (max act.need 1 + 1 + 1) + 1 =
      (AspTree.arm op a b act).need := by
    rw [Nat.max_eq_left hact.need_pos, AspTree.need]
    omega
  rw [hres, hneed]
  exact .ok (.code arms_nt (.arm x htext y hact) ⟨hext, hcode⟩) ha₂.length

/-- Another branch behind the last one: both its predecessor and the first branch point to it. -/
theorem assignCond_branch {c : AspTree} {m' : AspReent} {lo e : Nat} {last : Option Nat}
    (hc : c.IsArms) (hat : c.At m'.mem lo none last (none, some (c.lastArm lo))) :
    ∃ m₂ m₃, m'.condLastOf (c.head lo) = some (c.lastArm lo) ∧
      m'.assignCond (fun k => { k with next := some e }) (some (c.lastArm lo)) = .ok m₂ ∧
      m₂.assignCond (fun k => { k with last := some e }) (some (c.head lo)) = .ok m₃ ∧
      c.At m₃.mem lo none last (some e, some e) ∧ m₃.mem.length = m'.mem.length ∧
      m₃.root = m'.root ∧
      ∀ i, i < lo ∨ lo + c.size ≤ i → m₃.mem[i]? = m'.mem[i]? := by
  obtain ⟨s, k, hs, hk, hlast⟩ := hat.head_cond hc
  obtain ⟨s₂, k₂, hs₂, hk₂⟩ := hat.lastArm_cond hc
  obtain ⟨m₂, hm₂, ha₂⟩ := assignCond_ok (fun k => { k with next := some e }) hs₂ hk₂
  have hat₂ := ha₂.changes.set_condNext hc hat
  obtain ⟨s₃, k₃, hs₃, hk₃, -⟩ := hat₂.head_cond hc
  obtain ⟨m₃, hm₃, ha₃⟩ := assignCond_ok (fun k => { k with last := some e }) hs₃ hk₃
  have hrange := hc.lastArm_range lo
  have hhead := c.head_range lo
  refine ⟨m₂, m₃, ?_, hm₂, hm₃, ha₃.changes.set_condLast hc hat₂, ha₃.length.trans ha₂.length,
    ha₃.root.trans ha₂.root, fun i hi => ?_⟩
  · simp only [AspReent.condLastOf, hs, Option.bind_some, hk, hlast]
  · rw [ha₃.changes.other i (by omega), ha₂.changes.other i (by omega)]

theorem rule_elseif (h : SymsMean room [.nonterm ntCondList, gbTok .gbElseif, .nonterm ntStmtCond,
      gbTok .gbThen, .nonterm ntStatements] ts m vs m₁ p) :
    Acts room ntCondList ts m m₁ p 0 (yyAction room cur 20 vs m₁) := by
  obtain ⟨ts, us, v, ws, m', q, q', rfl, rfl, rfl, hlist, h₁⟩ := h.nonterm_inv
  obtain ⟨x, us, ws, q', rfl, rfl, rfl, h₂⟩ := h₁.term_inv
  obtain ⟨ts', us, v', ws, m'', q'', q', rfl, rfl, rfl, htest, h₃⟩ := h₂.nonterm_inv
  obtain ⟨y, us, ws, q', rfl, rfl, rfl, h₄⟩ := h₃.term_inv
  obtain ⟨w, q', rfl, hstmts, rfl⟩ := h₄.one_inv
  obtain ⟨c, hc, hmadeC, rfl, rfl⟩ := hlist.code_inv arms_nt
  obtain ⟨op, a, b, htext, hmadeT, rfl, rfl⟩ := htest.test_inv
  obtain ⟨act, hact, hmade, rfl, rfl⟩ := hstmts.code_inv stmts_nt
  have hlenC := hmadeC.ext.length
  have hlenT := hmadeT.ext.length
  have hlen := hmade.ext.length
  have htestAt := hmadeT.test.congr fun i _ hi => hmade.ext.below i (by omega)
  obtain ⟨m₂, hm₂, ha₂⟩ := assignCond_ok
    (fun k => { k with stmtAct := some (act.head m''.mem.length) }) htestAt.test rfl
  have hatC := ha₂.changes.congr
    ((hmadeT.ext.trans hmade.ext).at hmadeC.built (Nat.le_of_eq hlenC.symm)) (.inr (by omega))
  have hlen₂ := ha₂.length
  obtain ⟨m₃, m₄, hlast, hm₃, hm₄, hatC', hlen₄, hroot, hother⟩ :=
    assignCond_branch (e := m'.mem.length + 2) hc.arms hatC
  have hres : yyAction room cur 20 [.stmt (c.head m.mem.length), .text x,
      .stmt (m'.mem.length + 2), .text y, .stmt (act.head m''.mem.length)] m₁ =
        .ok (.stmt (c.head m.mem.length), m₄) := by
    simp only [yyAction, hm₂, hlast, hm₃, hm₄, bind, Except.bind]
  have hcode : (AspTree.elseif c op a b act).Built m₄.mem m.mem.length := by
    have htestAt' : TestAt m₄.mem op a b m'.mem.length none (some (m'.mem.length + 2))
        (none, some (m'.mem.length + 2)) (some (act.head m''.mem.length)) :=
      (ha₂.changes.set_test htestAt rfl).congr fun i hi _ => hother i (.inr (by omega))
    have hbuilt := (ha₂.changes.congr hmade.built (.inl (by omega))).congr
      fun i hi _ => hother i (.inr (by omega))
    rw [hlenT, hlenC] at hbuilt
    rw [hlenT, hlenC] at htestAt'
    rw [hlenC] at hatC'
    exact ⟨hatC', htestAt', hbuilt⟩
  have hext : Extends room m m₄ (c.size + (3 + act.size)) := by
    have hall := (hmadeC.ext.trans (hmadeT.ext.trans hmade.ext)).assigned ha₂
      (Nat.le_trans (hlenC ▸ Nat.le_add_right _ _) (Nat.le_add_right _ 2))
    exact ⟨hlen₄.trans hall.length, fun i hi => (hother i (.inl hi)).trans (hall.below i hi),
      hroot.trans hall.root, hlen₄ ▸ hall.fits⟩
  rw [Nat.add_comm 3] at hext
  have hneed : max c.need (max (testNeed op a b) (max act.need 1 + 1 + 1) + 1 + 1) =
      (AspTree.elseif c op a b act).need := by
    rw [Nat.max_eq_left hact.need_pos, AspTree.need]
    omega
  have htokens : ts ++ (GbToken.gbElseif, x) :: (ts' ++ (GbToken.gbThen, y) :: us) =
      ts ++ (GbToken.gbElseif, x) :: ts' ++ (GbToken.gbThen, y) :: us := by
    rw [List.append_assoc, List.cons_append]
  rw [hres, hneed, htokens]
  exact .ok (.code arms_nt (.elseif hc x htext y hact) ⟨hext, hcode⟩) (hlen₄.trans hlen₂)

theorem rule_condElse (h : SymsMean room
      [.nonterm ntCondList, .nonterm ntCondElse, gbTok .gbEnd, gbTok .gbIf] ts m vs m₁ p) :
    Acts room ntCond ts m m₁ p 0 (yyAction room cur 18 vs m₁) := by
  obtain ⟨ts, us, v, ws, m', q, q', rfl, rfl, rfl, hlist, h₁⟩ := h.nonterm_inv
  obtain ⟨ts', us, v', ws, m'', q'', q', rfl, rfl, rfl, helse, h₂⟩ := h₁.nonterm_inv
  obtain ⟨y, us, ws, q', rfl, rfl, rfl, h₃⟩ := h₂.term_inv
  obtain ⟨z, us, ws, q', rfl, rfl, rfl, h₄⟩ := h₃.term_inv
  obtain ⟨rfl, rfl, rfl, rfl⟩ := h₄.nil_inv
  obtain ⟨c, hc, hmadeC, rfl, rfl⟩ := hlist.code_inv arms_nt
  obtain ⟨x, us, act, rfl, hact, hext, hbuilt, hcell, rfl, rfl⟩ := helse.else_inv
  have hlenC := hmadeC.ext.length
  have hlen := hext.length
  have hatC := hext.at hmadeC.built (Nat.le_of_eq hlenC.symm)
  obtain ⟨m₃, m₄, hlast, hm₃, hm₄, hatC', hlen₄, hroot, hother⟩ :=
    assignCond_branch (e := m'.mem.length + act.size) hc.arms hatC
  have hres : yyAction room cur 18 [.stmt (c.head m.mem.length),
      .stmt (m'.mem.length + act.size), .text y, .text z] m₁ =
        .ok (.stmt (c.head m.mem.length), m₄) := by
    simp only [yyAction, hlast, hm₃, hm₄, bind, Except.bind]
  have hcode : (AspTree.otherwise c act).Built m₄.mem m.mem.length := by
    have hbuilt' : act.Built m₄.mem m'.mem.length :=
      AspTree.At.congr hbuilt fun i hi _ => hother i (.inr (by omega))
    have hcell' := (hother _ (.inr (by omega))).trans hcell
    rw [hlenC] at hbuilt' hcell' hatC'
    exact ⟨hatC', hbuilt', hcell'⟩
  have hall := hmadeC.ext.trans hext
  have hext' : Extends room m m₄ (c.size + (act.size + 1)) :=
    ⟨hlen₄.trans hall.length, fun i hi => (hother i (.inl hi)).trans (hall.below i hi),
      hroot.trans hall.root, hlen₄ ▸ hall.fits⟩
  have hneed : max c.need (max (act.need + 1) (0 + 1 + 1 + 1) + 1) =
      (AspTree.otherwise c act).need := by
    rw [AspTree.need]
    omega
  have htokens : ts ++ ((GbToken.gbElse, x) :: us ++ [(GbToken.gbEnd, y), (GbToken.gbIf, z)]) =
      ts ++ (GbToken.gbElse, x) :: us ++ [(GbToken.gbEnd, y), (GbToken.gbIf, z)] :=
    (List.append_assoc ..).symm
  rw [hres, hneed, htokens]
  exact .ok (.code cond_nt (.condElse hc x hact y z) ⟨hext', hcode⟩) hlen₄

/-- **Every action makes what its rule stands for**, unless the memory is full. -/
theorem aspSem_acts {n : Nat} {r : Nat × List (GramSym GbToken Nat)}
    (hr : aspGrammar.rules[n]? = some r) (hn : n ≠ 0) (h : SymsMean room r.2 ts m vs m₁ p) :
    Acts room r.1 ts m m₁ p (aspMakes n) ((aspSem room).act n vs m₁) := by
  have hlt : n < 23 := (List.getElem?_eq_some_iff.mp hr).choose
  interval_cases n
  · exact absurd rfl hn
  all_goals obtain rfl := Option.some.inj hr
  · exact rule_aspfile h
  · exact rule_one h
  · exact rule_seq h
  · exact rule_script h
  · refine rule_html h ?_
    rintro text rfl
    rfl
  · exact rule_value h
  · exact rule_cond h
  · obtain ⟨v, rfl, hacts⟩ := rule_stmt (by decide) h
    exact hacts
  · obtain ⟨v, rfl, hacts⟩ := rule_stmt (by decide) h
    exact hacts
  · exact rule_call0 h
  · exact rule_call1 h
  · exact rule_call2 h
  · exact rule_call3 h
  · exact rule_string h
  · exact rule_id h
  · exact rule_end h
  · exact rule_condElse h
  · exact rule_if h
  · exact rule_elseif h
  · exact rule_else h
  · exact rule_equ h
  · exact rule_neq h

end Rules

end OnuFirmware.Asp
