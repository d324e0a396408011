import Mathlib.Data.Fintype.Basic
import Mathlib.Logic.Relation
import Mathlib.Tactic.FinCases

/-!
# Groups of LAN ports (`vlan_binding.c`)

`svc_wan_vlanbind_write` gives each of the four ports of the switch a group: 0 for a port that may
talk to all four, and otherwise numbers from 1 on in one pass, where the first port without a group
takes along all later ones it may talk to. Two ports can talk if their groups are equal or one of
them is 0.

Which ports may talk is a relation that every port has to itself, and that has no direction. It need
not be transitive, but the groups are.
-/

namespace OnuFirmware.Wan

/-- Which of the four ports may talk. -/
abbrev PortRel := Fin 4 → Fin 4 → Bool

/-- `port_group[i]`. -/
def groupAt (g : List Int) (i : Fin 4) : Int := g.getD i (-1)

/-- The groups before the pass: 0 for a port whose mask has the four lowest bits, else -1. -/
def initGroups (s : PortRel) : List Int :=
  (List.finRange 4).map fun i => if (List.finRange 4).all (s i) then 0 else -1

/-- The inner loop: the later ports without a group that may talk to port `i` get its group. -/
def takeAlong (s : PortRel) (i : Fin 4) (groupid : Int) (g : List Int) : List Int :=
  (List.finRange 4).foldl
    (fun g j => if i < j ∧ s i j = true ∧ groupAt g j = -1 then g.set j groupid else g) g

/-- One round of the pass on the groups and `groupid`. -/
def groupRound (s : PortRel) (st : List Int × Int) (i : Fin 4) : List Int × Int :=
  if groupAt st.1 i = -1 then (takeAlong s i st.2 (st.1.set i st.2), st.2 + 1) else st

/-- The groups that `macMT7530SetPortMatrix` is called with. -/
def portGroup (s : PortRel) : List Int :=
  ((List.finRange 4).foldl (groupRound s) (initGroups s, 1)).1

/-- Two ports that may talk can talk. -/
def GroupsJoin (s : PortRel) : Prop :=
  ∀ i j, s i j = true → groupAt (portGroup s) i = groupAt (portGroup s) j ∨
    groupAt (portGroup s) i = 0 ∨ groupAt (portGroup s) j = 0

/-- Of two ports that may talk and are not allowed to talk to all, an earlier port of that kind may
talk to both or to none. -/
def GroupCond (s : PortRel) : Prop :=
  ∀ i j k : Fin 4, i < j → j < k → (∃ l, s i l = false) → (∃ l, s j l = false) →
    (∃ l, s k l = false) → s j k = true → (s i j = true ↔ s i k = true)

instance (s : PortRel) : Decidable (GroupsJoin s) :=
  inferInstanceAs (Decidable (∀ i j, s i j = true →
    groupAt (portGroup s) i = groupAt (portGroup s) j ∨ groupAt (portGroup s) i = 0 ∨
      groupAt (portGroup s) j = 0))

instance (s : PortRel) : Decidable (GroupCond s) :=
  inferInstanceAs (Decidable (∀ i j k : Fin 4, i < j → j < k → (∃ l, s i l = false) →
    (∃ l, s j l = false) → (∃ l, s k l = false) → s j k = true → (s i j = true ↔ s i k = true)))

/-- A relation with the pairs `b01`, .., `b23`. -/
def pairRel (b01 b02 b03 b12 b13 b23 : Bool) : PortRel
  | 0, 1 | 1, 0 => b01
  | 0, 2 | 2, 0 => b02
  | 0, 3 | 3, 0 => b03
  | 1, 2 | 2, 1 => b12
  | 1, 3 | 3, 1 => b13
  | 2, 3 | 3, 2 => b23
  | _, _ => true

/-- A relation that every port has to itself and that has no direction is one of these. -/
theorem eq_pairRel {s : PortRel} (hrefl : ∀ i, s i i = true) (hsymm : ∀ i j, s i j = s j i) :
    s = pairRel (s 0 1) (s 0 2) (s 0 3) (s 1 2) (s 1 3) (s 2 3) := by
  have hdiag : ∀ i, s i i = pairRel (s 0 1) (s 0 2) (s 0 3) (s 1 2) (s 1 3) (s 2 3) i i := by
    intro i
    rw [hrefl i]
    fin_cases i <;> rfl
  funext i j
  fin_cases i <;> fin_cases j
  all_goals first
    | exact hdiag _
    | rfl
    | exact hsymm _ _

/-- The groups are right for each of the 64 relations exactly under the condition. -/
theorem groupsJoin_pairRel : ∀ b01 b02 b03 b12 b13 b23 : Bool,
    (GroupsJoin (pairRel b01 b02 b03 b12 b13 b23) ↔
      GroupCond (pairRel b01 b02 b03 b12 b13 b23)) := by
  decide +kernel

/-- Two ports in one group may both talk to the port that opened it. -/
theorem leader_pairRel : ∀ b01 b02 b03 b12 b13 b23 : Bool, ∀ i j : Fin 4,
    groupAt (portGroup (pairRel b01 b02 b03 b12 b13 b23)) i =
      groupAt (portGroup (pairRel b01 b02 b03 b12 b13 b23)) j →
    groupAt (portGroup (pairRel b01 b02 b03 b12 b13 b23)) i ≠ 0 →
    ∃ l, pairRel b01 b02 b03 b12 b13 b23 l i = true ∧
    pairRel b01 b02 b03 b12 b13 b23 l j = true := by
  decide +kernel

/-- **The groups let all ports talk that may talk exactly under the condition.** -/
theorem groupsJoin_iff {s : PortRel} (hrefl : ∀ i, s i i = true) (hsymm : ∀ i j, s i j = s j i) :
    GroupsJoin s ↔ GroupCond s := by
  rw [eq_pairRel hrefl hsymm]
  exact groupsJoin_pairRel _ _ _ _ _ _

/-- **Two ports in one group are linked by a chain of ports that may talk.** -/
theorem chain_of_group_eq {s : PortRel} (hrefl : ∀ i, s i i = true)
    (hsymm : ∀ i j, s i j = s j i) {i j : Fin 4}
    (heq : groupAt (portGroup s) i = groupAt (portGroup s) j)
    (hne : groupAt (portGroup s) i ≠ 0) : Relation.ReflTransGen (fun a b => s a b = true) i j := by
  have hleader : ∃ l, s l i = true ∧ s l j = true := by
    rw [eq_pairRel hrefl hsymm] at heq hne ⊢
    exact leader_pairRel _ _ _ _ _ _ i j heq hne
  obtain ⟨l, hi, hj⟩ := hleader
  rw [hsymm] at hi
  have hfirst : Relation.ReflTransGen (fun a b => s a b = true) i l := .single hi
  exact hfirst.tail hj

/-! ## Which ports may talk -/

/-- The inner loop of `checkVlanBindGroup` over the VLAN ids `out_portNum` has from some index
on. -/
def scanOut (m : Int) : Bool → List Int → Bool
  | _, [] => false
  | first, c :: cs => if c < 1 then first else if m = c then true else scanOut m false cs

/-- The outer loop over those of `in_portNum`. -/
def scanIn (out : List Int) : Bool → List Int → Bool
  | _, [] => false
  | first, c :: cs =>
    if c < 1 then first else if scanOut c true out then true else scanIn out false cs

/-- `checkVlanBindGroup` on the two rows of the array. -/
def checkVlanBindGroup (inRow outRow : List Int) : Bool := scanIn outRow true inRow

/-- The ids of a row end before the first one below 1. -/
def rowIds (row : List Int) : List Int := row.takeWhile fun m => decide (1 ≤ m)

theorem rowIds_cons (c : Int) (cs : List Int) :
    rowIds (c :: cs) = if c < 1 then [] else c :: rowIds cs := by
  rw [rowIds, List.takeWhile_cons]
  by_cases h : c < 1
  · rw [if_pos h, if_neg (by simpa using h)]
  · rw [if_neg h, if_pos (by simpa using h)]
    rfl

theorem scanOut_false (m : Int) : ∀ row, scanOut m false row = true ↔ m ∈ rowIds row
  | [] => by simp [scanOut, rowIds]
  | c :: cs => by
    rw [scanOut, rowIds_cons]
    by_cases hc : c < 1
    · simp [hc]
    · rw [if_neg hc, if_neg hc, List.mem_cons, ← scanOut_false m cs]
      by_cases hm : m = c <;> simp [hm]

theorem scanOut_true (m : Int) {row : List Int} (hne : row ≠ []) :
    scanOut m true row = true ↔ rowIds row = [] ∨ m ∈ rowIds row := by
  obtain ⟨c, cs, rfl⟩ := List.exists_cons_of_ne_nil hne
  rw [scanOut, rowIds_cons]
  by_cases hc : c < 1
  · simp [hc]
  · rw [if_neg hc, if_neg hc, List.mem_cons, ← scanOut_false m cs]
    by_cases hm : m = c <;> simp [hm]

theorem scanIn_false {out : List Int} (hne : out ≠ []) : ∀ row,
    scanIn out false row = true ↔ ∃ m ∈ rowIds row, rowIds out = [] ∨ m ∈ rowIds out
  | [] => by simp [scanIn, rowIds]
  | c :: cs => by
    rw [scanIn, rowIds_cons]
    by_cases hc : c < 1
    · simp [hc]
    · simp only [if_neg hc, List.mem_cons, exists_eq_or_imp]
      rw [← scanIn_false hne cs, ← scanOut_true c hne]
      by_cases hs : scanOut c true out = true <;> simp [hs]

/-- **Two ports may talk if one has no ids or they share one.** -/
theorem checkVlanBindGroup_iff {a b : List Int} (ha : a ≠ []) (hb : b ≠ []) :
    checkVlanBindGroup a b = true ↔
      rowIds a = [] ∨ rowIds b = [] ∨ ∃ m ∈ rowIds a, m ∈ rowIds b := by
  obtain ⟨c, cs, rfl⟩ := List.exists_cons_of_ne_nil ha
  rw [checkVlanBindGroup, scanIn, rowIds_cons]
  by_cases hc : c < 1
  · simp [hc]
  · simp only [if_neg hc, List.mem_cons, exists_eq_or_imp]
    have hout := scanOut_true c hb
    have hin := scanIn_false hb cs
    by_cases hs : scanOut c true b = true
    · rw [if_pos hs]
      refine iff_of_true rfl (.inr ?_)
      exact (hout.mp hs).imp id .inl
    · rw [if_neg hs, hin]
      rw [hout, not_or] at hs
      simp [hs.1, hs.2]

theorem checkVlanBindGroup_self {a : List Int} (ha : a ≠ []) : checkVlanBindGroup a a = true := by
  rw [checkVlanBindGroup_iff ha ha]
  cases h : rowIds a with
  | nil => exact .inl rfl
  | cons m ms => exact .inr (.inr ⟨m, by simp, by simp⟩)

theorem checkVlanBindGroup_comm {a b : List Int} (ha : a ≠ []) (hb : b ≠ []) :
    checkVlanBindGroup a b = checkVlanBindGroup b a := by
  rw [Bool.eq_iff_iff, checkVlanBindGroup_iff ha hb, checkVlanBindGroup_iff hb ha]
  constructor
  · rintro (h | h | ⟨m, h1, h2⟩)
    · exact .inr (.inl h)
    · exact .inl h
    · exact .inr (.inr ⟨m, h2, h1⟩)
  · rintro (h | h | ⟨m, h1, h2⟩)
    · exact .inr (.inl h)
    · exact .inl h
    · exact .inr (.inr ⟨m, h2, h1⟩)

end OnuFirmware.Wan
