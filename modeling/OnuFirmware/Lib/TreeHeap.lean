import OnuFirmware.Lib.Heap
import OnuFirmware.Lib.Lcrs

/-!
# Trees in a heap

A first-child / next-sibling tree in memory: each node is a cell with a value and pointers to its
parent, its first child and its next brother. `Holds h par t` says that the tree `t`, whose nodes
are pairs of an address and a value, lies in the heap `h` below the parent `par`.

A pointer to a node of a sibling chain is stored in one place only, a `Slot`: the child field of the
parent or the brother field of the node before it.
-/

namespace OnuFirmware.Lib

universe u

/-- A node in memory. -/
structure Cell (α : Type u) where
  val : α
  parent : Option Nat
  child : Option Nat
  brother : Option Nat
deriving Repr, DecidableEq

namespace Lcrs

variable {α : Type u}

/-- The pointer to a tree of addressed nodes. -/
def ptr : Lcrs (Nat × α) → Option Nat
  | nil => none
  | node a _ _ => some a.1

/-- The addresses of all nodes. -/
def addrs (t : Lcrs (Nat × α)) : List Nat := t.values.map Prod.fst

theorem addrs_node (a : Nat × α) (c s : Lcrs (Nat × α)) :
    (node a c s).addrs = a.1 :: (c.addrs ++ s.addrs) := by
  simp only [addrs, values, List.map_cons, List.map_append]

theorem addrs_single (a : Nat × α) (c : Lcrs (Nat × α)) :
    (node a c nil).addrs = a.1 :: c.addrs := by
  unfold addrs
  rw [values_single, List.map_cons]

theorem length_addrs (t : Lcrs (Nat × α)) : t.addrs.length = t.size := by
  unfold addrs
  rw [List.length_map, ← map_fst_entries, List.length_map, length_entries]

/-- Pruning keeps some of the addresses. -/
theorem addrs_prune_sublist (p : Nat × α → Bool) (t : Lcrs (Nat × α)) :
    (t.prune p).addrs.Sublist t.addrs :=
  (values_prune_sublist p t).map Prod.fst

/-- What it means that the nodes of a tree have different addresses. -/
theorem nodup_addrs_node {a : Nat × α} {c s : Lcrs (Nat × α)} (h : (node a c s).addrs.Nodup) :
    a.1 ∉ c.addrs ∧ a.1 ∉ s.addrs ∧ c.addrs.Nodup ∧ s.addrs.Nodup ∧
      ∀ b ∈ c.addrs, b ∉ s.addrs := by
  rw [addrs_node] at h
  obtain ⟨ha, hcs⟩ := List.nodup_cons.mp h
  rw [List.mem_append, not_or] at ha
  obtain ⟨hc, hs, hdisj⟩ := List.nodup_append.mp hcs
  exact ⟨ha.1, ha.2, hc, hs, fun b hb hbs => hdisj b hb b hbs rfl⟩

end Lcrs

namespace Heap

variable {α : Type u}

/-- Changes a block, if there is one. -/
def modify {β : Type u} (h : Heap β) (a : Nat) (f : β → β) : Heap β :=
  fun b => if b = a then (h a).map f else h b

@[simp] theorem modify_self {β : Type u} (h : Heap β) (a : Nat) (f : β → β) :
    h.modify a f a = (h a).map f := if_pos rfl

theorem modify_ne {β : Type u} (h : Heap β) {a b : Nat} (f : β → β) (hab : b ≠ a) :
    h.modify a f b = h b := if_neg hab

/-- Different addresses at which there are blocks below `n` are at most `n`. -/
theorem length_le_of_nodup {n : Nat} {l : List Nat} (hn : l.Nodup) (hlt : ∀ a ∈ l, a < n) :
    l.length ≤ n := by
  have hsub : l ⊆ List.range n := fun a ha => List.mem_range.mpr (hlt a ha)
  have hlen := (List.subperm_of_subset hn hsub).length_le
  rwa [List.length_range] at hlen

/-! ## Trees -/

/-- The tree lies in the heap, its topmost nodes below `par`. -/
def Holds (h : Heap (Cell α)) : Option Nat → Lcrs (Nat × α) → Prop
  | _, .nil => True
  | par, .node a c s =>
    h a.1 = some { val := a.2, parent := par, child := c.ptr, brother := s.ptr } ∧
      Holds h (some a.1) c ∧ Holds h par s

variable {h h' : Heap (Cell α)}

/-- Whether a tree lies in the heap depends on its own blocks only. -/
theorem Holds.congr : ∀ {t : Lcrs (Nat × α)} {par : Option Nat}, h.Holds par t →
    (∀ b ∈ t.addrs, h' b = h b) → h'.Holds par t
  | .nil, _, _, _ => trivial
  | .node a c s, par, ⟨ha, hc, hs⟩, heq => by
    rw [Lcrs.addrs_node] at heq
    refine ⟨?_, hc.congr fun b hb => ?_, hs.congr fun b hb => ?_⟩
    · rw [heq a.1 List.mem_cons_self]
      exact ha
    · exact heq b (List.mem_cons_of_mem _ (List.mem_append_left _ hb))
    · exact heq b (List.mem_cons_of_mem _ (List.mem_append_right _ hb))

/-- There is a block at each address of a tree in the heap. -/
theorem Holds.ne_none : ∀ {t : Lcrs (Nat × α)} {par : Option Nat}, h.Holds par t →
    ∀ b ∈ t.addrs, h b ≠ none
  | .nil, _, _, _, hb => absurd hb List.not_mem_nil
  | .node a c s, par, ⟨ha, hc, hs⟩, b, hb => by
    rw [Lcrs.addrs_node] at hb
    rcases List.mem_cons.mp hb with rfl | hb
    · rw [ha]
      exact Option.some_ne_none _
    · rcases List.mem_append.mp hb with hb | hb
      · exact hc.ne_none b hb
      · exact hs.ne_none b hb

/-! ## Sibling chains -/

/-- The pointer `p` leads over the brothers `l` to the pointer `q`. -/
def Seg (h : Heap (Cell α)) : Option Nat → List Nat → Option Nat → Prop
  | p, [], q => p = q
  | p, a :: l, q => p = some a ∧ ∃ x, h a = some x ∧ Seg h x.brother l q

theorem Seg.congr : ∀ {l : List Nat} {p q : Option Nat}, Seg h p l q →
    (∀ b ∈ l, h' b = h b) → Seg h' p l q
  | [], _, _, hseg, _ => hseg
  | a :: l, _, _, ⟨hp, x, hx, hseg⟩, heq => by
    refine ⟨hp, x, ?_, hseg.congr fun b hb => heq b (List.mem_cons_of_mem a hb)⟩
    rw [heq a List.mem_cons_self]
    exact hx

/-- One brother further. -/
theorem Seg.concat : ∀ {l : List Nat} {p : Option Nat} {a : Nat} {x : Cell α},
    Seg h p l (some a) → h a = some x → Seg h p (l ++ [a]) x.brother
  | [], _, _, x, hseg, hx => ⟨hseg, x, hx, rfl⟩
  | _ :: _, _, _, _, ⟨hp, y, hy, hseg⟩, hx => ⟨hp, y, hy, hseg.concat hx⟩

/-- The last brother points to where the chain leads. -/
theorem Seg.last : ∀ {l : List Nat} {p q : Option Nat} {a : Nat}, Seg h p (l ++ [a]) q →
    ∃ x, h a = some x ∧ x.brother = q
  | [], _, _, _, ⟨_, x, hx, hq⟩ => ⟨x, hx, hq⟩
  | _ :: _, _, _, _, ⟨_, _, _, hseg⟩ => hseg.last

theorem Seg.ne_none : ∀ {l : List Nat} {p q : Option Nat}, Seg h p l q → ∀ b ∈ l, h b ≠ none
  | [], _, _, _, _, hb => absurd hb List.not_mem_nil
  | a :: l, _, _, ⟨_, x, hx, hseg⟩, b, hb => by
    rcases List.mem_cons.mp hb with rfl | hb
    · rw [hx]
      exact Option.some_ne_none x
    · exact hseg.ne_none b hb

/-! ## Slots -/

/-- A place that holds a pointer to a node: the child field of the node `p` or the brother field of
the node `q`. -/
inductive Slot where
  | child (p : Nat)
  | brother (q : Nat)
deriving Repr, DecidableEq

/-- The slot behind the brothers `pre`, the first children of `p`. -/
def slotOf (p : Nat) (pre : List Nat) : Slot :=
  match pre.getLast? with
  | none => .child p
  | some q => .brother q

/-- Stores a pointer. -/
def setLink (h : Heap (Cell α)) : Slot → Option Nat → Heap (Cell α)
  | .child p, v => h.modify p fun x => { x with child := v }
  | .brother q, v => h.modify q fun x => { x with brother := v }

theorem slotOf_concat (p a : Nat) (pre : List Nat) : slotOf p (pre ++ [a]) = .brother a := by
  unfold slotOf
  rw [List.getLast?_concat]

/-- Storing the pointer that is there changes nothing. -/
theorem setLink_slotOf_self {p : Nat} {pc : Cell α} {pre : List Nat} {q : Option Nat}
    (hp : h p = some pc) (hseg : Seg h pc.child pre q) (b : Nat) :
    h.setLink (slotOf p pre) q b = h b := by
  obtain rfl | ⟨l, a, rfl⟩ := List.eq_nil_or_concat' pre
  · show h.modify p (fun x => { x with child := q }) b = h b
    by_cases hb : b = p
    · rw [hb, modify_self, hp]
      cases hseg
      rfl
    · exact modify_ne h _ hb
  · obtain ⟨x, hx, hxq⟩ := hseg.last
    rw [slotOf_concat]
    show h.modify a (fun x => { x with brother := q }) b = h b
    by_cases hb : b = a
    · rw [hb, modify_self, hx, ← hxq]
      rfl
    · exact modify_ne h _ hb

/-- Storing a pointer behind the brothers `pre` changes no block but those of `pre` and of `p`. -/
theorem setLink_slotOf_ne {p : Nat} {pre : List Nat} (v : Option Nat) {b : Nat} (hp : b ≠ p)
    (hpre : b ∉ pre) : h.setLink (slotOf p pre) v b = h b := by
  obtain rfl | ⟨l, a, rfl⟩ := List.eq_nil_or_concat' pre
  · exact modify_ne h _ hp
  · rw [slotOf_concat]
    refine modify_ne h _ ?_
    rintro rfl
    exact hpre (List.mem_append_right _ List.mem_cons_self)

/-- What a block becomes depends on the block only. -/
theorem setLink_congr {slot : Slot} {v : Option Nat} {b : Nat} (heq : h b = h' b) :
    h.setLink slot v b = h'.setLink slot v b := by
  cases slot with
  | child p =>
    show h.modify p _ b = h'.modify p _ b
    by_cases hb : b = p
    · rw [hb] at heq ⊢
      rw [modify_self, modify_self, heq]
    · rw [modify_ne h _ hb, modify_ne h' _ hb, heq]
  | brother q =>
    show h.modify q _ b = h'.modify q _ b
    by_cases hb : b = q
    · rw [hb] at heq ⊢
      rw [modify_self, modify_self, heq]
    · rw [modify_ne h _ hb, modify_ne h' _ hb, heq]

/-- Whether a block exists is not changed by storing a pointer in it. -/
theorem setLink_eq_none {slot : Slot} {v : Option Nat} {b : Nat} :
    h.setLink slot v b = none ↔ h b = none := by
  cases slot with
  | child p =>
    show h.modify p _ b = none ↔ _
    by_cases hb : b = p
    · rw [hb, modify_self, Option.map_eq_none_iff]
    · rw [modify_ne h _ hb]
  | brother q =>
    show h.modify q _ b = none ↔ _
    by_cases hb : b = q
    · rw [hb, modify_self, Option.map_eq_none_iff]
    · rw [modify_ne h _ hb]

end Heap

end OnuFirmware.Lib
