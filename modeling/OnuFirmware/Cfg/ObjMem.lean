import OnuFirmware.Cfg.Reset
import OnuFirmware.Cfg.TypeMem
import OnuFirmware.Lib.TreeHeap

/-!
# The objects in memory (`cfg_obj.c`)

`Cfg/Obj.lean` has the object tree as a value. This module has the objects by address, and the
functions that link, unlink and free them as the source has them: `cfg_obj_load_from_type` makes an
object for every type and then walks over the tree that it is taking apart. A function that touches
freed memory stops with `Fault.dangling`.

`loadFromType_spec` says that the walk never does, that what is left is the tree of the static
types, and that nothing else stays allocated.
-/

namespace OnuFirmware.Cfg

open Lib Clib

/-! ## Memory -/

/-- The id of a `cfg_node_obj` and the attributes of its mxml node. -/
structure ObjData where
  id : Nat
  priv : List (Str × Str)
deriving Repr, DecidableEq

/-- `struct cfg_node_obj`. -/
abbrev ObjCell := Cell ObjData

/-- The objects of the shared memory pool. The address of an object is the number of the allocation
that made it; `next` is the number of the next one. -/
structure ObjMem where
  heap : Heap ObjCell
  next : Nat
  fresh : ∀ a, next ≤ a → heap a = none

namespace ObjMem

/-- An object that is read must not have been freed. -/
def load (m : ObjMem) (a : Nat) : Except Fault ObjCell :=
  match m.heap a with
  | none => .error .dangling
  | some x => .ok x

/-- Changes an object, whether it is there or not. -/
def modify (m : ObjMem) (a : Nat) (f : ObjCell → ObjCell) : ObjMem where
  heap := m.heap.modify a f
  next := m.next
  fresh := by
    intro b hb
    by_cases hba : b = a
    · rw [hba, Heap.modify_self, ← hba, m.fresh b hb, Option.map_none]
    · rw [Heap.modify_ne _ _ hba, m.fresh b hb]

/-- Changes an object. -/
def update (m : ObjMem) (a : Nat) (f : ObjCell → ObjCell) : Except Fault ObjMem :=
  match m.heap a with
  | none => .error .dangling
  | some _ => .ok (m.modify a f)

/-- The memory with one block more. -/
def alloc (m : ObjMem) (x : ObjCell) : ObjMem where
  heap := m.heap.set m.next x
  next := m.next + 1
  fresh := by
    intro b hb
    rw [Heap.set_ne _ _ (by omega), m.fresh b (by omega)]

/-- The memory after an allocation that failed. -/
def skip (m : ObjMem) : ObjMem where
  heap := m.heap
  next := m.next + 1
  fresh := fun b hb => m.fresh b (by omega)

/-- The memory without a block. -/
def release (m : ObjMem) (a : Nat) : ObjMem where
  heap := m.heap.free a
  next := m.next
  fresh := by
    intro b hb
    by_cases hba : b = a
    · rw [hba, Heap.free_self]
    · rw [Heap.free_ne _ hba, m.fresh b hb]

end ObjMem

/-! ## The functions of the source -/

/-- A new object, which `cfg_obj_alloc_node` has cleared, with the fields that its caller sets. -/
def newObjCell (id : Nat) (parent : Option Nat) : ObjCell where
  val := { id := id, priv := [] }
  parent := parent
  child := none
  brother := none

/-- `cfg_obj_alloc_node`. -/
def cfgObjAllocNode (pool : Nat → Bool) (m : ObjMem) (x : ObjCell) : Option Nat × ObjMem :=
  if pool m.next then (some m.next, m.alloc x) else (none, m.skip)

/-- `cfg_obj_free_object`. -/
def cfgObjFreeObject (m : ObjMem) (node : Nat) : Except Fault ObjMem :=
  match m.heap node with
  | none => .error .dangling
  | some _ => .ok (m.release node)

/-- `cfg_obj_create_from_type`. The source does not call it for a type that is not there; the field
that would hold the object is NULL then. -/
def memCreateFromType (pool : Nat → Bool) (parent : Option Nat) :
    CfgNodeType → ObjMem → Except Fault (Option Nat × ObjMem)
  | .nil, m => .ok (none, m)
  | .node type sub bro, m =>
    match cfgObjAllocNode pool m (newObjCell (type.id <<< cfgTypeShift + 1) parent) with
    | (none, m) => .ok (none, m)
    | (some node, m) => do
      let child ← memCreateFromType pool (some node) sub m
      let m ← child.2.update node fun x => { x with child := child.1 }
      let brother ← memCreateFromType pool parent bro m
      let m ← brother.2.update node fun x => { x with brother := brother.1 }
      .ok (some node, m)

/-- The loop of `cfg_obj_unlink_object`: `first` and `prev` when it ends. A list that is longer than
the number of allocations is a ring, in which the loop does not end. -/
def unlinkScan (m : ObjMem) (node : Nat) :
    Nat → Option Nat → Option Nat → Except Fault (Option Nat × Option Nat)
  | _, none, prev => .ok (none, prev)
  | 0, some _, _ => .error .overrun
  | fuel + 1, some first, prev =>
    if first = node then .ok (some first, prev)
    else do
      let x ← m.load first
      unlinkScan m node fuel x.brother (some first)

/-- The part of `cfg_obj_unlink_object` that takes the object out of the list of its parent. -/
def unlinkFromParent (m : ObjMem) (node parent : Nat) (brother : Option Nat) :
    Except Fault ObjMem := do
  let p ← m.load parent
  if p.child = some node then m.update parent fun x => { x with child := brother }
  else
    match ← unlinkScan m node m.next p.child none with
    | (some _, some prev) => m.update prev fun x => { x with brother := brother }
    -- the first of the list is not `node`, so an object that is found has one before it
    | (some _, none) => .error .dangling
    | (none, _) => .ok m

/-- `cfg_obj_unlink_object`. -/
def cfgObjUnlinkObject (m : ObjMem) (node : Nat) : Except Fault ObjMem := do
  let x ← m.load node
  let m ← match x.parent with
    | none => .ok m
    | some parent => unlinkFromParent m node parent x.brother
  m.update node fun x => { x with brother := none, parent := none }

/-- `cfg_obj_release_object`. The calls are nested at most `fuel` deep. -/
def cfgObjReleaseObject : Nat → Option Nat → ObjMem → Except Fault ObjMem
  | _, none, m => .ok m
  | 0, some _, _ => .error .overrun
  | fuel + 1, some obj, m => do
    let x ← m.load obj
    let m ← cfgObjReleaseObject fuel x.child m
    let x ← m.load obj
    let m ← cfgObjReleaseObject fuel x.brother m
    cfgObjFreeObject m obj

/-- `cfg_obj_del_object`: the id of the object that is gone. -/
def memDelObject (fuel : Nat) (m : ObjMem) (obj : Nat) : Except Fault (Nat × ObjMem) := do
  let x ← m.load obj
  let m ← cfgObjUnlinkObject m obj
  let m ← cfgObjReleaseObject fuel (some obj) m
  .ok (x.val.id, m)

/-- `cfg_obj_del_from_type`. The calls are nested at most `fuel` deep. -/
def memDelFromType (tt : TypeTree) : Nat → Option Nat → ObjMem → Except Fault ObjMem
  | _, none, m => .ok m
  | 0, some _, _ => .error .overrun
  | fuel + 1, some node, m => do
    let x ← m.load node
    let m ← memDelFromType tt fuel x.child m
    let x ← m.load node
    let m ← memDelFromType tt fuel x.brother m
    let x ← m.load node
    if cfgTypeIsDynamicType tt (cfgOidToTid x.val.id) then
      let r ← memDelObject (fuel + 1) m node
      .ok r.2
    else .ok m

/-- `cfg_obj_load_from_type`: the root and the memory. No call is nested deeper than there are
objects. -/
def memLoadFromType (tt : TypeTree) (pool : Nat → Bool) (m : ObjMem) :
    Except Fault (Option Nat × ObjMem) := do
  let r ← memCreateFromType pool none tt.types m
  match r.1 with
  | none => .ok (none, r.2)
  | some node =>
    let m ← memDelFromType tt r.2.next (some node) r.2
    .ok (some node, m)

/-! ## Reading and writing -/

variable {m : ObjMem} {a : Nat} {x : ObjCell}

theorem load_eq (h : m.heap a = some x) : m.load a = .ok x := by
  unfold ObjMem.load
  rw [h]

theorem update_eq (h : m.heap a = some x) (f : ObjCell → ObjCell) :
    m.update a f = .ok (m.modify a f) := by
  unfold ObjMem.update
  rw [h]

theorem cfgObjFreeObject_eq (h : m.heap a = some x) : cfgObjFreeObject m a = .ok (m.release a) := by
  unfold cfgObjFreeObject
  rw [h]

/-- What is in memory has been allocated. -/
theorem lt_next (h : m.heap a ≠ none) : a < m.next := by
  by_contra hle
  exact h (m.fresh a (by omega))

/-- A tree in memory has no more objects than there were allocations. -/
theorem size_le_next {t : Lcrs (Nat × ObjData)} {par : Option Nat} (h : m.heap.Holds par t)
    (hn : t.addrs.Nodup) : t.size ≤ m.next := by
  rw [← t.length_addrs]
  exact Heap.length_le_of_nodup hn fun b hb => lt_next (h.ne_none b hb)

/-! ## Freeing a tree -/

/-- **`cfg_obj_release_object` frees the objects of a chain with all that is below them, and
nothing else.** -/
theorem cfgObjReleaseObject_spec : ∀ {t : Lcrs (Nat × ObjData)} {par : Option Nat} {fuel : Nat}
    {m : ObjMem}, m.heap.Holds par t → t.addrs.Nodup → t.size ≤ fuel →
    ∃ m', cfgObjReleaseObject fuel t.ptr m = .ok m' ∧ m'.next = m.next ∧
      (∀ b ∈ t.addrs, m'.heap b = none) ∧ ∀ b, b ∉ t.addrs → m'.heap b = m.heap b
  | .nil, _, fuel, m, _, _, _ => by
    refine ⟨m, ?_, rfl, fun b hb => absurd hb List.not_mem_nil, fun b _ => rfl⟩
    cases fuel <;> rfl
  | .node o c s, _, 0, _, _, _, hfuel => absurd hfuel (by simp [Lcrs.size])
  | .node o c s, par, fuel + 1, m, ⟨ho, hc, hs⟩, hn, hfuel => by
    have hsize : (Lcrs.node o c s).size = c.size + s.size + 1 := rfl
    obtain ⟨hoc, hos, hcn, hsn, hdisj⟩ := Lcrs.nodup_addrs_node hn
    rw [Lcrs.addrs_node]
    obtain ⟨m1, hm1, hnext1, hfree1, hframe1⟩ :=
      @cfgObjReleaseObject_spec c (some o.1) fuel m hc hcn (by omega)
    -- the object itself and its brothers are still there
    have ho1 := (hframe1 o.1 hoc).trans ho
    have hs1 : m1.heap.Holds par s := hs.congr fun b hb => hframe1 b fun hbc => hdisj b hbc hb
    obtain ⟨m2, hm2, hnext2, hfree2, hframe2⟩ :=
      @cfgObjReleaseObject_spec s par fuel m1 hs1 hsn (by omega)
    have ho2 := (hframe2 o.1 hos).trans ho1
    refine ⟨m2.release o.1, ?_, hnext2.trans hnext1, ?_, ?_⟩
    · show cfgObjReleaseObject (fuel + 1) (some o.1) m = _
      unfold cfgObjReleaseObject
      simp only [bind, Except.bind, load_eq ho, hm1, load_eq ho1, hm2]
      exact cfgObjFreeObject_eq ho2
    · intro b hb
      show m2.heap.free o.1 b = none
      by_cases hbo : b = o.1
      · rw [hbo, Heap.free_self]
      rw [Heap.free_ne _ hbo]
      rcases List.mem_append.mp ((List.mem_cons.mp hb).resolve_left hbo) with hb | hb
      · rw [hframe2 b (hdisj b hb), hfree1 b hb]
      · exact hfree2 b hb
    · intro b hb
      rw [List.mem_cons, List.mem_append, not_or, not_or] at hb
      show m2.heap.free o.1 b = m.heap b
      rw [Heap.free_ne _ hb.1, hframe2 b hb.2.2, hframe1 b hb.2.1]

/-! ## Unlinking an object -/

/-- The scan stops at the object, with the one before it. -/
theorem unlinkScan_eq {node : Nat} : ∀ {pre : List Nat} {first prev : Option Nat} {fuel : Nat},
    m.heap.Seg first pre (some node) → node ∉ pre → pre.length < fuel →
    unlinkScan m node fuel first prev = .ok (some node, pre.getLast?.or prev)
  | _, _, _, 0, _, _, hfuel => absurd hfuel (Nat.not_lt_zero _)
  | [], first, prev, fuel + 1, hseg, _, _ => by
    obtain rfl : first = some node := hseg
    unfold unlinkScan
    rw [if_pos rfl]
    rfl
  | b :: pre, first, prev, fuel + 1, ⟨hfirst, y, hy, hseg⟩, hpre, hfuel => by
    rw [List.mem_cons, not_or] at hpre
    have ih := @unlinkScan_eq node pre y.brother (some b) fuel hseg hpre.2
      (Nat.lt_of_succ_lt_succ hfuel)
    rw [hfirst]
    unfold unlinkScan
    rw [if_neg (Ne.symm hpre.1)]
    simp only [bind, Except.bind, load_eq hy]
    rw [ih, getLast?_cons_or]

/-- **`cfg_obj_unlink_object` makes the place that points to the object point to its brother.** -/
theorem cfgObjUnlinkObject_eq {p : Nat} {pc : ObjCell} {pre : List Nat} (hx : m.heap a = some x)
    (hpar : x.parent = some p) (hp : m.heap p = some pc) (hseg : m.heap.Seg pc.child pre (some a))
    (hn : (pre ++ [a]).Nodup) (hpa : p ≠ a) :
    ∃ m', cfgObjUnlinkObject m a = .ok m' ∧ m'.next = m.next ∧
      m'.heap a = some { x with brother := none, parent := none } ∧
      ∀ b, b ≠ a → m'.heap b = m.heap.setLink (Heap.slotOf p pre) x.brother b := by
  obtain ⟨hpre, -, hdisj⟩ := List.nodup_append.mp hn
  have ha : a ∉ pre := fun hmem => hdisj a hmem a List.mem_cons_self rfl
  -- taking the object out of the list
  have hlist : ∃ m1, unlinkFromParent m a p x.brother = .ok m1 ∧ m1.next = m.next ∧
      m1.heap = m.heap.setLink (Heap.slotOf p pre) x.brother := by
    unfold unlinkFromParent
    simp only [bind, Except.bind, load_eq hp]
    obtain rfl | ⟨l, q, rfl⟩ := List.eq_nil_or_concat' pre
    · have hfirst : pc.child = some a := hseg
      rw [if_pos hfirst, update_eq hp]
      exact ⟨_, rfl, rfl, rfl⟩
    · have hfirst : pc.child ≠ some a := by
        intro hfirst
        cases l with
        | nil =>
          obtain ⟨hq, -⟩ := hseg
          exact ha (by rw [Option.some.inj (hfirst.symm.trans hq)]; exact List.mem_cons_self)
        | cons d l =>
          obtain ⟨hq, -⟩ := hseg
          exact ha (by rw [Option.some.inj (hfirst.symm.trans hq)]; exact List.mem_cons_self)
      have hlen : (l ++ [q]).length < m.next := by
        have hle : (l ++ [q] ++ [a]).length ≤ m.next := by
          refine Heap.length_le_of_nodup hn fun b hb => lt_next ?_
          rcases List.mem_append.mp hb with hb | hb
          · exact hseg.ne_none b hb
          · rw [List.mem_singleton.mp hb, hx]
            exact Option.some_ne_none x
        rw [List.length_append, List.length_singleton] at hle
        omega
      obtain ⟨y, hy, -⟩ := hseg.last
      rw [if_neg hfirst, unlinkScan_eq hseg ha hlen, List.getLast?_concat]
      simp only [Option.some_or]
      rw [update_eq hy, Heap.slotOf_concat]
      exact ⟨_, rfl, rfl, rfl⟩
  obtain ⟨m1, hm1, hnext1, hheap1⟩ := hlist
  have ha1 : m1.heap a = some x := by
    rw [hheap1, Heap.setLink_slotOf_ne _ hpa.symm ha, hx]
  refine ⟨m1.modify a fun x => { x with brother := none, parent := none }, ?_, hnext1, ?_, ?_⟩
  · unfold cfgObjUnlinkObject
    simp only [bind, Except.bind, load_eq hx, hpar, hm1]
    exact update_eq ha1 _
  · show m1.heap.modify a _ a = _
    rw [Heap.modify_self, ha1, Option.map_some]
  · intro b hb
    show m1.heap.modify a _ b = _
    rw [Heap.modify_ne _ _ hb, hheap1]

/-- **`cfg_obj_del_object` frees an object and all that is below it**, and makes the place that
points to the object point to its brother. -/
theorem memDelObject_spec {o : Nat × ObjData} {p : Nat} {pc : ObjCell} {pre : List Nat}
    {c : Lcrs (Nat × ObjData)} {brother : Option Nat} {fuel : Nat}
    (ho : m.heap o.1 =
      some { val := o.2, parent := some p, child := c.ptr, brother := brother })
    (hc : m.heap.Holds (some o.1) c) (hcn : (o.1 :: c.addrs).Nodup) (hp : m.heap p = some pc)
    (hseg : m.heap.Seg pc.child pre (some o.1)) (hn : (pre ++ [o.1]).Nodup)
    (hpo : p ∉ o.1 :: c.addrs) (hpre : ∀ b ∈ pre, b ∉ c.addrs) (hfuel : c.size + 1 ≤ fuel) :
    ∃ m', memDelObject fuel m o.1 = .ok (o.2.id, m') ∧ m'.next = m.next ∧
      (∀ b ∈ o.1 :: c.addrs, m'.heap b = none) ∧
      ∀ b, b ∉ o.1 :: c.addrs → m'.heap b = m.heap.setLink (Heap.slotOf p pre) brother b := by
  rw [List.mem_cons, not_or] at hpo
  obtain ⟨hoc, hcn⟩ := List.nodup_cons.mp hcn
  obtain ⟨m1, hm1, hnext1, ho1, hframe1⟩ := cfgObjUnlinkObject_eq ho rfl hp hseg hn hpo.1
  -- what is below the object has not been touched
  have hc1 : m1.heap.Holds (some o.1) c := by
    refine hc.congr fun b hb => ?_
    rw [hframe1 b fun hbo => hoc (hbo ▸ hb)]
    exact Heap.setLink_slotOf_ne _ (fun hbp => hpo.2 (hbp ▸ hb)) fun hbpre => hpre b hbpre hb
  have hnil : Lcrs.ptr (.nil : Lcrs (Nat × ObjData)) = none := rfl
  have haddrs := Lcrs.addrs_single o c
  obtain ⟨m2, hm2, hnext2, hfree2, hframe2⟩ :=
    @cfgObjReleaseObject_spec (.node o c .nil) none fuel m1 ⟨by rw [ho1, hnil], hc1, trivial⟩
      (by rw [haddrs]; exact List.nodup_cons.mpr ⟨hoc, hcn⟩) hfuel
  rw [haddrs] at hfree2 hframe2
  refine ⟨m2, ?_, hnext2.trans hnext1, hfree2, ?_⟩
  · unfold memDelObject
    simp only [bind, Except.bind, load_eq ho, hm1]
    have hm2' : cfgObjReleaseObject fuel (some o.1) m1 = .ok m2 := hm2
    simp only [hm2']
  · intro b hb
    rw [hframe2 b hb]
    rw [List.mem_cons, not_or] at hb
    exact hframe1 b hb.1

/-! ## Pruning a tree -/

/-- Whether an object is of a dynamic type. -/
def isDynamic (tt : TypeTree) (o : Nat × ObjData) : Bool :=
  cfgTypeIsDynamicType tt (cfgOidToTid o.2.id)

/-- What `cfg_obj_del_from_type` does to the chain `t`, whose first object `slot` points to: the
dynamic objects are freed with all that is below them, the others are linked as before, and no other
object changes. -/
structure Pruned (tt : TypeTree) (h h' : Heap ObjCell) (par : Nat) (slot : Heap.Slot)
    (t : Lcrs (Nat × ObjData)) : Prop where
  holds : h'.Holds (some par) (t.prune (isDynamic tt))
  freed : ∀ b ∈ t.addrs, b ∉ (t.prune (isDynamic tt)).addrs → h' b = none
  frame : ∀ b, b ∉ t.addrs → h' b = h.setLink slot (t.prune (isDynamic tt)).ptr b

/-- The memory when both recursive calls for the object `o` have returned: the object is still
there, between what is left of its children `c` and of its brothers `s`. -/
structure Between (tt : TypeTree) (h h' : Heap ObjCell) (par : Nat) (o : Nat × ObjData)
    (c s : Lcrs (Nat × ObjData)) : Prop where
  self : h' o.1 = some
    { val := o.2, parent := some par, child := (c.prune (isDynamic tt)).ptr,
      brother := (s.prune (isDynamic tt)).ptr }
  child : h'.Holds (some o.1) (c.prune (isDynamic tt))
  brothers : h'.Holds (some par) (s.prune (isDynamic tt))
  freed : ∀ b, b ∈ c.addrs ++ s.addrs → b ∉ (c.prune (isDynamic tt)).addrs →
    b ∉ (s.prune (isDynamic tt)).addrs → h' b = none
  frame : ∀ b, b ∉ (Lcrs.node o c s).addrs → h' b = h b

variable {tt : TypeTree} {o : Nat × ObjData} {c s : Lcrs (Nat × ObjData)} {p : Nat} {pc : ObjCell}
  {pre : List Nat}

/-- A static object stays where it is. -/
theorem Between.static {h h' : Heap ObjCell} (hb : Between tt h h' p o c s)
    (hdyn : isDynamic tt o = false) (hp : h p = some pc) (hseg : h.Seg pc.child pre (some o.1)) :
    Pruned tt h h' p (Heap.slotOf p pre) (.node o c s) := by
  have hprune : (Lcrs.node o c s).prune (isDynamic tt) =
      .node o (c.prune (isDynamic tt)) (s.prune (isDynamic tt)) := by
    rw [Lcrs.prune, if_neg (by simp [hdyn])]
  refine ⟨?_, ?_, ?_⟩
  · rw [hprune]
    exact ⟨hb.self, hb.child, hb.brothers⟩
  · intro b hbt hgone
    rw [hprune, Lcrs.addrs_node, List.mem_cons, List.mem_append, not_or, not_or] at hgone
    rw [Lcrs.addrs_node] at hbt
    exact hb.freed b ((List.mem_cons.mp hbt).resolve_left hgone.1) hgone.2.1 hgone.2.2
  · intro b hbt
    rw [hprune, hb.frame b hbt]
    exact (Heap.setLink_slotOf_self hp hseg b).symm

/-- A dynamic object goes, with what is left below it. -/
theorem Between.dynamic {fuel : Nat} {m m2 : ObjMem} (hb : Between tt m.heap m2.heap p o c s)
    (hdyn : isDynamic tt o = true) (hp : m.heap p = some pc)
    (hseg : m.heap.Seg pc.child pre (some o.1)) (hn : (pre ++ (Lcrs.node o c s).addrs).Nodup)
    (hpt : p ∉ (Lcrs.node o c s).addrs) (hfuel : c.size + 1 ≤ fuel) :
    ∃ m3, memDelObject fuel m2 o.1 = .ok (o.2.id, m3) ∧ m3.next = m2.next ∧
      Pruned tt m.heap m3.heap p (Heap.slotOf p pre) (.node o c s) := by
  obtain ⟨-, htn, hdisj⟩ := List.nodup_append.mp hn
  obtain ⟨hoc, hos, hcn, hsn, hcs⟩ := Lcrs.nodup_addrs_node htn
  have hcp := Lcrs.addrs_prune_sublist (isDynamic tt) c
  have hsp := Lcrs.addrs_prune_sublist (isDynamic tt) s
  have hprune : (Lcrs.node o c s).prune (isDynamic tt) = s.prune (isDynamic tt) := by
    rw [Lcrs.prune, if_pos hdyn]
  have hcsize : (c.prune (isDynamic tt)).size ≤ c.size := by
    rw [← Lcrs.length_addrs, ← Lcrs.length_addrs]
    exact hcp.length_le
  -- what is freed is part of the object and its children
  have hsub : ∀ b ∈ o.1 :: (c.prune (isDynamic tt)).addrs, b ∈ o.1 :: c.addrs := fun b hbt =>
    List.Sublist.subset (hcp.cons_cons o.1) hbt
  have hsubt : ∀ b ∈ o.1 :: c.addrs, b ∈ (Lcrs.node o c s).addrs := by
    intro b hbt
    rw [Lcrs.addrs_node, ← List.cons_append]
    exact List.mem_append_left _ hbt
  have hpret : ∀ b ∈ pre, b ∉ (Lcrs.node o c s).addrs := fun b hbp hbt => hdisj b hbp b hbt rfl
  have hp2 : m2.heap p = some pc := (hb.frame p hpt).trans hp
  have hseg2 : m2.heap.Seg pc.child pre (some o.1) := hseg.congr fun b hbp =>
    hb.frame b (hpret b hbp)
  have hnpre : (pre ++ [o.1]).Nodup := by
    refine hn.sublist ((List.Sublist.refl pre).append ?_)
    rw [Lcrs.addrs_node]
    exact (List.nil_sublist _).cons_cons o.1
  obtain ⟨m3, hm3, hnext3, hfree3, hframe3⟩ := memDelObject_spec hb.self hb.child
    ((List.nodup_cons.mpr ⟨hoc, hcn⟩).sublist (hcp.cons_cons o.1)) hp2 hseg2 hnpre
    (fun hmem => hpt (hsubt p (hsub p hmem)))
    (fun b hbp hbc => hpret b hbp (hsubt b (hsub b (List.mem_cons_of_mem _ hbc))))
    (Nat.le_trans (Nat.succ_le_succ hcsize) hfuel)
  refine ⟨m3, hm3, hnext3, ?_, ?_, ?_⟩
  · rw [hprune]
    refine hb.brothers.congr fun b hbs => ?_
    have hbt : b ∈ s.addrs := hsp.subset hbs
    have hbt' : b ∈ (Lcrs.node o c s).addrs := by
      rw [Lcrs.addrs_node]
      exact List.mem_cons_of_mem _ (List.mem_append_right _ hbt)
    rw [hframe3 b fun hmem => ?_]
    · exact Heap.setLink_slotOf_ne _ (fun h => hpt (h ▸ hbt')) fun h => hpret b h hbt'
    · rcases List.mem_cons.mp hmem with rfl | hmem
      · exact hos hbt
      · exact hcs b (hcp.subset hmem) hbt
  · intro b hbt hbs
    rw [hprune] at hbs
    by_cases hbo : b ∈ o.1 :: (c.prune (isDynamic tt)).addrs
    · exact hfree3 b hbo
    rw [hframe3 b hbo, Heap.setLink_eq_none]
    rw [List.mem_cons, not_or] at hbo
    rw [Lcrs.addrs_node] at hbt
    exact hb.freed b ((List.mem_cons.mp hbt).resolve_left hbo.1) hbo.2 hbs
  · intro b hbt
    rw [hprune, hframe3 b fun hmem => hbt (hsubt b (hsub b hmem))]
    exact Heap.setLink_congr (hb.frame b hbt)

/-- **`cfg_obj_del_from_type` prunes a chain of siblings**: those before it are `pre`. -/
theorem memDelFromType_spec : ∀ {t : Lcrs (Nat × ObjData)} {p : Nat} {pc : ObjCell}
    {pre : List Nat} {fuel : Nat} {m : ObjMem}, m.heap.Holds (some p) t → m.heap p = some pc →
    m.heap.Seg pc.child pre t.ptr → (pre ++ t.addrs).Nodup → p ∉ pre → p ∉ t.addrs →
    t.size ≤ fuel →
    ∃ m', memDelFromType tt fuel t.ptr m = .ok m' ∧ m'.next = m.next ∧
      Pruned tt m.heap m'.heap p (Heap.slotOf p pre) t
  | .nil, p, pc, pre, fuel, m, _, hp, hseg, _, _, _, _ => by
    refine ⟨m, ?_, rfl, trivial, fun b hb => absurd hb List.not_mem_nil, fun b _ => ?_⟩
    · cases fuel <;> rfl
    · exact (Heap.setLink_slotOf_self hp hseg b).symm
  | .node o c s, _, _, _, 0, _, _, _, _, _, _, _, hfuel => absurd hfuel (by simp [Lcrs.size])
  | .node o c s, p, pc, pre, fuel + 1, m, ⟨ho, hc, hs⟩, hp, hseg, hn, hppre, hpt, hfuel => by
    have hsize : (Lcrs.node o c s).size = c.size + s.size + 1 := rfl
    obtain ⟨-, htn, hdisj⟩ := List.nodup_append.mp hn
    obtain ⟨hoc, hos, hcn, hsn, hcs⟩ := Lcrs.nodup_addrs_node htn
    have hpt' := hpt
    have hpret : ∀ b ∈ pre, b ∉ (Lcrs.node o c s).addrs := fun b hbp hbt => hdisj b hbp b hbt rfl
    have hcp := Lcrs.addrs_prune_sublist (isDynamic tt) c
    simp only [Lcrs.addrs_node, List.mem_cons, List.mem_append, not_or] at hpt' hpret
    -- the children: the object itself is their parent and none stands before them
    obtain ⟨m1, hm1, hnext1, hc1, hfreed1, hframe1⟩ :=
      @memDelFromType_spec c o.1 _ [] fuel m hc ho rfl hcn List.not_mem_nil hoc (by omega)
    have hkeep1 : ∀ b, b ∉ c.addrs → b ≠ o.1 → m1.heap b = m.heap b := fun b hb hbo => by
      rw [hframe1 b hb]
      exact Heap.setLink_slotOf_ne _ hbo List.not_mem_nil
    have ho1 : m1.heap o.1 = some
        { val := o.2, parent := some p, child := (c.prune (isDynamic tt)).ptr,
          brother := s.ptr } := by
      rw [hframe1 o.1 hoc]
      show m.heap.modify o.1 _ o.1 = _
      rw [Heap.modify_self, ho, Option.map_some]
    -- the brothers: the object is the last one before them
    have hs1 : m1.heap.Holds (some p) s := hs.congr fun b hb =>
      hkeep1 b (fun hbc => hcs b hbc hb) fun hbo => hos (hbo ▸ hb)
    have hseg1 : m1.heap.Seg pc.child pre (some o.1) := hseg.congr fun b hb =>
      hkeep1 b (hpret b hb).2.1 (hpret b hb).1
    have hns : (pre ++ [o.1] ++ s.addrs).Nodup := by
      rw [Lcrs.addrs_node] at hn
      refine hn.sublist ?_
      rw [List.append_assoc]
      exact (List.Sublist.refl pre).append ((List.sublist_append_right c.addrs s.addrs).cons_cons _)
    have hppre' : p ∉ pre ++ [o.1] := by
      rw [List.mem_append, List.mem_singleton, not_or]
      exact ⟨hppre, hpt'.1⟩
    obtain ⟨m2, hm2, hnext2, hs2, hfreed2, hframe2⟩ :=
      @memDelFromType_spec s p pc (pre ++ [o.1]) fuel m1 hs1 ((hkeep1 p hpt'.2.1 hpt'.1).trans hp)
        (hseg1.concat ho1) hns hppre' hpt'.2.2 (by omega)
    rw [Heap.slotOf_concat] at hframe2
    have hkeep2 : ∀ b, b ∉ s.addrs → b ≠ o.1 → m2.heap b = m1.heap b := fun b hb hbo => by
      rw [hframe2 b hb]
      exact Heap.modify_ne _ _ hbo
    have ho2 : m2.heap o.1 = some
        { val := o.2, parent := some p, child := (c.prune (isDynamic tt)).ptr,
          brother := (s.prune (isDynamic tt)).ptr } := by
      rw [hframe2 o.1 hos]
      show m1.heap.modify o.1 _ o.1 = _
      rw [Heap.modify_self, ho1, Option.map_some]
    have hbetween : Between tt m.heap m2.heap p o c s := by
      refine ⟨ho2, ?_, hs2, ?_, ?_⟩
      · exact hc1.congr fun b hb =>
          hkeep2 b (hcs b (hcp.subset hb)) fun hbo => hoc (hbo ▸ hcp.subset hb)
      · intro b hb hbc hbs
        rcases List.mem_append.mp hb with hb | hb
        · rw [hkeep2 b (hcs b hb) fun hbo => hoc (hbo ▸ hb), hfreed1 b hb hbc]
        · exact hfreed2 b hb hbs
      · intro b hb
        simp only [Lcrs.addrs_node, List.mem_cons, List.mem_append, not_or] at hb
        rw [hkeep2 b hb.2.2 hb.1, hkeep1 b hb.2.1 hb.1]
    show ∃ m', memDelFromType tt (fuel + 1) (some o.1) m = .ok m' ∧ _
    unfold memDelFromType
    simp only [bind, Except.bind, load_eq ho, hm1, load_eq ho1, hm2, load_eq ho2]
    by_cases hdyn : isDynamic tt o = true
    · obtain ⟨m3, hm3, hnext3, hpruned⟩ :=
        hbetween.dynamic hdyn hp hseg hn hpt (show c.size + 1 ≤ fuel + 1 by omega)
      refine ⟨m3, ?_, hnext3.trans (hnext2.trans hnext1), hpruned⟩
      rw [if_pos (show cfgTypeIsDynamicType tt (cfgOidToTid o.2.id) = true from hdyn)]
      simp only [hm3]
    · refine ⟨m2, if_neg hdyn, hnext2.trans hnext1, ?_⟩
      exact hbetween.static (Bool.eq_false_iff.mpr hdyn) hp hseg

/-! ## Making the objects -/

/-- A tree of objects as memory has it, where parents are links. -/
def cells (tree : CfgNodeObj) : Lcrs (Nat × ObjData) :=
  tree.map fun o => (o.addr, { id := o.id, priv := o.priv })

theorem cells_node (o : ObjInfo) (c s : CfgNodeObj) : cells (.node o c s) =
    .node (o.addr, { id := o.id, priv := o.priv }) (cells c) (cells s) := rfl

theorem addrs_cells (tree : CfgNodeObj) : (cells tree).addrs = tree.values.map ObjInfo.addr := by
  unfold cells Lcrs.addrs
  rw [Lcrs.values_map, List.map_map]
  rfl

/-- What `cfg_obj_create_from_type` does: `t` is new in memory, below `par`, and nothing else has
changed. -/
structure Created (h h' : Heap ObjCell) (par : Option Nat) (t : Lcrs (Nat × ObjData)) : Prop where
  holds : h'.Holds par t
  frame : ∀ b, b ∉ t.addrs → h' b = h b

/-- **`cfg_obj_create_from_type` puts the tree that `cfgObjCreateFromType` describes into
memory.** -/
theorem memCreateFromType_spec (pool : Nat → Bool) : ∀ (f : CfgNodeType) (par : Option Nat)
    (m : ObjMem), ∃ m',
      memCreateFromType pool par f m =
        .ok ((cells (cfgObjCreateFromType pool par f m.next).1).ptr, m') ∧
      m'.next = (cfgObjCreateFromType pool par f m.next).2 ∧
      Created m.heap m'.heap par (cells (cfgObjCreateFromType pool par f m.next).1)
  | .nil, _, m => ⟨m, rfl, rfl, trivial, fun _ _ => rfl⟩
  | .node t sub bro, par, m => by
    unfold memCreateFromType cfgObjAllocNode cfgObjCreateFromType
    by_cases hpool : pool m.next = true
    swap
    · rw [if_neg hpool, if_neg hpool]
      exact ⟨m.skip, rfl, rfl, trivial, fun _ _ => rfl⟩
    rw [if_pos hpool, if_pos hpool]
    dsimp only
    -- the object, with its fields as they are before each step
    generalize hx : newObjCell (t.id <<< cfgTypeShift + 1) par = x
    have ha : (m.alloc x).heap m.next = some x := Heap.set_self _ _ _
    obtain ⟨m1, hm1, hnext1, hholds1, hframe1⟩ :=
      memCreateFromType_spec pool sub (some m.next) (m.alloc x)
    have hnext : (m.alloc x).next = m.next + 1 := rfl
    rw [hnext] at hm1 hnext1 hholds1 hframe1
    obtain ⟨hcb, -⟩ := addrs_cfgObjCreateFromType pool sub (some m.next) (m.next + 1)
    have hcle := le_cfgObjCreateFromType pool sub (some m.next) (m.next + 1)
    generalize cfgObjCreateFromType pool (some m.next) sub (m.next + 1) = child at *
    have hc : ∀ b ∈ (cells child.1).addrs, m.next < b ∧ b < child.2 := by
      intro b hb
      rw [addrs_cells] at hb
      obtain ⟨o, ho, rfl⟩ := List.mem_map.mp hb
      have := hcb o ho
      omega
    have hac : m.next ∉ (cells child.1).addrs := fun hmem => Nat.lt_irrefl _ (hc _ hmem).1
    have ha1 : m1.heap m.next = some x := (hframe1 m.next hac).trans ha
    generalize hm1' : m1.modify m.next (fun y => { y with child := (cells child.1).ptr }) = m1'
    have hself1 : m1'.heap m.next = some { x with child := (cells child.1).ptr } := by
      rw [← hm1']
      show m1.heap.modify m.next _ m.next = _
      rw [Heap.modify_self, ha1, Option.map_some]
    have hkeep1 : ∀ b, b ≠ m.next → m1'.heap b = m1.heap b := fun b hb => by
      rw [← hm1']
      exact Heap.modify_ne _ _ hb
    obtain ⟨m2, hm2, hnext2, hholds2, hframe2⟩ := memCreateFromType_spec pool bro par m1'
    have hnext1' : m1'.next = child.2 := by
      rw [← hm1', ← hnext1]
      rfl
    rw [hnext1'] at hm2 hnext2 hholds2 hframe2
    obtain ⟨hbb, -⟩ := addrs_cfgObjCreateFromType pool bro par child.2
    generalize cfgObjCreateFromType pool par bro child.2 = brother at *
    have hb : ∀ b ∈ (cells brother.1).addrs, child.2 ≤ b := by
      intro b hb
      rw [addrs_cells] at hb
      obtain ⟨o, ho, rfl⟩ := List.mem_map.mp hb
      exact (hbb o ho).1
    have hab : m.next ∉ (cells brother.1).addrs := fun hmem => by
      have := hb _ hmem
      omega
    have ha2 := (hframe2 m.next hab).trans hself1
    refine ⟨m2.modify m.next fun y => { y with brother := (cells brother.1).ptr }, ?_,
      hnext2, ?_, ?_⟩
    · simp only [bind, Except.bind, hm1, update_eq ha1, hm1', hm2, update_eq ha2]
      rfl
    · refine ⟨?_, ?_, ?_⟩
      · show m2.heap.modify m.next _ m.next = _
        rw [Heap.modify_self, ha2, Option.map_some, ← hx]
        rfl
      · refine hholds1.congr fun b hbc => ?_
        have hlt := hc b hbc
        show m2.heap.modify m.next _ b = _
        rw [Heap.modify_ne _ _ (by omega), hframe2 b fun hmem => ?_, hkeep1 b (by omega)]
        have := hb b hmem
        omega
      · refine hholds2.congr fun b hbb => ?_
        have hle := hb b hbb
        exact Heap.modify_ne _ _ (by omega)
    · intro b hbt
      rw [cells_node, Lcrs.addrs_node, List.mem_cons, List.mem_append, not_or, not_or] at hbt
      show m2.heap.modify m.next _ b = _
      rw [Heap.modify_ne _ _ hbt.1, hframe2 b hbt.2.2, hkeep1 b hbt.1, hframe1 b hbt.2.1]
      exact Heap.set_ne _ _ hbt.1

/-! ## The initial tree -/

theorem prune_cells (tt : TypeTree) (tree : CfgNodeObj) :
    (cells tree).prune (isDynamic tt) = cells (cfgObjDelFromType tt tree) := by
  unfold cells cfgObjDelFromType
  rw [Lcrs.prune_map]
  rfl

/-- A static object without parent and brother stays, with what is left of its children. -/
theorem memDelFromType_root {m : ObjMem} {fuel : Nat}
    (ho : m.heap o.1 = some { val := o.2, parent := none, child := c.ptr, brother := none })
    (hc : m.heap.Holds (some o.1) c) (hoc : o.1 ∉ c.addrs) (hcn : c.addrs.Nodup)
    (hdyn : isDynamic tt o = false) (hfuel : c.size < fuel) :
    ∃ m', memDelFromType tt fuel (some o.1) m = .ok m' ∧
      m'.heap.Holds none (.node o (c.prune (isDynamic tt)) .nil) ∧
      (∀ b ∈ c.addrs, b ∉ (c.prune (isDynamic tt)).addrs → m'.heap b = none) ∧
      ∀ b, b ≠ o.1 → b ∉ c.addrs → m'.heap b = m.heap b := by
  obtain ⟨k, rfl⟩ : ∃ k, fuel = k + 1 := ⟨fuel - 1, by omega⟩
  obtain ⟨m', hm', -, hc', hfreed, hframe⟩ :=
    @memDelFromType_spec tt c o.1 _ [] k m hc ho rfl hcn List.not_mem_nil hoc (by omega)
  have ho' : m'.heap o.1 = some { val := o.2, parent := none,
                                  child := (c.prune (isDynamic tt)).ptr, brother := none } := by
    rw [hframe o.1 hoc]
    show m.heap.modify o.1 _ o.1 = _
    rw [Heap.modify_self, ho, Option.map_some]
  refine ⟨m', ?_, ⟨ho', hc', trivial⟩, hfreed, ?_⟩
  · have hbro : memDelFromType tt k none m' = .ok m' := by cases k <;> rfl
    unfold memDelFromType
    simp only [bind, Except.bind, load_eq ho, hm', load_eq ho', hbro]
    refine if_neg ?_
    show ¬ isDynamic tt o = true
    rw [hdyn]
    exact Bool.false_ne_true
  · intro b hbo hb
    rw [hframe b hb]
    exact Heap.modify_ne _ _ hbo

/-- Before pruning the tree has a root object, if the pool has room for it, that is static and has
no brother. -/
theorem cfgObjCreateFromType_root (tt : TypeTree) (pool : Nat → Bool) (next : Nat) :
    cells (cfgObjCreateFromType pool none tt.types next).1 = .nil ∨
      ∃ o c, cells (cfgObjCreateFromType pool none tt.types next).1 = .node o c .nil ∧
        isDynamic tt o = false := by
  rw [tt.types_eq]
  unfold cfgObjCreateFromType
  by_cases hpool : pool next = true
  · rw [if_pos hpool]
    refine .inr ⟨_, _, rfl, ?_⟩
    show cfgTypeIsDynamicType tt (cfgOidToTid (_ <<< cfgTypeShift + 1)) = false
    rw [shiftLeft_add_one, cfgTypeIsDynamicType_mkOid (cfgTypeGetRoot_mem tt)]
    exact tt.static
  · rw [if_neg hpool]
    exact .inl rfl

/-- **`cfg_obj_load_from_type` leaves in memory the tree that `cfgObjLoadFromType` describes**, of
whatever objects the pool had room for, and nothing else that was not there before. -/
theorem memLoadFromType_eq (tt : TypeTree) (pool : Nat → Bool) (m : ObjMem) :
    ∃ m', memLoadFromType tt pool m =
        .ok ((cells (cfgObjDelFromType tt (cfgObjCreateFromType pool none tt.types m.next).1)).ptr, m') ∧
      Created m.heap m'.heap none
        (cells (cfgObjDelFromType tt (cfgObjCreateFromType pool none tt.types m.next).1)) := by
  obtain ⟨m1, hm1, -, hholds, hframe⟩ := memCreateFromType_spec pool tt.types none m
  obtain ⟨hb, hn⟩ := addrs_cfgObjCreateFromType pool tt.types none m.next
  have hroot := cfgObjCreateFromType_root tt pool m.next
  rw [← addrs_cells] at hn
  have hnew : ∀ b ∈ (cells (cfgObjCreateFromType pool none tt.types m.next).1).addrs,
      m.heap b = none := by
    intro b hbt
    rw [addrs_cells] at hbt
    obtain ⟨o, ho, rfl⟩ := List.mem_map.mp hbt
    exact m.fresh _ (hb o ho).1
  unfold memLoadFromType
  simp only [bind, Except.bind, hm1, ← prune_cells]
  generalize cells (cfgObjCreateFromType pool none tt.types m.next).1 = t at *
  rcases hroot with rfl | ⟨o, c, rfl, hdyn⟩
  · exact ⟨m1, rfl, trivial, hframe⟩
  have hprune : (Lcrs.node o c .nil).prune (isDynamic tt) =
      .node o (c.prune (isDynamic tt)) .nil := by
    rw [Lcrs.prune, if_neg (by simp [hdyn])]
    rfl
  have haddrs := Lcrs.addrs_single o
  obtain ⟨hoc, -, hcn, -, -⟩ := Lcrs.nodup_addrs_node hn
  have hsize : c.size < m1.next := Nat.lt_of_lt_of_le (by simp [Lcrs.size]) (size_le_next hholds hn)
  obtain ⟨ho, hc, -⟩ := hholds
  obtain ⟨m2, hm2, hholds2, hfreed2, hframe2⟩ := memDelFromType_root ho hc hoc hcn hdyn hsize
  rw [haddrs] at hframe hnew
  rw [hprune]
  refine ⟨m2, ?_, hholds2, ?_⟩
  · simp only [Lcrs.ptr, hm2]
  · intro b hbt
    rw [haddrs, List.mem_cons, not_or] at hbt
    by_cases hbc : b ∈ c.addrs
    · rw [hfreed2 b hbc hbt.2, hnew b (List.mem_cons_of_mem _ hbc)]
    · rw [hframe2 b hbt.1 hbc, hframe b]
      rw [List.mem_cons, not_or]
      exact ⟨hbt.1, hbc⟩

/-- One object with instance number `1` for each type that is static and lies below static types
only, arranged as the types are. -/
def initialTree (tt : TypeTree) : Lcrs ObjData :=
  (tt.types.prune TypeInfo.create).map fun t => { id := mkOid t.id 1, priv := [] }

/-- The memory `m'` is `m` with the initial tree, at the new addresses of `t`, and nothing else. -/
structure Initial (tt : TypeTree) (m m' : ObjMem) (t : Lcrs (Nat × ObjData)) : Prop where
  tree : t.map Prod.snd = initialTree tt
  distinct : t.addrs.Nodup
  new : ∀ b ∈ t.addrs, m.heap b = none
  holds : m'.heap.Holds none t
  frame : ∀ b, b ∉ t.addrs → m'.heap b = m.heap b

theorem freshShape_eq_map : ∀ f : CfgNodeType,
    freshShape f = (f.prune TypeInfo.create).map fun t => (mkOid t.id 1, [])
  | .nil => rfl
  | .node t sub bro => by
    unfold freshShape Lcrs.prune
    rw [freshShape_eq_map sub, freshShape_eq_map bro]
    by_cases hc : t.create = true
    · rw [if_pos hc, if_pos hc]
    · rw [if_neg hc, if_neg hc]
      rfl

/-- The objects that stay are those of the initial tree. -/
theorem map_snd_cells {tt : TypeTree} {pool : Nat → Bool} (hpool : ∀ n, pool n = true)
    (next : Nat) : (cells (cfgObjDelFromType tt
      (cfgObjCreateFromType pool none tt.types next).1)).map Prod.snd = initialTree tt := by
  have hshape := shape_cfgObjCreateFromType hpool tt.types none next fun _ he => he
  rw [freshShape_eq_map] at hshape
  have hdata := congrArg (Lcrs.map fun d : Nat × List (Str × Str) => ObjData.mk d.1 d.2) hshape
  unfold shape at hdata
  rw [Lcrs.map_map, Lcrs.map_map] at hdata
  unfold cells initialTree
  rw [Lcrs.map_map]
  exact hdata

/-- **With room for every object `cfg_obj_load_from_type` makes the initial tree, and nothing
else.** -/
theorem memLoadFromType_initial (tt : TypeTree) (pool : Nat → Bool) (m : ObjMem)
    (hpool : ∀ n, pool n = true) :
    ∃ t m', memLoadFromType tt pool m = .ok (t.ptr, m') ∧ Initial tt m m' t := by
  obtain ⟨m', hm', hholds, hframe⟩ := memLoadFromType_eq tt pool m
  obtain ⟨hb, hn⟩ := addrs_cfgObjCreateFromType pool tt.types none m.next
  have hsub := (Lcrs.values_prune_sublist (fun o => cfgTypeIsDynamicType tt (cfgOidToTid o.id))
    (cfgObjCreateFromType pool none tt.types m.next).1)
  refine ⟨_, m', hm', map_snd_cells hpool m.next, ?_, ?_, hholds, hframe⟩
  · rw [addrs_cells]
    exact hn.sublist (hsub.map ObjInfo.addr)
  · intro b hbt
    rw [addrs_cells] at hbt
    obtain ⟨o, ho, rfl⟩ := List.mem_map.mp hbt
    exact m.fresh _ (hb o (hsub.subset ho)).1

/-- A memory without objects. -/
def ObjMem.empty : ObjMem where
  heap := fun _ => none
  next := 0
  fresh := fun _ _ => rfl

/-- A root type with a static and a dynamic subtype; the dynamic one has a static subtype. -/
def pvcTypes : TypeTree where
  decl := { name := "root".toList }
  subtype :=
    .node { name := "pvc".toList, create := true } (.node { name := "entry".toList } .nil .nil)
      (.node { name := "lan".toList } .nil .nil)
  fits := by decide
  static := create_root

theorem memLoadFromType_pvcTypes : ∃ t m',
    memLoadFromType pvcTypes (fun _ => true) ObjMem.empty = .ok (t.ptr, m') ∧
      Initial pvcTypes ObjMem.empty m' t :=
  memLoadFromType_initial pvcTypes _ ObjMem.empty fun _ => rfl

/-- When the pool is exhausted there is no tree. -/
theorem not_memLoadFromType_initial : ¬ ∀ (tt : TypeTree) (pool : Nat → Bool) (m : ObjMem),
    ∃ t m', memLoadFromType tt pool m = .ok (t.ptr, m') ∧ Initial tt m m' t := by
  intro h
  obtain ⟨t, m', hm', hinit⟩ := h pvcTypes (fun _ => false) ObjMem.empty
  have hnull : memLoadFromType pvcTypes (fun _ => false) ObjMem.empty =
      .ok (none, ObjMem.empty.skip) := rfl
  have hptr : t.ptr = none := (congrArg Prod.fst (Except.ok.inj (hnull.symm.trans hm'))).symm
  have htree := hinit.tree
  cases t with
  | nil => exact absurd htree (by decide)
  | node o c s => exact absurd hptr (by simp [Lcrs.ptr])

end OnuFirmware.Cfg
