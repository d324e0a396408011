import OnuFirmware.Lib.Dll
import OnuFirmware.Clib.Str

/-!
# The queue of `queue_api.c`

A doubly linked list of nodes that each hold a pointer to the data of the caller. The nodes live in
a heap of their own; whether `malloc` finds memory for a node is an argument of the push.

`Holds` says that a queue represents a list, and the two operations are then `++ [data]` and taking
the head (`queuePushTail_holds`, `queuePopHead_cons`).
-/

namespace OnuFirmware.LanHost

open Lib Clib

/-! ## Model -/

/-- `QueueNode`. -/
structure QueueNode where
  data : Nat
  next : Option Nat
  prev : Option Nat
deriving Repr, DecidableEq

/-- `Queue` and the memory of its nodes; the addresses from `fresh` on were never allocated. -/
structure Queue where
  head : Option Nat
  tail : Option Nat
  length : Nat
  nodes : Heap QueueNode
  fresh : Nat

/-- One more than the largest `unsigned long` of the target. -/
def ulongSize : Nat := 0x100000000

/-- `QueueInit`. -/
def queueInit : Queue where
  head := none
  tail := none
  length := 0
  nodes := fun _ => none
  fresh := 0

/-- `QueuePushTail`; `malloc` says whether there is memory for the node. -/
def queuePushTail (q : Queue) (malloc : Bool) (data : Nat) : Except Fault (Int × Queue) :=
  if !malloc then .ok (-1, q)
  else
    let node := q.fresh
    if q.tail = none ∧ q.head = none then
      .ok (0, { head := some node, tail := some node, length := (q.length + 1) % ulongSize,
                nodes := q.nodes.set node { data := data, next := none, prev := none },
                fresh := node + 1 })
    else
      match q.tail with
      | none => .error .dangling
      | some t =>
        match q.nodes t with
        | none => .error .dangling
        | some last =>
          .ok (0, { head := q.head, tail := some node, length := (q.length + 1) % ulongSize,
                    nodes := (q.nodes.set t { last with next := some node }).set node
                      { data := data, next := none, prev := some t },
                    fresh := node + 1 })

/-- `QueuePopHead`. -/
def queuePopHead (q : Queue) : Except Fault (Option Nat × Queue) :=
  match q.head with
  | none => .ok (none, q)
  | some a =>
    match q.nodes a with
    | none => .error .dangling
    | some node =>
      let length := (q.length + (ulongSize - 1)) % ulongSize
      match node.next with
      | none =>
        .ok (some node.data, { q with head := none, tail := none, length := length,
                                      nodes := q.nodes.free a })
      | some b =>
        match q.nodes b with
        | none => .error .dangling
        | some second =>
          .ok (some node.data,
            { q with head := some b, length := length,
                     nodes := (q.nodes.set b { second with prev := none }).free a })

/-! ## The list a queue represents -/

/-- The queue is a list of nodes with the data `l`. -/
structure Queue.Holds (q : Queue) (l : List Nat) : Prop where
  nodes : ∃ ns : List (Nat × Nat), ns.map Prod.snd = l ∧
    q.nodes.Dll QueueNode.next QueueNode.prev QueueNode.data none q.head ns ∧
    q.tail = (ns.map Prod.fst).getLast?
  length : q.length = l.length % ulongSize
  fresh : ∀ a, q.fresh ≤ a → q.nodes a = none

theorem queueInit_holds : queueInit.Holds [] :=
  ⟨⟨[], rfl, rfl, rfl⟩, rfl, fun _ _ => rfl⟩

/-- A push without memory changes nothing. -/
theorem queuePushTail_nomem (q : Queue) (data : Nat) :
    queuePushTail q false data = .ok (-1, q) := rfl

theorem fresh_push {q : Queue} {node : QueueNode} {nodes : Heap QueueNode}
    (h : ∀ a, q.fresh ≤ a → q.nodes a = none)
    (hframe : ∀ a, q.fresh < a → nodes a = q.nodes a) :
    ∀ a, q.fresh + 1 ≤ a → (nodes.set q.fresh node) a = none := by
  intro a ha
  rw [Heap.set_ne _ _ (by omega), hframe a (by omega)]
  exact h a (by omega)

/-- **Pushing appends.** -/
theorem queuePushTail_holds {q : Queue} {l : List Nat} (h : q.Holds l) (data : Nat) :
    ∃ q', queuePushTail q true data = .ok (0, q') ∧ q'.Holds (l ++ [data]) := by
  obtain ⟨⟨ns, rfl, hd, htail⟩, hlen, hfresh⟩ := h
  have hlen' : (q.length + 1) % ulongSize = (ns.map Prod.snd ++ [data]).length % ulongSize := by
    rw [hlen, List.length_append, List.length_singleton, Nat.mod_add_mod]
  rcases List.eq_nil_or_concat ns with rfl | ⟨ns, ⟨t, w⟩, rfl⟩
  · have hhead : q.head = none := hd
    have htail : q.tail = none := htail
    rw [queuePushTail, if_neg (by simp), if_pos ⟨htail, hhead⟩]
    refine ⟨_, rfl, ⟨[(q.fresh, data)], rfl, ⟨rfl, _, Heap.set_self _ _ _, rfl, rfl, rfl⟩, rfl⟩,
      hlen', fresh_push hfresh fun _ _ => rfl⟩
  · rw [List.concat_eq_append] at hd htail hlen' ⊢
    have htail : q.tail = some t := by simpa using htail
    obtain ⟨last, hlast⟩ := hd.chain.mem_some t (by simp)
    have hnew : ∀ a ∈ (ns ++ [(t, w)]).map Prod.fst, a < q.fresh := by
      intro a ha
      obtain ⟨x, hx⟩ := hd.chain.mem_some a ha
      by_contra hle
      rw [hfresh a (by omega)] at hx
      cases hx
    have htfresh := hnew t (by simp)
    have hnodup := hd.chain.nodup
    rw [List.map_append, List.nodup_append] at hnodup
    simp only [queuePushTail, htail, hlast, Bool.not_true, Bool.false_eq_true, if_false,
      reduceCtorEq, false_and]
    refine ⟨_, rfl, ⟨ns ++ [(t, w), (q.fresh, data)], by simp, ?_, by simp⟩, hlen',
      fresh_push hfresh fun a ha => Heap.set_ne _ _ (by omega)⟩
    refine hd.push (fun a ha => ?_) ((Heap.set_ne _ _ (by omega)).trans (Heap.set_self _ _ _)) rfl
      ?_ ?_ (Heap.set_self _ _ _) rfl rfl rfl
    · have hat : a ≠ t := fun he => hnodup.2.2 a ha t (by simp) he
      have hlt := hnew a (by rw [List.map_append]; exact List.mem_append_left _ ha)
      exact (Heap.set_ne _ _ (by omega)).trans (Heap.set_ne _ _ hat)
    · rw [hlast]
      rfl
    · rw [hlast]
      rfl

/-- **Popping takes the first element.** -/
theorem queuePopHead_cons {q : Queue} {d : Nat} {l : List Nat} (h : q.Holds (d :: l)) :
    ∃ q', queuePopHead q = .ok (some d, q') ∧ q'.Holds l := by
  obtain ⟨⟨ns, hns, hd, htail⟩, hlen, hfresh⟩ := h
  obtain ⟨⟨a, _⟩, ns, rfl, rfl, rfl⟩ := List.map_eq_cons_iff.mp hns
  obtain ⟨hhead, node, hnode, -, hval, hrest⟩ := id hd
  have hlen' : (q.length + (ulongSize - 1)) % ulongSize
      = (ns.map Prod.snd).length % ulongSize := by
    rw [hlen, List.length_cons, Nat.mod_add_mod, ulongSize]
    omega
  have hnodup := hd.chain.nodup
  rw [List.map_cons, List.nodup_cons] at hnodup
  have hfreed : ∀ {nodes : Heap QueueNode}, (∀ x, q.fresh ≤ x → nodes x = none) →
      ∀ x, q.fresh ≤ x → (nodes.free a) x = none := by
    intro nodes hn x hx
    by_cases hxa : x = a
    · rw [hxa, Heap.free_self]
    · rw [Heap.free_ne _ hxa, hn x hx]
  simp only [queuePopHead, hhead, hnode, hval]
  cases ns with
  | nil =>
    have hnext : node.next = none := hrest
    simp only [hnext]
    exact ⟨_, rfl, ⟨[], rfl, rfl, rfl⟩, hlen', hfreed hfresh⟩
  | cons m ns =>
    obtain ⟨b, e⟩ := m
    obtain ⟨hnext, second, hsecond, -⟩ := id hrest
    have hba : b ≠ a := fun he => hnodup.1 (by simp [he])
    simp only [hnext, hsecond]
    refine ⟨_, rfl, ⟨(b, e) :: ns, rfl, ?_, ?_⟩, hlen', hfreed fun x hx => ?_⟩
    · refine Heap.Dll.pop hd ((Heap.free_ne _ hba).trans (Heap.set_self _ _ _)) hsecond rfl rfl rfl
        fun c hc => ?_
      have hca : c ≠ a := fun he => hnodup.1 (List.mem_cons_of_mem _ (he ▸ hc))
      have hcb : c ≠ b := fun he => (List.nodup_cons.mp hnodup.2).1 (he ▸ hc)
      exact (Heap.free_ne _ hca).trans (Heap.set_ne _ _ hcb)
    · simpa using htail
    · by_cases hxb : x = b
      · rw [hxb] at hx
        rw [hfresh b hx] at hsecond
        cases hsecond
      · rw [Heap.set_ne _ _ hxb, hfresh x hx]

end OnuFirmware.LanHost
