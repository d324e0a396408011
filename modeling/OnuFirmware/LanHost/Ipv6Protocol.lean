import OnuFirmware.LanHost.Ipv6Queue

/-!
# The protocol of the detection queue

For every interleaving of the two threads the queue is a FIFO list, a turn examines no element
twice, no element is lost or duplicated and none is looked up more often than `IPV6_MAX_DETECT_CNT`
times (`queueProtocol_run`). An element that could not be put back for want of memory leaves early
(`not_queueProtocol_done`).
-/

namespace OnuFirmware.LanHost

open Lib Clib

/-! ## The log -/

section Log

variable (log : List Log) (e : Nat)

@[simp] theorem accepted_append (log' : List Log) :
    accepted (log ++ log') = accepted log ++ accepted log' := List.filterMap_append ..

@[simp] theorem pushed_append (log' : List Log) :
    pushed (log ++ log') = pushed log ++ pushed log' := List.filterMap_append ..

@[simp] theorem popped_append (log' : List Log) :
    popped (log ++ log') = popped log ++ popped log' := List.filterMap_append ..

@[simp] theorem freed_append (log' : List Log) :
    freed (log ++ log') = freed log ++ freed log' := List.filterMap_append ..

/-- The elements examined in the current turn. -/
def currentTurn : List Nat := (log.foldl Log.record ([], [])).2

theorem turns_turn : turns (log ++ [.turn]) = turns log ++ [[]] := by
  simp [turns, Log.record]

theorem currentTurn_turn : currentTurn (log ++ [.turn]) = [] := by
  simp [currentTurn, Log.record]

theorem currentTurn_popped : currentTurn (log ++ [.popped e]) = currentTurn log ++ [e] := by
  simp [currentTurn, Log.record]

theorem turns_popped :
    turns (log ++ [.popped e]) = (log.foldl Log.record ([], [])).1 ++ [currentTurn log ++ [e]] := by
  simp [turns, currentTurn, Log.record]

/-- An entry that is neither the start of a turn nor a pop. -/
def Log.isQuiet : Log → Bool
  | .turn => false
  | .popped _ => false
  | _ => true

theorem foldl_quiet : ∀ {new : List Log}, (∀ x ∈ new, x.isQuiet) → ∀ acc,
    new.foldl Log.record acc = acc
  | [], _, _ => rfl
  | x :: new, h, acc => by
    have hx : Log.record acc x = acc := by
      have := h x List.mem_cons_self
      cases x <;> first | rfl | cases this
    rw [List.foldl_cons, hx]
    exact foldl_quiet (fun y hy => h y (List.mem_cons_of_mem x hy)) acc

theorem turns_quiet {new : List Log} (h : ∀ x ∈ new, x.isQuiet) :
    turns (log ++ new) = turns log := by
  rw [turns, turns, List.foldl_append, foldl_quiet h]

theorem currentTurn_quiet {new : List Log} (h : ∀ x ∈ new, x.isQuiet) :
    currentTurn (log ++ new) = currentTurn log := by
  rw [currentTurn, currentTurn, List.foldl_append, foldl_quiet h]

end Log

/-! ## The invariant -/

/-- In a turn, `rest` are the elements of the queue that were in it when the turn began. They differ
from those examined in the turn, and there are enough of them for the iterations to come. -/
def TurnOk (st : Detector) (l : List Nat) : Prop :=
  ∀ i queueLength, (st.popper = .loop i queueLength ∨
      ∃ j e, st.popper = .detect j queueLength e ∧ i = j + 1) →
    ∃ rest added, l = rest ++ added ∧ (currentTurn st.log ++ rest).Nodup ∧
      queueLength ≤ i + rest.length

/-- The invariant of the runs. -/
structure DetectorInv (st : Detector) (l : List Nat) : Prop where
  holds : st.queue.Holds l
  fifo : pushed st.log = popped st.log ++ l
  once : ∀ t ∈ turns st.log, t.Nodup
  leaves : ∀ e ∈ freed st.log, DoneOrDropped st.log e ∧ detections st.log e ≤ ipv6MaxDetectCnt
  accounted : (accepted st.log).Perm (l ++ (st.hand ++ freed st.log))
  distinct : (l ++ (st.hand ++ freed st.log)).Nodup
  old : ∀ e ∈ accepted st.log, e < st.fresh
  known : ∀ e b, Log.detected e b ∈ st.log → e ∈ accepted st.log
  live : ∀ e ∈ l ++ st.hand, ∃ node, st.elems e = some node ∧ node.detectCnt < ipv6MaxDetectCnt ∧
    st.log.count (.detected e false) = node.detectCnt ∧ Log.detected e true ∉ st.log
  turn : TurnOk st l

theorem DetectorInv.bounded {st : Detector} {l : List Nat} (h : DetectorInv st l) (e : Nat) :
    detections st.log e ≤ ipv6MaxDetectCnt := by
  by_cases he : e ∈ accepted st.log
  · rw [h.accounted.mem_iff, ← List.append_assoc, List.mem_append] at he
    rcases he with he | he
    · obtain ⟨node, -, hcnt, hfail, hres⟩ := h.live e he
      rw [detections, hfail, List.count_eq_zero.mpr hres]
      omega
    · exact (h.leaves e he).2
  · have hnot : ∀ b, st.log.count (.detected e b) = 0 := fun b =>
      List.count_eq_zero.mpr fun hm => he (h.known e b hm)
    rw [detections, hnot, hnot]
    omega

theorem DetectorInv.protocol {st : Detector} {l : List Nat} (h : DetectorInv st l) :
    QueueProtocol DoneOrDropped st l where
  holds := h.holds
  fifo := h.fifo
  once := h.once
  leaves := fun e he => (h.leaves e he).1
  accounted := h.accounted
  distinct := h.distinct
  bounded := h.bounded

theorem detectorInv_init : DetectorInv initIpv6DetectQueue [] where
  holds := queueInit_holds
  fifo := rfl
  once := by simp [initIpv6DetectQueue, turns]
  leaves := by simp [initIpv6DetectQueue, freed]
  accounted := .refl _
  distinct := List.nodup_nil
  old := by simp [initIpv6DetectQueue, accepted]
  known := by simp [initIpv6DetectQueue]
  live := by simp [initIpv6DetectQueue, Detector.hand]
  turn := by simp [TurnOk, initIpv6DetectQueue]

/-! ## Steps -/

/-- The entries say nothing about a look-up of `e`. -/
def NoLookup (e : Nat) (new : List Log) : Prop := ∀ b, Log.detected e b ∉ new

theorem count_detected_append {log new : List Log} {e : Nat} (h : NoLookup e new) (b : Bool) :
    (log ++ new).count (.detected e b) = log.count (.detected e b) := by
  rw [List.count_append, List.count_eq_zero.mpr (h b), Nat.add_zero]

theorem mem_detected_append {log new : List Log} {e : Nat} (h : NoLookup e new) (b : Bool) :
    Log.detected e b ∈ log ++ new ↔ Log.detected e b ∈ log := by
  rw [List.mem_append, or_iff_left (h b)]

theorem detections_append {log new : List Log} {e : Nat} (h : NoLookup e new) :
    detections (log ++ new) e = detections log e := by
  rw [detections, detections, count_detected_append h, count_detected_append h]

theorem doneOrDropped_append {log new : List Log} {e : Nat} (h : NoLookup e new)
    (hd : DoneOrDropped log e) : DoneOrDropped (log ++ new) e := by
  rcases hd with (hd | hd) | hd
  · exact Or.inl (Or.inl (List.mem_append_left _ hd))
  · exact Or.inl (Or.inr (by rw [count_detected_append h, hd]))
  · exact Or.inr (List.mem_append_left _ hd)

/-- What an element that left did stays true. -/
theorem leaves_append {st : Detector} {l : List Nat} (h : DetectorInv st l)
    {new : List Log} {e : Nat} (he : e ∈ freed st.log) (hno : NoLookup e new) :
    DoneOrDropped (st.log ++ new) e ∧ detections (st.log ++ new) e ≤ ipv6MaxDetectCnt := by
  rw [detections_append hno]
  exact ⟨doneOrDropped_append hno (h.leaves e he).1, (h.leaves e he).2⟩

/-- The handler puts a new element into the queue, or does nothing but use up an address. -/
theorem ipv6CheckHander_inv {st : Detector} {l : List Nat} (h : DetectorInv st l) (ip6addr : Str)
    (type : Int) (addrMem nodeMem pushMem : Bool) :
    ∃ st' l', ipv6CheckHander st ip6addr type addrMem nodeMem pushMem = .ok st' ∧
      DetectorInv st' l' := by
  rw [ipv6CheckHander]
  split
  · exact ⟨_, l, rfl, h⟩
  cases pushMem with
  | false =>
    simp only [queuePushTail_nomem, bind, Except.bind]
    rw [if_pos (by decide)]
    refine ⟨_, l, rfl, { h with old := fun e he => Nat.lt_succ_of_lt (h.old e he) }⟩
  | true =>
    obtain ⟨q, hq, hholds⟩ := queuePushTail_holds h.holds st.fresh
    simp only [hq, bind, Except.bind]
    rw [if_neg (by decide)]
    refine ⟨_, l ++ [st.fresh], rfl, ?_⟩
    have hquiet : ∀ x ∈ [Log.accepted st.fresh], x.isQuiet := by simp [Log.isQuiet]
    have hno : ∀ e, NoLookup e [.accepted st.fresh] := by simp [NoLookup]
    have hnew : st.fresh ∉ l ++ (st.hand ++ freed st.log) := fun hm =>
      Nat.lt_irrefl _ (h.old _ (h.accounted.mem_iff.mpr hm))
    have hfreed : freed (st.log ++ [.accepted st.fresh]) = freed st.log := by simp [freed]
    have hacc : accepted (st.log ++ [.accepted st.fresh]) = accepted st.log ++ [st.fresh] := by
      simp [accepted]
    have hperm : (l ++ [st.fresh] ++ (st.hand ++ freed st.log)).Perm
        (st.fresh :: (l ++ (st.hand ++ freed st.log))) := by
      rw [List.append_assoc, List.singleton_append]
      exact List.perm_middle
    constructor
    · exact hholds
    · have : popped (st.log ++ [.accepted st.fresh]) = popped st.log := by simp [popped]
      rw [this, pushed_append, h.fifo, List.append_assoc]
      rfl
    · rw [turns_quiet _ hquiet]
      exact h.once
    · intro e he
      rw [hfreed] at he
      exact leaves_append h he (hno e)
    · rw [hfreed, hacc]
      refine (List.perm_append_singleton _ _).trans ((h.accounted.cons _).trans ?_)
      exact hperm.symm
    · rw [hfreed]
      exact hperm.nodup_iff.mpr (List.nodup_cons.mpr ⟨hnew, h.distinct⟩)
    · intro e he
      rw [hacc, List.mem_append, List.mem_singleton] at he
      rcases he with he | rfl
      · exact Nat.lt_succ_of_lt (h.old e he)
      · exact Nat.lt_succ_self _
    · intro e b he
      rw [mem_detected_append (hno e)] at he
      rw [hacc]
      exact List.mem_append_left _ (h.known e b he)
    · intro e he
      rw [count_detected_append (hno e), mem_detected_append (hno e)]
      by_cases hef : e = st.fresh
      · subst hef
        have hsilent : ∀ b, Log.detected st.fresh b ∉ st.log := fun b hm =>
          hnew (h.accounted.mem_iff.mp (h.known _ b hm))
        exact ⟨_, Heap.set_self _ _ _, Nat.zero_lt_succ 4, List.count_eq_zero.mpr (hsilent false),
          hsilent true⟩
      · have hel : e ∈ l ++ st.hand := by
          simp only [List.mem_append, List.mem_singleton] at he ⊢
          tauto
        obtain ⟨node, hnode, hrest⟩ := h.live e hel
        exact ⟨node, (Heap.set_ne _ _ hef).trans hnode, hrest⟩
    · intro i queueLength hpop
      obtain ⟨rest, added, hl, hnodup, hlen⟩ := h.turn i queueLength hpop
      refine ⟨rest, added ++ [st.fresh], by rw [hl, List.append_assoc], ?_, hlen⟩
      rw [currentTurn_quiet _ hquiet]
      exact hnodup

theorem length_le_of_bmod (n : Nat) : ((n % ulongSize : Nat) : Int).bmod ulongSize ≤ n := by
  have hlt := Nat.mod_lt n (show 0 < ulongSize by decide)
  have hle := Nat.mod_le n ulongSize
  rw [Int.bmod_def, Int.emod_eq_of_lt (Int.natCast_nonneg _) (by omega)]
  split <;> omega

/-- At the start of a turn all elements of the queue are still to be examined. -/
theorem popoutStart_inv {st : Detector} {l : List Nat} (h : DetectorInv st l) :
    DetectorInv (popoutStart st) l := by
  rw [popoutStart]
  split
  swap
  · exact h
  next hidle =>
  have hno : ∀ e, NoLookup e [.turn] := by simp [NoLookup]
  have hhand : st.hand = [] := by rw [Detector.hand, hidle]
  have hfreed : freed (st.log ++ [.turn]) = freed st.log := by simp [freed]
  have hacc : accepted (st.log ++ [.turn]) = accepted st.log := by simp [accepted]
  have hpush : pushed (st.log ++ [.turn]) = pushed st.log := by simp [pushed]
  have hpop : popped (st.log ++ [.turn]) = popped st.log := by simp [popped]
  constructor
  · exact h.holds
  · rw [hpush, hpop]
    exact h.fifo
  · intro t ht
    rw [turns_turn, List.mem_append, List.mem_singleton] at ht
    rcases ht with ht | rfl
    · exact h.once t ht
    · exact List.nodup_nil
  · intro e he
    rw [hfreed] at he
    exact leaves_append h he (hno e)
  · have := h.accounted
    rw [hhand] at this
    rw [hacc, hfreed]
    exact this
  · have := h.distinct
    rw [hhand] at this
    rw [hfreed]
    exact this
  · rw [hacc]
    exact h.old
  · intro e b he
    rw [mem_detected_append (hno e)] at he
    rw [hacc]
    exact h.known e b he
  · intro e he
    rw [count_detected_append (hno e), mem_detected_append (hno e)]
    exact h.live e (by rw [hhand]; exact he)
  · rintro i queueLength (hp | ⟨j, e, hp, -⟩)
    · cases hp
      refine ⟨l, [], (List.append_nil l).symm, ?_, ?_⟩
      · rw [currentTurn_turn, List.nil_append]
        exact (List.nodup_append.mp h.distinct).1
      · have := length_le_of_bmod l.length
        rw [h.holds.length]
        simpa using this
    · cases hp

/-- The end of a turn. -/
theorem detectorInv_idle {st : Detector} {l : List Nat} (h : DetectorInv st l)
    (hhand : st.hand = []) : DetectorInv { st with popper := .idle } l := by
  have hacc := h.accounted
  have hdis := h.distinct
  have hlive := h.live
  rw [hhand] at hacc hdis hlive
  exact { h with accounted := hacc, distinct := hdis, live := hlive, turn := by simp [TurnOk] }

/-- Taking an element out moves it from the queue to the hand. -/
theorem popoutPop_inv {st : Detector} {l : List Nat} (h : DetectorInv st l) :
    ∃ st' l', popoutPop st = .ok st' ∧ DetectorInv st' l' := by
  rw [popoutPop]
  split
  swap
  · exact ⟨_, l, rfl, h⟩
  next i queueLength hloop =>
  have hhand : st.hand = [] := by rw [Detector.hand, hloop]
  split
  swap
  · exact ⟨_, l, rfl, detectorInv_idle h hhand⟩
  next hi =>
  -- the elements that are left from the start of the turn are enough for this iteration
  obtain ⟨rest, added, rfl, hnodup, hlen⟩ := h.turn i queueLength (Or.inl hloop)
  cases rest with
  | nil =>
    simp only [List.length_nil] at hlen
    omega
  | cons e rest =>
  obtain ⟨q, hq, hholds⟩ := queuePopHead_cons h.holds
  simp only [hq, bind, Except.bind]
  refine ⟨_, rest ++ added, rfl, ?_⟩
  have hno : ∀ x, NoLookup x [.popped e] := by simp [NoLookup]
  have hfreed : freed (st.log ++ [.popped e]) = freed st.log := by simp [freed]
  have hacc : accepted (st.log ++ [.popped e]) = accepted st.log := by simp [accepted]
  have hpush : pushed (st.log ++ [.popped e]) = pushed st.log := by simp [pushed]
  have hpop : popped (st.log ++ [.popped e]) = popped st.log ++ [e] := by simp [popped]
  have hmoved : (e :: rest ++ added ++ ([] ++ freed st.log)).Perm
      (rest ++ added ++ ([e] ++ freed st.log)) := by
    have hmid : (rest ++ added ++ e :: freed st.log).Perm (e :: (rest ++ added ++ freed st.log)) :=
      List.perm_middle
    simpa using hmid.symm
  have hturn : (currentTurn st.log ++ [e] ++ rest).Nodup := by
    rw [List.append_assoc]
    exact hnodup
  constructor
  · exact hholds
  · rw [hpush, hpop, h.fifo]
    simp
  · intro t ht
    rw [turns_popped, List.mem_append, List.mem_singleton] at ht
    rcases ht with ht | rfl
    · exact h.once t (by rw [turns]; exact List.mem_append_left _ ht)
    · exact (List.nodup_append.mp hturn).1
  · intro x hx
    rw [hfreed] at hx
    exact leaves_append h hx (hno x)
  · rw [hacc, hfreed]
    have := h.accounted
    rw [hhand] at this
    exact this.trans hmoved
  · rw [hfreed]
    have := h.distinct
    rw [hhand] at this
    exact hmoved.nodup_iff.mp this
  · rw [hacc]
    exact h.old
  · intro x b hx
    rw [mem_detected_append (hno x)] at hx
    rw [hacc]
    exact h.known x b hx
  · intro x hx
    rw [count_detected_append (hno x), mem_detected_append (hno x)]
    refine h.live x ?_
    simp only [Detector.hand, List.mem_append, List.mem_cons] at hx ⊢
    tauto
  · rintro j n (hp | ⟨k, x, hp, rfl⟩)
    · cases hp
    · cases hp
      refine ⟨rest, added, rfl, ?_, ?_⟩
      · rw [currentTurn_popped]
        exact hturn
      · simp only [List.length_cons] at hlen
        omega

/-- The element in hand is freed after a look-up. -/
theorem detectorInv_free {st : Detector} {l : List Nat} (h : DetectorInv st l) {i e : Nat}
    {queueLength : Int} (hpop : st.popper = .detect i queueLength e) {mac : Bool} {mid : List Log}
    (hmid : mid = [] ∨ mid = [.dropped e]) (node : Ipv6QNode)
    (hdone : DoneOrDropped (st.log ++ ([.detected e mac] ++ mid ++ [.freed e])) e) :
    DetectorInv { st with elems := (st.elems.set e node).free e,
                          popper := .loop (i + 1) queueLength,
                          log := st.log ++ ([.detected e mac] ++ mid ++ [.freed e]) } l := by
  have hhand : st.hand = [e] := by rw [Detector.hand, hpop]
  have hacc := h.accounted
  have hdis := h.distinct
  have hlive := h.live
  rw [hhand] at hacc hdis hlive
  generalize hnew : [Log.detected e mac] ++ mid ++ [.freed e] = new at hdone ⊢
  have hnames : accepted new = [] ∧ pushed new = [] ∧ popped new = [] ∧ freed new = [e] ∧
      (∀ x ∈ new, x.isQuiet) ∧ (∀ x, x ≠ e → NoLookup x new) ∧
      detections (st.log ++ new) e = detections st.log e + 1 := by
    subst hnew
    rcases hmid with rfl | rfl <;> cases mac <;>
      simp +contextual [accepted, pushed, popped, freed, Log.isQuiet, NoLookup, detections,
        List.count_append] <;> omega
  obtain ⟨haccn, hpushn, hpopn, hfreedn, hquiet, hno, hcount⟩ := hnames
  have hmoved : (l ++ ([e] ++ freed st.log)).Perm (l ++ (freed st.log ++ [e])) :=
    List.Perm.append_left l List.perm_append_comm
  have hlne : ∀ x ∈ l, x ≠ e := by
    rintro x hx rfl
    exact (List.nodup_append.mp hdis).2.2 x hx x (by simp) rfl
  have hfne : ∀ x ∈ freed st.log, x ≠ e := by
    rintro x hx rfl
    exact (List.nodup_cons.mp (List.nodup_append.mp hdis).2.1).1 hx
  constructor
  · exact h.holds
  · rw [pushed_append, popped_append, hpushn, hpopn, List.append_nil, List.append_nil]
    exact h.fifo
  · rw [turns_quiet _ hquiet]
    exact h.once
  · intro x hx
    rw [freed_append, hfreedn, List.mem_append, List.mem_singleton] at hx
    rcases hx with hx | rfl
    · exact leaves_append h hx (hno x (hfne x hx))
    · refine ⟨hdone, ?_⟩
      obtain ⟨node, -, hcnt, hfail, hres⟩ := hlive x (by simp)
      rw [hcount, detections, hfail, List.count_eq_zero.mpr hres]
      exact hcnt
  · rw [accepted_append, freed_append, haccn, hfreedn, List.append_nil]
    exact hacc.trans hmoved
  · rw [freed_append, hfreedn]
    exact hmoved.nodup_iff.mp hdis
  · rw [accepted_append, haccn, List.append_nil]
    exact h.old
  · intro x b hx
    rw [accepted_append, haccn, List.append_nil]
    by_cases hxe : x = e
    · rw [hxe, hacc.mem_iff]
      simp
    · rw [mem_detected_append (hno x hxe)] at hx
      exact h.known x b hx
  · intro x hx
    have hxl : x ∈ l := by simpa [Detector.hand] using hx
    rw [count_detected_append (hno x (hlne x hxl)), mem_detected_append (hno x (hlne x hxl))]
    obtain ⟨xn, hxn, hrest⟩ := hlive x (List.mem_append_left _ hxl)
    exact ⟨xn, (Heap.free_ne _ (hlne x hxl)).trans ((Heap.set_ne _ _ (hlne x hxl)).trans hxn), hrest⟩
  · rintro j n (hp | ⟨k, x, hp, -⟩)
    · cases hp
      obtain ⟨rest, added, hl, hnodup, hlen⟩ := h.turn _ _ (Or.inr ⟨i, e, hpop, rfl⟩)
      refine ⟨rest, added, hl, ?_, hlen⟩
      rw [currentTurn_quiet _ hquiet]
      exact hnodup
    · cases hp

/-- The element in hand goes back to the queue after a look-up that failed. -/
theorem detectorInv_repush {st : Detector} {l : List Nat} (h : DetectorInv st l) {i e : Nat}
    {queueLength : Int} (hpop : st.popper = .detect i queueLength e) {q : Queue}
    (hholds : q.Holds (l ++ [e])) {node : Ipv6QNode} (hnode : st.elems e = some node)
    (hcnt : node.detectCnt + 1 < ipv6MaxDetectCnt) :
    DetectorInv { st with queue := q,
                          elems := st.elems.set e { node with detectCnt := node.detectCnt + 1 },
                          popper := .loop (i + 1) queueLength,
                          log := st.log ++ [.detected e false, .repushed e] } (l ++ [e]) := by
  have hhand : st.hand = [e] := by rw [Detector.hand, hpop]
  have hacc := h.accounted
  have hdis := h.distinct
  have hlive := h.live
  rw [hhand] at hacc hdis hlive
  generalize hnew : [Log.detected e false, .repushed e] = new
  have hnames : accepted new = [] ∧ pushed new = [e] ∧ popped new = [] ∧ freed new = [] ∧
      (∀ x ∈ new, x.isQuiet) ∧ ∀ x, x ≠ e → NoLookup x new := by
    subst hnew
    simp +contextual [accepted, pushed, popped, freed, Log.isQuiet, NoLookup]
  obtain ⟨haccn, hpushn, hpopn, hfreedn, hquiet, hno⟩ := hnames
  have hlne : ∀ x ∈ l, x ≠ e := by
    rintro x hx rfl
    exact (List.nodup_append.mp hdis).2.2 x hx x (by simp) rfl
  have hfne : ∀ x ∈ freed st.log, x ≠ e := by
    rintro x hx rfl
    exact (List.nodup_cons.mp (List.nodup_append.mp hdis).2.1).1 hx
  constructor
  · exact hholds
  · rw [pushed_append, popped_append, hpushn, hpopn, List.append_nil, h.fifo, List.append_assoc]
  · rw [turns_quiet _ hquiet]
    exact h.once
  · intro x hx
    rw [freed_append, hfreedn, List.append_nil] at hx
    exact leaves_append h hx (hno x (hfne x hx))
  · rw [accepted_append, freed_append, haccn, hfreedn, List.append_nil, List.append_nil,
      List.append_assoc]
    exact hacc
  · rw [freed_append, hfreedn, List.append_nil, List.append_assoc]
    exact hdis
  · rw [accepted_append, haccn, List.append_nil]
    exact h.old
  · intro x b hx
    rw [accepted_append, haccn, List.append_nil]
    by_cases hxe : x = e
    · rw [hxe, hacc.mem_iff]
      simp
    · rw [mem_detected_append (hno x hxe)] at hx
      exact h.known x b hx
  · intro x hx
    by_cases hxe : x = e
    · subst hxe
      obtain ⟨xn, hxn, -, hfail, hres⟩ := hlive x (by simp)
      obtain rfl : node = xn := Option.some.inj (hnode.symm.trans hxn)
      refine ⟨_, Heap.set_self _ _ _, hcnt, ?_, ?_⟩
      · rw [List.count_append, hfail, ← hnew]
        simp
      · rw [List.mem_append, or_iff_right hres, ← hnew]
        simp
    · have hxl : x ∈ l ++ [e] := by simpa [Detector.hand] using hx
      rw [count_detected_append (hno x hxe), mem_detected_append (hno x hxe)]
      obtain ⟨xn, hxn, hrest⟩ := hlive x hxl
      exact ⟨xn, (Heap.set_ne _ _ hxe).trans hxn, hrest⟩
  · rintro j n (hp | ⟨k, x, hp, -⟩)
    · cases hp
      obtain ⟨rest, added, hl, hnodup, hlen⟩ := h.turn _ _ (Or.inr ⟨i, e, hpop, rfl⟩)
      refine ⟨rest, added ++ [e], by rw [hl, List.append_assoc], ?_, hlen⟩
      rw [currentTurn_quiet _ hquiet]
      exact hnodup
    · cases hp

/-- The body of an iteration. -/
theorem popoutDetect_inv {st : Detector} {l : List Nat}
    (h : DetectorInv st l) (mac pushMem : Bool) :
    ∃ st' l', popoutDetect st mac pushMem = .ok st' ∧ DetectorInv st' l' := by
  rw [popoutDetect]
  split
  swap
  · exact ⟨_, l, rfl, h⟩
  next i queueLength e hpop =>
  have hhand : st.hand = [e] := by rw [Detector.hand, hpop]
  obtain ⟨node, hnode, hcnt, hfail, -⟩ := h.live e (by rw [hhand]; simp)
  simp only [hnode]
  cases mac with
  | true =>
    have hdone : DoneOrDropped (st.log ++ ([.detected e true] ++ [] ++ [.freed e])) e :=
      Or.inl (Or.inl (by simp))
    have hinv := detectorInv_free h hpop (Or.inl rfl) { node with detectCnt := node.detectCnt + 1 }
      hdone
    exact ⟨_, l, rfl, by simpa [Detector.freeNode] using hinv⟩
  | false =>
    simp only [Bool.false_eq_true, if_false]
    split
    · next hmore =>
      cases pushMem with
      | true =>
        obtain ⟨q, hq, hholds⟩ := queuePushTail_holds h.holds e
        simp only [hq, bind, Except.bind]
        rw [if_neg (by decide)]
        have hinv := detectorInv_repush h hpop hholds hnode hmore
        exact ⟨_, l ++ [e], rfl, by simpa using hinv⟩
      | false =>
        simp only [queuePushTail_nomem, bind, Except.bind]
        rw [if_pos (by decide)]
        have hdone : DoneOrDropped (st.log ++ ([.detected e false] ++ [.dropped e] ++ [.freed e])) e :=
          Or.inr (by simp)
        have hinv := detectorInv_free h hpop (Or.inr rfl)
          { node with detectCnt := node.detectCnt + 1 } hdone
        exact ⟨_, l, rfl, by simpa [Detector.freeNode] using hinv⟩
    · next hmore =>
      -- the last allowed look-up failed
      have hdone : DoneOrDropped (st.log ++ ([.detected e false] ++ [] ++ [.freed e])) e := by
        refine Or.inl (Or.inr ?_)
        rw [List.count_append, hfail]
        have hone : List.count (Log.detected e false) [.detected e false, .freed e] = 1 := by simp
        simp only [List.append_nil, List.singleton_append, hone]
        omega
      have hinv := detectorInv_free h hpop (Or.inl rfl)
        { node with detectCnt := node.detectCnt + 1 } hdone
      exact ⟨_, l, rfl, by simpa [Detector.freeNode] using hinv⟩

/-! ## Runs -/

theorem step_inv {st : Detector} {l : List Nat} (h : DetectorInv st l) (ev : Event) :
    ∃ st' l', st.step ev = .ok st' ∧ DetectorInv st' l' := by
  cases ev with
  | check ip6addr type addrMem nodeMem pushMem =>
    exact ipv6CheckHander_inv h ip6addr type addrMem nodeMem pushMem
  | start => exact ⟨_, l, rfl, popoutStart_inv h⟩
  | pop => exact popoutPop_inv h
  | detect mac pushMem => exact popoutDetect_inv h mac pushMem

theorem run_inv : ∀ (evs : List Event) {st : Detector} {l : List Nat}, DetectorInv st l →
    ∃ st' l', st.run evs = .ok st' ∧ DetectorInv st' l'
  | [], st, l, h => ⟨st, l, rfl, h⟩
  | ev :: evs, st, l, h => by
    obtain ⟨st1, l1, hstep, h1⟩ := step_inv h ev
    obtain ⟨st', l', hrun, h'⟩ := run_inv evs h1
    refine ⟨st', l', ?_, h'⟩
    simp only [Detector.run, hstep, bind, Except.bind]
    exact hrun

/-- **Every interleaving keeps the protocol.** No run dereferences a bad pointer, and an element
leaves only when its address was found, it failed the allowed number of times, or the queue had no
memory to take it back. -/
theorem queueProtocol_run (evs : List Event) :
    ∃ st l, initIpv6DetectQueue.run evs = .ok st ∧ QueueProtocol DoneOrDropped st l := by
  obtain ⟨st, l, hrun, h⟩ := run_inv evs detectorInv_init
  exact ⟨st, l, hrun, h.protocol⟩

/-- An element whose address is not known yet is freed after one look-up when `malloc` fails. -/
theorem not_queueProtocol_done :
    ¬∀ evs, ∃ st l, initIpv6DetectQueue.run evs = .ok st ∧ QueueProtocol Done st l := by
  intro hall
  obtain ⟨st, l, hrun, h⟩ := hall [.check "fe80::1".toList 1 true true true, .start, .pop,
    .detect false false]
  have hlog : st.log = [.accepted 0, .turn, .popped 0, .detected 0 false, .dropped 0,
    .freed 0] := by
    have : (initIpv6DetectQueue.run [.check "fe80::1".toList 1 true true true, .start, .pop,
        .detect false false]).map Detector.log
        = .ok [.accepted 0, .turn, .popped 0, .detected 0 false, .dropped 0, .freed 0] := by
      rfl
    rw [hrun] at this
    exact Except.ok.inj this
  have hleft := h.leaves 0 (by rw [hlog]; decide)
  rw [Done, hlog] at hleft
  revert hleft
  decide

end OnuFirmware.LanHost
