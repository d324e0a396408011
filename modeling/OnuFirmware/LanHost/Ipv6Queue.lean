import OnuFirmware.LanHost.Queue

/-!
# Detection of IPv6 hosts

The message thread puts the addresses it hears of into a queue (`ipv6_check_hander`). The checking
thread takes turns (`popout_ipv6_queue`): it notes the length of the queue and then takes that many
elements out; an address that the neighbour table does not know yet is put back, up to
`IPV6_MAX_DETECT_CNT` times.

The two threads share the queue only, and each access to it holds the mutex, so a run is a list of
`Event`s in any order, one for each part of the code that holds the mutex once. `malloc` and the
neighbour table are inputs of the events. The `log` has no counterpart in the program; it records
what the statements about runs are about.
-/

namespace OnuFirmware.LanHost

open Lib Clib

/-! ## Model -/

/-- `IPv6_ADDR_LEN`. -/
def ipv6AddrLen : Nat := 64

/-- `IPV6_MAX_DETECT_CNT`. -/
def ipv6MaxDetectCnt : Nat := 5

/-- `ipv6_qnode_t`. -/
structure Ipv6QNode where
  ipv6Addr : Str
  ipType : Int
  detectCnt : Nat
deriving Repr, DecidableEq

/-- Where the checking thread is in `popout_ipv6_queue`: not in it, before an iteration of its loop,
or in the body of the loop with an element it has taken out. -/
inductive Popper
  | idle
  | loop (i : Nat) (queueLength : Int)
  | detect (i : Nat) (queueLength : Int) (qNode : Nat)
deriving Repr, DecidableEq

/-- What happened: an element entered the queue, a turn began, an element was taken out, its address
was looked up, it was put back, it could not be put back, it was freed. -/
inductive Log
  | accepted (e : Nat)
  | turn
  | popped (e : Nat)
  | detected (e : Nat) (resolved : Bool)
  | repushed (e : Nat)
  | dropped (e : Nat)
  | freed (e : Nat)
deriving Repr, DecidableEq

/-- The queue with its elements; the addresses of elements from `fresh` on were never allocated. -/
structure Detector where
  queue : Queue
  elems : Heap Ipv6QNode
  fresh : Nat
  popper : Popper
  log : List Log

/-- After `init_ipv6_detect_queue`. -/
def initIpv6DetectQueue : Detector where
  queue := queueInit
  elems := fun _ => none
  fresh := 0
  popper := .idle
  log := []

/-- `ipv6_check_hander`; the flags say whether its three allocations succeed. -/
def ipv6CheckHander (st : Detector) (ip6addr : Str) (type : Int) (addrMem nodeMem pushMem : Bool) :
    Except Fault Detector := do
  if !addrMem || !nodeMem then .ok st
  else
    let e := st.fresh
    let ret ← queuePushTail st.queue pushMem e
    if ret.1 ≠ 0 then .ok { st with queue := ret.2, fresh := e + 1 }
    else
      let nodeinfo :=
        { ipv6Addr := ip6addr.take (ipv6AddrLen - 1), ipType := type, detectCnt := 0 }
      .ok { st with queue := ret.2, fresh := e + 1, elems := st.elems.set e nodeinfo,
                    log := st.log ++ [.accepted e] }

/-- `popout_ipv6_queue` up to its loop: it notes the length of the queue. -/
def popoutStart (st : Detector) : Detector :=
  match st.popper with
  | .idle =>
    { st with popper := .loop 0 ((st.queue.length : Int).bmod ulongSize), log := st.log ++ [.turn] }
  | _ => st

/-- The head of an iteration: it takes an element out, or the loop ends. -/
def popoutPop (st : Detector) : Except Fault Detector :=
  match st.popper with
  | .loop i queueLength =>
    if (i : Int) < queueLength then do
      let ret ← queuePopHead st.queue
      match ret.1 with
      | none => .ok { st with queue := ret.2, popper := .idle }
      | some e =>
        .ok { st with queue := ret.2, popper := .detect i queueLength e,
                      log := st.log ++ [.popped e] }
    else .ok { st with popper := .idle }
  | _ => .ok st

/-- `FREE_X` on an element. -/
def Detector.freeNode (st : Detector) (e : Nat) : Detector :=
  { st with elems := st.elems.free e, log := st.log ++ [.freed e] }

/-- The body of an iteration; `mac` says whether `get_mac_addr_via_neigh` finds the address. -/
def popoutDetect (st : Detector) (mac pushMem : Bool) : Except Fault Detector :=
  match st.popper with
  | .detect i queueLength e =>
    match st.elems e with
    | none => .error .dangling
    | some node =>
      let st : Detector :=
        { st with elems := st.elems.set e { node with detectCnt := node.detectCnt + 1 },
                  popper := .loop (i + 1) queueLength,
                  log := st.log ++ [.detected e mac] }
      if mac then .ok (st.freeNode e)
      else if node.detectCnt + 1 < ipv6MaxDetectCnt then do
        let ret ← queuePushTail st.queue pushMem e
        if ret.1 ≠ 0 then
          .ok (Detector.freeNode { st with queue := ret.2, log := st.log ++ [.dropped e] } e)
        else .ok { st with queue := ret.2, log := st.log ++ [.repushed e] }
      else .ok (st.freeNode e)
  | _ => .ok st

/-- What one of the threads does next. -/
inductive Event
  | check (ip6addr : Str) (type : Int) (addrMem nodeMem pushMem : Bool)
  | start
  | pop
  | detect (mac pushMem : Bool)
deriving Repr, DecidableEq

/-- One step of one thread. The checking thread stays where it is when the event is not its next
one. -/
def Detector.step (st : Detector) : Event → Except Fault Detector
  | .check ip6addr type addrMem nodeMem pushMem =>
    ipv6CheckHander st ip6addr type addrMem nodeMem pushMem
  | .start => .ok (popoutStart st)
  | .pop => popoutPop st
  | .detect mac pushMem => popoutDetect st mac pushMem

/-- A run. -/
def Detector.run (st : Detector) : List Event → Except Fault Detector
  | [] => .ok st
  | ev :: evs => do (← st.step ev).run evs

/-! ## Statement -/

/-- The elements that entered the queue from outside. -/
def accepted (log : List Log) : List Nat :=
  log.filterMap fun | .accepted e => some e | _ => none

/-- The elements that were put into the queue, in order. -/
def pushed (log : List Log) : List Nat :=
  log.filterMap fun | .accepted e => some e | .repushed e => some e | _ => none

/-- The elements that were taken out, in order. -/
def popped (log : List Log) : List Nat :=
  log.filterMap fun | .popped e => some e | _ => none

/-- The elements that left for good. -/
def freed (log : List Log) : List Nat :=
  log.filterMap fun | .freed e => some e | _ => none

/-- The elements examined in the turns that are over and in the current turn. -/
def Log.record (acc : List (List Nat) × List Nat) : Log → List (List Nat) × List Nat
  | .turn => (acc.1 ++ [acc.2], [])
  | .popped e => (acc.1, acc.2 ++ [e])
  | _ => acc

/-- The elements examined in each turn. -/
def turns (log : List Log) : List (List Nat) :=
  let acc := log.foldl Log.record ([], [])
  acc.1 ++ [acc.2]

/-- How often an address was looked up. -/
def detections (log : List Log) (e : Nat) : Nat :=
  log.count (.detected e false) + log.count (.detected e true)

/-- The address was found, or looking it up failed the allowed number of times. -/
def Done (log : List Log) (e : Nat) : Prop :=
  Log.detected e true ∈ log ∨ log.count (.detected e false) = ipv6MaxDetectCnt

/-- Or the queue had no memory to take it back. -/
def DoneOrDropped (log : List Log) (e : Nat) : Prop := Done log e ∨ Log.dropped e ∈ log

/-- The element the checking thread has in hand. -/
def Detector.hand (st : Detector) : List Nat :=
  match st.popper with
  | .detect _ _ e => [e]
  | _ => []

/-- **The protocol of the queue**, where `leave` says when an element may leave. -/
structure QueueProtocol (leave : List Log → Nat → Prop) (st : Detector) (l : List Nat) : Prop where
  /-- The nodes form a list with the elements `l`, and elements leave it in the order they came. -/
  holds : st.queue.Holds l
  fifo : pushed st.log = popped st.log ++ l
  /-- In a turn no element is examined twice. -/
  once : ∀ t ∈ turns st.log, t.Nodup
  leaves : ∀ e ∈ freed st.log, leave st.log e
  /-- No element is lost, and none is in two places. -/
  accounted : (accepted st.log).Perm (l ++ (st.hand ++ freed st.log))
  distinct : (l ++ (st.hand ++ freed st.log)).Nodup
  bounded : ∀ e, detections st.log e ≤ ipv6MaxDetectCnt

end OnuFirmware.LanHost
