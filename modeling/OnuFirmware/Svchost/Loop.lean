import OnuFirmware.Lib.Heap
import OnuFirmware.Clib.Str

/-!
# The service host (`svchost_loop.c`)

The configuration file gives a linked list of services. `svchost_run` loads, checks and registers
them one after the other, then polls for messages; a message can ask for a service to be unloaded,
and after each poll the services so marked are. In the end all services are unloaded. `nsvc` counts
the registered services and ends the polling when it reaches zero.

What a library does when it is loaded and whether the bus accepts the service are inputs
(`SvcConf`). The callbacks of the services have no part in the registry and are left out.
-/

namespace OnuFirmware.Svchost

open Lib Clib

/-! ## Services -/

/-- The fields of a `host_service_intf` that `svchost_check_svc` looks at; `start` and `stop` say
whether the pointers are set. -/
structure Intf where
  id : Nat
  start : Bool
  stop : Bool
deriving Repr, DecidableEq

/-- What happens when a service is initialised: the interface its library returns, if it can be
loaded and returns one, and whether `ubus_add_object` succeeds. -/
structure SvcConf where
  lib : Option Intf
  addOk : Bool
deriving Repr, DecidableEq

/-- `struct host_service`. Of the flag word only the two bits the host sets itself are kept; the
libraries use bit 0, which starts a service and has no part here. -/
structure HostService where
  conf : SvcConf
  intf : Option Intf := none
  registered : Bool := false
  reqUnload : Bool := false
  next : Option Nat
deriving Repr, DecidableEq

/-- `struct host_run_env` and the memory the services live in. `uncounted` records whether `nsvc`
was ever decremented for a service that is not registered. -/
structure HostRunEnv where
  mem : Heap HostService
  svc : Option Nat
  nsvc : Int
  uncounted : Bool

/-- Reads a service through a pointer. -/
def HostRunEnv.read (env : HostRunEnv) (a : Nat) : Except Fault HostService :=
  match env.mem a with
  | some s => .ok s
  | none => .error .dangling

/-- Writes a service. -/
def HostRunEnv.write (env : HostRunEnv) (a : Nat) (s : HostService) : HostRunEnv :=
  { env with mem := env.mem.set a s }

/-! ## Initialisation -/

/-- The loop of `svchost_check_svc`: whether no other service has the same id. -/
def svchostCheckSvcLoop (env : HostRunEnv) (svc id : Nat) : Nat → Option Nat → Except Fault Bool
  | 0, _ => .error .dangling
  | _ + 1, none => .ok true
  | fuel + 1, some tmp => do
    let s ← env.read tmp
    if tmp ≠ svc ∧ s.intf.any fun i => i.id == id then .ok false
    else svchostCheckSvcLoop env svc id fuel s.next

/-- `svchost_check_svc`: whether it returns `0`. -/
def svchostCheckSvc (env : HostRunEnv) (fuel svc : Nat) (intf : Intf) : Except Fault Bool :=
  if !intf.start || !intf.stop || intf.id == 0 then .ok false
  else svchostCheckSvcLoop env svc intf.id fuel env.svc

/-- `svchost_load_lib`, `svchost_check_svc` and `svchost_reg_svc` on one service: whether all three
return `0`, and the state. -/
def svchostInitSvc (env : HostRunEnv) (fuel a : Nat) : Except Fault (Bool × HostRunEnv) := do
  let s ← env.read a
  match s.conf.lib with
  | none => .ok (false, env)
  | some intf =>
    let loaded := env.write a { s with intf := some intf }
    let ok ← svchostCheckSvc loaded fuel a intf
    if ok && s.conf.addOk then
      .ok (true, { loaded.write a { s with intf := some intf, registered := true } with
        nsvc := loaded.nsvc + 1 })
    else .ok (false, loaded)

/-- A result with the state after it and the states on the way. -/
structure Traced (α : Type) where
  val : α
  env : HostRunEnv
  states : List HostRunEnv

/-- The loop of `svchost_init_lib`: whether it returns `0`. -/
def svchostInitLib (bound : Nat) : Nat → Option Nat → HostRunEnv → Except Fault (Traced Bool)
  | 0, _, _ => .error .dangling
  | _ + 1, none, env => .ok ⟨true, env, []⟩
  | fuel + 1, some a, env => do
    let r ← svchostInitSvc env bound a
    if r.1 then
      let s ← r.2.read a
      let rest ← svchostInitLib bound fuel s.next r.2
      .ok ⟨rest.val, rest.env, r.2 :: rest.states⟩
    else .ok ⟨false, r.2, [r.2]⟩

/-! ## Unloading -/

/-- The loop of `svchost_free_svc`: the predecessor of `svc`, or the last service. -/
def svchostFindPrev (env : HostRunEnv) (svc : Nat) : Nat → Nat → Except Fault (Nat × HostService)
  | 0, _ => .error .dangling
  | fuel + 1, tmp => do
    let s ← env.read tmp
    match s.next with
    | none => .ok (tmp, s)
    | some n => if n = svc then .ok (tmp, s) else svchostFindPrev env svc fuel n

/-- `svchost_free_svc`. -/
def svchostFreeSvc (env : HostRunEnv) (fuel svc : Nat) : Except Fault HostRunEnv := do
  let s ← env.read svc
  match env.svc with
  | none => .error .dangling
  | some tmp =>
    if tmp = svc then .ok { env with svc := s.next, mem := env.mem.free svc }
    else
      let prev ← svchostFindPrev env svc fuel tmp
      if prev.2.next = some svc then
        .ok { env with mem := (env.mem.set prev.1 { prev.2 with next := s.next }).free svc }
      else .ok env

/-- `svchost_unload_svc`. The counter goes down whether the service was registered or not. -/
def svchostUnloadSvc (env : HostRunEnv) (fuel a : Nat) : Except Fault HostRunEnv := do
  let s ← env.read a
  svchostFreeSvc { env with nsvc := env.nsvc - 1, uncounted := env.uncounted || !s.registered }
    fuel a

/-- The loop of `svchost_deinit_lib`. -/
def svchostDeinitLib (bound : Nat) : Nat → Option Nat → HostRunEnv → Except Fault HostRunEnv
  | 0, _, _ => .error .dangling
  | _ + 1, none, env => .ok env
  | fuel + 1, some a, env => do
    let env ← svchostUnloadSvc env bound a
    let s ← env.read a
    svchostDeinitLib bound fuel s.next env

/-- The loop of `svchost_check_unload`. -/
def svchostCheckUnload (bound : Nat) : Nat → Option Nat → HostRunEnv → Except Fault HostRunEnv
  | 0, _, _ => .error .dangling
  | _ + 1, none, env => .ok env
  | fuel + 1, some a, env => do
    let s ← env.read a
    let env ← if s.reqUnload then svchostUnloadSvc env bound a else .ok env
    let s ← env.read a
    svchostCheckUnload bound fuel s.next env

/-! ## Runs -/

/-- `ubus_loop_poll`: the services in `reqs` get an `__unload` message; only registered ones can. -/
def ubusLoopPoll (env : HostRunEnv) : List Nat → HostRunEnv
  | [] => env
  | a :: reqs =>
    match env.mem a with
    | some s =>
      ubusLoopPoll (if s.registered then env.write a { s with reqUnload := true } else env) reqs
    | none => ubusLoopPoll env reqs

/-- `svchost_run_loop`, with the messages of each turn. -/
def svchostRunLoop (bound : Nat) : List (List Nat) → HostRunEnv → Except Fault (Traced Unit)
  | [], env => .ok ⟨(), env, []⟩
  | reqs :: turns, env =>
    if env.nsvc ≤ 0 then .ok ⟨(), env, []⟩
    else do
      let polled := ubusLoopPoll env reqs
      let unloaded ← svchostCheckUnload bound bound polled.svc polled
      let rest ← svchostRunLoop bound turns unloaded
      .ok ⟨(), rest.env, polled :: unloaded :: rest.states⟩

/-- The services of the configuration file, linked in order. -/
def services (confs : List SvcConf) : Heap HostService := fun a =>
  (confs[a]?).map fun conf =>
    { conf := conf, next := if a + 1 < confs.length then some (a + 1) else none }

/-- `host_env` at the start of `svchost_run`. -/
def hostEnv (confs : List SvcConf) : HostRunEnv where
  mem := services confs
  svc := if confs.length = 0 then none else some 0
  nsvc := 0
  uncounted := false

/-- `svchost_run_init`; `uloop` is whether `uloop_init` succeeds. The bus is asked for a connection
until there is one. -/
def svchostRunInit (bound : Nat) (uloop : Bool) (env : HostRunEnv) : Except Fault (Traced Bool) :=
  if uloop then svchostInitLib bound bound env.svc env else .ok ⟨false, env, []⟩

/-- `svchost_run` up to `svchost_run_deinit`, which is called when `shutdown` is set: the states
between the calls it makes. -/
def svchostRun (uloop : Bool) (confs : List SvcConf) (turns : List (List Nat)) (shutdown : Bool) :
    Except Fault (List HostRunEnv) := do
  let bound := confs.length + 1
  let env := hostEnv confs
  let init ← svchostRunInit bound uloop env
  let looped ← if init.val then svchostRunLoop bound turns init.env else .ok ⟨(), init.env, []⟩
  let states := env :: (init.states ++ looped.states)
  if shutdown then
    let last ← svchostDeinitLib bound bound looped.env.svc looped.env
    .ok (states ++ [last])
  else .ok states

end OnuFirmware.Svchost
