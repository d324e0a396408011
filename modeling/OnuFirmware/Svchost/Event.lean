import OnuFirmware.Clib.Str

/-!
# The events of a service (`svchost_api.c`, `svchost_loop.c`)

A service registers a table of methods and a table of events once each. The name of an event may end
in `*`, which stands for any rest. `svchost_reg_event` gives the pattern to the bus and then drops
the `*` from the table, but the hook that is called for an event still compares whole names, so a
prefix is not recognised unless it is empty.

The number of entries that is passed with a table is its length. `bus` says whether
`ubus_register_event_handler` accepts the `i`-th entry. The names in `inner_meth` are read by the
bus only and are left out.
-/

namespace OnuFirmware.Svchost

open Clib

/-! ## Model -/

/-- `HOST_SERVICE_METHOD_MAX`. -/
def hostServiceMethodMax : Nat := 512

/-- `struct host_service_method`; `method` says whether the handler is set. -/
structure ServiceMethod where
  name : Option Str
  method : Bool
deriving Repr, DecidableEq

/-- `struct host_service_event`; `event` says whether the handler is set. -/
structure ServiceEvent where
  name : Option Str
  event : Bool
deriving Repr, DecidableEq

/-- The fields of `struct host_service` that hold the tables. -/
structure ApiService where
  meth : Option (List ServiceMethod) := none
  event : Option (List ServiceEvent) := none
  innerCnt : Nat
deriving Repr, DecidableEq

/-- A service after `svchost_reg_svc`: it has the methods in `meth_name`. -/
def newService : ApiService := { innerCnt := 4 }

/-- The loop of `svchost_reg_method` does not skip the entry. -/
def ServiceMethod.taken (tmp : ServiceMethod) : Bool :=
  tmp.method && tmp.name.any fun name => !name.isEmpty

/-- `svchost_reg_method`. -/
def svchostRegMethod (svc : ApiService) (ptr : List ServiceMethod) : Int × ApiService :=
  if svc.meth.isSome then (ptr.length, svc)
  else if hostServiceMethodMax ≤ svc.innerCnt + ptr.length then (-1, svc)
  else
    let ret := ptr.countP ServiceMethod.taken
    if ret ≠ ptr.length then (0, svc)
    else (ret, { svc with innerCnt := svc.innerCnt + ret, meth := some ptr })

/-- The end of a name is cut off if it is `*`. -/
def dropStar (name : Str) : Str := if name.getLast? = some '*' then name.dropLast else name

/-- The body of the loop of `svchost_reg_event`; `none` if the entry is skipped. -/
def regEventTurn (bus : Str → Bool) (tmp : ServiceEvent) : Option ServiceEvent :=
  match tmp.name with
  | none => none
  | some name =>
    if !tmp.event || name.isEmpty || !bus name then none
    else some { tmp with name := some (dropStar name) }

/-- The loop of `svchost_reg_event`: `k`, and the table as it is left. -/
def regEventLoop (bus : Nat → Str → Bool) : Nat → Nat → List ServiceEvent → Nat × List ServiceEvent
  | _, k, [] => (k, [])
  | i, k, tmp :: ptr =>
    match regEventTurn (bus i) tmp with
    | none =>
      let r := regEventLoop bus (i + 1) k ptr
      (r.1, tmp :: r.2)
    | some tmp =>
      let r := regEventLoop bus (i + 1) (k + 1) ptr
      (r.1, tmp :: r.2)

/-- `svchost_reg_event`. -/
def svchostRegEvent (bus : Nat → Str → Bool) (svc : ApiService) (ptr : List ServiceEvent) :
    Int × ApiService :=
  if svc.event.isSome then (ptr.length, svc)
  else if hostServiceMethodMax ≤ svc.innerCnt + ptr.length then (-1, svc)
  else
    let r := regEventLoop bus 0 svc.innerCnt ptr
    if r.1 - svc.innerCnt ≠ ptr.length then (0, svc)
    else ((r.1 - svc.innerCnt : Nat), { svc with innerCnt := r.1, event := some r.2 })

/-- The handler that is called, with its index in the table. -/
inductive Handler
  | method (i : Nat)
  | event (i : Nat)
deriving Repr, DecidableEq

/-- The handler of an event that `svchost_meth_handle_hook` calls. -/
def eventHandler (svc : ApiService) (method : Str) : Option Nat :=
  svc.event.bind fun event => event.findIdx? fun e => e.name == some [] || e.name == some method

/-- `svchost_meth_handle_hook`: the handler that it calls. -/
def svchostMethHandleHook (svc : ApiService) (method : Str) : Option Handler :=
  match svc.meth.bind fun meth => meth.findIdx? fun m => m.name == some method with
  | some i => some (.method i)
  | none => (eventHandler svc method).map .event

/-- A call of one of the two functions. -/
inductive RegCall
  | method (ptr : List ServiceMethod)
  | event (bus : Nat → Str → Bool) (ptr : List ServiceEvent)

/-- A call and what it returns. -/
def ApiService.call (svc : ApiService) : RegCall → Int × ApiService
  | .method ptr => svchostRegMethod svc ptr
  | .event bus ptr => svchostRegEvent bus svc ptr

/-- A run. -/
def ApiService.run (svc : ApiService) (calls : List RegCall) : ApiService :=
  calls.foldl (fun svc c => (svc.call c).2) svc

/-! ## Statement -/

/-- The patterns in a table. -/
def patterns (ptr : List ServiceEvent) : List Str := ptr.filterMap ServiceEvent.name

/-- The pattern is the name, or it ends in `*` and what comes before begins the name. -/
def Matches (pattern name : Str) : Prop :=
  pattern = name ∨ ∃ stem, pattern = stem ++ ['*'] ∧ stem <+: name

/-- The patterns of the table that a call makes the table of the service. -/
def ApiService.registers (svc : ApiService) : RegCall → List Str
  | .method _ => []
  | .event bus ptr =>
    if svc.event.isNone && (svchostRegEvent bus svc ptr).2.event.isSome then patterns ptr else []

/-- The patterns that a run registers. -/
def ApiService.registered (svc : ApiService) : List RegCall → List Str
  | [] => []
  | c :: calls => svc.registers c ++ (svc.call c).2.registered calls

/-- The hook calls the handler of an event. -/
def Invoked (svc : ApiService) (name : Str) : Prop :=
  ∃ i, svchostMethHandleHook svc name = some (.event i)

/-- **How events are to be registered and dispatched**: after a run the hook calls a handler exactly
if a registered pattern matches the name, and a call in the run that does not register all its
patterns reports that. -/
structure EventsRight (calls : List RegCall) (name : Str) : Prop where
  dispatch : Invoked (newService.run calls) name ↔
    ∃ p ∈ newService.registered calls, Matches p name
  report : ∀ pre bus ptr post, calls = pre ++ .event bus ptr :: post →
    (∃ p ∈ patterns ptr, p ∉ newService.registered (pre ++ [.event bus ptr])) →
    ((newService.run pre).call (.event bus ptr)).1 ≠ ptr.length

/-- The service has a method of that name. -/
def ApiService.HasMethod (svc : ApiService) (name : Str) : Prop :=
  ∃ meth, svc.meth = some meth ∧ ∃ m ∈ meth, m.name = some name

/-- The pattern is `*`, the name without a `*` at its end, or the name with one behind it. -/
def Recognised (pattern name : Str) : Prop :=
  pattern = ['*'] ∨ (pattern = name ∧ name.getLast? ≠ some '*') ∨ pattern = name ++ ['*']

/-- **When they are**: no pattern matches, or the name is not that of a method and one of the
patterns is `*`, the name, or the name and `*`; and no table is registered after the first one,
unless all its patterns are registered already. -/
structure EventsHandled (calls : List RegCall) (name : Str) : Prop where
  dispatch : (∀ p ∈ newService.registered calls, ¬ Matches p name) ∨
    (¬ (newService.run calls).HasMethod name ∧
      ∃ p ∈ newService.registered calls, Recognised p name)
  report : ∀ pre bus ptr post, calls = pre ++ .event bus ptr :: post →
    (newService.run pre).event = none ∨ ∀ p ∈ patterns ptr, p ∈ newService.registered pre

/-! ## Patterns -/

theorem dropStar_concat (stem : Str) : dropStar (stem ++ ['*']) = stem := by
  simp [dropStar]

theorem dropStar_of_ne {name : Str} (h : name.getLast? ≠ some '*') : dropStar name = name := by
  rw [dropStar, if_neg h]

/-- What is left of a pattern is the name or empty exactly if the pattern recognises the name. -/
theorem recognised_iff {p name : Str} (hp : p ≠ []) :
    (dropStar p = [] ∨ dropStar p = name) ↔ Recognised p name := by
  by_cases hstar : p.getLast? = some '*'
  · obtain ⟨stem, rfl⟩ := List.getLast?_eq_some_iff.mp hstar
    rw [dropStar_concat]
    constructor
    · rintro (rfl | rfl)
      · exact .inl rfl
      · exact .inr (.inr rfl)
    · rintro (h | ⟨rfl, h⟩ | h)
      · exact .inl (List.append_cancel_right (h.trans (List.nil_append _).symm))
      · exact absurd hstar h
      · exact .inr (List.append_cancel_right h)
  · rw [dropStar_of_ne hstar]
    constructor
    · rintro (h | rfl)
      · exact absurd h hp
      · exact .inr (.inl ⟨rfl, hstar⟩)
    · rintro (rfl | ⟨rfl, -⟩ | rfl)
      · exact absurd rfl hstar
      · exact .inr rfl
      · exact absurd (by simp) hstar

theorem Recognised.matches {p name : Str} (h : Recognised p name) : Matches p name := by
  rcases h with rfl | ⟨rfl, -⟩ | rfl
  · exact .inr ⟨[], rfl, List.nil_prefix⟩
  · exact .inl rfl
  · exact .inr ⟨name, rfl, List.prefix_refl name⟩

/-! ## One registration -/

/-- An entry is skipped, or its pattern is not empty and loses the `*`. -/
theorem regEventTurn_cases (bus : Str → Bool) (tmp : ServiceEvent) :
    regEventTurn bus tmp = none ∨ ∃ p, p ≠ [] ∧ tmp.name = some p ∧
      regEventTurn bus tmp = some { tmp with name := some (dropStar p) } := by
  unfold regEventTurn
  cases hname : tmp.name with
  | none => exact .inl rfl
  | some p =>
    dsimp only
    split
    · exact .inl rfl
    · next h =>
      refine .inr ⟨p, ?_, rfl, rfl⟩
      rintro rfl
      simp at h

/-- The loop counts at most the entries, and all of them only if none was skipped. -/
theorem regEventLoop_cases (bus : Nat → Str → Bool) (ptr : List ServiceEvent) : ∀ i k,
    (k ≤ (regEventLoop bus i k ptr).1 ∧ (regEventLoop bus i k ptr).1 < k + ptr.length) ∨
      ((regEventLoop bus i k ptr).1 = k + ptr.length ∧ ∃ ps : List Str, (∀ p ∈ ps, p ≠ []) ∧
        ptr.map ServiceEvent.name = ps.map some ∧
        (regEventLoop bus i k ptr).2.map ServiceEvent.name = ps.map (some ∘ dropStar)) := by
  induction ptr with
  | nil => exact fun i k => .inr ⟨rfl, [], by simp, rfl, rfl⟩
  | cons tmp ptr ih =>
    intro i k
    rw [regEventLoop]
    rcases regEventTurn_cases (bus i) tmp with hturn | ⟨p, hp, hname, hturn⟩
    · rw [hturn]
      dsimp only
      rw [List.length_cons]
      rcases ih (i + 1) k with ⟨hle, hlt⟩ | ⟨heq, -⟩
      · exact .inl ⟨hle, by omega⟩
      · exact .inl ⟨by omega, by omega⟩
    · rw [hturn]
      dsimp only
      rw [List.length_cons]
      rcases ih (i + 1) (k + 1) with ⟨hle, hlt⟩ | ⟨heq, ps, hps, hold, hnew⟩
      · exact .inl ⟨by omega, by omega⟩
      · refine .inr ⟨by omega, p :: ps, ?_, ?_, ?_⟩
        · exact List.forall_mem_cons.mpr ⟨hp, hps⟩
        · rw [List.map_cons, List.map_cons, hname, hold]
        · rw [List.map_cons, List.map_cons, hnew]
          rfl

/-- The patterns of a table all of whose entries have a name. -/
theorem patterns_eq {ptr : List ServiceEvent} {ps : List Str}
    (h : ptr.map ServiceEvent.name = ps.map some) : patterns ptr = ps := by
  have hmap : patterns ptr = (ptr.map ServiceEvent.name).filterMap id := by
    rw [patterns, List.filterMap_map]
    rfl
  rw [hmap, h, List.filterMap_map]
  exact List.filterMap_some

/-- The table holds the given patterns without their `*`. -/
def Holds (event : List ServiceEvent) (ps : List Str) : Prop :=
  event.map ServiceEvent.name = ps.map (some ∘ dropStar) ∧ ∀ p ∈ ps, p ≠ []

/-- **One registration** of a service without a table: the whole table is taken over and its length
returned, or the service stays as it was and that is reported. -/
theorem svchostRegEvent_cases (bus : Nat → Str → Bool) {svc : ApiService} (h : svc.event = none)
    (ptr : List ServiceEvent) :
    ((svchostRegEvent bus svc ptr).1 = ptr.length ∧ ∃ event,
      (svchostRegEvent bus svc ptr).2.event = some event ∧ Holds event (patterns ptr)) ∨
    ((svchostRegEvent bus svc ptr).1 ≠ ptr.length ∧ (svchostRegEvent bus svc ptr).2 = svc) := by
  unfold svchostRegEvent
  rw [if_neg (by simp [h])]
  split
  · exact .inr ⟨by dsimp only; omega, rfl⟩
  dsimp only
  rcases regEventLoop_cases bus ptr 0 svc.innerCnt with ⟨hle, hlt⟩ | ⟨heq, ps, hps, hold, hnew⟩
  · rw [if_pos (by omega)]
    exact .inr ⟨by dsimp only; omega, rfl⟩
  · rw [if_neg (by omega), patterns_eq hold]
    refine .inl ⟨?_, _, rfl, hnew, hps⟩
    dsimp only
    omega

/-! ## Runs -/

theorem svchostRegMethod_event (svc : ApiService) (ptr : List ServiceMethod) :
    (svchostRegMethod svc ptr).2.event = svc.event := by
  unfold svchostRegMethod
  split
  · rfl
  split
  · rfl
  dsimp only
  split
  · rfl
  · rfl

/-- A table is not replaced. -/
theorem call_of_event {svc : ApiService} {event : List ServiceEvent} (h : svc.event = some event)
    (c : RegCall) : (svc.call c).2.event = some event ∧ svc.registers c = [] := by
  cases c with
  | method ptr => exact ⟨(svchostRegMethod_event svc ptr).trans h, rfl⟩
  | event bus ptr =>
    have hcall : (svchostRegEvent bus svc ptr).2 = svc := by
      rw [svchostRegEvent, if_pos (by simp [h])]
    refine ⟨(congrArg ApiService.event hcall).trans h, ?_⟩
    simp [ApiService.registers, h]

/-- What a call does to a service without a table. -/
theorem call_of_none {svc : ApiService} (h : svc.event = none) (c : RegCall) :
    ((svc.call c).2.event = none ∧ svc.registers c = []) ∨
      ∃ event, (svc.call c).2.event = some event ∧ Holds event (svc.registers c) := by
  cases c with
  | method ptr => exact .inl ⟨(svchostRegMethod_event svc ptr).trans h, rfl⟩
  | event bus ptr =>
    rcases svchostRegEvent_cases bus h ptr with ⟨-, event, hevent, hholds⟩ | ⟨-, hsame⟩
    · refine .inr ⟨event, hevent, ?_⟩
      rw [ApiService.registers, if_pos (by simp [h, hevent])]
      exact hholds
    · have hnone : (svchostRegEvent bus svc ptr).2.event = none := by rw [hsame, h]
      refine .inl ⟨hnone, ?_⟩
      rw [ApiService.registers, if_neg (by simp [hnone])]

theorem run_of_event (calls : List RegCall) : ∀ {svc : ApiService} {event : List ServiceEvent},
    svc.event = some event → (svc.run calls).event = some event ∧ svc.registered calls = [] := by
  induction calls with
  | nil => exact fun h => ⟨h, rfl⟩
  | cons c calls ih =>
    intro svc event h
    obtain ⟨hevent, hregs⟩ := call_of_event h c
    obtain ⟨hrun, hregs'⟩ := ih hevent
    exact ⟨hrun, by rw [ApiService.registered, hregs, hregs', List.nil_append]⟩

/-- **The invariant of a run**: the service has no table and nothing is registered, or its table
holds what is registered. -/
theorem run_of_none (calls : List RegCall) : ∀ {svc : ApiService}, svc.event = none →
    ((svc.run calls).event = none ∧ svc.registered calls = []) ∨
      ∃ event, (svc.run calls).event = some event ∧ Holds event (svc.registered calls) := by
  induction calls with
  | nil => exact fun h => .inl ⟨h, rfl⟩
  | cons c calls ih =>
    intro svc h
    rw [ApiService.registered]
    rcases call_of_none h c with ⟨hnone, hregs⟩ | ⟨event, hevent, hholds⟩
    · rw [hregs, List.nil_append]
      exact ih hnone
    · obtain ⟨hrun, hregs⟩ := run_of_event calls hevent
      rw [hregs, List.append_nil]
      exact .inr ⟨event, hrun, hholds⟩

theorem registered_append (calls : List RegCall) : ∀ (svc : ApiService) (calls' : List RegCall),
    svc.registered (calls ++ calls') =
      svc.registered calls ++ (svc.run calls).registered calls' := by
  induction calls with
  | nil => exact fun _ _ => rfl
  | cons c calls ih =>
    intro svc calls'
    rw [List.cons_append, ApiService.registered, ih, ApiService.registered, List.append_assoc]
    rfl

/-! ## The hook -/

theorem eventHandler_isSome_iff {svc : ApiService} {name : Str} :
    (eventHandler svc name).isSome = true ↔ ∃ event, svc.event = some event ∧
      ∃ e ∈ event, e.name = some [] ∨ e.name = some name := by
  unfold eventHandler
  cases svc.event with
  | none => simp
  | some event => simp [List.findIdx?_isSome]

theorem hasMethod_iff {svc : ApiService} {name : Str} : svc.HasMethod name ↔
    (svc.meth.bind fun meth => meth.findIdx? fun m => m.name == some name).isSome = true := by
  unfold ApiService.HasMethod
  cases svc.meth with
  | none => simp
  | some meth => simp [List.findIdx?_isSome]

/-- The hook calls an event handler exactly if the name is not that of a method and the table has
the name or an empty one. -/
theorem invoked_iff {svc : ApiService} {name : Str} : Invoked svc name ↔
    ¬ svc.HasMethod name ∧ ∃ event, svc.event = some event ∧
      ∃ e ∈ event, e.name = some [] ∨ e.name = some name := by
  rw [← eventHandler_isSome_iff, hasMethod_iff, Invoked, svchostMethHandleHook]
  cases svc.meth.bind fun meth => meth.findIdx? fun m => m.name == some name with
  | some i => simp
  | none =>
    cases eventHandler svc name with
    | none => simp
    | some i => simp

/-- **The hook after a run**: it calls an event handler exactly if the name is not that of a method
and a registered pattern recognises it. -/
theorem invoked_run_iff (calls : List RegCall) (name : Str) :
    Invoked (newService.run calls) name ↔ ¬ (newService.run calls).HasMethod name ∧
      ∃ p ∈ newService.registered calls, Recognised p name := by
  rw [invoked_iff]
  refine and_congr_right fun _ => ?_
  rcases @run_of_none calls newService rfl with ⟨hnone, hregs⟩ |
    ⟨event, hevent, hmap, hps⟩
  · rw [hnone, hregs]
    simp
  · have hmem : ∀ n, (∃ e ∈ event, e.name = some n) ↔
        ∃ p ∈ newService.registered calls, dropStar p = n := by
      intro n
      rw [← List.mem_map, hmap, List.mem_map]
      simp
    constructor
    · rintro ⟨event', hevent', e, he, h⟩
      obtain rfl : event = event' := Option.some.inj (hevent.symm.trans hevent')
      rcases h with h | h
      · obtain ⟨p, hp, hdrop⟩ := (hmem []).mp ⟨e, he, h⟩
        exact ⟨p, hp, (recognised_iff (hps p hp)).mp (.inl hdrop)⟩
      · obtain ⟨p, hp, hdrop⟩ := (hmem name).mp ⟨e, he, h⟩
        exact ⟨p, hp, (recognised_iff (hps p hp)).mp (.inr hdrop)⟩
    · rintro ⟨p, hp, hrec⟩
      rcases (recognised_iff (hps p hp)).mpr hrec with hdrop | hdrop
      · obtain ⟨e, he, h⟩ := (hmem []).mpr ⟨p, hp, hdrop⟩
        exact ⟨event, hevent, e, he, .inl h⟩
      · obtain ⟨e, he, h⟩ := (hmem name).mpr ⟨p, hp, hdrop⟩
        exact ⟨event, hevent, e, he, .inr h⟩

/-! ## When events are registered and dispatched as they should -/

theorem dispatch_iff (calls : List RegCall) (name : Str) :
    (Invoked (newService.run calls) name ↔ ∃ p ∈ newService.registered calls, Matches p name) ↔
      ((∀ p ∈ newService.registered calls, ¬ Matches p name) ∨
        (¬ (newService.run calls).HasMethod name ∧
          ∃ p ∈ newService.registered calls, Recognised p name)) := by
  rw [invoked_run_iff]
  constructor
  · intro h
    by_cases hmatch : ∃ p ∈ newService.registered calls, Matches p name
    · exact .inr (h.mpr hmatch)
    · exact .inl fun p hp hm => hmatch ⟨p, hp, hm⟩
  · rintro (hnone | ⟨hmeth, p, hp, hrec⟩)
    · constructor
      · rintro ⟨-, p, hp, hrec⟩
        exact absurd hrec.matches (hnone p hp)
      · rintro ⟨p, hp, hm⟩
        exact absurd hm (hnone p hp)
    · exact ⟨fun _ => ⟨p, hp, hrec.matches⟩, fun _ => ⟨hmeth, p, hp, hrec⟩⟩

/-- A call reports what it does not register, exactly if the service has no table yet or what is
asked for is registered already. -/
theorem report_iff (pre : List RegCall) (bus : Nat → Str → Bool) (ptr : List ServiceEvent) :
    ((∃ p ∈ patterns ptr, p ∉ newService.registered (pre ++ [.event bus ptr])) →
        ((newService.run pre).call (.event bus ptr)).1 ≠ ptr.length) ↔
      ((newService.run pre).event = none ∨
        ∀ p ∈ patterns ptr, p ∈ newService.registered pre) := by
  have hregs : newService.registered (pre ++ [.event bus ptr]) =
      newService.registered pre ++ (newService.run pre).registers (.event bus ptr) := by
    rw [registered_append, ApiService.registered, ApiService.registered, List.append_nil]
  rw [hregs]
  cases hevent : (newService.run pre).event with
  | none =>
    refine ⟨fun _ => .inl rfl, fun _ => ?_⟩
    rintro ⟨p, hp, hnot⟩
    rcases svchostRegEvent_cases bus hevent ptr with ⟨-, event, hsome, -⟩ | ⟨hne, -⟩
    · rw [ApiService.registers, if_pos (by simp [hevent, hsome])] at hnot
      exact absurd (List.mem_append_right _ hp) hnot
    · exact hne
  | some event =>
    have hret : ((newService.run pre).call (.event bus ptr)).1 = ptr.length := by
      rw [ApiService.call, svchostRegEvent, if_pos (by simp [hevent])]
    rw [(call_of_event hevent _).2, List.append_nil]
    constructor
    · intro h
      refine .inr fun p hp => ?_
      by_contra hnot
      exact h ⟨p, hp, hnot⟩ hret
    · rintro (h | h) ⟨p, hp, hnot⟩
      · exact absurd h (by simp)
      · exact absurd (h p hp) hnot

/-- **Events are registered and dispatched as they should, exactly if** no pattern matches or one
recognises a name that no method has, and no new pattern comes after the first table. -/
theorem eventsRight_iff (calls : List RegCall) (name : Str) :
    EventsRight calls name ↔ EventsHandled calls name := by
  constructor
  · rintro ⟨hdispatch, hreport⟩
    exact ⟨(dispatch_iff calls name).mp hdispatch, fun pre bus ptr post h =>
      (report_iff pre bus ptr).mp (hreport pre bus ptr post h)⟩
  · rintro ⟨hdispatch, hreport⟩
    exact ⟨(dispatch_iff calls name).mpr hdispatch, fun pre bus ptr post h =>
      (report_iff pre bus ptr).mpr (hreport pre bus ptr post h)⟩

/-- A run that registers one prefix. -/
def wanEvents : List RegCall :=
  [.event (fun _ _ => true) [{ name := some "wan.*".toList, event := true }]]

/-- The prefix matches, but the event has no handler. -/
theorem not_eventsRight : ¬ ∀ (calls : List RegCall) (name : Str), EventsRight calls name := by
  intro h
  have hmem : "wan.*".toList ∈ newService.registered wanEvents := by decide
  have hmatch : Matches "wan.*".toList "wan.internal".toList :=
    .inr ⟨"wan.".toList, rfl, by decide⟩
  obtain ⟨i, hi⟩ := (h wanEvents "wan.internal".toList).dispatch.mpr ⟨_, hmem, hmatch⟩
  have hnone : svchostMethHandleHook (newService.run wanEvents) "wan.internal".toList = none := by
    decide
  exact absurd (hi.symm.trans hnone) (by simp)

end OnuFirmware.Svchost
