import OnuFirmware.Svchost.Loop

/-!
# The registry of the service host

`nsvc` is to be the number of registered services, to go down only for services that it counts, and
no loop is to read the `next` field of a service that was freed. Both loops that unload read
`svc->next` after `svchost_unload_svc` freed `svc`, so this holds of a run exactly as long as no
service is unloaded (`registryOk_iff`).
-/

namespace OnuFirmware.Svchost

open Lib Clib

/-! ## Statement -/

/-- The service at an address is registered. -/
def HostRunEnv.isReg (env : HostRunEnv) (a : Nat) : Bool := (env.mem a).any HostService.registered

/-- The list of services is `l`, `nsvc` is the number of registered ones among them, and it was
never decremented for another. -/
structure Registry (env : HostRunEnv) (l : List Nat) : Prop where
  chain : env.mem.Chain HostService.next env.svc l
  count : env.nsvc = l.countP env.isReg
  counted : env.uncounted = false

/-- **The invariant of the registry over a run**: no read of a freed service, and `Registry` in
every state. -/
def RegistryOk (uloop : Bool) (confs : List SvcConf) (turns : List (List Nat)) (shutdown : Bool) :
    Prop :=
  ∃ states, svchostRun uloop confs turns shutdown = .ok states ∧ ∀ env ∈ states, ∃ l, Registry env l

/-- The library of a service can be loaded and its interface is complete, and the bus accepts it. -/
def SvcConf.usable (conf : SvcConf) : Bool :=
  conf.addOk && conf.lib.any fun intf => intf.start && intf.stop && intf.id != 0

/-- All services of a configuration can be registered: each is usable, and no two have the same
id. -/
def Registrable (confs : List SvcConf) : Prop :=
  (∀ conf ∈ confs, conf.usable) ∧ (confs.map fun conf => conf.lib.map Intf.id).Nodup

/-- The host gets to its polling loop. -/
def Started (uloop : Bool) (confs : List SvcConf) : Prop := uloop = true ∧ Registrable confs

/-! ## Initialisation -/

theorem read_of_chain {env : HostRunEnv} {p : Option Nat} {a : Nat} {l : List Nat}
    (h : env.mem.Chain HostService.next p (a :: l)) :
    ∃ s, env.read a = .ok s ∧ env.mem a = some s ∧ p = some a ∧
      env.mem.Chain HostService.next s.next l := by
  obtain ⟨hp, s, hs, hc⟩ := h
  exact ⟨s, by rw [HostRunEnv.read, hs], hs, hp, hc⟩

/-- The service at an address has an interface with the given id. -/
def HostRunEnv.hasId (env : HostRunEnv) (id a : Nat) : Bool :=
  (env.mem a).any fun s => s.intf.any fun i => i.id == id

theorem svchostCheckSvcLoop_eq {env : HostRunEnv} {svc id : Nat} : ∀ {l : List Nat} {fuel : Nat}
    {p : Option Nat}, env.mem.Chain HostService.next p l → l.length < fuel →
    svchostCheckSvcLoop env svc id fuel p = .ok (l.all fun a => a == svc || !env.hasId id a)
  | _, 0, _, _, hf => absurd hf (Nat.not_lt_zero _)
  | [], fuel + 1, p, h, _ => by
    rw [Heap.Chain] at h
    rw [h]
    rfl
  | a :: l, fuel + 1, p, h, hf => by
    obtain ⟨s, hr, hs, rfl, hc⟩ := read_of_chain h
    have hid : env.hasId id a = s.intf.any fun i => i.id == id := by
      rw [HostRunEnv.hasId, hs]
      rfl
    simp only [svchostCheckSvcLoop, hr, bind, Except.bind, List.all_cons, hid]
    rw [svchostCheckSvcLoop_eq hc (by simpa using hf)]
    by_cases ha : a = svc
    · simp [ha]
    · cases s.intf.any fun i => i.id == id <;> simp [ha]

/-- `svchost_check_svc` on a list of services. -/
theorem svchostCheckSvc_eq {env : HostRunEnv} {l : List Nat} {fuel : Nat} (svc : Nat) (intf : Intf)
    (h : env.mem.Chain HostService.next env.svc l) (hf : l.length < fuel) :
    svchostCheckSvc env fuel svc intf = .ok ((intf.start && intf.stop && intf.id != 0) &&
      l.all fun a => a == svc || !env.hasId intf.id a) := by
  rw [svchostCheckSvc, svchostCheckSvcLoop_eq h hf]
  cases intf.start <;> cases intf.stop <;> cases hid : intf.id == 0 <;> simp [hid, bne]

theorem countP_insert {p q : Nat → Bool} {a : Nat} (ha : p a = false) : ∀ {l : List Nat},
    (∀ x ∈ l, q x = (p x || x == a)) → l.countP q = l.countP p + l.count a
  | [], _ => rfl
  | x :: l, h => by
    have hx := h x List.mem_cons_self
    rw [List.countP_cons, List.countP_cons, List.count_cons,
      countP_insert ha fun y hy => h y (List.mem_cons_of_mem x hy), hx]
    by_cases hxa : x = a
    · subst hxa
      simp [ha]
      omega
    · have : (x == a) = false := by simpa using hxa
      simp [this]
      omega

/-- A state in which services are being registered: the list is complete, no service outside it
exists, and none is marked for unloading. -/
structure Running (env : HostRunEnv) (l : List Nat) : Prop where
  registry : Registry env l
  nodup : l.Nodup
  listed : ∀ a s, env.mem a = some s → a ∈ l ∧ s.reqUnload = false

/-- Rewriting a service of the list, without its link and its mark. -/
theorem running_write {env : HostRunEnv} {l : List Nat} (h : Running env l) {a : Nat}
    {s : HostService} (s' : HostService) (nsvc : Int) (hs : env.mem a = some s)
    (hnext : s'.next = s.next) (hreq : s'.reqUnload = false)
    (hcount : nsvc = l.countP (env.write a s').isReg) :
    Running { env.write a s' with nsvc := nsvc } l := by
  refine ⟨⟨?_, hcount, h.registry.counted⟩, h.nodup, ?_⟩
  · refine h.registry.chain.congr fun b _ => ?_
    by_cases hb : b = a
    · subst hb
      simp [HostRunEnv.write, hs, hnext]
    · simp only [HostRunEnv.write, Heap.set_ne _ _ hb]
  · intro b x hx
    by_cases hb : b = a
    · subst hb
      simp only [HostRunEnv.write, Heap.set_self, Option.some.injEq] at hx
      exact ⟨(h.listed b s hs).1, by rw [← hx]; exact hreq⟩
    · simp only [HostRunEnv.write, Heap.set_ne _ _ hb] at hx
      exact h.listed b x hx

theorem isReg_write_same {env : HostRunEnv} {a : Nat} {s : HostService} (s' : HostService)
    (hs : env.mem a = some s) (hreg : s'.registered = s.registered) :
    (env.write a s').isReg = env.isReg := by
  funext b
  by_cases hb : b = a
  · subst hb
    simp [HostRunEnv.isReg, HostRunEnv.write, hs, hreg]
  · simp only [HostRunEnv.isReg, HostRunEnv.write, Heap.set_ne _ _ hb]

/-- Registering a service and counting it. -/
theorem running_register {env : HostRunEnv} {l : List Nat} (h : Running env l) {a : Nat}
    {s : HostService} (hs : env.mem a = some s) (hreg : s.registered = false) :
    Running { env.write a { s with registered := true } with nsvc := env.nsvc + 1 } l := by
  obtain ⟨ha, hreq⟩ := h.listed a s hs
  refine running_write h { s with registered := true } _ hs rfl hreq ?_
  have hcount : l.countP (env.write a { s with registered := true }).isReg
      = l.countP env.isReg + l.count a := by
    refine countP_insert (by simp [HostRunEnv.isReg, hs, hreg]) fun x _ => ?_
    by_cases hx : x = a
    · subst hx
      simp [HostRunEnv.isReg, HostRunEnv.write]
    · have : (x == a) = false := by simpa using hx
      simp [HostRunEnv.isReg, HostRunEnv.write, Heap.set_ne _ _ hx, this]
  rw [hcount, List.count_eq_one_of_mem h.nodup ha, h.registry.count]
  rfl

/-- Initialising one service that is not registered yet keeps the registry. It succeeds if the
service is usable and its id is new. -/
theorem svchostInitSvc_ok {env : HostRunEnv} {l : List Nat} (h : Running env l)
    (fuel : Nat) {a : Nat} (hf : l.length < fuel) {s : HostService} (hs : env.mem a = some s)
    (hreg : s.registered = false) :
    ∃ b env', svchostInitSvc env fuel a = .ok (b, env') ∧ Running env' l ∧
      (∀ x, x ≠ a → env'.mem x = env.mem x) ∧
      (∃ s', env'.mem a = some s' ∧ s'.next = s.next ∧ s'.conf = s.conf ∧
        (b = true → s'.registered = true ∧ s'.intf = s.conf.lib)) ∧
      (b = true ↔ s.conf.usable ∧ ∀ intf, s.conf.lib = some intf → ∀ x ∈ l, x ≠ a →
        env.hasId intf.id x = false) := by
  simp only [svchostInitSvc, HostRunEnv.read, hs, bind, Except.bind]
  split
  · next hlib =>
    exact ⟨_, _, rfl, h, fun _ _ => rfl, ⟨s, hs, rfl, rfl, by simp⟩, by simp [SvcConf.usable, hlib]⟩
  next intf hlib =>
  obtain ⟨-, hreq⟩ := h.listed a s hs
  have hload : Running (env.write a { s with intf := some intf }) l := by
    have hsame := isReg_write_same { s with intf := some intf } hs rfl
    refine running_write h { s with intf := some intf } env.nsvc hs rfl hreq ?_
    rw [hsame]
    exact h.registry.count
  have hs1 : (env.write a { s with intf := some intf }).mem a = some { s with intf := some intf } :=
    Heap.set_self _ _ _
  have hnew : (l.all fun x => x == a || !(env.write a { s with intf := some intf }).hasId intf.id x)
      = true ↔ ∀ x ∈ l, x ≠ a → env.hasId intf.id x = false := by
    rw [List.all_eq_true]
    refine forall₂_congr fun x _ => ?_
    by_cases hx : x = a
    · simp [hx]
    · simp [hx, HostRunEnv.hasId, HostRunEnv.write, Heap.set_ne _ _ hx]
  have hvalue : ∀ b, ((intf.start && intf.stop && intf.id != 0) && b && s.conf.addOk) = true ↔
      s.conf.usable ∧ b = true := by
    intro b
    simp only [SvcConf.usable, hlib, Option.any_some, Bool.and_eq_true]
    tauto
  simp only [svchostCheckSvc_eq a intf hload.registry.chain hf]
  split
  · next hb =>
    rw [hvalue, hnew] at hb
    refine ⟨_, _, rfl, running_register hload hs1 hreg, fun x hx => ?_,
      ⟨_, Heap.set_self _ _ _, rfl, rfl, fun _ => ⟨rfl, hlib.symm⟩⟩, ?_⟩
    · show ((env.mem.set a _).set a _) x = env.mem x
      rw [Heap.set_ne _ _ hx, Heap.set_ne _ _ hx]
    · simpa [hlib] using hb
  · next hb =>
    rw [hvalue, hnew] at hb
    refine ⟨_, _, rfl, hload, fun x hx => Heap.set_ne _ _ hx, ⟨_, hs1, rfl, rfl, by simp⟩, ?_⟩
    simpa [hlib] using hb

/-- Initialising the services from a pointer into the list on. -/
theorem svchostInitLib_ok {l : List Nat} (bound : Nat) (hbound : l.length < bound) :
    ∀ {rest : List Nat} (fuel : Nat) {p : Option Nat} {env : HostRunEnv}, Running env l →
    rest.Nodup → env.mem.Chain HostService.next p rest → rest.length < fuel →
    (∀ a ∈ rest, env.isReg a = false) →
    ∃ r, svchostInitLib bound fuel p env = .ok r ∧ Running r.env l ∧
      (∀ env' ∈ r.states, Running env' l) ∧ (∀ x, x ∉ rest → r.env.mem x = env.mem x) ∧
      (r.val = true → ∀ a ∈ rest, r.env.isReg a = true)
  | _, 0, _, _, _, _, _, hf, _ => absurd hf (Nat.not_lt_zero _)
  | [], fuel + 1, p, env, h, _, hc, _, _ => by
    rw [Heap.Chain] at hc
    subst hc
    exact ⟨_, rfl, h, by simp, fun _ _ => rfl, by simp⟩
  | a :: rest, fuel + 1, p, env, h, hn, hc, hf, hreg => by
    obtain ⟨s, -, hs, rfl, hrest⟩ := read_of_chain hc
    obtain ⟨han, hn⟩ := List.nodup_cons.mp hn
    have hsreg : s.registered = false := by
      simpa [HostRunEnv.isReg, hs] using hreg a List.mem_cons_self
    obtain ⟨b, env', hinit, h', hframe, ⟨s', hs', hnext, -, hb⟩, -⟩ :=
      svchostInitSvc_ok h bound hbound hs hsreg
    simp only [svchostInitLib, hinit, bind, Except.bind]
    cases b with
    | false =>
      refine ⟨_, rfl, h', by simpa using h', fun x hx => hframe x ?_, by simp⟩
      rintro rfl
      exact hx List.mem_cons_self
    | true =>
      have hne : ∀ x ∈ rest, x ≠ a := fun x hx he => han (he ▸ hx)
      have hc' : env'.mem.Chain HostService.next s'.next rest := by
        rw [hnext]
        exact hrest.congr fun x hx => by rw [hframe x (hne x hx)]
      have hreg' : ∀ x ∈ rest, env'.isReg x = false := fun x hx => by
        rw [HostRunEnv.isReg, hframe x (hne x hx)]
        exact hreg x (List.mem_cons_of_mem a hx)
      obtain ⟨r, hr, hrun, hstates, hrframe, hall⟩ :=
        svchostInitLib_ok bound hbound fuel h' hn hc' (by simpa using hf) hreg'
      simp only [HostRunEnv.read, hs', hr, if_true]
      refine ⟨_, rfl, hrun, ?_, ?_, ?_⟩
      · simpa using ⟨h', hstates⟩
      · intro x hx
        obtain ⟨hxa, hxr⟩ := not_or.mp (fun hc => hx (List.mem_cons.mpr hc))
        rw [← hframe x hxa]
        exact hrframe x hxr
      · intro hv x hx
        rcases List.mem_cons.mp hx with rfl | hx
        · simp only [HostRunEnv.isReg]
          rw [hrframe x han, hs']
          simpa using (hb rfl).1
        · exact hall hv x hx

/-! ## Unloading -/

theorem svchostFindPrev_ok (env : HostRunEnv) {svc : Nat} : ∀ {l : List Nat} {fuel a : Nat},
    env.mem.Chain HostService.next (some a) (a :: l) → svc ∈ l → l.length < fuel →
    ∃ r, svchostFindPrev env svc fuel a = .ok r ∧ r.2.next = some svc
  | _, 0, _, _, _, hf => absurd hf (Nat.not_lt_zero _)
  | [], _ + 1, _, _, hs, _ => absurd hs List.not_mem_nil
  | b :: l, fuel + 1, a, h, hs, hf => by
    obtain ⟨s, hr, -, -, hc⟩ := read_of_chain h
    have hnext : s.next = some b := hc.1
    simp only [svchostFindPrev, hr, hnext, bind, Except.bind]
    by_cases hb : b = svc
    · rw [if_pos hb]
      exact ⟨_, rfl, by rw [hnext, hb]⟩
    · rw [if_neg hb]
      rw [hnext] at hc
      rcases List.mem_cons.mp hs with rfl | hs
      · exact absurd rfl hb
      · exact svchostFindPrev_ok env hc hs (by simpa using hf)

/-- A service of the list that is unloaded is freed. -/
theorem svchostUnloadSvc_freed {env : HostRunEnv} {l : List Nat} {fuel a : Nat}
    (hc : env.mem.Chain HostService.next env.svc l) (ha : a ∈ l) (hf : l.length < fuel) :
    ∃ env', svchostUnloadSvc env fuel a = .ok env' ∧ env'.mem a = none := by
  obtain ⟨s, hs⟩ := hc.mem_some a ha
  cases l with
  | nil => exact absurd ha List.not_mem_nil
  | cons b l =>
    have hsvc : env.svc = some b := hc.1
    simp only [svchostUnloadSvc, svchostFreeSvc, HostRunEnv.read, hs, hsvc, bind, Except.bind]
    by_cases hb : b = a
    · rw [if_pos hb]
      exact ⟨_, rfl, Heap.free_self _ _⟩
    · rw [if_neg hb]
      rw [hsvc] at hc
      have hal : a ∈ l := (List.mem_cons.mp ha).resolve_left fun he => hb he.symm
      obtain ⟨r, hr, hnext⟩ := svchostFindPrev_ok
        { env with svc := some b, nsvc := _, uncounted := _ } hc hal
        (by simpa using Nat.lt_of_succ_lt hf)
      rw [hr]
      simp only [hnext, if_true]
      exact ⟨_, rfl, Heap.free_self _ _⟩

/-- Without a marked service `svchost_check_unload` changes nothing. -/
theorem svchostCheckUnload_unmarked (bound : Nat) {env : HostRunEnv} : ∀ {rest : List Nat}
    {fuel : Nat} {p : Option Nat}, env.mem.Chain HostService.next p rest → rest.length < fuel →
    (∀ a s, env.mem a = some s → s.reqUnload = false) →
    svchostCheckUnload bound fuel p env = .ok env
  | _, 0, _, _, hf, _ => absurd hf (Nat.not_lt_zero _)
  | [], fuel + 1, p, hc, _, _ => by
    rw [Heap.Chain] at hc
    rw [hc]
    rfl
  | a :: rest, fuel + 1, p, hc, hf, hmark => by
    obtain ⟨s, hr, hs, rfl, hrest⟩ := read_of_chain hc
    simp only [svchostCheckUnload, hr, hmark a s hs, bind, Except.bind]
    exact svchostCheckUnload_unmarked bound hrest (by simpa using hf) hmark

/-- With a marked service it reads that service after it was freed. -/
theorem svchostCheckUnload_marked {bound : Nat} {env : HostRunEnv} {l : List Nat}
    (hl : env.mem.Chain HostService.next env.svc l) (hbound : l.length < bound) :
    ∀ {rest : List Nat} (fuel : Nat) {p : Option Nat}, env.mem.Chain HostService.next p rest →
    (∀ a ∈ rest, a ∈ l) → (∃ a ∈ rest, ∃ s, env.mem a = some s ∧ s.reqUnload = true) →
    svchostCheckUnload bound fuel p env = .error .dangling
  | _, 0, _, _, _, _ => rfl
  | [], _ + 1, _, _, _, h => by
    obtain ⟨a, ha, -⟩ := h
    exact absurd ha List.not_mem_nil
  | a :: rest, fuel + 1, p, hc, hsub, hmark => by
    obtain ⟨s, hr, hs, rfl, hrest⟩ := read_of_chain hc
    simp only [svchostCheckUnload, hr, bind, Except.bind]
    by_cases hreq : s.reqUnload = true
    · obtain ⟨env', henv', hfree⟩ :=
        svchostUnloadSvc_freed hl (hsub a List.mem_cons_self) hbound
      simp [hreq, henv', HostRunEnv.read, hfree]
    · rw [if_neg hreq]
      refine svchostCheckUnload_marked hl hbound fuel hrest
        (fun b hb => hsub b (List.mem_cons_of_mem a hb)) ?_
      obtain ⟨b, hb, t, ht, htr⟩ := hmark
      rcases List.mem_cons.mp hb with rfl | hb
      · obtain rfl : s = t := Option.some.inj (hs.symm.trans ht)
        exact absurd htr hreq
      · exact ⟨b, hb, t, ht, htr⟩

/-- `svchost_deinit_lib` on a list that is not empty reads its first service after it was freed. -/
theorem svchostDeinitLib_dangling {bound fuel a : Nat} {env : HostRunEnv} {l : List Nat}
    (hl : env.mem.Chain HostService.next env.svc (a :: l)) (hbound : (a :: l).length < bound) :
    svchostDeinitLib bound fuel env.svc env = .error .dangling := by
  obtain ⟨env', henv', hfree⟩ := svchostUnloadSvc_freed hl List.mem_cons_self hbound
  rw [show env.svc = some a from hl.1]
  cases fuel with
  | zero => rfl
  | succ fuel => simp [svchostDeinitLib, henv', bind, Except.bind, HostRunEnv.read, hfree]

/-! ## Turns -/

theorem ubusLoopPoll_none {env : HostRunEnv} : ∀ {reqs : List Nat},
    (∀ a ∈ reqs, env.mem a = none) → ubusLoopPoll env reqs = env
  | [], _ => rfl
  | a :: reqs, h => by
    rw [ubusLoopPoll, h a List.mem_cons_self]
    exact ubusLoopPoll_none fun b hb => h b (List.mem_cons_of_mem a hb)

/-- Messages only mark services. -/
theorem ubusLoopPoll_links : ∀ (reqs : List Nat) (env : HostRunEnv),
    (ubusLoopPoll env reqs).svc = env.svc ∧
      ∀ x, ((ubusLoopPoll env reqs).mem x).map (fun s => (s.next, s.registered))
        = (env.mem x).map fun s => (s.next, s.registered)
  | [], _ => ⟨rfl, fun _ => rfl⟩
  | a :: reqs, env => by
    rw [ubusLoopPoll]
    split
    · next s hs =>
      split
      · obtain ⟨h1, h2⟩ := ubusLoopPoll_links reqs (env.write a { s with reqUnload := true })
        refine ⟨h1, fun x => ?_⟩
        rw [h2 x]
        by_cases hx : x = a
        · subst hx
          simp [HostRunEnv.write, hs]
        · simp only [HostRunEnv.write, Heap.set_ne _ _ hx]
      · exact ubusLoopPoll_links reqs env
    · exact ubusLoopPoll_links reqs env

/-- A mark stays. -/
theorem ubusLoopPoll_keeps : ∀ (reqs : List Nat) (env : HostRunEnv) (a : Nat),
    (∃ s, env.mem a = some s ∧ s.reqUnload = true) →
    ∃ s, (ubusLoopPoll env reqs).mem a = some s ∧ s.reqUnload = true
  | [], _, _, h => h
  | b :: reqs, env, a, h => by
    rw [ubusLoopPoll]
    split
    · next s hs =>
      split
      · refine ubusLoopPoll_keeps reqs _ a ?_
        by_cases ha : a = b
        · subst ha
          exact ⟨_, Heap.set_self _ _ _, rfl⟩
        · obtain ⟨t, ht, htr⟩ := h
          exact ⟨t, (Heap.set_ne _ _ ha).trans ht, htr⟩
      · exact ubusLoopPoll_keeps reqs env a h
    · exact ubusLoopPoll_keeps reqs env a h

theorem exists_of_isReg {env : HostRunEnv} {a : Nat} (h : env.isReg a = true) :
    ∃ s, env.mem a = some s ∧ s.registered = true := by
  cases hs : env.mem a with
  | none => simp [HostRunEnv.isReg, hs] at h
  | some s => exact ⟨s, rfl, by simpa [HostRunEnv.isReg, hs] using h⟩

/-- A registered service that gets a message is marked. -/
theorem ubusLoopPoll_marks : ∀ (reqs : List Nat) (env : HostRunEnv) (a : Nat), a ∈ reqs →
    env.isReg a = true → ∃ s, (ubusLoopPoll env reqs).mem a = some s ∧ s.reqUnload = true
  | b :: reqs, env, a, ha, hreg => by
    rw [ubusLoopPoll]
    obtain ⟨s, hs, hsreg⟩ := exists_of_isReg hreg
    rcases List.mem_cons.mp ha with rfl | ha
    · simp only [hs, hsreg, if_true]
      exact ubusLoopPoll_keeps reqs _ a ⟨_, Heap.set_self _ _ _, rfl⟩
    · split
      · next t ht =>
        split
        · refine ubusLoopPoll_marks reqs _ a ha ?_
          rw [isReg_write_same { t with reqUnload := true } ht rfl]
          exact hreg
        · exact ubusLoopPoll_marks reqs env a ha hreg
      · exact ubusLoopPoll_marks reqs env a ha hreg

/-! ## Runs -/

theorem chain_services (confs : List SvcConf) : ∀ {m k : Nat}, k + m = confs.length →
    (services confs).Chain HostService.next (if k < confs.length then some k else none)
      (List.range' k m)
  | 0, k, h => by
    rw [if_neg (by omega)]
    rfl
  | m + 1, k, h => by
    rw [if_pos (by omega), List.range'_succ]
    have hk : k < confs.length := by omega
    refine ⟨rfl, { conf := confs[k], next := if k + 1 < confs.length then some (k + 1) else none },
      ?_, chain_services confs (by omega)⟩
    rw [services, List.getElem?_eq_getElem hk]
    rfl

/-- At the start no service is registered. -/
theorem running_hostEnv (confs : List SvcConf) :
    Running (hostEnv confs) (List.range' 0 confs.length) := by
  have hreg : ∀ a, (hostEnv confs).isReg a = false := by
    intro a
    simp only [HostRunEnv.isReg, hostEnv, services]
    cases confs[a]? <;> rfl
  refine ⟨⟨?_, ?_, rfl⟩, List.nodup_range', ?_⟩
  · have h := chain_services confs (m := confs.length) (k := 0) (by omega)
    rw [show (hostEnv confs).svc = if 0 < confs.length then some 0 else none by
      simp only [hostEnv]
      split <;> split <;> first | rfl | omega]
    exact h
  · rw [List.countP_eq_zero.mpr fun a _ => by simp [hreg a]]
    rfl
  · intro a s hs
    simp only [hostEnv, services, Option.map_eq_some_iff] at hs
    obtain ⟨conf, hconf, rfl⟩ := hs
    have := (List.getElem?_eq_some_iff.mp hconf).1
    exact ⟨by simpa [List.mem_range'_1] using this, rfl⟩

/-- The services before `k` are loaded, the others are as in the configuration. -/
def LoadedTo (confs : List SvcConf) (k : Nat) (env : HostRunEnv) : Prop :=
  ∀ x conf, confs[x]? = some conf → ∃ s, env.mem x = some s ∧ s.conf = conf ∧
    s.intf = if x < k then conf.lib else none

theorem hasId_of_loadedTo {confs : List SvcConf} {k x id : Nat} {env : HostRunEnv}
    (h : LoadedTo confs k env) {conf : SvcConf} (hconf : confs[x]? = some conf) :
    env.hasId id x = (decide (x < k) && conf.lib.any fun i => i.id == id) := by
  obtain ⟨s, hs, -, hintf⟩ := h x conf hconf
  rw [HostRunEnv.hasId, hs, Option.any_some, hintf]
  by_cases hx : x < k <;> simp [hx]

/-- The service `j` is usable and has another id than those before it. -/
def RegistrableAt (confs : List SvcConf) (j : Nat) : Prop :=
  ∀ conf, confs[j]? = some conf → conf.usable ∧ ∀ x < j, ∀ conf', confs[x]? = some conf' →
    conf'.lib.map Intf.id ≠ conf.lib.map Intf.id

theorem registrableAt_iff {confs : List SvcConf} {k : Nat} {env : HostRunEnv}
    (hload : LoadedTo confs k env) {conf : SvcConf} (hconf : confs[k]? = some conf) :
    RegistrableAt confs k ↔ conf.usable ∧ ∀ intf, conf.lib = some intf →
      ∀ x ∈ List.range' 0 confs.length, x ≠ k → env.hasId intf.id x = false := by
  have hat : RegistrableAt confs k ↔ conf.usable ∧ ∀ x < k, ∀ conf', confs[x]? = some conf' →
      conf'.lib.map Intf.id ≠ conf.lib.map Intf.id := by
    simp only [RegistrableAt, hconf, Option.some.injEq, forall_eq']
  rw [hat]
  have hklt := (List.getElem?_eq_some_iff.mp hconf).1
  refine and_congr_right fun husable => ⟨fun h intf hlib x hx _ => ?_,
    fun h x hx conf' hconf' => ?_⟩
  · have hxlt : x < confs.length := by simpa [List.mem_range'_1] using hx
    have hxc := List.getElem?_eq_getElem hxlt
    rw [hasId_of_loadedTo hload hxc]
    by_cases hxk : x < k
    · have hne := h x hxk _ hxc
      rw [hlib] at hne
      cases hl : confs[x].lib with
      | none => simp
      | some i => simpa [hxk, hl] using hne
    · simp [hxk]
  · simp only [SvcConf.usable, Bool.and_eq_true] at husable
    cases hlib : conf.lib with
    | none => simp [hlib] at husable
    | some intf =>
      have hid := h intf hlib x (by simp only [List.mem_range'_1]; omega) (by omega)
      rw [hasId_of_loadedTo hload hconf'] at hid
      cases hl : conf'.lib with
      | none => simp
      | some i => simpa [hx, hl] using hid

/-- Initialisation from service `k` on succeeds if these services are usable and have new ids. -/
theorem svchostInitLib_val {confs : List SvcConf} {bound : Nat} (hbound : confs.length < bound) :
    ∀ {m k fuel : Nat} {env : HostRunEnv} {p : Option Nat} {r : Traced Bool},
    k + m = confs.length → Running env (List.range' 0 confs.length) → LoadedTo confs k env →
    env.mem.Chain HostService.next p (List.range' k m) →
    (∀ a ∈ List.range' k m, env.isReg a = false) → svchostInitLib bound fuel p env = .ok r →
    (r.val = true ↔ ∀ j, k ≤ j → RegistrableAt confs j)
  | _, _, 0, _, _, _, _, _, _, _, _, hr => by simp [svchostInitLib] at hr
  | 0, k, fuel + 1, env, p, r, hk, _, _, hc, _, hr => by
    rw [List.range'_zero, Heap.Chain] at hc
    rw [hc, svchostInitLib] at hr
    obtain rfl := Except.ok.inj hr
    simp only [true_iff]
    intro j hj conf hconf
    have := (List.getElem?_eq_some_iff.mp hconf).1
    omega
  | m + 1, k, fuel + 1, env, p, r, hk, hrun, hload, hc, hreg, hr => by
    rw [List.range'_succ] at hc hreg
    obtain ⟨s, -, hs, rfl, hrest⟩ := read_of_chain hc
    have hsreg : s.registered = false := by
      simpa [HostRunEnv.isReg, hs] using hreg k List.mem_cons_self
    obtain ⟨b, env', hinit, hrun', hframe, ⟨s', hs', hnext, hconf', hb⟩, hval⟩ :=
      svchostInitSvc_ok hrun bound (by simpa using hbound) hs hsreg
    have hkc := List.getElem?_eq_getElem (show k < confs.length by omega)
    obtain ⟨t, ht, htconf, -⟩ := hload k _ hkc
    obtain rfl : s = t := Option.some.inj (hs.symm.trans ht)
    rw [← htconf] at hkc
    rw [← registrableAt_iff hload hkc] at hval
    simp only [svchostInitLib, hinit, bind, Except.bind] at hr
    cases b with
    | false =>
      obtain rfl := Except.ok.inj hr
      simp only [Bool.false_eq_true, false_iff] at hval ⊢
      exact fun h => hval (h k (Nat.le_refl k))
    | true =>
      have hk' : RegistrableAt confs k := hval.mp rfl
      have hne : ∀ x ∈ List.range' (k + 1) m, x ≠ k := by
        intro x hx
        rw [List.mem_range'_1] at hx
        omega
      simp only [HostRunEnv.read, hs', if_true] at hr
      split at hr
      · cases hr
      next rest hrest' =>
      obtain rfl := Except.ok.inj hr
      have hload' : LoadedTo confs (k + 1) env' := by
        intro x conf hconf
        by_cases hx : x = k
        · subst hx
          obtain rfl : s.conf = conf := Option.some.inj (hkc.symm.trans hconf)
          exact ⟨s', hs', hconf', by rw [if_pos (Nat.lt_succ_self x), (hb rfl).2]⟩
        · obtain ⟨t, ht, htc, hti⟩ := hload x conf hconf
          refine ⟨t, (hframe x hx).trans ht, htc, ?_⟩
          rw [hti]
          by_cases hxk : x < k
          · rw [if_pos hxk, if_pos (by omega)]
          · rw [if_neg hxk, if_neg (by omega)]
      have hc' : env'.mem.Chain HostService.next s'.next (List.range' (k + 1) m) := by
        rw [hnext]
        exact hrest.congr fun x hx => by rw [hframe x (hne x hx)]
      have hreg' : ∀ x ∈ List.range' (k + 1) m, env'.isReg x = false := fun x hx => by
        rw [HostRunEnv.isReg, hframe x (hne x hx)]
        exact hreg x (List.mem_cons_of_mem k hx)
      rw [svchostInitLib_val hbound (by omega) hrun' hload' hc' hreg' hrest']
      refine ⟨fun h j hj => ?_, fun h j hj => h j (by omega)⟩
      rcases Nat.eq_or_lt_of_le hj with rfl | hlt
      · exact hk'
      · exact h j hlt

theorem registrable_iff (confs : List SvcConf) :
    Registrable confs ↔ ∀ j, 0 ≤ j → RegistrableAt confs j := by
  rw [Registrable, List.Nodup, List.pairwise_map, List.pairwise_iff_getElem]
  constructor
  · rintro ⟨husable, hids⟩ j - conf hconf
    refine ⟨husable conf (List.mem_of_getElem? hconf), fun x hx conf' hconf' => ?_⟩
    obtain ⟨hj, rfl⟩ := List.getElem?_eq_some_iff.mp hconf
    obtain ⟨hx', rfl⟩ := List.getElem?_eq_some_iff.mp hconf'
    exact hids x j hx' hj hx
  · refine fun h => ⟨fun conf hconf => ?_, fun x j hx hj hlt => ?_⟩
    · obtain ⟨j, hj⟩ := List.mem_iff_getElem?.mp hconf
      exact (h j (Nat.zero_le j) conf hj).1
    · exact (h j (Nat.zero_le j) _ (List.getElem?_eq_getElem hj)).2 x hlt _
        (List.getElem?_eq_getElem hx)

/-- Initialisation from the start. -/
theorem svchostInitLib_hostEnv (confs : List SvcConf) :
    ∃ r, svchostInitLib (confs.length + 1) (confs.length + 1) (hostEnv confs).svc (hostEnv confs)
      = .ok r ∧ Running r.env (List.range' 0 confs.length) ∧
      (∀ env ∈ r.states, Running env (List.range' 0 confs.length)) ∧
      (r.val = true → ∀ a < confs.length, r.env.isReg a = true) ∧
      (r.val = true ↔ Registrable confs) := by
  have h := running_hostEnv confs
  have hreg : ∀ a ∈ List.range' 0 confs.length, (hostEnv confs).isReg a = false := by
    intro a _
    simp only [HostRunEnv.isReg, hostEnv, services]
    cases confs[a]? <;> rfl
  obtain ⟨r, hr, hrun, hstates, -, hall⟩ := svchostInitLib_ok (confs.length + 1)
    (by simp) (confs.length + 1) h h.nodup h.registry.chain (by simp) hreg
  refine ⟨r, hr, hrun, hstates,
    fun hv a ha => hall hv a (by simpa [List.mem_range'_1] using ha), ?_⟩
  have hload : LoadedTo confs 0 (hostEnv confs) := by
    intro x conf hconf
    simp only [hostEnv, services, hconf, Option.map_some]
    exact ⟨_, rfl, rfl, rfl⟩
  rw [registrable_iff,
    svchostInitLib_val (by simp) (Nat.zero_add _) h hload h.registry.chain hreg hr]

/-- The start of a run: all services are registered exactly if everything they need is there. -/
theorem svchostRunInit_hostEnv (uloop : Bool) (confs : List SvcConf) :
    ∃ r, svchostRunInit (confs.length + 1) uloop (hostEnv confs) = .ok r ∧
      Running r.env (List.range' 0 confs.length) ∧
      (∀ env ∈ r.states, Running env (List.range' 0 confs.length)) ∧
      (r.val = true → ∀ a < confs.length, r.env.isReg a = true) ∧
      (r.val = true ↔ Started uloop confs) := by
  cases uloop with
  | false =>
    refine ⟨⟨false, hostEnv confs, []⟩, rfl, running_hostEnv confs, fun env henv => ?_, ?_, ?_⟩
    · exact absurd henv List.not_mem_nil
    · exact fun h => absurd h Bool.false_ne_true
    · exact iff_of_false Bool.false_ne_true fun h => Bool.false_ne_true h.1
  | true =>
    obtain ⟨r, hr, hrun, hstates, hreg, hval⟩ := svchostInitLib_hostEnv confs
    exact ⟨r, hr, hrun, hstates, hreg, hval.trans (and_iff_right rfl).symm⟩

/-- Turns without a message for a service of the list change nothing. -/
theorem svchostRunLoop_idle {bound : Nat} {env : HostRunEnv} {l : List Nat} (h : Running env l)
    (hbound : l.length < bound) : ∀ (turns : List (List Nat)), (∀ t ∈ turns, ∀ a ∈ t, a ∉ l) →
    ∃ r, svchostRunLoop bound turns env = .ok r ∧ r.env = env ∧ ∀ env' ∈ r.states, env' = env
  | [], _ => ⟨_, rfl, rfl, by simp⟩
  | reqs :: turns, hreqs => by
    rw [svchostRunLoop]
    split
    · exact ⟨_, rfl, rfl, by simp⟩
    have hpoll : ubusLoopPoll env reqs = env := by
      refine ubusLoopPoll_none fun a ha => ?_
      by_contra hne
      obtain ⟨s, hs⟩ := Option.ne_none_iff_exists'.mp hne
      exact hreqs reqs List.mem_cons_self a ha (h.listed a s hs).1
    have hunload := svchostCheckUnload_unmarked bound h.registry.chain hbound
      fun a s hs => (h.listed a s hs).2
    obtain ⟨r, hr, henv, hstates⟩ := svchostRunLoop_idle h hbound
      turns fun t ht => hreqs t (List.mem_cons_of_mem reqs ht)
    simp only [hpoll, hunload, hr, bind, Except.bind]
    exact ⟨_, rfl, henv, by simpa using hstates⟩

/-- A message for a registered service ends in a read of a freed service. -/
theorem svchostRunLoop_dangling {env : HostRunEnv} {l : List Nat} (h : Running env l) (bound : Nat)
    (hbound : l.length < bound) (hreg : ∀ a ∈ l, env.isReg a = true) :
    ∀ {turns : List (List Nat)}, (∃ t ∈ turns, ∃ a ∈ t, a ∈ l) →
    svchostRunLoop bound turns env = .error .dangling
  | [], hreqs => by
    obtain ⟨t, ht, -⟩ := hreqs
    exact absurd ht List.not_mem_nil
  | reqs :: turns, hreqs => by
    have hpos : ¬env.nsvc ≤ 0 := by
      obtain ⟨-, -, a, -, ha⟩ := hreqs
      have : 0 < l.countP env.isReg := List.countP_pos_iff.mpr ⟨a, ha, hreg a ha⟩
      rw [h.registry.count]
      omega
    rw [svchostRunLoop, if_neg hpos]
    by_cases hnow : ∃ a ∈ reqs, a ∈ l
    · obtain ⟨a, har, hal⟩ := hnow
      obtain ⟨hsvc, hlinks⟩ := ubusLoopPoll_links reqs env
      have hc : (ubusLoopPoll env reqs).mem.Chain HostService.next
          (ubusLoopPoll env reqs).svc l := by
        rw [hsvc]
        refine h.registry.chain.congr fun x _ => ?_
        have := congrArg (Option.map Prod.fst) (hlinks x)
        simpa [Option.map_map, Function.comp_def] using this
      have hmark := ubusLoopPoll_marks reqs env a har (hreg a hal)
      simp only [svchostCheckUnload_marked hc hbound bound hc (fun _ hx => hx)
        ⟨a, hal, hmark⟩, bind, Except.bind]
    · have hpoll : ubusLoopPoll env reqs = env := by
        refine ubusLoopPoll_none fun a ha => ?_
        by_contra hne
        obtain ⟨s, hs⟩ := Option.ne_none_iff_exists'.mp hne
        exact hnow ⟨a, ha, (h.listed a s hs).1⟩
      have hunload := svchostCheckUnload_unmarked bound h.registry.chain hbound
        fun a s hs => (h.listed a s hs).2
      have hlater : ∃ t ∈ turns, ∃ a ∈ t, a ∈ l := by
        obtain ⟨t, ht, hta⟩ := hreqs
        rcases List.mem_cons.mp ht with rfl | ht
        · exact absurd hta hnow
        · exact ⟨t, ht, hta⟩
      simp only [hpoll, hunload, svchostRunLoop_dangling h bound hbound hreg hlater, bind,
        Except.bind]

/-- The polling part of `svchost_run`, which follows a successful initialisation only. -/
def svchostPolled (confs : List SvcConf) (turns : List (List Nat)) (init : Traced Bool) :
    Except Fault (Traced Unit) :=
  if init.val then svchostRunLoop (confs.length + 1) turns init.env else .ok ⟨(), init.env, []⟩

theorem svchostRun_eq {uloop shutdown : Bool} {confs : List SvcConf} {turns : List (List Nat)}
    {r : Traced Bool} {looped : Traced Unit}
    (hr : svchostRunInit (confs.length + 1) uloop (hostEnv confs) = .ok r)
    (hloop : svchostPolled confs turns r = .ok looped) :
    svchostRun uloop confs turns shutdown =
      if shutdown then
        (svchostDeinitLib (confs.length + 1) (confs.length + 1) looped.env.svc looped.env).map
          fun last => hostEnv confs :: (r.states ++ looped.states) ++ [last]
      else .ok (hostEnv confs :: (r.states ++ looped.states)) := by
  simp only [svchostRun, hr, bind, Except.bind]
  rw [svchostPolled] at hloop
  cases hv : r.val with
  | true =>
    rw [hv, if_pos rfl] at hloop
    simp only [hloop, if_true]
    split
    · cases svchostDeinitLib (confs.length + 1) (confs.length + 1) looped.env.svc looped.env <;> rfl
    · rfl
  | false =>
    rw [hv, if_neg (by simp)] at hloop
    obtain rfl := Except.ok.inj hloop
    simp only [Bool.false_eq_true, if_false]
    split
    · cases svchostDeinitLib (confs.length + 1) (confs.length + 1) r.env.svc r.env <;> rfl
    · rfl

/-- Polling without a message for a service changes nothing. -/
theorem svchostPolled_idle {uloop : Bool} {confs : List SvcConf} {turns : List (List Nat)}
    {r : Traced Bool} (hrun : Running r.env (List.range' 0 confs.length))
    (hval : r.val = true ↔ Started uloop confs)
    (hturns : Started uloop confs → ∀ t ∈ turns, ∀ a ∈ t, confs.length ≤ a) :
    ∃ looped, svchostPolled confs turns r = .ok looped ∧ looped.env = r.env ∧
      ∀ env ∈ looped.states, env = r.env := by
  rw [svchostPolled]
  split
  · next hv =>
    refine svchostRunLoop_idle hrun (by simp) turns fun t ht a ha hal => ?_
    have hge := hturns (hval.mp hv) t ht a ha
    rw [List.mem_range'_1] at hal
    omega
  · exact ⟨_, rfl, rfl, by simp⟩

/-- A run in which no service is unloaded keeps the registry. -/
theorem registryOk_of_idle {uloop shutdown : Bool} {confs : List SvcConf} {turns : List (List Nat)}
    (hturns : Started uloop confs → ∀ t ∈ turns, ∀ a ∈ t, confs.length ≤ a)
    (hdown : shutdown = true → confs = []) : RegistryOk uloop confs turns shutdown := by
  obtain ⟨r, hr, hrun, hstates, -, hval⟩ := svchostRunInit_hostEnv uloop confs
  obtain ⟨looped, hloop, henv, hlstates⟩ := svchostPolled_idle hrun hval hturns
  have hall : ∀ env ∈ hostEnv confs :: (r.states ++ looped.states), ∃ l, Registry env l := by
    intro env henv'
    rcases List.mem_cons.mp henv' with rfl | henv'
    · exact ⟨_, (running_hostEnv confs).registry⟩
    rcases List.mem_append.mp henv' with hm | hm
    · exact ⟨_, (hstates env hm).registry⟩
    · rw [hlstates env hm]
      exact ⟨_, hrun.registry⟩
  rw [RegistryOk, svchostRun_eq hr hloop]
  cases shutdown with
  | false => exact ⟨_, rfl, hall⟩
  | true =>
    obtain rfl := hdown rfl
    have hsvc : looped.env.svc = none := by
      rw [henv]
      exact hrun.registry.chain
    rw [hsvc]
    refine ⟨_, rfl, fun env hm => ?_⟩
    rcases List.mem_append.mp hm with hm | hm
    · exact hall env hm
    · rw [List.mem_singleton.mp hm, henv]
      exact ⟨_, hrun.registry⟩

/-- An unload message for a registered service breaks the run. -/
theorem not_ok_of_message {uloop shutdown : Bool} {confs : List SvcConf} {turns : List (List Nat)}
    (hinit : Started uloop confs) (hmsg : ∃ t ∈ turns, ∃ a ∈ t, a < confs.length) :
    svchostRun uloop confs turns shutdown = .error .dangling := by
  obtain ⟨r, hr, hrun, -, hall, hval⟩ := svchostRunInit_hostEnv uloop confs
  have hv := hval.mpr hinit
  obtain ⟨t, ht, a, ha, hlt⟩ := hmsg
  have hreg : ∀ x ∈ List.range' 0 confs.length, r.env.isReg x = true := fun x hx =>
    hall hv x (by simpa [List.mem_range'_1] using hx)
  have hdangling := svchostRunLoop_dangling hrun (confs.length + 1) (by simp) hreg
    ⟨t, ht, a, ha, by simpa [List.mem_range'_1] using hlt⟩
  simp only [svchostRun, hr, hv, hdangling, bind, Except.bind, if_true]

/-- The clean-up of a list that is not empty breaks the run. -/
theorem not_ok_of_shutdown {uloop : Bool} {confs : List SvcConf} {turns : List (List Nat)}
    (hturns : Started uloop confs → ∀ t ∈ turns, ∀ a ∈ t, confs.length ≤ a) (hne : confs ≠ []) :
    svchostRun uloop confs turns true = .error .dangling := by
  obtain ⟨r, hr, hrun, -, -, hval⟩ := svchostRunInit_hostEnv uloop confs
  obtain ⟨looped, hloop, henv, -⟩ := svchostPolled_idle hrun hval hturns
  rw [svchostRun_eq hr hloop, henv, if_pos rfl]
  obtain ⟨n, hn⟩ := Nat.exists_eq_succ_of_ne_zero (mt List.length_eq_zero_iff.mp hne)
  have hchain := hrun.registry.chain
  rw [hn, List.range'_succ] at hchain
  rw [svchostDeinitLib_dangling hchain (by simp [hn])]
  rfl

/-- **The registry is kept over a run exactly if no service is ever unloaded.** The polling turns,
which only follow a successful initialisation, bring no unload message for a service, and the final
clean-up finds no service. -/
theorem registryOk_iff (uloop : Bool) (confs : List SvcConf) (turns : List (List Nat))
    (shutdown : Bool) :
    RegistryOk uloop confs turns shutdown ↔
      (uloop = true → Registrable confs → ∀ t ∈ turns, ∀ a ∈ t, confs.length ≤ a) ∧
        (shutdown = true → confs = []) := by
  rw [← and_imp (a := uloop = true)]
  refine ⟨fun ⟨states, hstates, _⟩ => ?_, fun h => registryOk_of_idle h.1 h.2⟩
  have hturns : Started uloop confs → ∀ t ∈ turns, ∀ a ∈ t, confs.length ≤ a := by
    intro hinit t ht a ha
    by_contra hlt
    rw [not_ok_of_message hinit ⟨t, ht, a, ha, by omega⟩] at hstates
    cases hstates
  refine ⟨hturns, fun hdown => ?_⟩
  by_contra hne
  rw [hdown, not_ok_of_shutdown hturns hne] at hstates
  cases hstates

/-- One service that is loaded and registered, and a shutdown: the loop that unloads it reads it
after it was freed. -/
theorem not_registryOk :
    ¬RegistryOk true [{ lib := some { id := 7, start := true, stop := true }, addOk := true }] [[]]
      true := by
  rintro ⟨states, hstates, -⟩
  rw [not_ok_of_shutdown (by simp) (by simp)] at hstates
  cases hstates

end OnuFirmware.Svchost
