import OnuFirmware.Wan.Entry

/-!
# Binding routes of LAN ports (`port_binding.c`)

`set_port_binding_info` deletes routes of the LAN ports and then walks the list of WANs and adds the
routes of those that are up. The function only issues commands; `runCmd` says what they do to the
routes. The two gateway buffers are declared outside the walk, and a WAN refills only those of its
own IP version, so a WAN that is up in another family takes the gateway of a WAN before it.

A LAN port is named by its index in `bl_map_data`; WANs are in route mode when they are not bridges
in the sense of `SVC_WAN_IS_BRIDGE`.
-/

namespace OnuFirmware.Wan

open Clib

/-- `PORT_BIND_OP_V4`, `PORT_BIND_OP_V6` and `PORT_BIND_OP_ALL`, and the texts `v4`, `v6` and `all`
of `portbind_lib_del_route`. -/
inductive IpType
  | v4
  | v6
  | all
deriving Repr, DecidableEq

/-- `ip_type & PORT_BIND_OP_V4`, `ip_type & PORT_BIND_OP_V6`. -/
def IpType.has : IpType → Family → Bool
  | .v4, .v4 => true
  | .v6, .v6 => true
  | .all, _ => true
  | _, _ => false

/-- `E_NOT_DEFAULT_ROUTE` and `E_DEFAULT_ROUTE_SWITCH`, as `dealwith_link_local_route` takes
them. -/
inductive LinkOp
  | notDefaultRoute
  | defaultRouteSwitch
deriving Repr, DecidableEq

/-- What `set_port_binding_info` asks for. -/
inductive BindCmd
  /-- `portbind_lib_del_route` -/
  | delRoute (t : IpType) (port : Nat)
  /-- `portbind_lib_add_route` -/
  | addRoute (f : Family) (port : Nat) (dev gw : Str)
  /-- `dealwith_link_local_route` -/
  | linkRoute (dev : Str) (idx : Nat) (op : LinkOp)
  /-- `ip -6 route add .. dev br0 table ..` -/
  | lanRoute (port : Nat) (net : Str)
deriving Repr, DecidableEq

/-- What the function reads besides its arguments and the list: the number of LAN ports, the gateway
attributes of `root.waninfo.entry`, the address and prefix of the LAN, and `DefRouteIndexv4`. -/
structure BindEnv where
  ports : Nat
  gateway : Family → Nat → Str
  lan6 : Option (Str × Str)
  defRouteIndexV4 : Str

/-- `i_def_route_index_v4`. -/
def BindEnv.defRoute (env : BindEnv) : Int :=
  if env.defRouteIndexV4 ≠ [] ∧ env.defRouteIndexV4 ≠ "N/A".toList then atoi env.defRouteIndexV4
  else -1

/-! ## The function -/

/-- The family that is deleted for port `i`. -/
def delType (wan : WanEntryObj) (flag : Bool) (ipType : IpType) (i : Nat) : IpType :=
  if flag then .all
  else if wan.cfg.version = versionIpv4 ∧ wan.cfg.binds i then .v4
  else if wan.cfg.version = versionIpv6 ∧ wan.cfg.binds i then .v6
  else ipType

/-- The first loop. -/
def delRoutes (env : BindEnv) (wan : WanEntryObj) (flag : Bool) (ipType : IpType) : List BindCmd :=
  if flag ∨ wan.cfg.bindbit ≠ 0 then
    (List.range env.ports).map fun i => .delRoute (delType wan flag ipType i) i
  else []

/-- The gateway buffers after the reads for one WAN. -/
def readGateways (env : BindEnv) (o : WanEntryObj) (buf : Family → Str) : Family → Str :=
  fun f => if f.inVersion o.cfg.version then env.gateway f o.idx else buf f

/-- The loop over the ports of one WAN; `linked` is `add_linkroute[obj->idx]`. -/
def bindPorts (env : BindEnv) (o : WanEntryObj) (ipType : IpType) (buf : Family → Str) :
    List Nat → Bool → List BindCmd
  | [], linked => if linked then [.linkRoute (svcWanIntfName o 16) o.idx .notDefaultRoute] else []
  | i :: is, linked =>
    if o.cfg.binds i then
      let dev := svcWanIntfName o 16
      let add4 := o.upv4 && buf .v4 != [] && ipType.has .v4
      let switch := add4 && o.idx != env.defRoute && !linked
      (if switch then [.linkRoute dev o.idx .defaultRouteSwitch] else []) ++
      (if add4 then [.addRoute .v4 i dev (buf .v4)] else []) ++
      (if o.upv6 && buf .v6 != [] && ipType.has .v6 then [.addRoute .v6 i dev (buf .v6)] else []) ++
      .lanRoute i (match env.lan6 with
        | some (ip6, prefix6) => ip6 ++ '/' :: prefix6
        | none => "fe80::1/64".toList) ::
      bindPorts env o ipType buf is (linked || switch)
    else bindPorts env o ipType buf is linked

/-- The body of the second loop for one WAN whose `version` is one of the three. -/
def bindWan (env : BindEnv) (o : WanEntryObj) (ipType : IpType) (buf : Family → Str) :
    List BindCmd :=
  if !o.upv4 && !o.upv6 then []
  else if buf .v4 = [] ∧ buf .v6 = [] then []
  else if o.cfg.bindbit ≠ 0 then bindPorts env o ipType buf (List.range env.ports) false
  else []

/-- The body of the second loop skips bridges and unknown versions before it reads gateways. -/
def WanEntryObj.considered (o : WanEntryObj) : Bool :=
  !o.cfg.isBridge && (o.cfg.version == versionIpv4 || o.cfg.version == versionIpv6 ||
    o.cfg.version == versionBoth)

/-- The second loop. -/
def addRoutes (env : BindEnv) (ipType : IpType) : List WanEntryObj → (Family → Str) → List BindCmd
  | [], _ => []
  | o :: objs, buf =>
    if o.considered then
      let buf := readGateways env o buf
      bindWan env o ipType buf ++ addRoutes env ipType objs buf
    else addRoutes env ipType objs buf

/-- `set_port_binding_info`: the commands in the order they are issued. -/
def setPortBindingInfo (env : BindEnv) (objs : List WanEntryObj) (wan : WanEntryObj) (flag : Bool)
    (ipType : IpType) : List BindCmd :=
  let ipType := if flag then .all else ipType
  delRoutes env wan flag ipType ++ addRoutes env ipType objs fun _ => []

/-! ## The routes -/

/-- A route of a LAN port. -/
structure Route where
  fam : Family
  port : Nat
  dev : Str
  gw : Str
deriving Repr, DecidableEq

/-- What a command does to the routes of the LAN ports. -/
def runCmd (routes : List Route) : BindCmd → List Route
  | .delRoute t i => routes.filter fun r => !(t.has r.fam && r.port == i)
  | .addRoute f i dev gw => routes ++ [⟨f, i, dev, gw⟩]
  | .linkRoute .. => routes
  | .lanRoute .. => routes

/-- The WAN is in route mode, binds the port and is up in the family. -/
def WanEntryObj.leads (o : WanEntryObj) (f : Family) (i : Nat) : Bool :=
  !o.cfg.isBridge && o.cfg.binds i && o.up f

/-- What the routes should be like after the call. -/
structure BindingOk (env : BindEnv) (objs : List WanEntryObj) (wan : WanEntryObj) (flag : Bool)
    (ipType : IpType) (routes : List Route) : Prop where
  /-- An added route leads to a WAN of the list through that WAN's own gateway. -/
  added : ∀ f i dev gw, .addRoute f i dev gw ∈ setPortBindingInfo env objs wan flag ipType →
    ∃ o ∈ objs, svcWanIntfName o 16 = dev ∧ o.leads f i = true ∧ env.gateway f o.idx = gw
  /-- A deleted route is there again if there is a WAN with a gateway for it. -/
  restored : ∀ t f i, .delRoute t i ∈ setPortBindingInfo env objs wan flag ipType →
    t.has f = true → (∃ o ∈ objs, o.leads f i = true ∧ env.gateway f o.idx ≠ []) →
    ∃ r ∈ (setPortBindingInfo env objs wan flag ipType).foldl runCmd routes, r.fam = f ∧ r.port = i

/-! ## The gateway that is left in the buffer -/

/-- The gateway of the last WAN of a list that is in route mode and has the family. -/
def lastGateway (env : BindEnv) (objs : List WanEntryObj) (f : Family) : Str :=
  match objs.reverse.find? fun o => !o.cfg.isBridge && f.inVersion o.cfg.version with
  | some o => env.gateway f o.idx
  | none => []

/-- The condition on the arguments, with `ip_type` as the function uses it. -/
structure BindingCond (env : BindEnv) (objs : List WanEntryObj) (wan : WanEntryObj) (flag : Bool)
    (ipType : IpType) : Prop where
  /-- A WAN that is up in a family that its version lacks finds no gateway of a WAN before it, or one
  that is its own. -/
  own : ∀ pre o post, objs = pre ++ o :: post → o.considered = true →
    ∀ f, f.inVersion o.cfg.version = false → ipType.has f = true →
    ∀ i < env.ports, o.leads f i = true → lastGateway env pre f = [] ∨
      ∃ u ∈ objs, svcWanIntfName u 16 = svcWanIntfName o 16 ∧ u.leads f i = true ∧
        env.gateway f u.idx = lastGateway env pre f
  /-- A family that is deleted for a port is one of `ip_type`, and among the WANs for it there is
  one of the three versions that has a gateway itself, or finds one. -/
  kept : (flag = true ∨ wan.cfg.bindbit ≠ 0) → ∀ f, ∀ i < env.ports,
    (delType wan flag ipType i).has f = true →
    (∃ o ∈ objs, o.leads f i = true ∧ env.gateway f o.idx ≠ []) →
    ipType.has f = true ∧ ∃ pre o post, objs = pre ++ o :: post ∧ o.considered = true ∧
      o.leads f i = true ∧
      (if f.inVersion o.cfg.version then env.gateway f o.idx else lastGateway env pre f) ≠ []

/-- The gateway buffers after the walk over a list. -/
def gatewaysAfter (env : BindEnv) (objs : List WanEntryObj) (buf : Family → Str) : Family → Str :=
  objs.foldl (fun buf o => if o.considered then readGateways env o buf else buf) buf

/-- A WAN refills the buffer of a family exactly when it is in route mode and has the family. -/
theorem considered_and_inVersion (o : WanEntryObj) (f : Family) :
    (o.considered && f.inVersion o.cfg.version) =
      (!o.cfg.isBridge && f.inVersion o.cfg.version) := by
  cases f <;> simp only [WanEntryObj.considered, Family.inVersion] <;> grind

/-- **What a WAN finds in a buffer is the gateway of the last WAN before it that has the
family.** -/
theorem gatewaysAfter_eq (env : BindEnv) (objs : List WanEntryObj) (f : Family) :
    gatewaysAfter env objs (fun _ => []) f = lastGateway env objs f := by
  induction objs using List.reverseRecOn with
  | nil => rfl
  | append_singleton objs o ih =>
    have hand := considered_and_inVersion o f
    rw [gatewaysAfter, List.foldl_append, List.foldl_cons, List.foldl_nil, lastGateway,
      List.reverse_append, List.reverse_singleton, List.singleton_append, List.find?_cons, ← hand]
    change (if o.considered then readGateways env o (gatewaysAfter env objs fun _ => [])
      else gatewaysAfter env objs fun _ => []) f = _
    by_cases hc : o.considered
    · by_cases hv : f.inVersion o.cfg.version
      · simp [hc, hv, readGateways]
      · simp only [hc, hv, readGateways, if_true, Bool.false_eq_true, if_false, Bool.and_false, ih]
        rfl
    · simp only [hc, if_false, Bool.false_and, Bool.false_eq_true, ih]
      rfl

/-! ## Which commands are issued -/

theorem mem_ite_singleton {α : Type*} {c : Prop} [Decidable c] {a b : α} :
    a ∈ (if c then [b] else []) ↔ c ∧ a = b := by
  split <;> simp [*]

theorem mem_bindPorts {env : BindEnv} {o : WanEntryObj} {ipType : IpType} {buf : Family → Str}
    {f : Family} {i : Nat} {dev gw : Str} : ∀ {is : List Nat} {linked : Bool},
    .addRoute f i dev gw ∈ bindPorts env o ipType buf is linked ↔
      i ∈ is ∧ o.cfg.binds i = true ∧ o.up f = true ∧ ipType.has f = true ∧ buf f ≠ [] ∧
        dev = svcWanIntfName o 16 ∧ gw = buf f
  | [], linked => by cases linked <;> simp [bindPorts]
  | j :: is, linked => by
    rw [bindPorts]
    by_cases hj : o.cfg.binds j
    · -- the four groups of commands of one port; only two hold routes
      rw [if_pos hj]
      simp only [List.mem_append, List.mem_cons, mem_bindPorts, reduceCtorEq, false_or,
        mem_ite_singleton, BindCmd.addRoute.injEq, and_false, Bool.and_eq_true, bne_iff_ne]
      cases f <;> simp only [WanEntryObj.up, reduceCtorEq, false_and, and_false, false_or] <;> grind
    · rw [if_neg hj, mem_bindPorts, List.mem_cons]
      grind

theorem mem_bindWan {env : BindEnv} {o : WanEntryObj} {ipType : IpType} {buf : Family → Str}
    {f : Family} {i : Nat} {dev gw : Str} :
    .addRoute f i dev gw ∈ bindWan env o ipType buf ↔
      i < env.ports ∧ o.cfg.binds i = true ∧ o.up f = true ∧ ipType.has f = true ∧ buf f ≠ [] ∧
        dev = svcWanIntfName o 16 ∧ gw = buf f := by
  rw [bindWan]
  have hbit := @WanEntryCfg.bindbit_ne_zero_of_binds o.cfg i
  cases f <;> simp only [WanEntryObj.up] <;> split_ifs <;>
    simp only [mem_bindPorts, List.mem_range, WanEntryObj.up, List.not_mem_nil, false_iff] <;> grind

/-- **The routes that are added**: one for each WAN of the list that leads there, with what is in
the buffer when the walk has reached the WAN. -/
theorem mem_addRoutes {env : BindEnv} {ipType : IpType} {f : Family} {i : Nat} {dev gw : Str} :
    ∀ {objs : List WanEntryObj} {buf : Family → Str},
    .addRoute f i dev gw ∈ addRoutes env ipType objs buf ↔
      ∃ pre o post, objs = pre ++ o :: post ∧ o.considered = true ∧ i < env.ports ∧
        o.leads f i = true ∧ ipType.has f = true ∧ gw ≠ [] ∧ dev = svcWanIntfName o 16 ∧
        gw = readGateways env o (gatewaysAfter env pre buf) f
  | [], buf => by simp [addRoutes]
  | u :: objs, buf => by
    rw [addRoutes]
    have hsplit : ∀ (P : List WanEntryObj → WanEntryObj → Prop),
        (∃ pre o post, u :: objs = pre ++ o :: post ∧ P pre o) ↔
          P [] u ∨ ∃ pre o post, objs = pre ++ o :: post ∧ P (u :: pre) o := by
      intro P
      constructor
      · rintro ⟨_ | ⟨v, pre⟩, o, post, he, hp⟩
        · obtain ⟨rfl, rfl⟩ := List.cons.inj he
          exact .inl hp
        · obtain ⟨rfl, rfl⟩ := List.cons.inj he
          exact .inr ⟨pre, o, post, rfl, hp⟩
      · rintro (hp | ⟨pre, o, post, rfl, hp⟩)
        · exact ⟨[], u, objs, rfl, hp⟩
        · exact ⟨u :: pre, o, post, rfl, hp⟩
    rw [hsplit]
    by_cases hc : u.considered
    · have hroute : u.cfg.isBridge = false := by
        simp only [WanEntryObj.considered, Bool.and_eq_true, Bool.not_eq_true'] at hc
        exact hc.1
      rw [if_pos hc, List.mem_append, mem_bindWan, mem_addRoutes]
      refine or_congr ?_ ?_
      · simp only [WanEntryObj.leads, hroute, Bool.not_false, Bool.true_and, Bool.and_eq_true, hc,
          gatewaysAfter, List.foldl_nil]
        grind
      · simp only [gatewaysAfter, List.foldl_cons, hc, if_true]
    · rw [if_neg hc, mem_addRoutes]
      simp only [hc, Bool.false_eq_true, false_and, false_or, gatewaysAfter, List.foldl_cons,
        if_false]

theorem not_mem_bindPorts_del {env : BindEnv} {o : WanEntryObj} {ipType t : IpType}
    {buf : Family → Str} {i : Nat} : ∀ (is : List Nat) (linked : Bool),
    .delRoute t i ∉ bindPorts env o ipType buf is linked
  | [], linked => by cases linked <;> simp [bindPorts]
  | j :: is, linked => by
    rw [bindPorts]
    split
    · simp [not_mem_bindPorts_del is]
    · exact not_mem_bindPorts_del is linked

theorem not_mem_addRoutes_del {env : BindEnv} {ipType t : IpType} {i : Nat} :
    ∀ (objs : List WanEntryObj) (buf : Family → Str), .delRoute t i ∉ addRoutes env ipType objs buf
  | [], _ => List.not_mem_nil
  | o :: objs, buf => by
    rw [addRoutes]
    split
    · rw [List.mem_append, not_or, bindWan]
      refine ⟨?_, not_mem_addRoutes_del objs _⟩
      split_ifs <;> first | exact List.not_mem_nil | exact not_mem_bindPorts_del _ _
    · exact not_mem_addRoutes_del objs buf

theorem mem_delRoutes {env : BindEnv} {wan : WanEntryObj} {flag : Bool} {ipType : IpType}
    {c : BindCmd} : c ∈ delRoutes env wan flag ipType ↔ (flag = true ∨ wan.cfg.bindbit ≠ 0) ∧
      ∃ i < env.ports, c = .delRoute (delType wan flag ipType i) i := by
  rw [delRoutes]
  split
  · next h =>
    rw [List.mem_map]
    constructor
    · rintro ⟨i, hi, rfl⟩
      exact ⟨h, i, List.mem_range.mp hi, rfl⟩
    · rintro ⟨-, i, hi, rfl⟩
      exact ⟨i, List.mem_range.mpr hi, rfl⟩
  · next h => exact ⟨fun hc => absurd hc List.not_mem_nil, fun hc => absurd hc.1 h⟩

/-! ## What the commands leave -/

theorem mem_foldl_delRoute {t : Nat → IpType} {r : Route} : ∀ {is : List Nat} {rs : List Route},
    r ∈ (is.map fun i => .delRoute (t i) i).foldl runCmd rs ↔
      r ∈ rs ∧ ∀ i ∈ is, ¬((t i).has r.fam = true ∧ r.port = i)
  | [], rs => by simp
  | i :: is, rs => by
    rw [List.map_cons, List.foldl_cons, mem_foldl_delRoute, runCmd, List.mem_filter]
    simp only [Bool.not_eq_true', Bool.and_eq_false_iff, beq_eq_false_iff_ne, List.mem_cons,
      forall_eq_or_imp, not_and, and_assoc]
    grind

theorem mem_foldl_of_no_del {r : Route} : ∀ {cmds : List BindCmd} {rs : List Route},
    (∀ t i, .delRoute t i ∉ cmds) →
    (r ∈ cmds.foldl runCmd rs ↔ r ∈ rs ∨ .addRoute r.fam r.port r.dev r.gw ∈ cmds)
  | [], rs, _ => by simp
  | c :: cmds, rs, h => by
    have htail : ∀ t i, .delRoute t i ∉ cmds := fun t i hm => h t i (List.mem_cons_of_mem c hm)
    rw [List.foldl_cons, mem_foldl_of_no_del htail, List.mem_cons]
    cases c with
    | delRoute t i => exact absurd List.mem_cons_self (h t i)
    | addRoute f i dev gw =>
      rcases r with ⟨rf, ri, rdev, rgw⟩
      simp [runCmd, or_assoc]
    | linkRoute dev idx op => simp [runCmd]
    | lanRoute i net => simp [runCmd]

/-- **A route that was deleted is there again exactly when the second loop adds one.** -/
theorem exists_route_iff {env : BindEnv} {objs : List WanEntryObj} {wan : WanEntryObj} {flag : Bool}
    {ipType : IpType} {f : Family} {i : Nat} (rs : List Route)
    (hdel : flag = true ∨ wan.cfg.bindbit ≠ 0) (hi : i < env.ports)
    (ht : (delType wan flag (if flag then .all else ipType) i).has f = true) :
    (∃ r ∈ (setPortBindingInfo env objs wan flag ipType).foldl runCmd rs, r.fam = f ∧ r.port = i) ↔
      ∃ dev gw, .addRoute f i dev gw ∈
        addRoutes env (if flag then .all else ipType) objs fun _ => [] := by
  simp only [setPortBindingInfo, List.foldl_append,
    mem_foldl_of_no_del fun t i => not_mem_addRoutes_del objs _]
  constructor
  · rintro ⟨⟨rf, ri, dev, gw⟩, hr | hr, rfl, rfl⟩
    · rw [delRoutes, if_pos hdel, mem_foldl_delRoute] at hr
      exact absurd ⟨ht, rfl⟩ (hr.2 ri (List.mem_range.mpr hi))
    · exact ⟨dev, gw, hr⟩
  · rintro ⟨dev, gw, h⟩
    exact ⟨⟨f, i, dev, gw⟩, .inr h, rfl, rfl⟩

/-- **The binding routes are right after the call exactly under the condition on the WANs.** -/
theorem setPortBindingInfo_ok_iff (env : BindEnv) (objs : List WanEntryObj) (wan : WanEntryObj)
    (flag : Bool) (ipType : IpType) (routes : List Route) :
    BindingOk env objs wan flag ipType routes ↔
      BindingCond env objs wan flag (if flag then .all else ipType) := by
  have hmem : ∀ {f i dev gw}, .addRoute f i dev gw ∈ setPortBindingInfo env objs wan flag ipType ↔
      .addRoute f i dev gw ∈ addRoutes env (if flag then .all else ipType) objs fun _ => [] := by
    intro f i dev gw
    simp [setPortBindingInfo, mem_delRoutes]
  have hread : ∀ (pre : List WanEntryObj) (o : WanEntryObj) (f : Family),
      readGateways env o (gatewaysAfter env pre fun _ => []) f =
        if f.inVersion o.cfg.version then env.gateway f o.idx else lastGateway env pre f := by
    intro pre o f
    rw [readGateways, gatewaysAfter_eq]
  constructor
  · intro hok
    constructor
    · intro pre o post hobjs hcons f hver hip i hi hlead
      by_cases hlast : lastGateway env pre f = []
      · exact .inl hlast
      · right
        have hadd := hok.added f i (svcWanIntfName o 16) (lastGateway env pre f)
          (hmem.mpr (mem_addRoutes.mpr ⟨pre, o, post, hobjs, hcons, hi, hlead, hip, hlast, rfl, by
            rw [hread, hver]
            rfl⟩))
        obtain ⟨u, hu, hdev, hl, hgw⟩ := hadd
        exact ⟨u, hu, hdev, hl, hgw⟩
    · intro hdel f i hi ht hex
      have hcmd : .delRoute (delType wan flag (if flag then .all else ipType) i) i ∈
          setPortBindingInfo env objs wan flag ipType :=
        List.mem_append_left _ (mem_delRoutes.mpr ⟨hdel, i, hi, rfl⟩)
      obtain ⟨dev, gw, hadd⟩ :=
        (exists_route_iff routes hdel hi ht).mp (hok.restored _ f i hcmd ht hex)
      obtain ⟨pre, o, post, hobjs, hcons, -, hlead, hip, hne, -, hgw⟩ := mem_addRoutes.mp hadd
      exact ⟨hip, pre, o, post, hobjs, hcons, hlead, by rw [← hread, ← hgw]; exact hne⟩
  · intro hc
    constructor
    · intro f i dev gw hadd
      obtain ⟨pre, o, post, hobjs, hcons, hi, hlead, hip, hne, hdev, hgw⟩ :=
        mem_addRoutes.mp (hmem.mp hadd)
      have ho : o ∈ objs := hobjs ▸ List.mem_append_right _ List.mem_cons_self
      rw [hread] at hgw
      cases hver : f.inVersion o.cfg.version with
      | true =>
        rw [hver, if_pos rfl] at hgw
        exact ⟨o, ho, hdev.symm, hlead, hgw.symm⟩
      | false =>
        rw [hver, if_neg (by decide)] at hgw
        rcases hc.own pre o post hobjs hcons f hver hip i hi hlead with hnil | ⟨u, hu, hn, hl, hg⟩
        · exact absurd (hgw.trans hnil) hne
        · exact ⟨u, hu, hn.trans hdev.symm, hl, hg.trans hgw.symm⟩
    · intro t f i hcmd ht hex
      have hcmd' : .delRoute t i ∈ delRoutes env wan flag (if flag then .all else ipType) :=
        (List.mem_append.mp hcmd).resolve_right (not_mem_addRoutes_del objs _)
      obtain ⟨hdel, j, hj, he⟩ := mem_delRoutes.mp hcmd'
      obtain ⟨rfl, rfl⟩ := BindCmd.delRoute.inj he
      obtain ⟨hip, pre, o, post, hobjs, hcons, hlead, hne⟩ := hc.kept hdel f i hj ht hex
      exact (exists_route_iff routes hdel hj ht).mpr ⟨_, _, mem_addRoutes.mpr
        ⟨pre, o, post, hobjs, hcons, hj, hlead, hip, by rw [hread]; exact hne, rfl, rfl⟩⟩

/-- WANs that are up only in families of their version, and a changed WAN whose family `ip_type`
names, meet the condition. -/
theorem bindingCond_of_versions {env : BindEnv} {objs : List WanEntryObj} {wan : WanEntryObj}
    {flag : Bool} {ipType : IpType}
    (hup : ∀ o ∈ objs, ∀ f, o.up f = true → f.inVersion o.cfg.version = true)
    (hwan : ∀ f, ∀ i < env.ports, (delType wan flag ipType i).has f = true →
      ipType.has f = true) : BindingCond env objs wan flag ipType where
  own := by
    intro pre o post hobjs hcons f hver hip i hi hlead
    simp only [WanEntryObj.leads, Bool.and_eq_true] at hlead
    have ho : o ∈ objs := hobjs ▸ List.mem_append_right _ List.mem_cons_self
    rw [hup o ho f hlead.2] at hver
    exact absurd hver (by decide)
  kept := by
    rintro - f i hi ht ⟨o, ho, hlead, hgw⟩
    obtain ⟨pre, post, hobjs⟩ := List.append_of_mem ho
    have hl := hlead
    simp only [WanEntryObj.leads, Bool.and_eq_true] at hl
    have hver := hup o ho f hl.2
    have hcons := considered_and_inVersion o f
    rw [hver, Bool.and_true, Bool.and_true, hl.1.1] at hcons
    exact ⟨hwan f i hi ht, pre, o, post, hobjs, hcons, hlead, by rw [hver, if_pos rfl]; exact hgw⟩

/-- The WANs of the failing calls: one of both versions with a gateway, and one of IPv6 only that is
flagged up in IPv4 and has no IPv4 gateway. -/
def bothWan : WanEntryObj := { upv4 := true, cfg := { version := 3, wanmode := 1 } }

def onlyV6Wan : WanEntryObj :=
  { upv4 := true, idx := 1, dev := "nas0_1".toList,
    cfg := { version := 2, wanmode := 1, bindbit := 1 } }

/-- A WAN of IPv4 only that binds the first port. -/
def onlyV4Wan : WanEntryObj := { upv4 := true, cfg := { version := 1, wanmode := 1, bindbit := 1 } }

/-- Only the WAN 0 has a gateway, and only in IPv4. -/
def oneGateway : BindEnv where
  ports := 8
  gateway := fun f idx => if f = .v4 ∧ idx = 0 then "10.0.0.1".toList else []
  lan6 := none
  defRouteIndexV4 := []

/-- The two failures: the IPv6 WAN is routed through the gateway of the WAN before it; and the IPv4
route of the port is deleted by a call for IPv6 and not added again. -/
theorem binding_fails :
    ¬ BindingOk oneGateway [bothWan, onlyV6Wan] bothWan false .all [] ∧
    ¬ BindingOk oneGateway [onlyV4Wan] onlyV4Wan false .v6 [] := by
  constructor
  · intro h
    obtain ⟨o, ho, hdev, -, hgw⟩ := h.added .v4 0 "nas0_1".toList "10.0.0.1".toList (by decide)
    simp only [List.mem_cons, List.not_mem_nil, or_false] at ho
    rcases ho with rfl | rfl
    · exact absurd hdev (by decide)
    · exact absurd hgw (by decide)
  · intro h
    obtain ⟨r, hr, -⟩ := h.restored .v4 .v4 0 (by decide) rfl ⟨onlyV4Wan, by simp, by decide⟩
    exact absurd hr (by decide +revert)

end OnuFirmware.Wan
