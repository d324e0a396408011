import OnuFirmware.Cfg.ReadAttr
import OnuFirmware.Wan.Manager
import OnuFirmware.Wan.PortBinding

/-!
# Policy routes of a WAN (`policy_route.c`)

Traffic from the address of a WAN, and traffic with its mark, is routed by a table of its own. When
the WAN gets an address `set_policy_route` adds the rules and the routes of the family, and when it
loses the address it takes them away. The address that a source rule names is remembered in the
object: `ip_last` and `ip6_last`. Build with `TCSUPPORT_CT_DNSBIND`, without `TCSUPPORT_CT_SDN` and
`TCSUPPORT_VLAN_ACCESS_TRUNK`.

A WAN with SLAAC gets a new IPv6 address while it has one. Then something is remembered, and no rule
is added (`policySteps_follow_iff`).
-/

namespace OnuFirmware.Wan

open Clib Cfg

/-! ## The mask -/

/-- One to three digits and a dot of the pattern in `check_ip_format`: the rest of the text. -/
def groupDot (s : Str) : Option Str :=
  let digits := s.takeWhile isDigit
  if 1 ≤ digits.length ∧ digits.length ≤ 3 then
    match s.dropWhile isDigit with
    | '.' :: r => some r
    | _ => none
  else none

/-- The pattern of `check_ip_format` matches at the start of the text. -/
def matchesIp (s : Str) : Bool :=
  match ((groupDot s).bind groupDot).bind groupDot with
  | some (c :: _) => isDigit c
  | _ => false

/-- `check_ip_format`: `regexec` looks for the pattern anywhere in the text. -/
def checkIpFormat (ipArg : Str) : Bool := (ipArg.take 15).tails.any matchesIp

/-- The word of the four fields that `check_mask_format` separates with `strtok`. -/
def binaryMask (mask : Str) : Word :=
  let p := ((mask.splitOn '.').filter (· ≠ [])).take 4
  p.foldl (fun w t => w <<< 8 ||| BitVec.ofInt 32 (atoi t)) 0

/-- The loop of `check_mask_format` over the bits that are left; a bit that is 0 may not follow one
that is 1. -/
def countMask : Nat → Word → Nat → Option Nat
  | 0, _, maskCounter => some maskCounter
  | n + 1, mask, maskCounter =>
    if mask &&& 1 = 0 then
      if maskCounter ≠ 0 then none else countMask n (mask >>> 1) maskCounter
    else countMask n (mask >>> 1) (maskCounter + 1)

/-- `check_mask_format`: the number of bits as a text, if the mask is accepted. -/
def checkMaskFormat (maskArg : Str) : Option Str :=
  let mask := maskArg.take 15
  if checkIpFormat mask then (countMask 32 (binaryMask mask) 0).map fmtNat else none

/-! ## Commands -/

/-- A route of the WAN's table. A network is given by the texts of an address and a mask, and the
length of the mask. -/
inductive TableRoute
  /-- `default via gw dev dev` -/
  | default (gw dev : Str)
  /-- the network of the WAN: `../len dev dev` -/
  | link (ip netmask len dev : Str)
  /-- the network of the LAN: `../len via ip dev br0` -/
  | lan (ip netmask len : Str)
  /-- `192.168.1.0/24 via 192.168.1.1 dev br0` -/
  | lanDefault
  /-- the delegated prefix: `pd dev br0` -/
  | delegated (pd : Str)
  /-- the network of the WAN for IPv6: `ip/len dev dev` -/
  | link6 (ip len dev : Str)
deriving Repr, DecidableEq

/-- The command lines that `set_policy_route` runs, its calls of `dealwith_link_local_route` and
`cfg_set_object_attr`, and the save it asks for. -/
inductive PolicyCmd
  /-- `iptables -t mangle -D OUTPUT -o dev -j MARK --set-mark mark/0x7f0000` -/
  | markDel (dev : Str) (mark : Nat)
  /-- the same with `-A` -/
  | markAdd (dev : Str) (mark : Nat)
  /-- `ip rule del fwmark mark/0x7f0000 table table`, with `-6` for IPv6 -/
  | fwmarkDel (f : Family) (mark table : Nat)
  | fwmarkAdd (f : Family) (mark table : Nat)
  /-- `ip rule del from addr/32 table table`, for IPv6 `ip -6 rule del from addr/128 table table` -/
  | sourceDel (f : Family) (addr : Str) (table : Nat)
  | sourceAdd (f : Family) (addr : Str) (table : Nat)
  /-- `ip route add .. table table` -/
  | routeAdd (f : Family) (r : TableRoute) (table : Nat)
  /-- `ip route flush table table` -/
  | routeFlush (f : Family) (table : Nat)
  /-- `ip route flush cache` -/
  | cacheFlush
  | linkRoute (dev : Str) (idx : Nat) (op : LinkOp)
  | setAttr (path name val : Str)
  | save
deriving Repr, DecidableEq

/-- The object, with the addresses it remembers. -/
structure PolicyObj extends WanEntryObj where
  ipLast : Str := []
  ip6Last : Str := []
deriving Repr, DecidableEq

namespace PolicyObj

variable (obj : PolicyObj)

/-- `if_name`. -/
def ifName : Str := svcWanIntfName obj.toWanEntryObj 16

/-- `(obj->idx + 1) << 16`. -/
def mark : Nat := (obj.idx + 1) <<< 16

/-- The number of the WAN's table. -/
def table : Nat := 100 + obj.idx

end PolicyObj

/-! ## `set_policy_route` -/

/-- `LAN_ENTRY0_NODE`. -/
def lanEntry0Node : Str := "root.lan.entry.1".toList

/-- `WAN_COMMON_NODE`. -/
def wanCommonNode : Str := "root.wan.common".toList

/-- The default route of the table, if the WAN has a gateway. -/
def gatewayCmds (cfg : Conf) (obj : PolicyObj) : List PolicyCmd :=
  let gateWayV4 := cfgGetObjectAttr (cfg (waninfoEntryNode obj.idx) "GateWay".toList) [] 16
  if 0 < gateWayV4.1 then
    [.linkRoute obj.ifName obj.idx .defaultRouteSwitch,
      .setAttr obj.path "GW_last".toList gateWayV4.2,
      .routeAdd .v4 (.default gateWayV4.2 obj.ifName) obj.table,
      .linkRoute obj.ifName obj.idx .notDefaultRoute]
  else []

/-- The route to the network of an IP WAN; `none` if the function returns because of the mask. -/
def linkCmds (cfg : Conf) (obj : PolicyObj) : Option (List PolicyCmd) :=
  if obj.cfg.linkmode = 1 then
    let ipV4 := cfgGetObjectAttr (cfg (waninfoEntryNode obj.idx) "IP".toList) [] 16
    let netmaskV4 := cfgGetObjectAttr (cfg (waninfoEntryNode obj.idx) "NetMask".toList) [] 16
    if 0 < ipV4.1 ∧ 0 < netmaskV4.1 ∧ netmaskV4.2 ≠ [] ∧ ipV4.2 ≠ [] then
      (checkMaskFormat netmaskV4.2).map fun maskDec =>
        [.routeAdd .v4 (.link ipV4.2 netmaskV4.2 maskDec obj.ifName) obj.table]
    else some []
  else some []

/-- The command that follows the source rule. The buffer still holds `last` if the texts of the LAN
are empty. -/
def lanCmd (cfg : Conf) (obj : PolicyObj) (last : PolicyCmd) : PolicyCmd :=
  let ipV4 := cfgGetObjectAttr (cfg lanEntry0Node "IP".toList) [] 16
  let netmaskV4 := cfgGetObjectAttr (cfg lanEntry0Node "netmask".toList) [] 16
  if 0 < ipV4.1 ∧ 0 < netmaskV4.1 then
    if ipV4.2 ≠ [] ∧ netmaskV4.2 ≠ [] then
      let maskDec := (checkMaskFormat netmaskV4.2).getD (fmtNat 24)
      .routeAdd .v4 (.lan ipV4.2 netmaskV4.2 maskDec) obj.table
    else last
  else .routeAdd .v4 .lanDefault obj.table

/-- The source rule of a WAN in route mode. -/
def sourceCmds (cfg : Conf) (obj : PolicyObj) : List PolicyCmd × PolicyObj :=
  let wIpV4 := cfgGetObjectAttr (cfg (waninfoEntryNode obj.idx) "IP".toList) [] 16
  if obj.cfg.isRoute ∧ 0 < wIpV4.1 then
    let add := PolicyCmd.sourceAdd .v4 wIpV4.2 obj.table
    let release := attrText (cfg wanCommonNode "dhcp_release".toList) 8 []
    (add :: lanCmd cfg obj add :: .setAttr obj.path "IP_last".toList wIpV4.2 ::
        if release = "1".toList then [.save] else [],
      { obj with ipLast := wIpV4.2 })
  else ([], obj)

/-- `EVT_WAN_CONN_GETV4`. -/
def policyGetV4 (cfg : Conf) (obj : PolicyObj) : List PolicyCmd × PolicyObj :=
  let cmds : List PolicyCmd :=
    [.markDel obj.ifName obj.mark, .markAdd obj.ifName obj.mark, .fwmarkDel .v4 obj.mark obj.table,
      .fwmarkAdd .v4 obj.mark obj.table] ++ gatewayCmds cfg obj
  match linkCmds cfg obj with
  | none => (cmds, obj)
  | some link =>
    let source := sourceCmds cfg obj
    (cmds ++ link ++ source.1 ++ [.cacheFlush], source.2)

/-- `EVT_WAN_CONN_LOSTV4`. -/
def policyLostV4 (obj : PolicyObj) : List PolicyCmd × PolicyObj :=
  (.markDel obj.ifName obj.mark ::
      ((if obj.ipLast ≠ [] then [.sourceDel .v4 obj.ipLast obj.table] else []) ++
        [.fwmarkDel .v4 obj.mark obj.table, .routeFlush .v4 obj.table]),
    obj)

/-- The rest of `EVT_WAN_CONN_GETV6`, for a WAN that has an address. -/
def source6Cmds (cfg : Conf) (obj : PolicyObj) : List PolicyCmd × PolicyObj :=
  let wIpV6 := cfgGetObjectAttr (cfg (waninfoEntryNode obj.idx) "IP6".toList) [] 48
  let prefixLen6 := cfgGetObjectAttr (cfg (waninfoEntryNode obj.idx) "PrefixLen6".toList) [] 8
  if 0 < wIpV6.1 ∧ wIpV6.2 ≠ [] then
    let link : List PolicyCmd :=
      if obj.cfg.isPpp = false ∧ 0 < prefixLen6.1 ∧ prefixLen6.2 ≠ [] then
        [.routeAdd .v6 (.link6 wIpV6.2 prefixLen6.2 obj.ifName) obj.table]
      else []
    if obj.ip6Last = [] then
      (link ++ [.sourceAdd .v6 wIpV6.2 obj.table, .setAttr obj.path "IP6_last".toList wIpV6.2],
        { obj with ip6Last := wIpV6.2 })
    else (link, obj)
  else ([], obj)

/-- The default route of the table for IPv6 and the route of the delegated prefix. -/
def gateway6Cmds (cfg : Conf) (obj : PolicyObj) : List PolicyCmd :=
  let gateWayV6 := cfgGetObjectAttr (cfg (waninfoEntryNode obj.idx) "GateWay6".toList) [] 48
  let ipPd6 := cfgGetObjectAttr (cfg (waninfoEntryNode obj.idx) "PD6".toList) [] 64
  (if 0 < gateWayV6.1 then [.routeAdd .v6 (.default gateWayV6.2 obj.ifName) obj.table] else []) ++
    (if 0 < ipPd6.1 ∧ ipPd6.2 ≠ [] then [.routeAdd .v6 (.delegated ipPd6.2) obj.table] else [])

/-- `EVT_WAN_CONN_GETV6`. -/
def policyGetV6 (cfg : Conf) (obj : PolicyObj) : List PolicyCmd × PolicyObj :=
  let source := source6Cmds cfg obj
  ([.fwmarkDel .v6 obj.mark obj.table, .fwmarkAdd .v6 obj.mark obj.table] ++ gateway6Cmds cfg obj ++
      source.1,
    source.2)

/-- `EVT_WAN_CONN_LOSTV6`. -/
def policyLostV6 (obj : PolicyObj) : List PolicyCmd × PolicyObj :=
  ([.fwmarkDel .v6 obj.mark obj.table, .routeFlush .v6 obj.table] ++
      (if obj.ip6Last ≠ [] then [.sourceDel .v6 obj.ip6Last obj.table] else []),
    { obj with ip6Last := [] })

/-- `set_policy_route`. -/
def setPolicyRoute (cfg : Conf) (obj : PolicyObj) : ConnEvt → List PolicyCmd × PolicyObj
  | .get .v4 => policyGetV4 cfg obj
  | .lost .v4 => policyLostV4 obj
  | .get .v6 => policyGetV6 cfg obj
  | .lost .v6 => policyLostV6 obj

/-! ## The rules and the table -/

/-- What `set_policy_route` has set for the WAN: the rules in the chain `OUTPUT` with device and
mark, the rules with a mark and the rules with a source address, each with its table, and the routes
of a table. -/
structure PolicyKernel where
  marks : List (Str × Nat)
  fwmarks : Family → List (Nat × Nat)
  sources : Family → List (Str × Nat)
  routes : Family → Nat → List TableRoute

namespace PolicyKernel

/-- Nothing is set. -/
def empty : PolicyKernel :=
  { marks := [], fwmarks := fun _ => [], sources := fun _ => [], routes := fun _ _ => [] }

variable (k : PolicyKernel)

def setFwmarks (f : Family) (l : List (Nat × Nat)) : PolicyKernel :=
  { k with fwmarks := Function.update k.fwmarks f l }

def setSources (f : Family) (l : List (Str × Nat)) : PolicyKernel :=
  { k with sources := Function.update k.sources f l }

def setRoutes (f : Family) (table : Nat) (l : List TableRoute) : PolicyKernel :=
  { k with routes := Function.update k.routes f (Function.update (k.routes f) table l) }

/-- What a command does. A deletion takes the first rule that is like the given one; a route that is
there is not added again; `dealwith_link_local_route` works on the main table. -/
def run : PolicyCmd → PolicyKernel
  | .markDel dev mark => { k with marks := k.marks.erase (dev, mark) }
  | .markAdd dev mark => { k with marks := k.marks ++ [(dev, mark)] }
  | .fwmarkDel f mark table => k.setFwmarks f ((k.fwmarks f).erase (mark, table))
  | .fwmarkAdd f mark table => k.setFwmarks f (k.fwmarks f ++ [(mark, table)])
  | .sourceDel f addr table => k.setSources f ((k.sources f).erase (addr, table))
  | .sourceAdd f addr table => k.setSources f (k.sources f ++ [(addr, table)])
  | .routeAdd f r table =>
    k.setRoutes f table (if r ∈ k.routes f table then k.routes f table else k.routes f table ++ [r])
  | .routeFlush f table => k.setRoutes f table []
  | .cacheFlush => k
  | .linkRoute .. => k
  | .setAttr .. => k
  | .save => k

/-- The rules are the same; the routes may be others. -/
def SameRules (k' : PolicyKernel) : Prop :=
  k'.marks = k.marks ∧ k'.fwmarks = k.fwmarks ∧ k'.sources = k.sources

end PolicyKernel

/-- The command touches no rule. -/
def PolicyCmd.quiet : PolicyCmd → Bool
  | .routeAdd .. | .routeFlush .. | .cacheFlush | .linkRoute .. | .setAttr .. | .save => true
  | _ => false

theorem PolicyKernel.sameRules_foldl {cmds : List PolicyCmd} (h : ∀ c ∈ cmds, c.quiet = true) :
    ∀ k : PolicyKernel, k.SameRules (cmds.foldl PolicyKernel.run k) := by
  induction cmds with
  | nil => exact fun k => ⟨rfl, rfl, rfl⟩
  | cons c cmds ih =>
    intro k
    obtain ⟨hc, hcmds⟩ := List.forall_mem_cons.mp h
    have hone : k.SameRules (k.run c) := by
      cases c <;> first | exact ⟨rfl, rfl, rfl⟩ | cases hc
    obtain ⟨hm, hf, hs⟩ := ih hcmds (k.run c)
    exact ⟨hm.trans hone.1, hf.trans hone.2.1, hs.trans hone.2.2⟩

/-! ## Events -/

/-- What happens to the object: an event, with what `check_ipv6_info_ready` says and the
configuration that `svc_wan_set_info` leaves, or a direct call of
`svc_wan_handle_event_conn_lostv4_deal` or `svc_wan_handle_event_conn_lostv6_deal`. -/
inductive AddrEvt
  | get (f : Family) (ready : Bool) (cfg : Conf)
  | lost (f : Family)
  | deal (f : Family)

/-- The object and what is set for it. -/
structure PolicyState where
  obj : PolicyObj
  kernel : PolicyKernel

/-- The object when it has been made. -/
def PolicyState.fresh (o : WanEntryObj) : PolicyState :=
  { obj := { toWanEntryObj := { o with upv4 := false, upv6 := false } }, kernel := .empty }

/-- The handler does not return before it has written the flag. -/
def PolicyObj.admits (obj : PolicyObj) : AddrEvt → Bool
  | .get .v4 _ _ => !obj.upv4
  | .get .v6 ready _ => !(obj.upv6 && !obj.cfg.isIpv6Slaac) && ready
  | .lost f => obj.up f && !obj.cfg.isStatic f
  | .deal _ => true

/-- The object with another flag. -/
def PolicyObj.flag (obj : PolicyObj) (f : Family) (up : Bool) : PolicyObj :=
  { obj with toWanEntryObj := obj.toWanEntryObj.setUp f up }

/-- `set_policy_route` and what its commands do. -/
def PolicyState.policy (s : PolicyState) (cfg : Conf) (evt : ConnEvt) : PolicyState :=
  let r := setPolicyRoute cfg s.obj evt
  { obj := r.2, kernel := r.1.foldl PolicyKernel.run s.kernel }

/-- The flag is written, then `set_policy_route` is called. It reads no attribute for a lost
address. -/
def PolicyState.handle (s : PolicyState) : ConnEvt → Conf → PolicyState
  | .get f, cfg => ({ s with obj := s.obj.flag f true } : PolicyState).policy cfg (.get f)
  | .lost f, cfg => ({ s with obj := s.obj.flag f false } : PolicyState).policy cfg (.lost f)

/-- An event that the handler admits. -/
def PolicyState.step (s : PolicyState) : AddrEvt → PolicyState
  | .get f _ cfg => s.handle (.get f) cfg
  | .lost f => s.handle (.lost f) fun _ _ => none
  | .deal f => s.handle (.lost f) fun _ _ => none

/-- An admitted event in a run, with the states before and after it. -/
structure PolicyStep where
  before : PolicyState
  evt : AddrEvt
  after : PolicyState

/-- The admitted events of a run. -/
def policySteps (s : PolicyState) : List AddrEvt → List PolicyStep
  | [] => []
  | e :: es =>
    if s.obj.admits e then ⟨s, e, s.step e⟩ :: policySteps (s.step e) es else policySteps s es

/-! ## What should hold -/

/-- The mask of an IP WAN that `check_mask_format` does not accept. -/
def maskRefused (cfg : Conf) (obj : PolicyObj) : Prop :=
  obj.cfg.linkmode = 1 ∧
    checkMaskFormat (attrText (cfg (waninfoEntryNode obj.idx) "NetMask".toList) 16 []) = none

/-- The address of the WAN: `IP` or `IP6` of its entry in `root.waninfo`. -/
def wanAddr (cfg : Conf) (obj : PolicyObj) : Family → Str
  | .v4 => attrText (cfg (waninfoEntryNode obj.idx) "IP".toList) 16 []
  | .v6 => attrText (cfg (waninfoEntryNode obj.idx) "IP6".toList) 48 []

/-- Nothing of the family is set. -/
def PolicyState.Clean (s : PolicyState) (f : Family) : Prop :=
  s.kernel.sources f = [] ∧ s.kernel.fwmarks f = [] ∧ s.kernel.routes f s.obj.table = [] ∧
    (f = .v4 → s.kernel.marks = [])

/-- The rules follow the address: after it has been got there is one source rule, with it, and after
it has been lost nothing is left. -/
def PolicyStep.Follows (x : PolicyStep) : Prop :=
  match x.evt with
  | .get .v4 _ cfg => wanAddr cfg x.before.obj .v4 ≠ [] → x.before.obj.cfg.isRoute = true →
      ¬ maskRefused cfg x.before.obj →
      x.after.kernel.sources .v4 = [(wanAddr cfg x.before.obj .v4, x.before.obj.table)]
  | .get .v6 _ cfg => wanAddr cfg x.before.obj .v6 ≠ [] →
      x.after.kernel.sources .v6 = [(wanAddr cfg x.before.obj .v6, x.before.obj.table)]
  | .lost f => x.after.Clean f
  | .deal f => x.after.Clean f

/-- An IPv6 address that comes while one is remembered is the same. -/
def PolicyStep.SameAddr (x : PolicyStep) : Prop :=
  match x.evt with
  | .get .v6 _ cfg => wanAddr cfg x.before.obj .v6 ≠ [] → x.before.obj.ip6Last ≠ [] →
      wanAddr cfg x.before.obj .v6 = x.before.obj.ip6Last
  | _ => True

/-! ## The flag -/

namespace PolicyObj

variable (obj : PolicyObj) (f : Family) (b : Bool)

@[simp] theorem ifName_flag : (obj.flag f b).ifName = obj.ifName := by cases f <;> rfl

@[simp] theorem mark_flag : (obj.flag f b).mark = obj.mark := by cases f <;> rfl

@[simp] theorem table_flag : (obj.flag f b).table = obj.table := by cases f <;> rfl

@[simp] theorem cfg_flag : (obj.flag f b).cfg = obj.cfg := by cases f <;> rfl

@[simp] theorem ipLast_flag : (obj.flag f b).ipLast = obj.ipLast := rfl

@[simp] theorem ip6Last_flag : (obj.flag f b).ip6Last = obj.ip6Last := rfl

@[simp] theorem wanAddr_flag (cfg : Conf) (g : Family) :
    wanAddr cfg (obj.flag f b) g = wanAddr cfg obj g := by
  cases f <;> rfl

@[simp] theorem up_flag_self : (obj.flag f b).up f = b := by cases f <;> rfl

theorem maskRefused_flag (cfg : Conf) : maskRefused cfg (obj.flag f b) ↔ maskRefused cfg obj := by
  cases f <;> rfl

end PolicyObj

/-! ## The invariant -/

/-- What is set for the WAN while it is up or down. -/
structure PolicyInv (s : PolicyState) : Prop where
  marks : s.kernel.marks = if s.obj.up .v4 then [(s.obj.ifName, s.obj.mark)] else []
  fwmarks : ∀ f, s.kernel.fwmarks f = if s.obj.up f then [(s.obj.mark, s.obj.table)] else []
  /-- The source rule of IPv4 names the remembered address. -/
  source4 : s.kernel.sources .v4 = [] ∨
    (s.obj.up .v4 = true ∧ s.obj.ipLast ≠ [] ∧ s.kernel.sources .v4 = [(s.obj.ipLast, s.obj.table)])
  /-- For IPv6 there is one exactly while an address is remembered. -/
  source6 : s.kernel.sources .v6 = if s.obj.ip6Last = [] then [] else [(s.obj.ip6Last, s.obj.table)]

theorem policyInv_fresh (o : WanEntryObj) : PolicyInv (.fresh o) where
  marks := rfl
  fwmarks := fun f => by cases f <;> rfl
  source4 := .inl rfl
  source6 := rfl

/-- A rule that is there at most once is gone after a deletion. -/
theorem erase_ite {α : Type*} [BEq α] [LawfulBEq α] {l : List α} {a : α}
    {b : Bool} (h : l = if b then [a] else []) :
    l.erase a = [] := by
  rw [h]
  cases b
  · rfl
  · exact List.erase_cons_head _ _

theorem PolicyKernel.SameRules.trans {k₁ k₂ k₃ : PolicyKernel}
    (h : k₁.SameRules k₂) (h' : k₂.SameRules k₃) :
    k₁.SameRules k₃ :=
  ⟨h'.1.trans h.1, h'.2.1.trans h.2.1, h'.2.2.trans h.2.2⟩

/-! ## A got address -/

/-- A quiet command that is issued under a condition. -/
theorem quiet_of_mem_ite {p : Prop} [Decidable p] {c d : PolicyCmd} (hd : d.quiet = true)
    (hc : c ∈ if p then [d] else []) : c.quiet = true := by
  split at hc
  · obtain rfl := List.mem_singleton.mp hc
    exact hd
  · cases hc

theorem gatewayCmds_quiet (cfg : Conf) (obj : PolicyObj) : ∀ c ∈ gatewayCmds cfg obj,
    c.quiet = true := by
  unfold gatewayCmds
  dsimp only
  split
  · simp [PolicyCmd.quiet]
  · exact fun c hc => nomatch hc

theorem gateway6Cmds_quiet (cfg : Conf) (obj : PolicyObj) :
    ∀ c ∈ gateway6Cmds cfg obj, c.quiet = true := by
  unfold gateway6Cmds
  intro c hc
  rcases List.mem_append.mp hc with hc | hc
  · exact quiet_of_mem_ite rfl hc
  · exact quiet_of_mem_ite rfl hc

theorem linkCmds_quiet {cfg : Conf} {obj : PolicyObj} {link : List PolicyCmd}
    (h : linkCmds cfg obj = some link) : ∀ c ∈ link, c.quiet = true := by
  unfold linkCmds at h
  dsimp only at h
  split at h
  · split at h
    · obtain ⟨maskDec, -, rfl⟩ := Option.map_eq_some_iff.mp h
      simp [PolicyCmd.quiet]
    · obtain rfl := Option.some.inj h
      exact fun c hc => nomatch hc
  · obtain rfl := Option.some.inj h
    exact fun c hc => nomatch hc

/-- The function goes on behind the mask of a WAN, if the mask is accepted. -/
theorem linkCmds_isSome {cfg : Conf} {obj : PolicyObj} (h : ¬ maskRefused cfg obj) :
    ∃ link, linkCmds cfg obj = some link := by
  unfold linkCmds
  dsimp only
  split
  · rename_i hmode
    split
    · cases hmask : checkMaskFormat
        (attrText (cfg (waninfoEntryNode obj.idx) "NetMask".toList) 16 []) with
      | none => exact absurd ⟨hmode, hmask⟩ h
      | some maskDec =>
        simp only [cfgGetObjectAttr_snd, hmask]
        exact ⟨_, rfl⟩
    · exact ⟨_, rfl⟩
  · exact ⟨_, rfl⟩

/-- The texts of the LAN are not empty when they are read, so the buffer is written. -/
theorem lanCmd_quiet (cfg : Conf) (obj : PolicyObj) (last : PolicyCmd) :
    (lanCmd cfg obj last).quiet = true := by
  unfold lanCmd
  dsimp only
  split
  · rename_i hread
    rw [cfgGetObjectAttr_snd, cfgGetObjectAttr_snd,
      if_pos ⟨(cfgGetObjectAttr_pos _ _ _).mp hread.1, (cfgGetObjectAttr_pos _ _ _).mp hread.2⟩]
    rfl
  · rfl

/-- The source rule of IPv4. -/
theorem sourceCmds_spec (cfg : Conf) (obj : PolicyObj) (k : PolicyKernel) :
    let k' := (sourceCmds cfg obj).1.foldl PolicyKernel.run k
    if obj.cfg.isRoute = true ∧ wanAddr cfg obj .v4 ≠ [] then
      (k.setSources .v4 (k.sources .v4 ++ [(wanAddr cfg obj .v4, obj.table)])).SameRules k' ∧
        (sourceCmds cfg obj).2 = { obj with ipLast := wanAddr cfg obj .v4 }
    else k' = k ∧ (sourceCmds cfg obj).2 = obj := by
  intro k'
  have hk' : k' = (sourceCmds cfg obj).1.foldl PolicyKernel.run k := rfl
  have hread := cfgGetObjectAttr_pos (cfg (waninfoEntryNode obj.idx) "IP".toList) [] 16
  unfold sourceCmds at hk' ⊢
  simp only [cfgGetObjectAttr_snd] at hk' ⊢
  by_cases hroute : obj.cfg.isRoute = true ∧ wanAddr cfg obj .v4 ≠ []
  · have hadd := And.intro hroute.1 (hread.mpr hroute.2)
    rw [if_pos hadd] at hk'
    rw [if_pos hroute, if_pos hadd, hk']
    refine ⟨?_, rfl⟩
    refine PolicyKernel.sameRules_foldl ?_ _
    intro c hc
    rcases List.mem_cons.mp hc with rfl | hc
    · exact lanCmd_quiet _ _ _
    · rcases List.mem_cons.mp hc with rfl | hc
      · rfl
      · exact quiet_of_mem_ite rfl hc
  · have hnot : ¬ (obj.cfg.isRoute = true ∧
        0 < (cfgGetObjectAttr (cfg (waninfoEntryNode obj.idx) "IP".toList) [] 16).1) := fun h =>
      hroute ⟨h.1, hread.mp h.2⟩
    rw [if_neg hnot] at hk'
    rw [if_neg hroute, if_neg hnot, hk']
    exact ⟨rfl, rfl⟩

/-- The rules for the mark are taken away and set again. -/
theorem setFwmarks_again {k : PolicyKernel} {f : Family} {mark table : Nat}
    (h : (k.fwmarks f).erase (mark, table) = []) :
    (k.run (.fwmarkDel f mark table)).run (.fwmarkAdd f mark table) =
    k.setFwmarks f [(mark, table)] := by
  simp only [PolicyKernel.run, PolicyKernel.setFwmarks, Function.update_self,
    Function.update_idem, h, List.nil_append]

/-- `EVT_WAN_CONN_GETV4`: the rules for the mark are set, and the source rule if the mask lets the
function go on. -/
theorem policy_getv4 {s : PolicyState} {cfg : Conf}
    (hmarks : s.kernel.marks.erase (s.obj.ifName, s.obj.mark) = [])
    (hfwmarks : (s.kernel.fwmarks .v4).erase (s.obj.mark, s.obj.table) = []) :
    let s' := s.policy cfg (.get .v4)
    s'.kernel.marks = [(s.obj.ifName, s.obj.mark)] ∧
      s'.kernel.fwmarks = Function.update s.kernel.fwmarks .v4 [(s.obj.mark, s.obj.table)] ∧
      if (linkCmds cfg s.obj).isSome = true ∧ s.obj.cfg.isRoute = true ∧
        wanAddr cfg s.obj .v4 ≠ [] then
        s'.kernel.sources = Function.update s.kernel.sources .v4
            (s.kernel.sources .v4 ++ [(wanAddr cfg s.obj .v4, s.obj.table)]) ∧
          s'.obj = { s.obj with ipLast := wanAddr cfg s.obj .v4 }
      else s'.kernel.sources = s.kernel.sources ∧ s'.obj = s.obj := by
  intro s'
  -- the rules behind the commands for the mark
  let k₁ : PolicyKernel :=
    { s.kernel.setFwmarks .v4 [(s.obj.mark, s.obj.table)] with
      marks := [(s.obj.ifName, s.obj.mark)] }
  have hk₁ : [PolicyCmd.markDel s.obj.ifName s.obj.mark, .markAdd s.obj.ifName s.obj.mark,
      .fwmarkDel .v4 s.obj.mark s.obj.table, .fwmarkAdd .v4 s.obj.mark s.obj.table].foldl
        PolicyKernel.run s.kernel = k₁ := by
    simp only [List.foldl_cons, List.foldl_nil]
    rw [setFwmarks_again (k := (s.kernel.run (.markDel s.obj.ifName s.obj.mark)).run
      (.markAdd s.obj.ifName s.obj.mark)) hfwmarks]
    simp only [PolicyKernel.run, hmarks, List.nil_append]
    rfl
  have hgate := PolicyKernel.sameRules_foldl (gatewayCmds_quiet cfg s.obj) k₁
  have hs' : s' = s.policy cfg (.get .v4) := rfl
  unfold PolicyState.policy setPolicyRoute policyGetV4 at hs'
  dsimp only at hs'
  cases hlink : linkCmds cfg s.obj with
  | none =>
    rw [hlink] at hs'
    dsimp only at hs'
    rw [List.foldl_append, hk₁] at hs'
    rw [if_neg fun h => absurd h.1 (by decide), hs']
    exact ⟨hgate.1, hgate.2.1, hgate.2.2, rfl⟩
  | some link =>
    rw [hlink] at hs'
    dsimp only at hs'
    simp only [List.foldl_append, hk₁] at hs'
    have hlinked := hgate.trans (PolicyKernel.sameRules_foldl (linkCmds_quiet hlink) _)
    revert hlinked hs'
    generalize link.foldl PolicyKernel.run ((gatewayCmds cfg s.obj).foldl PolicyKernel.run k₁) = k₂
    intro hs' hlinked
    have hsource := sourceCmds_spec cfg s.obj k₂
    by_cases hroute : s.obj.cfg.isRoute = true ∧ wanAddr cfg s.obj .v4 ≠ []
    · rw [if_pos hroute] at hsource
      rw [if_pos ⟨rfl, hroute⟩, hs']
      obtain ⟨hm, hf, hs⟩ := hsource.1
      refine ⟨hm.trans hlinked.1, hf.trans hlinked.2.1, hs.trans ?_, hsource.2⟩
      rw [PolicyKernel.setSources, hlinked.2.2]
      rfl
    · rw [if_neg hroute] at hsource
      rw [if_neg fun h => hroute h.2, hs', hsource.1]
      exact ⟨hlinked.1, hlinked.2.1, hlinked.2.2, hsource.2⟩

/-- The source rule of IPv6 is set if no address is remembered. -/
theorem source6Cmds_spec (cfg : Conf) (obj : PolicyObj) (k : PolicyKernel) :
    let k' := (source6Cmds cfg obj).1.foldl PolicyKernel.run k
    if wanAddr cfg obj .v6 ≠ [] ∧ obj.ip6Last = [] then
      (k.setSources .v6 (k.sources .v6 ++ [(wanAddr cfg obj .v6, obj.table)])).SameRules k' ∧
        (source6Cmds cfg obj).2 = { obj with ip6Last := wanAddr cfg obj .v6 }
    else k.SameRules k' ∧ (source6Cmds cfg obj).2 = obj := by
  intro k'
  have hk' : k' = (source6Cmds cfg obj).1.foldl PolicyKernel.run k := rfl
  have hread := cfgGetObjectAttr_pos (cfg (waninfoEntryNode obj.idx) "IP6".toList) [] 48
  have hlink : ∀ c ∈ (if obj.cfg.isPpp = false ∧
        0 < (cfgGetObjectAttr (cfg (waninfoEntryNode obj.idx) "PrefixLen6".toList) [] 8).1 ∧
        (cfgGetObjectAttr (cfg (waninfoEntryNode obj.idx) "PrefixLen6".toList) [] 8).2 ≠ [] then
      [PolicyCmd.routeAdd .v6 (.link6 (wanAddr cfg obj .v6)
        (cfgGetObjectAttr (cfg (waninfoEntryNode obj.idx) "PrefixLen6".toList) [] 8).2 obj.ifName) obj.table]
      else []), c.quiet = true := fun c hc => quiet_of_mem_ite rfl hc
  unfold source6Cmds at hk' ⊢
  dsimp only at hk' ⊢
  rw [show (cfgGetObjectAttr (cfg (waninfoEntryNode obj.idx) "IP6".toList) [] 48).2 =
    wanAddr cfg obj .v6 from
    cfgGetObjectAttr_snd _ _ _] at hk' ⊢
  by_cases haddr : wanAddr cfg obj .v6 ≠ []
  · have hgot := And.intro (hread.mpr haddr) haddr
    rw [if_pos hgot] at hk' ⊢
    by_cases hlast : obj.ip6Last = []
    · rw [if_pos hlast, List.foldl_append] at hk'
      rw [if_pos ⟨haddr, hlast⟩, if_pos hlast, hk']
      obtain ⟨hm, hf, hs⟩ := PolicyKernel.sameRules_foldl hlink k
      refine ⟨⟨hm, hf, ?_⟩, rfl⟩
      simp only [List.foldl_cons, List.foldl_nil, PolicyKernel.run, PolicyKernel.setSources]
      rw [hs]
    · rw [if_neg hlast] at hk'
      rw [if_neg fun h => hlast h.2, if_neg hlast, hk']
      exact ⟨PolicyKernel.sameRules_foldl hlink k, rfl⟩
  · rw [if_neg fun h => haddr h.2] at hk'
    rw [if_neg fun h => haddr h.1, if_neg fun h => haddr h.2, hk']
    exact ⟨⟨rfl, rfl, rfl⟩, rfl⟩

/-- `EVT_WAN_CONN_GETV6`: the rules for the mark are set, and the source rule if no address is
remembered. -/
theorem policy_getv6 {s : PolicyState} {cfg : Conf}
    (hfwmarks : (s.kernel.fwmarks .v6).erase (s.obj.mark, s.obj.table) = []) :
    let s' := s.policy cfg (.get .v6)
    s'.kernel.marks = s.kernel.marks ∧
      s'.kernel.fwmarks = Function.update s.kernel.fwmarks .v6 [(s.obj.mark, s.obj.table)] ∧
      if wanAddr cfg s.obj .v6 ≠ [] ∧ s.obj.ip6Last = [] then
        s'.kernel.sources = Function.update s.kernel.sources .v6
            (s.kernel.sources .v6 ++ [(wanAddr cfg s.obj .v6, s.obj.table)]) ∧
          s'.obj = { s.obj with ip6Last := wanAddr cfg s.obj .v6 }
      else s'.kernel.sources = s.kernel.sources ∧ s'.obj = s.obj := by
  intro s'
  have hs' : s' = s.policy cfg (.get .v6) := rfl
  unfold PolicyState.policy setPolicyRoute policyGetV6 at hs'
  simp only [List.foldl_append] at hs'
  rw [show [PolicyCmd.fwmarkDel .v6 s.obj.mark s.obj.table,
    .fwmarkAdd .v6 s.obj.mark s.obj.table].foldl
      PolicyKernel.run s.kernel = s.kernel.setFwmarks .v6 [(s.obj.mark, s.obj.table)] from
    setFwmarks_again hfwmarks] at hs'
  obtain ⟨hm, hf, hs⟩ := PolicyKernel.sameRules_foldl (gateway6Cmds_quiet cfg s.obj)
    (s.kernel.setFwmarks .v6 [(s.obj.mark, s.obj.table)])
  revert hm hf hs hs'
  generalize (gateway6Cmds cfg s.obj).foldl PolicyKernel.run
    (s.kernel.setFwmarks .v6 [(s.obj.mark, s.obj.table)]) = k₂
  intro hs' hm hf hs
  have hsource := source6Cmds_spec cfg s.obj k₂
  by_cases hadd : wanAddr cfg s.obj .v6 ≠ [] ∧ s.obj.ip6Last = []
  · rw [if_pos hadd] at hsource ⊢
    obtain ⟨⟨hm', hf', hs''⟩, hobj⟩ := hsource
    rw [hs']
    refine ⟨hm'.trans hm, hf'.trans hf, hs''.trans ?_, hobj⟩
    rw [PolicyKernel.setSources, hs]
    rfl
  · rw [if_neg hadd] at hsource ⊢
    obtain ⟨⟨hm', hf', hs''⟩, hobj⟩ := hsource
    rw [hs']
    exact ⟨hm'.trans hm, hf'.trans hf, hs''.trans hs, hobj⟩

/-! ## A lost address -/

/-- `EVT_WAN_CONN_LOSTV4`. -/
theorem policy_lostv4 (s : PolicyState) (cfg : Conf) :
    let s' := s.policy cfg (.lost .v4)
    s'.obj = s.obj ∧
      s'.kernel.marks = s.kernel.marks.erase (s.obj.ifName, s.obj.mark) ∧
      s'.kernel.fwmarks = Function.update s.kernel.fwmarks .v4
        ((s.kernel.fwmarks .v4).erase (s.obj.mark, s.obj.table)) ∧
      s'.kernel.sources = (if s.obj.ipLast = [] then s.kernel.sources else
        Function.update s.kernel.sources .v4
          ((s.kernel.sources .v4).erase (s.obj.ipLast, s.obj.table))) ∧
      s'.kernel.routes .v4 s.obj.table = [] := by
  intro s'
  have hs' : s' = s.policy cfg (.lost .v4) := rfl
  unfold PolicyState.policy setPolicyRoute policyLostV4 at hs'
  rw [hs']
  by_cases hlast : s.obj.ipLast = []
  · rw [if_neg (not_not.mpr hlast), if_pos hlast]
    simp [PolicyKernel.run, PolicyKernel.setFwmarks, PolicyKernel.setRoutes]
  · rw [if_pos hlast, if_neg hlast]
    simp [PolicyKernel.run, PolicyKernel.setFwmarks, PolicyKernel.setRoutes,
      PolicyKernel.setSources]

/-- `EVT_WAN_CONN_LOSTV6`. -/
theorem policy_lostv6 (s : PolicyState) (cfg : Conf) :
    let s' := s.policy cfg (.lost .v6)
    s'.obj = { s.obj with ip6Last := [] } ∧
      s'.kernel.marks = s.kernel.marks ∧
      s'.kernel.fwmarks = Function.update s.kernel.fwmarks .v6
        ((s.kernel.fwmarks .v6).erase (s.obj.mark, s.obj.table)) ∧
      s'.kernel.sources = (if s.obj.ip6Last = [] then s.kernel.sources else
        Function.update s.kernel.sources .v6
          ((s.kernel.sources .v6).erase (s.obj.ip6Last, s.obj.table))) ∧
      s'.kernel.routes .v6 s.obj.table = [] := by
  intro s'
  have hs' : s' = s.policy cfg (.lost .v6) := rfl
  unfold PolicyState.policy setPolicyRoute policyLostV6 at hs'
  rw [hs']
  by_cases hlast : s.obj.ip6Last = []
  · rw [if_neg (not_not.mpr hlast), if_pos hlast]
    simp [PolicyKernel.run, PolicyKernel.setFwmarks, PolicyKernel.setRoutes]
  · rw [if_pos hlast, if_neg hlast]
    simp [PolicyKernel.run, PolicyKernel.setFwmarks, PolicyKernel.setRoutes,
      PolicyKernel.setSources]

/-! ## Steps -/

theorem step_getv4 {s : PolicyState} (h : PolicyInv s) (hup : s.obj.up .v4 = false) (cfg : Conf) :
    let s' := s.handle (.get .v4) cfg
    PolicyInv s' ∧ (wanAddr cfg s.obj .v4 ≠ [] → s.obj.cfg.isRoute = true →
      ¬ maskRefused cfg s.obj →
      s'.kernel.sources .v4 = [(wanAddr cfg s.obj .v4, s.obj.table)]) := by
  intro s'
  -- no source rule is left from the last address
  have hnone : s.kernel.sources .v4 = [] := by
    rcases h.source4 with hs | ⟨hup', -, -⟩
    · exact hs
    · rw [hup] at hup'
      cases hup'
  obtain ⟨hmarks, hfwmarks, hsource⟩ := @policy_getv4 { s with obj := s.obj.flag .v4 true } cfg
    (by rw [PolicyObj.ifName_flag, PolicyObj.mark_flag]; exact erase_ite h.marks)
    (by rw [PolicyObj.mark_flag, PolicyObj.table_flag]; exact erase_ite (h.fwmarks .v4))
  simp only [PolicyObj.ifName_flag, PolicyObj.mark_flag, PolicyObj.table_flag, PolicyObj.cfg_flag,
    PolicyObj.wanAddr_flag, hnone, List.nil_append] at hmarks hfwmarks hsource
  have hfw : ∀ f, s'.kernel.fwmarks f =
    if (s.obj.flag .v4 true).up f then [(s.obj.mark, s.obj.table)] else [] := by
    intro f
    refine (congrFun hfwmarks f).trans ?_
    cases f with
    | v4 => rfl
    | v6 => exact h.fwmarks .v6
  split at hsource
  · rename_i hadd
    obtain ⟨hsources, hobj⟩ := hsource
    have hobj' : s'.obj = { s.obj.flag .v4 true with ipLast := wanAddr cfg s.obj .v4 } := hobj
    refine ⟨⟨?_, fun f => ?_, .inr ⟨?_, ?_, ?_⟩, ?_⟩, fun _ _ _ => ?_⟩
    · show _ = if s'.obj.up .v4 then [(s'.obj.ifName, s'.obj.mark)] else []
      rw [hobj']
      exact hmarks
    · rw [hfw, hobj']
      rfl
    · rw [hobj']
      rfl
    · rw [hobj']
      exact hadd.2.2
    · rw [hobj']
      exact congrFun hsources .v4
    · rw [hobj']
      exact (congrFun hsources .v6).trans h.source6
    · exact congrFun hsources .v4
  · rename_i hadd
    obtain ⟨hsources, hobj⟩ := hsource
    have hobj' : s'.obj = s.obj.flag .v4 true := hobj
    refine ⟨⟨?_, fun f => ?_, .inl ?_, ?_⟩, fun haddr hroute hmask => ?_⟩
    · rw [hobj']
      exact hmarks
    · rw [hfw, hobj', PolicyObj.mark_flag, PolicyObj.table_flag]
    · exact (congrFun hsources .v4).trans hnone
    · rw [hobj']
      exact (congrFun hsources .v6).trans h.source6
    · obtain ⟨link, hlink⟩ :=
        linkCmds_isSome (mt (PolicyObj.maskRefused_flag s.obj .v4 true cfg).mp hmask)
      exact absurd ⟨by rw [hlink]; rfl, hroute, haddr⟩ hadd

theorem step_getv6 {s : PolicyState} (h : PolicyInv s) (cfg : Conf) :
    let s' := s.handle (.get .v6) cfg
    PolicyInv s' ∧ s'.kernel.sources .v6 =
      if wanAddr cfg s.obj .v6 ≠ [] ∧ s.obj.ip6Last = [] then [(wanAddr cfg s.obj .v6, s.obj.table)]
      else s.kernel.sources .v6 := by
  intro s'
  obtain ⟨hmarks, hfwmarks, hsource⟩ := @policy_getv6 { s with obj := s.obj.flag .v6 true } cfg
    (by rw [PolicyObj.mark_flag, PolicyObj.table_flag]; exact erase_ite (h.fwmarks .v6))
  simp only [PolicyObj.mark_flag, PolicyObj.table_flag, PolicyObj.wanAddr_flag,
    PolicyObj.ip6Last_flag]
    at hmarks hfwmarks hsource
  have hfw : ∀ f, s'.kernel.fwmarks f =
    if (s.obj.flag .v6 true).up f then [(s.obj.mark, s.obj.table)] else [] := by
    intro f
    refine (congrFun hfwmarks f).trans ?_
    cases f with
    | v4 => exact h.fwmarks .v4
    | v6 => rfl
  split at hsource
  · rename_i hadd
    obtain ⟨hsources, hobj⟩ := hsource
    have hobj' : s'.obj = { s.obj.flag .v6 true with ip6Last := wanAddr cfg s.obj .v6 } := hobj
    have hv6 : s'.kernel.sources .v6 = [(wanAddr cfg s.obj .v6, s.obj.table)] := by
      refine (congrFun hsources .v6).trans ?_
      rw [Function.update_self, h.source6, if_pos hadd.2]
      rfl
    refine ⟨⟨?_, fun f => ?_, ?_, ?_⟩, ?_⟩
    · rw [hobj']
      exact hmarks.trans h.marks
    · rw [hfw, hobj']
      rfl
    · rw [hobj', show s'.kernel.sources .v4 = s.kernel.sources .v4 from congrFun hsources .v4]
      exact h.source4
    · rw [hv6, hobj']
      exact (if_neg hadd.1).symm
    · rw [hv6, if_pos hadd]
  · rename_i hadd
    obtain ⟨hsources, hobj⟩ := hsource
    have hobj' : s'.obj = s.obj.flag .v6 true := hobj
    refine ⟨⟨?_, fun f => ?_, ?_, ?_⟩, ?_⟩
    · rw [hobj']
      exact hmarks.trans h.marks
    · rw [hfw, hobj', PolicyObj.mark_flag, PolicyObj.table_flag]
    · rw [hobj', show s'.kernel.sources = s.kernel.sources from hsources]
      exact h.source4
    · rw [hobj', show s'.kernel.sources = s.kernel.sources from hsources]
      exact h.source6
    · rw [if_neg hadd]
      exact congrFun hsources .v6

theorem step_lostv4 {s : PolicyState} (h : PolicyInv s) (cfg : Conf) :
    let s' := s.handle (.lost .v4) cfg
    PolicyInv s' ∧ s'.Clean .v4 := by
  intro s'
  obtain ⟨hobj, hmarks, hfwmarks, hsources, hroutes⟩ :=
    policy_lostv4 { s with obj := s.obj.flag .v4 false } cfg
  simp only [PolicyObj.ifName_flag, PolicyObj.mark_flag, PolicyObj.table_flag,
    PolicyObj.ipLast_flag]
    at hmarks hfwmarks hsources hroutes
  have hobj' : s'.obj = s.obj.flag .v4 false := hobj
  have hmarks' : s'.kernel.marks = [] := hmarks.trans (erase_ite h.marks)
  have hfw : s'.kernel.fwmarks .v4 = [] := by
    refine (congrFun hfwmarks .v4).trans ?_
    rw [Function.update_self]
    exact erase_ite (h.fwmarks .v4)
  -- the source rule names the address that is remembered
  have hsource : s'.kernel.sources .v4 = [] := by
    refine (congrFun hsources .v4).trans ?_
    rcases h.source4 with hs | ⟨-, hlast, hs⟩
    · split
      · exact hs
      · rw [Function.update_self, hs]
        rfl
    · rw [if_neg hlast, Function.update_self, hs]
      exact List.erase_cons_head _ _
  have hsource6 : s'.kernel.sources .v6 = s.kernel.sources .v6 := by
    refine (congrFun hsources .v6).trans ?_
    split <;> rfl
  refine ⟨⟨?_, fun f => ?_, .inl hsource, ?_⟩, hsource, hfw, ?_, fun _ => hmarks'⟩
  · rw [hmarks', hobj', PolicyObj.up_flag_self]
    rfl
  · rw [hobj', PolicyObj.mark_flag, PolicyObj.table_flag]
    cases f with
    | v4 =>
      rw [hfw, PolicyObj.up_flag_self]
      rfl
    | v6 => exact (congrFun hfwmarks .v6).trans (h.fwmarks .v6)
  · rw [hsource6, hobj']
    exact h.source6
  · rw [hobj', PolicyObj.table_flag]
    exact hroutes

theorem step_lostv6 {s : PolicyState} (h : PolicyInv s) (cfg : Conf) :
    let s' := s.handle (.lost .v6) cfg
    PolicyInv s' ∧ s'.Clean .v6 := by
  intro s'
  obtain ⟨hobj, hmarks, hfwmarks, hsources, hroutes⟩ :=
    policy_lostv6 { s with obj := s.obj.flag .v6 false } cfg
  simp only [PolicyObj.mark_flag, PolicyObj.table_flag, PolicyObj.ip6Last_flag]
    at hmarks hfwmarks hsources hroutes
  have hobj' : s'.obj = { s.obj.flag .v6 false with ip6Last := [] } := hobj
  have hfw : s'.kernel.fwmarks .v6 = [] := by
    refine (congrFun hfwmarks .v6).trans ?_
    rw [Function.update_self]
    exact erase_ite (h.fwmarks .v6)
  have hsource : s'.kernel.sources .v6 = [] := by
    refine (congrFun hsources .v6).trans ?_
    by_cases hlast : s.obj.ip6Last = []
    · rw [if_pos hlast, h.source6, if_pos hlast]
    · rw [if_neg hlast, Function.update_self, h.source6, if_neg hlast]
      exact List.erase_cons_head _ _
  have hsource4 : s'.kernel.sources .v4 = s.kernel.sources .v4 := by
    refine (congrFun hsources .v4).trans ?_
    split <;> rfl
  refine ⟨⟨?_, fun f => ?_, ?_, ?_⟩, hsource, hfw, ?_, fun hv4 => nomatch hv4⟩
  · rw [hobj']
    exact hmarks.trans h.marks
  · rw [hobj']
    cases f with
    | v4 => exact (congrFun hfwmarks .v4).trans (h.fwmarks .v4)
    | v6 => exact hfw
  · rw [hsource4, hobj']
    exact h.source4
  · rw [hsource, hobj']
    rfl
  · rw [hobj']
    exact hroutes

theorem step_lost {s : PolicyState} (h : PolicyInv s) (f : Family) (cfg : Conf) :
    let s' := s.handle (.lost f) cfg
    PolicyInv s' ∧ s'.Clean f := by
  cases f with
  | v4 => exact step_lostv4 h cfg
  | v6 => exact step_lostv6 h cfg

/-- **Every admitted event keeps the invariant, and the rules follow the address exactly if an IPv6
address that comes while one is remembered is the same.** -/
theorem policyStep_follows_iff {s : PolicyState} (h : PolicyInv s)
    {e : AddrEvt} (he : s.obj.admits e = true) :
    PolicyInv (s.step e) ∧
      ((⟨s, e, s.step e⟩ : PolicyStep).Follows ↔ (⟨s, e, s.step e⟩ : PolicyStep).SameAddr) := by
  cases e with
  | get f ready cfg =>
    cases f with
    | v4 =>
      have hup : s.obj.up .v4 = false := by
        rw [PolicyObj.admits, Bool.not_eq_true'] at he
        exact he
      obtain ⟨hinv, hsource⟩ := step_getv4 h hup cfg
      exact ⟨hinv, iff_of_true hsource trivial⟩
    | v6 =>
      obtain ⟨hinv, hsource⟩ := step_getv6 h cfg
      refine ⟨hinv, ?_⟩
      show (_ → (s.handle (.get .v6) cfg).kernel.sources .v6 = _) ↔ (_ → _ → _)
      rw [hsource]
      by_cases hlast : s.obj.ip6Last = []
      · refine iff_of_true (fun haddr => if_pos ⟨haddr, hlast⟩) fun _ hne => absurd hlast hne
      · rw [if_neg fun hadd => hlast hadd.2, h.source6, if_neg hlast]
        refine forall_congr' fun haddr => ?_
        rw [imp_iff_right hlast]
        constructor
        · intro heq
          exact ((Prod.mk.inj (List.singleton_inj.mp heq)).1).symm
        · intro heq
          rw [heq]
  | lost f =>
    obtain ⟨hinv, hclean⟩ := step_lost h f fun _ _ => none
    exact ⟨hinv, iff_of_true hclean trivial⟩
  | deal f =>
    obtain ⟨hinv, hclean⟩ := step_lost h f fun _ _ => none
    exact ⟨hinv, iff_of_true hclean trivial⟩

theorem policySteps_cons {s : PolicyState} {e : AddrEvt}
    (he : s.obj.admits e = true) (es : List AddrEvt) :
    policySteps s (e :: es) = ⟨s, e, s.step e⟩ :: policySteps (s.step e) es := if_pos he

theorem policySteps_iff : ∀ {s : PolicyState}, PolicyInv s → ∀ es : List AddrEvt,
    ∀ x ∈ policySteps s es, x.Follows ↔ x.SameAddr
  | s, h, [] => fun x hx => nomatch hx
  | s, h, e :: es => by
    intro x hx
    by_cases he : s.obj.admits e = true
    · rw [policySteps_cons he] at hx
      obtain ⟨hinv, hiff⟩ := policyStep_follows_iff h he
      rcases List.mem_cons.mp hx with rfl | hx
      · exact hiff
      · exact policySteps_iff hinv es x hx
    · rw [policySteps, if_neg he] at hx
      exact policySteps_iff h es x hx

/-- **In a run the rules follow the address after every event exactly if every IPv6 address that
comes while one is remembered is the same.** -/
theorem policySteps_follow_iff (o : WanEntryObj) (es : List AddrEvt) :
    (∀ x ∈ policySteps (.fresh o) es, x.Follows) ↔ ∀ x ∈ policySteps (.fresh o) es, x.SameAddr :=
  forall_congr' fun x => forall_congr' fun hx => policySteps_iff (policyInv_fresh o) es x hx

/-- A WAN with SLAAC gets an address, and then another one: the rule names the first. -/
theorem not_policySteps_follow : ¬ ∀ (o : WanEntryObj) (es : List AddrEvt),
    ∀ x ∈ policySteps (.fresh o) es, x.Follows := by
  intro h
  let o : WanEntryObj :=
    { dev := "nas0_0".toList,
      cfg := { wanmode := 1, linkmode := 1, version := versionIpv6, ipv6mode := 2 } }
  let got (a : String) : AddrEvt :=
    .get .v6 true fun _ name => if name = "IP6".toList then some a.toList else none
  let s := (PolicyState.fresh o).step (got "2001:db8::1")
  have hmem : ⟨s, got "2001:db8:1::1", s.step (got "2001:db8:1::1")⟩ ∈
      policySteps (.fresh o) [got "2001:db8::1", got "2001:db8:1::1"] := by
    rw [policySteps_cons (by decide), policySteps_cons (by decide +kernel)]
    exact List.mem_cons_of_mem _ List.mem_cons_self
  exact absurd (h o _ _ hmem (by decide +kernel)) (by decide +kernel)

end OnuFirmware.Wan
