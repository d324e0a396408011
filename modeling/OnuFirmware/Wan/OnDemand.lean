import OnuFirmware.Other.AccessRules
import OnuFirmware.Wan.Manager

/-!
# Default routes of on-demand WANs (`wan_polling.c`)

A PPP WAN that connects on demand gets a default route before it is connected, so that traffic can
wake it up. `OnDemandRouteIndexv4` and `OnDemandRouteIndexv6` say which WAN has it.
`notify_OnDemandWan_Switch` is called again and again: it adds the routes that are asked for
(`AddRouteforOnDemandWan`), and when the WAN with the route cannot connect it switches to another
one. Build with `TCSUPPORT_CT_PPP_ONDEMAND`; `SVC_WAN_MAX_PVC_NUM` is 8 (no `TCSUPPORT_CMCC`).

`AddRouteforOnDemandWan` also routes the bound ports of the WAN. For IPv6 it calls `sprintf` with
the size of the buffer where the format belongs. That is undefined, so the functions here return
`none` then.
-/

namespace OnuFirmware.Wan

open Clib Cfg
open Other (setAttr setAttr_self setAttr_of_ne)

/-! ## Attributes -/

/-- The build: `IPV6`, and `TCSUPPORT_WLAN_AC` for the ports of `bl_map_data`. -/
structure OnDemandBuild where
  ipv6 : Bool
  wlanAc : Bool
deriving Repr, DecidableEq

/-- `AddRouteforOnDemandWan` knows the family. -/
def OnDemandBuild.knows (b : OnDemandBuild) : Family → Bool
  | .v4 => true
  | .v6 => b.ipv6

/-- `SVC_WAN_IS_CONN_ON_DEMAND`. -/
def WanEntryCfg.isConnOnDemand (x : WanEntryCfg) : Bool := x.connMode == 1

def waninfoCommonNode : Str := "root.waninfo.common".toList
def globalstateCommonNode : Str := "root.globalstate.common".toList

/-- The node of a WAN, from its index. -/
def onDemandEntryNode (ifIndex : Nat) : Str := wanPvcEntryNode (ifIndex / 8 + 1) (ifIndex % 8 + 1)

/-- `WAN_COMMON_DEFROUTEIDXV4` or `WAN_COMMON_DEFROUTEIDXV6`. -/
def defRouteName : Family → Str
  | .v4 => "DefRouteIndexv4".toList
  | .v6 => "DefRouteIndexv6".toList

/-- `WAN_COMMON_ONDEMANDIDXV4` or `WAN_COMMON_ONDEMANDIDXV6`. -/
def onDemandName : Family → Str
  | .v4 => "OnDemandRouteIndexv4".toList
  | .v6 => "OnDemandRouteIndexv6".toList

/-- `isOndemandv4Del` or `isOndemandv6Del`. -/
def onDemandDelName : Family → Str
  | .v4 => "isOndemandv4Del".toList
  | .v6 => "isOndemandv6Del".toList

/-- `Status` or `Status6`. -/
def statusName : Family → Str
  | .v4 => "Status".toList
  | .v6 => "Status6".toList

/-- One of the four indices of `WANINFO_COMMON_NODE`; `-1` if the attribute has none. -/
def routeIndex (cfg : Conf) (name : Str) : Int :=
  let got := cfgGetObjectAttr (cfg waninfoCommonNode name) [] 10
  if 0 < got.1 ∧ got.2 ≠ [] ∧ got.2 ≠ notAvailable then atoi got.2 else -1

/-- `i_def_route_index_v4` or `i_def_route_index_v6`. -/
def defIndex (cfg : Conf) (f : Family) : Int := routeIndex cfg (defRouteName f)

/-- `i_ondemand_route_index_v4` or `i_ondemand_route_index_v6`. -/
def onDemandIndex (cfg : Conf) (f : Family) : Int := routeIndex cfg (onDemandName f)

/-! ## The state -/

/-- Where the entry that gets a route is looked at: in its attributes or in its WAN object. -/
inductive RouteEntry where
  | attrs (ifIndex : Nat)
  | obj (o : WanEntryObj)
deriving Repr, DecidableEq

/-- What happens to the default routes of a family: `/sbin/route del default dev ..`,
`/sbin/route add default dev ..` (with `-A inet6` for `v6`), the new index of the family, and
`portbindcmd addroute v4 .. ..` for the device of a bound port. -/
inductive RouteEvt where
  | del (f : Family) (dev : Str)
  | add (f : Family) (dev : Str) (entry : RouteEntry)
  | index (f : Family) (text : Str) (entry : RouteEntry)
  | port (realif dev : Str)
deriving Repr, DecidableEq

/-- The configuration, `ondemand_route_state`, the attribute `dnsmaskRestart`, and what has happened
to the routes, each with the configuration before it. -/
structure OnDemandState where
  cfg : Conf
  routeState : Nat → Bool
  dnsmaskRestart : Bool
  log : List (Conf × RouteEvt)

namespace OnDemandState

/-- Something happens to the routes. -/
def emit (s : OnDemandState) (e : RouteEvt) : OnDemandState :=
  { s with log := s.log ++ [(s.cfg, e)] }

/-- `cfg_set_object_attr`. -/
def set (s : OnDemandState) (path name val : Str) : OnDemandState :=
  { s with cfg := setAttr s.cfg path name val }

/-- `set_ondemand_route_state`. -/
def setRouteState (s : OnDemandState) (ifIndex : Nat) (state : Bool) : OnDemandState :=
  if 64 ≤ ifIndex then s else { s with routeState := Function.update s.routeState ifIndex state }

/-- `get_ondemand_route_state`. -/
def getRouteState (s : OnDemandState) (ifIndex : Nat) : Bool :=
  if 64 ≤ ifIndex then false else s.routeState ifIndex

end OnDemandState

/-! ## Adding the route that was asked for -/

/-- The part of `AddRouteforOnDemandWan` for one family, with the indices read before. -/
def addRouteFamily (f : Family) (ifIndex : Nat) (ifname : Str) (wanted : Bool)
    (iDef iOnDemand : Int) (s : OnDemandState) : OnDemandState :=
  if wanted ∧ iDef = -1 ∧ (iOnDemand = -1 ∨ (0 ≤ iOnDemand ∧ (ifIndex : Int) = iOnDemand)) then
    let s := if 0 ≤ iOnDemand ∧ (ifIndex : Int) = iOnDemand then s.emit (.del f ifname) else s
    let s := (s.emit (.add f ifname (.attrs ifIndex))).emit
      (.index f (fmtNat ifIndex) (.attrs ifIndex))
    (s.set waninfoCommonNode (onDemandName f) (fmtNat ifIndex)).set (waninfoEntryNode ifIndex)
      (onDemandDelName f) notAvailable
  else s

/-- The families of an `IPVERSION`. -/
def versionFamilies (text : Str) : Option (Family → Bool) :=
  if text = "IPv4".toList then some fun f => f == .v4
  else if text = "IPv6".toList then some fun f => f == .v6
  else if text = "IPv4/IPv6".toList then some fun _ => true
  else none

/-- The attributes that `AddRouteforOnDemandWan` checks: the name of the interface, and the families
for which the entry may get a route. -/
def onDemandAttrs (cfg : Conf) (ifIndex : Nat) : Option (Str × (Family → Bool)) :=
  let node := onDemandEntryNode ifIndex
  let ispMode := cfgGetObjectAttr (cfg node "ISP".toList) [] 12
  let connection := cfgGetObjectAttr (cfg node "CONNECTION".toList) [] 32
  let ipVersion := cfgGetObjectAttr (cfg node "IPVERSION".toList) [] 20
  let ifname := cfgGetObjectAttr (cfg node "IFName".toList) [] 32
  let serviceList := cfgGetObjectAttr (cfg node "ServiceList".toList) [] 64
  if ispMode.1 < 0 ∨ atoi ispMode.2 ≠ 2 then none
  else if connection.1 < 0 ∨ connection.2 ≠ "Connect_on_Demand".toList then none
  else if ipVersion.1 < 0 then none
  else if ifname.1 ≤ 0 then none
  else
    let isInternet : Bool := 0 < serviceList.1 && hasStr serviceList.2 "INTERNET".toList
    (versionFamilies ipVersion.2).map fun fams => (ifname.2, fun f => isInternet && fams f)

/-- What the attributes tell that `set_portbinding_info_for_ondemand_wan` checks: the families. -/
def portAttrs (cfg : Conf) (ifIndex : Nat) : Option (Family → Bool) :=
  let node := onDemandEntryNode ifIndex
  let ispMode := cfgGetObjectAttr (cfg node "ISP".toList) [] 12
  let connection := cfgGetObjectAttr (cfg node "CONNECTION".toList) [] 32
  let ipVersion := cfgGetObjectAttr (cfg node "IPVERSION".toList) [] 20
  if ispMode.1 < 0 ∨ atoi ispMode.2 ≠ 2 then none
  else if connection.1 < 0 ∨ connection.2 ≠ "Connect_on_Demand".toList then none
  else if ipVersion.1 < 0 then none
  else versionFamilies ipVersion.2

/-- The port of `bl_map_data` is bound to the WAN. What `bl_buf` held before does not matter: it is
looked at only when the read has filled it. -/
def portBound (cfg : Conf) (ifIndex : Nat) (bindif : Str) : Bool :=
  let got := cfgGetObjectAttr (cfg (onDemandEntryNode ifIndex) bindif) [] 12
  0 < got.1 && got.2 == "Yes".toList

/-- One turn of `set_portbinding_info_for_ondemand_wan`; `none` at the `sprintf` for IPv6. -/
def portTurn (b : OnDemandBuild) (ifIndex : Nat) (ifname : Str) (fams : Family → Bool)
    (s : OnDemandState) (port : Str × Str) : Option OnDemandState :=
  if portBound s.cfg ifIndex port.1 then
    let s := if fams .v4 then s.emit (.port port.2 ifname) else s
    if b.ipv6 && fams .v6 then none else some s
  else some s

/-- `set_portbinding_info_for_ondemand_wan`. -/
def setPortbindingInfoForOndemandWan (b : OnDemandBuild) (ifIndex : Nat) (ifname : Str)
    (s : OnDemandState) : Option OnDemandState :=
  match portAttrs s.cfg ifIndex with
  | none => some s
  | some fams => (blMapData b.wlanAc).foldlM (portTurn b ifIndex ifname fams) s

/-- `AddRouteforOnDemandWan` for the WAN with an index: the return value and the state. -/
def addRouteforOnDemandWan (b : OnDemandBuild) (ifIndex : Nat) (s : OnDemandState) :
    Option (Int × OnDemandState) :=
  match onDemandAttrs s.cfg ifIndex with
  | none => some (-1, s)
  | some (ifname, wanted) =>
    let iDefV4 := defIndex s.cfg .v4
    let iDefV6 := defIndex s.cfg .v6
    let iOnDemandV4 := onDemandIndex s.cfg .v4
    let iOnDemandV6 := onDemandIndex s.cfg .v6
    let s := addRouteFamily .v4 ifIndex ifname (wanted .v4) iDefV4 iOnDemandV4 s
    let s :=
      if b.ipv6 then addRouteFamily .v6 ifIndex ifname (wanted .v6) iDefV6 iOnDemandV6 s else s
    (setPortbindingInfoForOndemandWan b ifIndex ifname s).map fun s => (0, s)

/-- The texts that the first loop of `notify_OnDemandWan_Switch` reads for the WAN with an index:
its pid file, and the output of `pidof pppd`. -/
structure PppPids where
  pidFile : Nat → Str
  pidof : Nat → Str

/-- `strstr(pidallbuf, pidbuf)`: the daemon of the WAN runs. -/
def PppPids.running (pids : PppPids) (ifIndex : Nat) : Bool :=
  hasStr (pids.pidof ifIndex) (pids.pidFile ifIndex)

/-- The variables of `notify_OnDemandWan_Switch` that the first loop changes. -/
structure AddLoop where
  s : OnDemandState
  valid : Nat → Bool
  needRestart : Bool

/-- The end of a turn: `valid_ondemand_if` of the WAN. -/
def AddLoop.mark (l : AddLoop) (o : WanEntryObj) : AddLoop :=
  if o.cfg.isConnOnDemand then { l with valid := Function.update l.valid o.idx true } else l

/-- One turn of the first loop. -/
def addTurn (b : OnDemandBuild) (pids : PppPids) (l : AddLoop) (o : WanEntryObj) : Option AddLoop :=
  if l.s.getRouteState o.idx then
    if pids.running o.idx then
      (addRouteforOnDemandWan b o.idx l.s).map fun (r : Int × OnDemandState) => AddLoop.mark
        { l with s := r.2.setRouteState o.idx false, needRestart := l.needRestart || r.1 == 0 } o
    else some l
  else some (l.mark o)

/-- The first loop; whether it came to its end. -/
def addLoop (b : OnDemandBuild) (pids : PppPids) :
    List WanEntryObj → AddLoop → Option (Bool × AddLoop)
  | [], l => some (true, l)
  | o :: objs, l =>
    if 64 ≤ o.idx then some (false, l) else (addTurn b pids l o).bind (addLoop b pids objs)

/-! ## Switching to another WAN -/

/-- `check_add_route_ondemand`, without the new route state. -/
def checkAddRouteOndemand (cfg : Conf) (ifIndex : Nat) (f : Family) : Bool :=
  let status := attrText (cfg (waninfoEntryNode ifIndex) (statusName f)) 8 []
  let isDel := attrText (cfg (waninfoEntryNode ifIndex) (onDemandDelName f)) 8 []
  decide (status ≠ "up".toList ∧ (isDel = [] ∨ isDel ≠ notAvailable))

/-- The family whose own on-demand WAN is checked first. -/
def selfFamily (cfg : Conf) : Option Family :=
  if defIndex cfg .v4 = -1 ∧ 0 ≤ onDemandIndex cfg .v4 then some .v4
  else if defIndex cfg .v6 = -1 ∧ 0 ≤ onDemandIndex cfg .v6 then some .v6
  else none

/-- What the check of the own on-demand WAN ends with. -/
inductive SelfCheck where
  /-- The index leads to no WAN that may have a route. -/
  | invalid
  /-- There is nothing to do. -/
  | stay
  /-- The WAN is given up; `asks` says that its route is asked for again. -/
  | leave (oldIfname : Str) (asks : Bool)
deriving Repr, DecidableEq

/-- The check of the own on-demand WAN of a family. -/
def selfCheck (cfg : Conf) (f : Family) : SelfCheck :=
  let ifIndex := (onDemandIndex cfg f).toNat
  let node := onDemandEntryNode ifIndex
  let connactive := cfgGetObjectAttr (cfg node "Active".toList) [] 8
  let ispMode := cfgGetObjectAttr (cfg node "ISP".toList) [] 12
  let connection := cfgGetObjectAttr (cfg node "CONNECTION".toList) [] 32
  let serviceList := cfgGetObjectAttr (cfg node "ServiceList".toList) [] 64
  let oldIfname := cfgGetObjectAttr (cfg node "IFName".toList) [] 16
  let lasterror := cfgGetObjectAttr (cfg node "ConnectionError".toList) [] 128
  if connactive.1 < 0 ∨ connactive.2 ≠ "Yes".toList ∨ ispMode.1 < 0 ∨ atoi ispMode.2 ≠ 2 ∨
      connection.1 < 0 ∨ connection.2 ≠ "Connect_on_Demand".toList ∨ serviceList.1 < 0 ∨
      hasStr serviceList.2 "INTERNET".toList = false ∨ oldIfname.1 ≤ 0 then .invalid
  else if lasterror.1 < 0 ∨ (lasterror.2 ≠ "ERROR_AUTHENTICATION_FAILURE".toList ∧
      lasterror.2 ≠ "ERROR_ISP_TIME_OUT".toList) then
    if lasterror.2 ≠ "ERROR_IDLE_DISCONNECT".toList ∨
        checkAddRouteOndemand cfg ifIndex f = false then .stay
    else .leave oldIfname.2 true
  else .leave oldIfname.2 false

/-- `isFoundOnDemand`. -/
def foundOnDemand (cfg : Conf) (valid : Nat → Bool) : Bool :=
  (List.range 64).any fun idx =>
    valid idx && onDemandIndex cfg .v4 != idx && onDemandIndex cfg .v6 != idx

/-- The tests that end the function before the second loop, with `isFoundOnDemand`. -/
def noSwitch (cfg : Conf) (found : Bool) : Prop :=
  (onDemandIndex cfg .v4 ≠ -1 ∧ onDemandIndex cfg .v6 ≠ -1) ∨
  ((defIndex cfg .v4 ≠ -1 ∧ 0 ≤ onDemandIndex cfg .v4) ∨
    (defIndex cfg .v6 ≠ -1 ∧ 0 ≤ onDemandIndex cfg .v6)) ∨
  (((defIndex cfg .v4 = -1 ∧ onDemandIndex cfg .v4 = -1) ∨
    (defIndex cfg .v6 = -1 ∧ onDemandIndex cfg .v6 = -1)) ∧
    found = false)

instance (cfg : Conf) (found : Bool) : Decidable (noSwitch cfg found) :=
  inferInstanceAs (Decidable (_ ∨ _))

/-- The second loop takes the object. -/
def switchable (cfg : Conf) (o : WanEntryObj) : Bool :=
  let lasterror := cfgGetObjectAttr (cfg o.path "ConnectionError".toList) [] 128
  onDemandIndex cfg .v4 != o.idx && onDemandIndex cfg .v6 != o.idx && o.cfg.isActive &&
    o.cfg.isPpp && o.cfg.isConnOnDemand && o.dev != [] && o.cfg.srvInternet &&
    !(lasterror.1 < 0 || lasterror.2 == "ERROR_AUTHENTICATION_FAILURE".toList ||
      lasterror.2 == "ERROR_ISP_TIME_OUT".toList) && (o.cfg.isIpv4 || o.cfg.isIpv6)

/-- The object that the second loop takes; an index above `MAX_WAN_IF_INDEX` ends the search. -/
def switchTarget (cfg : Conf) : List WanEntryObj → Option WanEntryObj
  | [] => none
  | o :: objs =>
    if 64 < o.idx then none else if switchable cfg o then some o else switchTarget cfg objs

/-- The end of the second loop for one family. -/
def switchFamily (f : Family) (found : Bool) (iOnDemand : Int) (oldIfname : Str) (o : WanEntryObj)
    (s : OnDemandState) : OnDemandState :=
  if (found ∨ 0 ≤ iOnDemand) ∧ o.cfg.hasFamily f then
    let s := if oldIfname ≠ [] then s.emit (.del f oldIfname) else s
    let s := (s.emit (.add f o.dev (.obj o))).emit (.index f (snprintf 4 (fmtNat o.idx)) (.obj o))
    s.set waninfoCommonNode (onDemandName f) (snprintf 4 (fmtNat o.idx))
  else s

/-- The rest of `notify_OnDemandWan_Switch`, once the own on-demand WAN has been given up. -/
def switchRest (objs : List WanEntryObj) (valid : Nat → Bool) (cfg : Conf) (oldIfname : Str)
    (s : OnDemandState) : OnDemandState :=
  let found := foundOnDemand cfg valid
  if noSwitch cfg found then s
  else
    match switchTarget cfg objs with
    | none => s
    | some o =>
      switchFamily .v6 found (onDemandIndex cfg .v6) oldIfname o
        (switchFamily .v4 found (onDemandIndex cfg .v4) oldIfname o s)

/-- What `notify_OnDemandWan_Switch` does behind its first loop. -/
def switchOnDemand (objs : List WanEntryObj) (valid : Nat → Bool) (s : OnDemandState) :
    OnDemandState :=
  if defIndex s.cfg .v4 ≠ -1 ∧ defIndex s.cfg .v6 ≠ -1 then s
  else
    match selfFamily s.cfg with
    | none => switchRest objs valid s.cfg [] s
    | some f =>
      match selfCheck s.cfg f with
      | .invalid => s.set waninfoCommonNode (onDemandName f) notAvailable
      | .stay => s
      | .leave oldIfname asks =>
        let cfg := s.cfg
        let s := if asks then s.setRouteState (onDemandIndex s.cfg f).toNat true else s
        switchRest objs valid cfg oldIfname s

/-- `notify_OnDemandWan_Switch`. -/
def notifyOnDemandWanSwitch (b : OnDemandBuild) (pids : PppPids) (objs : List WanEntryObj)
    (s : OnDemandState) : Option OnDemandState :=
  let wanboot := cfgGetObjectAttr (s.cfg globalstateCommonNode "wanboot".toList) [] 8
  if wanboot.1 < 0 ∨ wanboot.2 ≠ "1".toList then some s
  else
    (addLoop b pids objs { s := s, valid := fun _ => false, needRestart := false }).map fun r =>
      if r.1 then
        switchOnDemand objs r.2.valid
          (if r.2.needRestart then { r.2.s with dnsmaskRestart := true } else r.2.s)
      else r.2.s

/-! ## What is right -/

/-- The index of the default route of the family is `N/A` or absent. -/
def noDefRoute (cfg : Conf) (f : Family) : Prop :=
  attrText (cfg waninfoCommonNode (defRouteName f)) 10 [] = [] ∨
    attrText (cfg waninfoCommonNode (defRouteName f)) 10 [] = notAvailable

/-- The entry is active, PPP, on demand, of Internet service, and has the family. -/
def RouteEntry.right (cfg : Conf) (f : Family) : RouteEntry → Prop
  | .attrs ifIndex =>
    let node := onDemandEntryNode ifIndex
    attrText (cfg node "Active".toList) 8 [] = "Yes".toList ∧
      atoi (attrText (cfg node "ISP".toList) 12 []) = 2 ∧
      attrText (cfg node "CONNECTION".toList) 32 [] = "Connect_on_Demand".toList ∧
      hasStr (attrText (cfg node "ServiceList".toList) 64 []) "INTERNET".toList = true ∧
      (versionFamilies (attrText (cfg node "IPVERSION".toList) 20 [])).any (· f) = true
  | .obj o =>
    o.cfg.isActive = true ∧ o.cfg.isPpp = true ∧ o.cfg.isConnOnDemand = true ∧
      o.cfg.srvInternet = true ∧ o.cfg.hasFamily f = true

/-- What happens to the routes, in a configuration, is right. A route that goes is the one of the
WAN that the family's own index names; the name of a device has at most 15 characters. The route of
a bound port is no default route. -/
def RouteEvt.right (cfg : Conf) : RouteEvt → Prop
  | .del f dev =>
    0 ≤ onDemandIndex cfg f ∧
      dev.take 15 =
        attrText (cfg (onDemandEntryNode (onDemandIndex cfg f).toNat) "IFName".toList) 16 []
  | .add f _ entry => noDefRoute cfg f ∧ entry.right cfg f
  | .index f _ entry => noDefRoute cfg f ∧ entry.right cfg f
  | .port _ _ => True

/-- Everything that has happened to the routes is right. -/
def OnDemandState.RoutesRight (s : OnDemandState) : Prop := ∀ e ∈ s.log, e.2.right e.1

/-- The call does nothing undefined, and everything that it does to the routes is right. -/
def EndsRight (r : Option OnDemandState) : Prop := ∃ s, r = some s ∧ s.RoutesRight

instance (cfg : Conf) (f : Family) : Decidable (noDefRoute cfg f) :=
  inferInstanceAs (Decidable (_ ∨ _))

instance (cfg : Conf) (f : Family) : ∀ entry : RouteEntry, Decidable (entry.right cfg f)
  | .attrs _ => inferInstanceAs (Decidable (_ ∧ _))
  | .obj _ => inferInstanceAs (Decidable (_ ∧ _))

instance (cfg : Conf) : ∀ e : RouteEvt, Decidable (e.right cfg)
  | .del _ _ => inferInstanceAs (Decidable (_ ∧ _))
  | .add _ _ _ => inferInstanceAs (Decidable (_ ∧ _))
  | .index _ _ _ => inferInstanceAs (Decidable (_ ∧ _))
  | .port _ _ => inferInstanceAs (Decidable True)

instance (s : OnDemandState) : Decidable s.RoutesRight :=
  inferInstanceAs (Decidable (∀ e ∈ s.log, _))

instance : ∀ r : Option OnDemandState, Decidable (EndsRight r)
  | none => isFalse fun h => nomatch h.choose_spec.1
  | some s => decidable_of_iff s.RoutesRight
    ⟨fun h => ⟨s, rfl, h⟩, fun ⟨_, he, h⟩ => Option.some.inj he ▸ h⟩

namespace OnDemandState

variable {s : OnDemandState}

theorem routesRight_emit {e : RouteEvt} :
    (s.emit e).RoutesRight ↔ s.RoutesRight ∧ e.right s.cfg := by
  unfold RoutesRight emit
  rw [List.forall_mem_append, List.forall_mem_singleton]

/-- The new route and the new index of the family are right together. -/
theorem routesRight_emit_add {f : Family} {dev text : Str} {entry : RouteEntry} :
    ((s.emit (.add f dev entry)).emit (.index f text entry)).RoutesRight ↔
      s.RoutesRight ∧ noDefRoute s.cfg f ∧ entry.right s.cfg f := by
  rw [routesRight_emit, routesRight_emit]
  exact ⟨fun h => h.1, fun h => ⟨h, h.2⟩⟩

theorem routesRight_set {path name val : Str} : (s.set path name val).RoutesRight ↔
    s.RoutesRight := Iff.rfl

theorem routesRight_setRouteState {ifIndex : Nat} {state : Bool} :
    (s.setRouteState ifIndex state).RoutesRight ↔ s.RoutesRight := by
  unfold setRouteState
  split <;> rfl

theorem cfg_setRouteState {ifIndex : Nat} {state : Bool} :
    (s.setRouteState ifIndex state).cfg = s.cfg := by
  unfold setRouteState
  split <;> rfl

end OnDemandState

/-! ## The first loop -/

variable {b : OnDemandBuild}

/-- `AddRouteforOnDemandWan` gives the WAN with an index a route of the family. -/
def addsRoute (b : OnDemandBuild) (cfg : Conf) (f : Family) (ifIndex : Nat) : Prop :=
  b.knows f = true ∧ (onDemandAttrs cfg ifIndex).any (fun a => a.2 f) = true ∧
    defIndex cfg f = -1 ∧ (onDemandIndex cfg f = -1 ∨ onDemandIndex cfg f = ifIndex)

instance (cfg : Conf) (f : Family) (ifIndex : Nat) : Decidable (addsRoute b cfg f ifIndex) :=
  inferInstanceAs (Decidable (_ ∧ _))

/-- `AddRouteforOnDemandWan` comes to the `sprintf` for IPv6: it takes a WAN of that family to which
a port is bound. -/
def BindFaults (b : OnDemandBuild) (cfg : Conf) (ifIndex : Nat) : Prop :=
  b.ipv6 = true ∧ (onDemandAttrs cfg ifIndex).isSome = true ∧
    (portAttrs cfg ifIndex).any (· .v6) = true ∧
    ∃ port ∈ blMapData b.wlanAc, portBound cfg ifIndex port.1 = true

instance (cfg : Conf) (ifIndex : Nat) : Decidable (BindFaults b cfg ifIndex) :=
  inferInstanceAs (Decidable (_ ∧ _))

/-- What `AddRouteforOnDemandWan` leaves to chance: the WAN is active, and the index of the default
route reads `-1` because there is none. -/
def AddRight (cfg : Conf) (f : Family) (ifIndex : Nat) : Prop :=
  attrText (cfg (onDemandEntryNode ifIndex) "Active".toList) 8 [] = "Yes".toList ∧ noDefRoute cfg f

/-- The configuration after a route of the family has been added for the WAN. -/
def afterAdd (f : Family) (added : Option Nat) (cfg : Conf) : Conf :=
  match added with
  | none => cfg
  | some ifIndex =>
    setAttr (setAttr cfg waninfoCommonNode (onDemandName f) (fmtNat ifIndex))
      (waninfoEntryNode ifIndex)
      (onDemandDelName f) notAvailable

/-- Only the index of the family and its flag are different then. -/
theorem afterAdd_of_ne {f : Family} {added : Option Nat} {cfg : Conf} {p name : Str}
    (hindex : name ≠ onDemandName f) (hdel : name ≠ onDemandDelName f) :
    afterAdd f added cfg p name = cfg p name := by
  unfold afterAdd
  cases added with
  | none => rfl
  | some ifIndex =>
    dsimp only
    rw [setAttr_of_ne (.inr hdel), setAttr_of_ne (.inr hindex)]

theorem onDemandName_ne_onDemandDelName (f g : Family) : onDemandName f ≠ onDemandDelName g := by
  cases f <;> cases g <;> decide

theorem defRouteName_ne (f g : Family) :
    defRouteName f ≠ onDemandName g ∧ defRouteName f ≠ onDemandDelName g := by
  cases f <;> cases g <;> decide

theorem onDemandName_inj {f g : Family} (h : onDemandName f = onDemandName g) : f = g := by
  cases f <;> cases g <;> first | rfl | exact absurd h (by decide)

theorem routeIndex_congr {cfg cfg' : Conf} {name : Str}
    (h : cfg' waninfoCommonNode name = cfg waninfoCommonNode name) :
    routeIndex cfg' name = routeIndex cfg name := by
  unfold routeIndex
  rw [h]

/-- The index that a WAN leaves is its own. -/
theorem routeIndex_some {cfg : Conf} {name : Str} {ifIndex : Nat} (hi : ifIndex < 64)
    (h : cfg waninfoCommonNode name = some (fmtNat ifIndex)) : routeIndex cfg name = ifIndex := by
  have hlen : (fmtNat ifIndex).length < 10 :=
    Nat.lt_of_le_of_lt ((length_fmtNat_le (by decide)).mpr (Nat.lt_trans hi (by decide) :
      ifIndex < 10 ^ 9))
      (by decide)
  unfold routeIndex
  rw [h]
  dsimp only [cfgGetObjectAttr_some]
  rw [snprintf_eq hlen, atoi_fmtNat (by rw [intMax]; omega), if_pos]
  refine ⟨?_, fmtNat_ne_nil _, fun hna => ?_⟩
  · exact Int.natCast_pos.mpr (List.length_pos_iff.mpr (fmtNat_ne_nil _))
  · have hN : 'N' ∈ fmtNat ifIndex := hna ▸ by decide
    exact absurd (isDigit_of_mem_fmtNat hN) (by decide)

theorem defIndex_afterAdd (f g : Family) (added : Option Nat) (cfg : Conf) :
    defIndex (afterAdd f added cfg) g = defIndex cfg g :=
  routeIndex_congr (afterAdd_of_ne (defRouteName_ne g f).1 (defRouteName_ne g f).2)

theorem onDemandIndex_afterAdd_of_ne {f g : Family} (h : g ≠ f) (added : Option Nat) (cfg : Conf) :
    onDemandIndex (afterAdd f added cfg) g = onDemandIndex cfg g :=
  routeIndex_congr (afterAdd_of_ne (fun he => h (onDemandName_inj he))
    (onDemandName_ne_onDemandDelName g f))

theorem onDemandIndex_afterAdd_self {f : Family} {ifIndex : Nat} (hi : ifIndex < 64) (cfg : Conf) :
    onDemandIndex (afterAdd f (some ifIndex) cfg) f = ifIndex := by
  refine routeIndex_some hi ?_
  unfold afterAdd
  dsimp only
  rw [setAttr_of_ne (.inr (onDemandName_ne_onDemandDelName f f)), setAttr_self]

/-- The attributes of an entry that are checked stay. -/
theorem onDemandAttrs_afterAdd (f : Family) (added : Option Nat) (cfg : Conf) (ifIndex : Nat) :
    onDemandAttrs (afterAdd f added cfg) ifIndex = onDemandAttrs cfg ifIndex ∧
      portAttrs (afterAdd f added cfg) ifIndex = portAttrs cfg ifIndex := by
  have hne : ∀ name ∈ ["ISP".toList, "CONNECTION".toList, "IPVERSION".toList, "IFName".toList,
      "ServiceList".toList], name ≠ onDemandName f ∧ name ≠ onDemandDelName f := by
    cases f <;> decide
  have hkeep : ∀ name ∈ ["ISP".toList, "CONNECTION".toList, "IPVERSION".toList, "IFName".toList,
      "ServiceList".toList], ∀ p, afterAdd f added cfg p name = cfg p name := fun name hname p =>
    afterAdd_of_ne (hne name hname).1 (hne name hname).2
  simp only [List.forall_mem_cons] at hkeep
  obtain ⟨hisp, hconn, hversion, hname, hlist, -⟩ := hkeep
  unfold onDemandAttrs portAttrs
  dsimp only
  rw [hisp, hconn, hversion, hname, hlist]
  exact ⟨rfl, rfl⟩

/-- So do the ports that are bound to it. -/
theorem portBound_afterAdd (f : Family) (added : Option Nat) (cfg : Conf) (ifIndex : Nat)
    {wlanAc : Bool} {port : Str × Str} (hport : port ∈ blMapData wlanAc) :
    portBound (afterAdd f added cfg) ifIndex port.1 = portBound cfg ifIndex port.1 := by
  have hne : ∀ port ∈ blMapData wlanAc,
      port.1 ≠ onDemandName f ∧ port.1 ≠ onDemandDelName f := by
    cases wlanAc <;> cases f <;> decide
  unfold portBound
  rw [afterAdd_of_ne (hne port hport).1 (hne port hport).2]

theorem bindFaults_afterAdd (f : Family) (added : Option Nat) (cfg : Conf) (ifIndex : Nat) :
    BindFaults b (afterAdd f added cfg) ifIndex ↔ BindFaults b cfg ifIndex := by
  unfold BindFaults
  rw [(onDemandAttrs_afterAdd f added cfg ifIndex).1,
    (onDemandAttrs_afterAdd f added cfg ifIndex).2]
  refine and_congr_right fun _ => and_congr_right fun _ => and_congr_right fun _ => ?_
  exact exists_congr fun port => and_congr_right fun hport => by
    rw [portBound_afterAdd f added cfg ifIndex hport]

theorem addRight_afterAdd (f g : Family) (added : Option Nat) (cfg : Conf) (ifIndex : Nat) :
    AddRight (afterAdd f added cfg) g ifIndex ↔ AddRight cfg g ifIndex := by
  unfold AddRight noDefRoute
  rw [@afterAdd_of_ne f added cfg _ "Active".toList (by cases f <;> decide) (by cases f <;> decide),
    afterAdd_of_ne (defRouteName_ne g f).1 (defRouteName_ne g f).2]

/-- Whether the WAN gets a route of a family does not depend on the other family. -/
theorem addsRoute_afterAdd_of_ne {f g : Family} (h : g ≠ f) (added : Option Nat)
    (cfg : Conf) (ifIndex : Nat) :
    addsRoute b (afterAdd f added cfg) g ifIndex ↔ addsRoute b cfg g ifIndex := by
  unfold addsRoute
  rw [(onDemandAttrs_afterAdd f added cfg ifIndex).1, defIndex_afterAdd,
    onDemandIndex_afterAdd_of_ne h]

/-- A text that is cut twice. -/
theorem take_attrText (attr : Option Str) :
    (attrText attr 32 []).take 15 = attrText attr 16 [] := by
  cases attr with
  | none => rfl
  | some v => exact List.take_take.trans (by rfl)

/-- What the attributes have told. -/
theorem onDemandAttrs_right {cfg : Conf} {ifIndex : Nat} {a : Str × (Family → Bool)}
    (h : onDemandAttrs cfg ifIndex = some a) :
    a.1 = attrText (cfg (onDemandEntryNode ifIndex) "IFName".toList) 32 [] ∧
    ∀ f, a.2 f = true →
      ((RouteEntry.attrs ifIndex).right cfg f ↔
        attrText (cfg (onDemandEntryNode ifIndex) "Active".toList) 8 [] = "Yes".toList) := by
  unfold onDemandAttrs at h
  dsimp only at h
  split at h
  · cases h
  · rename_i hisp
    split at h
    · cases h
    · rename_i hconn
      split at h
      · cases h
      · split at h
        · cases h
        · obtain ⟨fams, hfams, rfl⟩ := Option.map_eq_some_iff.mp h
          refine ⟨cfgGetObjectAttr_snd _ _ _, fun f hf => ?_⟩
          obtain ⟨hinternet, hf⟩ := Bool.and_eq_true_iff.mp hf
          obtain ⟨-, hinternet⟩ := Bool.and_eq_true_iff.mp hinternet
          rw [cfgGetObjectAttr_snd] at hisp hconn hinternet hfams
          unfold RouteEntry.right
          refine and_iff_left ⟨?_, ?_, hinternet, ?_⟩
          · exact not_not.mp fun hne => hisp (.inr hne)
          · exact not_not.mp fun hne => hconn (.inr hne)
          · rw [hfams]
            exact hf

/-- **One family of `AddRouteforOnDemandWan`**: a route is added when it should be, and the
configuration is as `afterAdd` says. -/
theorem addRouteFamily_spec {f : Family} (hf : b.knows f = true) {ifIndex : Nat}
    {a : Str × (Family → Bool)} {s : OnDemandState}
    (ha : onDemandAttrs s.cfg ifIndex = some a) :
    let s' := addRouteFamily f ifIndex a.1 (a.2 f) (defIndex s.cfg f) (onDemandIndex s.cfg f) s
    (s'.RoutesRight ↔ s.RoutesRight ∧ (addsRoute b s.cfg f ifIndex → AddRight s.cfg f ifIndex)) ∧
      s'.cfg = afterAdd f (if addsRoute b s.cfg f ifIndex then some ifIndex else none) s.cfg ∧
      s'.routeState = s.routeState := by
  intro s'
  have hiff : addsRoute b s.cfg f ifIndex ↔ a.2 f = true ∧ defIndex s.cfg f = -1 ∧
      (onDemandIndex s.cfg f = -1 ∨
        (0 ≤ onDemandIndex s.cfg f ∧ (ifIndex : Int) = onDemandIndex s.cfg f)) := by
    unfold addsRoute
    rw [ha, Option.any_some, and_iff_right hf]
    refine and_congr_right fun _ => and_congr_right fun _ => or_congr_right ?_
    constructor
    · intro h
      exact ⟨h ▸ Int.natCast_nonneg _, h.symm⟩
    · intro h
      exact h.2.symm
  by_cases hadds : addsRoute b s.cfg f ifIndex
  · have hcond := hiff.mp hadds
    obtain ⟨hname, hentry⟩ := onDemandAttrs_right ha
    -- the route that goes first, if there is one, is the WAN's own
    have hdel : onDemandIndex s.cfg f = ifIndex → RouteEvt.right s.cfg (.del f a.1) := by
      intro h
      show 0 ≤ onDemandIndex s.cfg f ∧ a.1.take 15 = _
      rw [h, Int.toNat_natCast, hname, take_attrText]
      exact ⟨Int.natCast_nonneg _, rfl⟩
    have hadd : noDefRoute s.cfg f ∧ (RouteEntry.attrs ifIndex).right s.cfg f ↔
      AddRight s.cfg f ifIndex := by
      rw [hentry f hcond.1]
      exact And.comm
    have hs' : s' =
      addRouteFamily f ifIndex a.1 (a.2 f) (defIndex s.cfg f) (onDemandIndex s.cfg f) s := rfl
    unfold addRouteFamily at hs'
    rw [if_pos hcond] at hs'
    dsimp only at hs'
    rw [if_pos hadds, hs']
    refine ⟨?_, ?_, ?_⟩
    · rw [OnDemandState.routesRight_set, OnDemandState.routesRight_set,
        OnDemandState.routesRight_emit_add]
      split
      · rename_i hown
        rw [OnDemandState.routesRight_emit, and_iff_left (hdel hown.2.symm), imp_iff_right hadds]
        exact and_congr_right fun _ => hadd
      · rw [hadd, imp_iff_right hadds]
    · split <;> rfl
    · split <;> rfl
  · have hs' : s' = s := if_neg fun h => hadds (hiff.mpr h)
    rw [hs', if_neg hadds]
    exact ⟨(and_iff_left fun h => absurd h hadds).symm, rfl, rfl⟩

/-- The configuration after routes of both families have been added. -/
def afterAdds (added : Family → Option Nat) (cfg : Conf) : Conf :=
  afterAdd .v6 (added .v6) (afterAdd .v4 (added .v4) cfg)

/-- The routes of bound ports change nothing that matters here. -/
structure SameRoutes (s s' : OnDemandState) : Prop where
  right : s'.RoutesRight ↔ s.RoutesRight
  cfg : s'.cfg = s.cfg
  routeState : s'.routeState = s.routeState

theorem sameRoutes_refl (s : OnDemandState) : SameRoutes s s := ⟨Iff.rfl, rfl, rfl⟩

theorem SameRoutes.trans {s s' s'' : OnDemandState} (h : SameRoutes s s') (h' : SameRoutes s' s'') :
    SameRoutes s s'' :=
  ⟨h'.right.trans h.right, h'.cfg.trans h.cfg, h'.routeState.trans h.routeState⟩

theorem sameRoutes_port (s : OnDemandState) (realif dev : Str) :
    SameRoutes s (s.emit (.port realif dev)) :=
  ⟨OnDemandState.routesRight_emit.trans (and_iff_left trivial), rfl, rfl⟩

/-- One turn for a bound port is undefined for IPv6. -/
theorem portTurn_spec (ifIndex : Nat) (ifname : Str) (fams : Family → Bool) (s : OnDemandState)
    (port : Str × Str) :
    ∃ s', SameRoutes s s' ∧ portTurn b ifIndex ifname fams s port =
      if b.ipv6 = true ∧ fams .v6 = true ∧ portBound s.cfg ifIndex port.1 = true then none
      else some s' := by
  unfold portTurn
  by_cases hbound : portBound s.cfg ifIndex port.1 = true
  · rw [if_pos hbound]
    simp only [hbound, and_true, Bool.and_eq_true]
    refine ⟨_, ?_, rfl⟩
    split
    · exact sameRoutes_port s port.2 ifname
    · exact sameRoutes_refl s
  · refine ⟨s, sameRoutes_refl s, ?_⟩
    rw [if_neg hbound, if_neg fun h => hbound h.2.2]

theorem foldlM_portTurn_spec (ifIndex : Nat) (ifname : Str) (fams : Family → Bool)
    (ports : List (Str × Str)) (s : OnDemandState) :
    ∃ s', SameRoutes s s' ∧ ports.foldlM (portTurn b ifIndex ifname fams) s =
      if b.ipv6 = true ∧ fams .v6 = true ∧
        ∃ port ∈ ports, portBound s.cfg ifIndex port.1 = true then none
      else some s' := by
  induction ports generalizing s with
  | nil =>
    refine ⟨s, sameRoutes_refl s, (if_neg fun h => ?_).symm⟩
    obtain ⟨_, hport, _⟩ := h.2.2
    exact absurd hport List.not_mem_nil
  | cons port ports ih =>
    obtain ⟨s₁, hsame₁, hturn⟩ := portTurn_spec (b := b) ifIndex ifname fams s port
    obtain ⟨s₂, hsame₂, hturns⟩ := ih s₁
    refine ⟨s₂, hsame₁.trans hsame₂, ?_⟩
    rw [List.foldlM_cons, hturn]
    simp only [List.mem_cons, exists_eq_or_imp]
    by_cases hport : b.ipv6 = true ∧ fams .v6 = true ∧ portBound s.cfg ifIndex port.1 = true
    · rw [if_pos hport, if_pos ⟨hport.1, hport.2.1, .inl hport.2.2⟩]
      rfl
    · rw [if_neg hport]
      refine hturns.trans (if_congr ?_ rfl rfl)
      rw [hsame₁.cfg]
      refine and_congr_right fun h => and_congr_right fun h' => (or_iff_right fun h'' => ?_).symm
      exact hport ⟨h, h', h''⟩

/-- What `AddRouteforOnDemandWan` does for the WAN with an index, as far as it is defined. -/
structure AddedRoutes (b : OnDemandBuild) (ifIndex : Nat) (s s' : OnDemandState) : Prop where
  right : s'.RoutesRight ↔
    s.RoutesRight ∧ ∀ f, addsRoute b s.cfg f ifIndex → AddRight s.cfg f ifIndex
  cfg : s'.cfg =
    afterAdds (fun f => if addsRoute b s.cfg f ifIndex then some ifIndex else none) s.cfg
  routeState : s'.routeState = s.routeState

/-- The two families one after the other: the indices have been read before, but the first family
leaves those of the second. -/
theorem addRouteFamilies_spec {ifIndex : Nat} {a : Str × (Family → Bool)} {s : OnDemandState}
    (ha : onDemandAttrs s.cfg ifIndex = some a) :
    let s₄ :=
      addRouteFamily .v4 ifIndex a.1 (a.2 .v4) (defIndex s.cfg .v4) (onDemandIndex s.cfg .v4) s
    AddedRoutes b ifIndex s (if b.ipv6 then addRouteFamily .v6 ifIndex a.1 (a.2 .v6)
      (defIndex s.cfg .v6) (onDemandIndex s.cfg .v6) s₄ else s₄) := by
  intro s₄
  obtain ⟨hright₄, hcfg₄, hstate₄⟩ := addRouteFamily_spec (b := b) (f := .v4) rfl ha
  have hboth : ∀ {p : Family → Prop}, (∀ f, p f) ↔ p .v4 ∧ p .v6 :=
    ⟨fun h => ⟨h .v4, h .v6⟩, fun h f => by cases f; exacts [h.1, h.2]⟩
  cases hipv6 : b.ipv6 with
  | false =>
    have hnot : ¬ addsRoute b s.cfg .v6 ifIndex := fun h => by
      have hknows : b.ipv6 = true := h.1
      rw [hipv6] at hknows
      cases hknows
    rw [if_neg Bool.false_ne_true]
    refine ⟨hright₄.trans (and_congr_right fun _ => ?_), hcfg₄.trans ?_, hstate₄⟩
    · rw [hboth, and_iff_left fun h => absurd h hnot]
    · rw [afterAdds, if_neg hnot]
      rfl
  | true =>
    have ha₆ : onDemandAttrs s₄.cfg ifIndex = some a := by
      rw [hcfg₄, (onDemandAttrs_afterAdd _ _ _ _).1, ha]
    have hdef : defIndex s₄.cfg .v6 = defIndex s.cfg .v6 := by rw [hcfg₄, defIndex_afterAdd]
    have hindex : onDemandIndex s₄.cfg .v6 = onDemandIndex s.cfg .v6 := by
      rw [hcfg₄, onDemandIndex_afterAdd_of_ne (by decide)]
    have hadds : addsRoute b s₄.cfg .v6 ifIndex ↔ addsRoute b s.cfg .v6 ifIndex := by
      rw [hcfg₄, addsRoute_afterAdd_of_ne (by decide)]
    have hadd : AddRight s₄.cfg .v6 ifIndex ↔ AddRight s.cfg .v6 ifIndex := by
      rw [hcfg₄, addRight_afterAdd]
    obtain ⟨hright₆, hcfg₆, hstate₆⟩ := addRouteFamily_spec (b := b) (f := .v6) hipv6 ha₆
    rw [hdef, hindex] at hright₆ hcfg₆ hstate₆
    rw [if_pos rfl]
    refine ⟨?_, ?_, hstate₆.trans hstate₄⟩
    · rw [hright₆, hright₄, hadds, hadd, and_assoc, hboth]
    · rw [hcfg₆, afterAdds]
      simp only [hadds]
      rw [hcfg₄]

/-- **`AddRouteforOnDemandWan`**. -/
theorem addRouteforOnDemandWan_spec (ifIndex : Nat) (s : OnDemandState) :
    ∃ r, AddedRoutes b ifIndex s r.2 ∧ addRouteforOnDemandWan b ifIndex s =
      if BindFaults b s.cfg ifIndex then none else some r := by
  unfold addRouteforOnDemandWan
  cases ha : onDemandAttrs s.cfg ifIndex with
  | none =>
    have hnot : ∀ f, ¬ addsRoute b s.cfg f ifIndex := by
      intro f h
      rw [addsRoute, ha] at h
      cases h.2.1
    refine ⟨(-1, s), ⟨(and_iff_left fun f h => absurd h (hnot f)).symm, ?_, rfl⟩, ?_⟩
    · simp only [if_neg (hnot _)]
      rfl
    · rw [if_neg]
      intro h
      rw [BindFaults, ha] at h
      cases h.2.1
  | some a =>
    dsimp only
    have hadded := addRouteFamilies_spec (b := b) ha
    revert hadded
    dsimp only
    generalize (if b.ipv6 = true then addRouteFamily .v6 ifIndex a.1 (a.2 .v6)
      (defIndex s.cfg .v6) (onDemandIndex s.cfg .v6) _ else _) = s₁
    intro hadded
    -- the ports are looked up behind the new routes, which leave what is read there
    have hports : portAttrs s₁.cfg ifIndex = portAttrs s.cfg ifIndex := by
      rw [hadded.cfg, afterAdds, (onDemandAttrs_afterAdd _ _ _ _).2,
        (onDemandAttrs_afterAdd _ _ _ _).2]
    have hbound : ∀ port ∈ blMapData b.wlanAc,
        portBound s₁.cfg ifIndex port.1 = portBound s.cfg ifIndex port.1 := by
      intro port hport
      rw [hadded.cfg, afterAdds, portBound_afterAdd _ _ _ _ hport,
        portBound_afterAdd _ _ _ _ hport]
    have hfaults : BindFaults b s.cfg ifIndex ↔ b.ipv6 = true ∧
        (portAttrs s.cfg ifIndex).any (· .v6) = true ∧
        ∃ port ∈ blMapData b.wlanAc, portBound s.cfg ifIndex port.1 = true := by
      rw [BindFaults, ha, Option.isSome_some, and_iff_right rfl]
    unfold setPortbindingInfoForOndemandWan
    simp only [hports, hfaults]
    cases portAttrs s.cfg ifIndex with
    | none =>
      refine ⟨(0, s₁), hadded, ?_⟩
      rw [if_neg fun h => Bool.false_ne_true h.2.1]
      rfl
    | some fams =>
      obtain ⟨s₂, hsame, hturns⟩ :=
        foldlM_portTurn_spec (b := b) ifIndex a.1 fams (blMapData b.wlanAc) s₁
      refine ⟨(0, s₂), ⟨hsame.right.trans hadded.right, hsame.cfg.trans hadded.cfg,
        hsame.routeState.trans hadded.routeState⟩, ?_⟩
      dsimp only
      rw [hturns, Option.any_some, apply_ite (Option.map _)]
      refine if_congr (and_congr_right fun _ => and_congr_right fun _ => ?_) rfl rfl
      exact exists_congr fun port => and_congr_right fun hport => by rw [hbound port hport]

/-- Routes of the two families are added in any order. -/
theorem afterAdd_comm (a b : Option Nat) (cfg : Conf) :
    afterAdd .v6 b (afterAdd .v4 a cfg) = afterAdd .v4 a (afterAdd .v6 b cfg) := by
  have hcongr : ∀ (f : Family) (c : Option Nat) {cfg cfg' : Conf} {p name : Str},
      cfg' p name = cfg p name → afterAdd f c cfg' p name = afterAdd f c cfg p name := by
    intro f c cfg cfg' p name h
    cases c with
    | none => exact h
    | some i => simp only [afterAdd, setAttr, h]
  funext p name
  by_cases hv₆ : name = onDemandName .v6 ∨ name = onDemandDelName .v6
  · have hv₄ : name ≠ onDemandName .v4 ∧ name ≠ onDemandDelName .v4 := by
      rcases hv₆ with rfl | rfl <;> decide
    rw [afterAdd_of_ne hv₄.1 hv₄.2]
    exact hcongr .v6 b (afterAdd_of_ne hv₄.1 hv₄.2)
  · rw [not_or] at hv₆
    rw [afterAdd_of_ne hv₆.1 hv₆.2]
    exact (hcongr .v4 a (afterAdd_of_ne hv₆.1 hv₆.2)).symm

/-- Two rounds, where no family gets two routes. -/
theorem afterAdds_afterAdds {a b : Family → Option Nat} (h : ∀ f, a f ≠ none → b f = none)
    (cfg : Conf) :
    afterAdds b (afterAdds a cfg) = afterAdds (fun f => (a f).or (b f)) cfg := by
  have hone : ∀ f cfg, afterAdd f (b f) (afterAdd f (a f) cfg) =
    afterAdd f ((a f).or (b f)) cfg := by
    intro f cfg
    have hf := h f
    cases ha : a f with
    | none => rfl
    | some i =>
      rw [hf (by rw [ha]; exact Option.some_ne_none i)]
      rfl
  unfold afterAdds
  rw [← afterAdd_comm (b .v4), hone, hone]

/-- The first loop adds a route of the family for the WAN with an index, as long as no WAN has got
one before. -/
def asksFor (b : OnDemandBuild) (pids : PppPids) (cfg : Conf) (routeState : Nat → Bool) (f : Family)
    (ifIndex : Nat) : Bool :=
  routeState ifIndex && pids.running ifIndex && decide (addsRoute b cfg f ifIndex)

/-- The first WAN that asks; an index from `MAX_WAN_IF_INDEX` on ends the search. -/
def firstAdd (asks : Nat → Bool) : List WanEntryObj → Option Nat
  | [] => none
  | o :: objs => if 64 ≤ o.idx then none else if asks o.idx then some o.idx else firstAdd asks objs

/-- A WAN that connects on demand counts as another WAN, unless its daemon should run and does
not. -/
def countsAsValid (pids : PppPids) (routeState : Nat → Bool) (o : WanEntryObj) : Bool :=
  o.cfg.isConnOnDemand && !(routeState o.idx && !pids.running o.idx)

theorem firstAdd_congr {asks asks' : Nat → Bool} (h : ∀ i < 64, asks i = asks' i) :
    ∀ objs : List WanEntryObj, firstAdd asks objs = firstAdd asks' objs
  | [] => rfl
  | o :: objs => by
    unfold firstAdd
    split
    · rfl
    · rw [h o.idx (by omega), firstAdd_congr h objs]

theorem firstAdd_eq_none {asks : Nat → Bool}
    (h : ∀ i < 64, asks i = false) (objs : List WanEntryObj) :
    firstAdd asks objs = none := by
  rw [@firstAdd_congr asks (fun _ => false) h]
  induction objs with
  | nil => rfl
  | cons o objs ih =>
    unfold firstAdd
    rw [ih, if_neg Bool.false_ne_true, ite_self]

theorem AddLoop.mark_s (l : AddLoop) (o : WanEntryObj) : (l.mark o).s = l.s := by
  unfold AddLoop.mark
  split <;> rfl

theorem AddLoop.mark_valid (l : AddLoop) (o : WanEntryObj) (i : Nat) :
    (l.mark o).valid i = (l.valid i || (o.idx == i && o.cfg.isConnOnDemand)) := by
  unfold AddLoop.mark
  by_cases hi : i = o.idx
  · subst hi
    cases o.cfg.isConnOnDemand <;> simp
  · have hne : (o.idx == i) = false := beq_eq_false_iff_ne.mpr (Ne.symm hi)
    rw [hne]
    cases o.cfg.isConnOnDemand <;> simp [hi]

/-- The turn of a WAN comes to the `sprintf` for IPv6. -/
def TurnFaults (b : OnDemandBuild) (pids : PppPids) (cfg : Conf) (routeState : Nat → Bool)
    (ifIndex : Nat) : Prop :=
  routeState ifIndex = true ∧ pids.running ifIndex = true ∧ BindFaults b cfg ifIndex

instance (pids : PppPids) (cfg : Conf) (routeState : Nat → Bool) (ifIndex : Nat) :
    Decidable (TurnFaults b pids cfg routeState ifIndex) :=
  inferInstanceAs (Decidable (_ ∧ _))

/-- What one turn of the first loop does, as far as it is defined. -/
structure AddTurned (b : OnDemandBuild) (pids : PppPids) (l : AddLoop) (o : WanEntryObj)
    (l' : AddLoop) : Prop where
  right : l'.s.RoutesRight ↔ l.s.RoutesRight ∧
    ∀ f, asksFor b pids l.s.cfg l.s.routeState f o.idx = true → AddRight l.s.cfg f o.idx
  cfg : l'.s.cfg = afterAdds
    (fun f => if asksFor b pids l.s.cfg l.s.routeState f o.idx then some o.idx else none) l.s.cfg
  routeState : l'.s.routeState = if l.s.routeState o.idx && pids.running o.idx then
    Function.update l.s.routeState o.idx false else l.s.routeState
  valid : ∀ i, l'.valid i = (l.valid i || (o.idx == i && countsAsValid pids l.s.routeState o))

/-- **One turn of the first loop.** -/
theorem addTurn_spec (pids : PppPids) (l : AddLoop) {o : WanEntryObj} (ho : o.idx < 64) :
    ∃ l', AddTurned b pids l o l' ∧ addTurn b pids l o =
      if TurnFaults b pids l.s.cfg l.s.routeState o.idx then none else some l' := by
  unfold addTurn
  rw [show l.s.getRouteState o.idx = l.s.routeState o.idx from if_neg (by omega)]
  by_cases hrun : (l.s.routeState o.idx && pids.running o.idx) = true
  · obtain ⟨hstate, hpid⟩ := Bool.and_eq_true_iff.mp hrun
    have hasks : ∀ f, asksFor b pids l.s.cfg l.s.routeState f o.idx =
        decide (addsRoute b l.s.cfg f o.idx) := by
      intro f
      rw [asksFor, hrun, Bool.true_and]
    have hvalid : countsAsValid pids l.s.routeState o = o.cfg.isConnOnDemand := by
      rw [countsAsValid, hpid, Bool.not_true, Bool.and_false, Bool.not_false, Bool.and_true]
    obtain ⟨r, hadded, hr⟩ := addRouteforOnDemandWan_spec (b := b) o.idx l.s
    rw [if_pos hstate, if_pos hpid, hr, apply_ite (Option.map _)]
    refine ⟨_, ?_, if_congr (and_iff_right hstate |>.trans (and_iff_right hpid)).symm rfl rfl⟩
    refine ⟨?_, ?_, ?_, fun i => ?_⟩
    · simp only [AddLoop.mark_s, hasks, decide_eq_true_eq]
      exact OnDemandState.routesRight_setRouteState.trans hadded.right
    · simp only [AddLoop.mark_s, hasks, decide_eq_true_eq]
      exact OnDemandState.cfg_setRouteState.trans hadded.cfg
    · rw [if_pos hrun, AddLoop.mark_s, OnDemandState.setRouteState, if_neg (by omega),
        hadded.routeState]
    · rw [AddLoop.mark_valid, hvalid]
  · have hnot : ¬ TurnFaults b pids l.s.cfg l.s.routeState o.idx := fun h =>
      hrun (Bool.and_eq_true_iff.mpr ⟨h.1, h.2.1⟩)
    have hasks : ∀ f, asksFor b pids l.s.cfg l.s.routeState f o.idx = false := by
      intro f
      rw [asksFor, Bool.eq_false_iff.mpr hrun, Bool.false_and]
    -- a turn without a route only marks the WAN
    have hturned : ∀ l' : AddLoop, l'.s = l.s → (∀ i, l'.valid i =
        (l.valid i || (o.idx == i && countsAsValid pids l.s.routeState o))) →
        AddTurned b pids l o l' := by
      intro l' hs hvalid
      refine ⟨?_, ?_, ?_, hvalid⟩
      · rw [hs]
        refine (and_iff_left fun f h => ?_).symm
        rw [hasks] at h
        cases h
      · rw [hs]
        simp only [hasks]
        rfl
      · rw [hs, if_neg hrun]
    simp only [if_neg hnot]
    cases hstate : l.s.routeState o.idx with
    | true =>
      have hpid : pids.running o.idx = false := by
        rw [hstate, Bool.true_and] at hrun
        exact Bool.not_eq_true _ ▸ hrun
      rw [if_pos rfl, hpid, if_neg Bool.false_ne_true]
      refine ⟨l, hturned l rfl fun i => ?_, rfl⟩
      rw [countsAsValid, hstate, hpid]
      simp
    | false =>
      rw [if_neg Bool.false_ne_true]
      refine ⟨l.mark o, hturned _ (AddLoop.mark_s l o) fun i => ?_, rfl⟩
      rw [AddLoop.mark_valid, countsAsValid, hstate]
      simp

/-- Only the family's own route matters for it. -/
theorem addsRoute_afterAdds (added : Family → Option Nat) (cfg : Conf)
    (f : Family) (ifIndex : Nat) :
    addsRoute b (afterAdds added cfg) f ifIndex ↔
      addsRoute b (afterAdd f (added f) cfg) f ifIndex := by
  unfold afterAdds
  cases f with
  | v4 => exact addsRoute_afterAdd_of_ne (by decide) _ _ _
  | v6 =>
    rw [afterAdd_comm]
    exact addsRoute_afterAdd_of_ne (by decide) _ _ _

/-- Once a WAN has got the route of a family, its index keeps the others off. -/
theorem addsRoute_afterAdd_self {f : Family} {cfg : Conf} {i k : Nat} (hk : k < 64) (hik : i ≠ k) :
    addsRoute b (afterAdd f (if addsRoute b cfg f k then some k else none) cfg) f i ↔
      ¬ addsRoute b cfg f k ∧ addsRoute b cfg f i := by
  by_cases hadds : addsRoute b cfg f k
  · rw [if_pos hadds]
    constructor
    · rintro ⟨-, -, -, h | h⟩
      · rw [onDemandIndex_afterAdd_self hk] at h
        omega
      · rw [onDemandIndex_afterAdd_self hk] at h
        omega
    · intro h
      exact absurd hadds h.1
  · rw [if_neg hadds, and_iff_right hadds]
    rfl

namespace AddTurned

variable {pids : PppPids} {l l' : AddLoop} {o : WanEntryObj}

/-- Who asks behind a turn: nobody for a family that the turn gave a route, and as before for the
other. -/
theorem asksFor (h : AddTurned b pids l o l') (ho : o.idx < 64) (f : Family) (i : Nat) :
    Wan.asksFor b pids l'.s.cfg l'.s.routeState f i =
      (!Wan.asksFor b pids l.s.cfg l.s.routeState f o.idx &&
        Wan.asksFor b pids l.s.cfg l.s.routeState f i) := by
  rw [h.cfg, h.routeState]
  by_cases hrun : (l.s.routeState o.idx && pids.running o.idx) = true
  · have hadded : (fun g =>
      if Wan.asksFor b pids l.s.cfg l.s.routeState g o.idx then some o.idx else none) =
        fun g => if addsRoute b l.s.cfg g o.idx then some o.idx else none := by
      funext g
      unfold Wan.asksFor
      rw [hrun, Bool.true_and]
      by_cases h : addsRoute b l.s.cfg g o.idx
      · rw [if_pos (decide_eq_true h), if_pos h]
      · rw [if_neg (by rw [decide_eq_false h]; decide), if_neg h]
    rw [hadded, if_pos hrun]
    unfold Wan.asksFor
    rw [hrun, Bool.true_and]
    by_cases hi : i = o.idx
    · subst hi
      rw [Function.update_self, Bool.false_and, Bool.false_and, hrun, Bool.true_and,
        Bool.not_and_self]
    · have hnew := (addsRoute_afterAdds
        (fun g => if addsRoute b l.s.cfg g o.idx then some o.idx else none)
        l.s.cfg f i).trans (addsRoute_afterAdd_self ho hi)
      rw [Function.update_of_ne hi, decide_eq_decide.mpr hnew, Bool.decide_and, decide_not,
        Bool.and_left_comm]
  · have hasks : ∀ g, Wan.asksFor b pids l.s.cfg l.s.routeState g o.idx = false := by
      intro g
      rw [Bool.not_eq_true] at hrun
      rw [Wan.asksFor, hrun, Bool.false_and]
    simp only [hasks]
    rw [if_neg hrun, Bool.not_false, Bool.true_and]
    rfl

/-- A turn does not change which WANs count. -/
theorem countsAsValid (h : AddTurned b pids l o l') (o' : WanEntryObj) :
    Wan.countsAsValid pids l'.s.routeState o' = Wan.countsAsValid pids l.s.routeState o' := by
  rw [h.routeState]
  by_cases hrun : (l.s.routeState o.idx && pids.running o.idx) = true
  · rw [if_pos hrun]
    unfold Wan.countsAsValid
    by_cases hidx : o'.idx = o.idx
    · rw [hidx, Function.update_self, (Bool.and_eq_true_iff.mp hrun).2, Bool.not_true,
        Bool.and_false, Bool.and_false]
    · rw [Function.update_of_ne hidx]
  · rw [if_neg hrun]

/-- Of a turn that is no fault itself, the later turns see the same bound ports. -/
theorem turnFaults (h : AddTurned b pids l o l')
    (hno : ¬ TurnFaults b pids l.s.cfg l.s.routeState o.idx) (i : Nat) :
    TurnFaults b pids l'.s.cfg l'.s.routeState i ↔
      TurnFaults b pids l.s.cfg l.s.routeState i := by
  have hbind : BindFaults b l'.s.cfg i ↔ BindFaults b l.s.cfg i := by
    rw [h.cfg, afterAdds, bindFaults_afterAdd, bindFaults_afterAdd]
  unfold TurnFaults at hno ⊢
  rw [hbind, h.routeState]
  split
  · rename_i hrun
    obtain ⟨hstate, hpid⟩ := Bool.and_eq_true_iff.mp hrun
    by_cases hi : i = o.idx
    · rw [hi, Function.update_self]
      exact iff_of_false (fun h' => Bool.false_ne_true h'.1) hno
    · rw [Function.update_of_ne hi]
  · rfl

end AddTurned

theorem addRight_afterAdds (added : Family → Option Nat) (cfg : Conf) (f : Family) (ifIndex : Nat) :
    AddRight (afterAdds added cfg) f ifIndex ↔ AddRight cfg f ifIndex :=
  (addRight_afterAdd .v6 f _ _ _).trans (addRight_afterAdd .v4 f _ _ _)

/-- A turn of the first loop comes to the `sprintf` for IPv6. -/
def LoopFaults (b : OnDemandBuild) (pids : PppPids) (cfg : Conf) (routeState : Nat → Bool)
    (objs : List WanEntryObj) : Prop :=
  ∃ o ∈ objs.takeWhile (fun o => decide (o.idx < 64)), TurnFaults b pids cfg routeState o.idx

/-- What the first loop does, as far as it is defined: in every family the first WAN that asks gets
a route, and nobody else. -/
structure AddLooped (b : OnDemandBuild) (pids : PppPids) (objs : List WanEntryObj) (l : AddLoop)
    (r : Bool × AddLoop) : Prop where
  right : r.2.s.RoutesRight ↔ l.s.RoutesRight ∧ ∀ f i,
    firstAdd (asksFor b pids l.s.cfg l.s.routeState f) objs = some i → AddRight l.s.cfg f i
  cfg : r.2.s.cfg =
    afterAdds (fun f => firstAdd (asksFor b pids l.s.cfg l.s.routeState f) objs) l.s.cfg
  done : r.1 = true ↔ ∀ o ∈ objs, o.idx < 64
  valid : r.1 = true → ∀ i, r.2.valid i =
    (l.valid i || objs.any fun o => o.idx == i && countsAsValid pids l.s.routeState o)

/-- A turn and the turns behind it. -/
theorem AddTurned.addLooped {pids : PppPids} {l l' : AddLoop} {o : WanEntryObj}
    {objs : List WanEntryObj} {r : Bool × AddLoop} (hturn : AddTurned b pids l o l')
    (ho : o.idx < 64) (hloop : AddLooped b pids objs l' r) : AddLooped b pids (o :: objs) l r := by
  have hadded : ∀ f, firstAdd (Wan.asksFor b pids l.s.cfg l.s.routeState f) (o :: objs) =
      if Wan.asksFor b pids l.s.cfg l.s.routeState f o.idx then some o.idx
      else firstAdd (Wan.asksFor b pids l.s.cfg l.s.routeState f) objs := fun f =>
    if_neg (by omega)
  have htail : ∀ f, firstAdd (Wan.asksFor b pids l'.s.cfg l'.s.routeState f) objs =
      if Wan.asksFor b pids l.s.cfg l.s.routeState f o.idx then none
      else firstAdd (Wan.asksFor b pids l.s.cfg l.s.routeState f) objs := by
    intro f
    cases hasks : Wan.asksFor b pids l.s.cfg l.s.routeState f o.idx with
    | true =>
      rw [if_pos rfl]
      refine firstAdd_eq_none (fun i _ => ?_) objs
      rw [hturn.asksFor ho, hasks]
      rfl
    | false =>
      rw [if_neg Bool.false_ne_true]
      refine firstAdd_congr (fun i _ => ?_) objs
      rw [hturn.asksFor ho, hasks]
      rfl
  refine ⟨?_, ?_, ?_, fun h i => ?_⟩
  · rw [hloop.right, hturn.right, and_assoc]
    refine and_congr_right fun _ =>
      ⟨fun h f i hi => ?_, fun h => ⟨fun f hf => ?_, fun f i hi => ?_⟩⟩
    · rw [hadded] at hi
      by_cases hasks : Wan.asksFor b pids l.s.cfg l.s.routeState f o.idx = true
      · rw [if_pos hasks] at hi
        exact Option.some.inj hi ▸ h.1 f hasks
      · rw [if_neg hasks] at hi
        have hadd := h.2 f i ((htail f).trans ((if_neg hasks).trans hi))
        rwa [hturn.cfg, addRight_afterAdds] at hadd
    · exact h f o.idx (by rw [hadded, if_pos hf])
    · replace hi := (htail f).symm.trans hi
      rw [hturn.cfg, addRight_afterAdds]
      by_cases hasks : Wan.asksFor b pids l.s.cfg l.s.routeState f o.idx = true
      · rw [if_pos hasks] at hi
        cases hi
      · rw [if_neg hasks] at hi
        exact h f i (by rw [hadded, if_neg hasks, hi])
  · have hcfg := hloop.cfg
    simp only [htail] at hcfg
    rw [hcfg, hturn.cfg, afterAdds_afterAdds]
    · congr 1
      funext f
      rw [hadded]
      split <;> rfl
    · intro f hf
      split
      · rfl
      · rename_i hasks
        exact absurd (if_neg hasks) hf
  · rw [hloop.done, List.forall_mem_cons, and_iff_right ho]
  · rw [hloop.valid h i, hturn.valid i, List.any_cons, Bool.or_assoc]
    simp only [hturn.countsAsValid]

/-- **The first loop.** -/
theorem addLoop_spec (pids : PppPids) : ∀ (objs : List WanEntryObj) (l : AddLoop),
    ∃ r, AddLooped b pids objs l r ∧
      (LoopFaults b pids l.s.cfg l.s.routeState objs → addLoop b pids objs l = none) ∧
      (¬ LoopFaults b pids l.s.cfg l.s.routeState objs → addLoop b pids objs l = some r)
  | [], l => by
    refine ⟨(true, l), ⟨(and_iff_left fun _ _ h => nomatch h).symm, rfl, ?_, fun _ i => ?_⟩,
      fun h => ?_, fun _ => rfl⟩
    · exact ⟨fun _ o ho => absurd ho List.not_mem_nil, fun _ => rfl⟩
    · rw [List.any_nil, Bool.or_false]
    · obtain ⟨o, ho, -⟩ := h
      exact absurd ho List.not_mem_nil
  | o :: objs, l => by
    by_cases ho : o.idx < 64
    · obtain ⟨l', hturn, hl'⟩ := addTurn_spec (b := b) pids l ho
      obtain ⟨r, hloop, hnone, hsome⟩ := addLoop_spec pids objs l'
      have hstep : addLoop b pids (o :: objs) l = (addTurn b pids l o).bind (addLoop b pids objs) :=
        if_neg (by omega)
      have hfaults : LoopFaults b pids l.s.cfg l.s.routeState (o :: objs) ↔
          TurnFaults b pids l.s.cfg l.s.routeState o.idx ∨
            LoopFaults b pids l.s.cfg l.s.routeState objs := by
        unfold LoopFaults
        simp only [List.takeWhile_cons, decide_eq_true ho, if_true, List.mem_cons,
          exists_eq_or_imp]
      refine ⟨r, hturn.addLooped ho hloop, fun h => ?_, fun h => ?_⟩
      · rw [hstep, hl']
        split
        · rfl
        · rename_i hno
          refine hnone (((hfaults.mp h).resolve_left hno).imp fun o' ho' => ?_)
          exact ⟨ho'.1, (hturn.turnFaults hno o'.idx).mpr ho'.2⟩
      · rw [hfaults, not_or] at h
        rw [hstep, hl', if_neg h.1]
        refine hsome fun h' => h.2 (h'.imp fun o' ho' => ?_)
        exact ⟨ho'.1, (hturn.turnFaults h.1 o'.idx).mp ho'.2⟩
    · have hadded : ∀ f, firstAdd (asksFor b pids l.s.cfg l.s.routeState f) (o :: objs) = none :=
        fun f => if_pos (by omega)
      have hstep : addLoop b pids (o :: objs) l = some (false, l) := if_pos (by omega)
      refine ⟨(false, l), ⟨?_, ?_, ?_, fun h => nomatch h⟩, fun h => ?_, fun _ => hstep⟩
      · refine (and_iff_left fun f i h => ?_).symm
        rw [hadded] at h
        cases h
      · simp only [hadded]
        rfl
      · exact ⟨fun h => (nomatch h), fun h => absurd (h o List.mem_cons_self) ho⟩
      · obtain ⟨o', ho', -⟩ := h
        rw [List.takeWhile_cons, decide_eq_false ho, if_neg Bool.false_ne_true] at ho'
        exact absurd ho' List.not_mem_nil

end OnuFirmware.Wan
