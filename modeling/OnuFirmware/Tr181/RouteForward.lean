import OnuFirmware.Lib.Slots
import OnuFirmware.StaticRoute.Script
import OnuFirmware.Tr181.PortMap
import OnuFirmware.Tr181.UpLayer
import OnuFirmware.Wan.Manager

/-!
# The IPv4 forwarding table (`cfg_type_RouteForward4.c`)

An entry of the table stands for a static route, or for the default route of a WAN. Which one it is
bound to is told by `StaticRoute` with `StaticRouteIdx` or with `pvcIndex`. Static routes and WANs
are carried over to the table, and an entry that is committed is carried back. An index that is
missing is -1 in some of the functions and 0 in others, and the commit does not tell WAN 0 from no
WAN at all.
-/

namespace OnuFirmware.Tr181

open Clib Cfg Lib StaticRoute

/-! ## The table -/

/-- `CFG_TYPE_MAX_ROUTE_ENTRY_NUM`. -/
def maxRouteEntryNum : Nat := 64

/-- `TR181_ROUTE_IPV4_FORWARDING_NUM`, with `WAN_INTERFACE_NUM` for the WANs. -/
def routeIpv4ForwardingNum : Nat := maxRouteEntryNum + 64

/-- An entry. `pvcIndex` is printed from the index of a WAN or set to the empty text, `StaticRoute`
is set to 1 and 0, and `StaticRouteIdx` is printed from the index of a route. -/
structure RouteFwd4 where
  enable : Option Str := none
  destIPAddress : Option Str := none
  destSubnetMask : Option Str := none
  gatewayIPAddress : Option Str := none
  forwardingMetric : Option Str := none
  interface : Option Str := none
  pvcIndex : Option (Option Int) := none
  staticRoute : Option Bool := none
  staticRouteIdx : Option Nat := none
deriving Repr, DecidableEq

/-- The forwarding table and the static routes: entry `i + 1` is in slot `i`. -/
structure FwdState where
  fwd : List (Option RouteFwd4)
  route : List (Option RouteAttrs)
  fwd_length : fwd.length = routeIpv4ForwardingNum
  route_length : route.length = maxRouteEntryNum

/-- The rest of the configuration: of each IP entry the WAN and `lanIndex`, the index of the IP
entry of the LAN, and which WANs use PPP. -/
structure FwdEnv where
  ipPvc : Int → Option Int
  ipLan : Int → Option Str
  lanIp : Int
  isPPP : Int → Bool
  ipPvc_lt : ∀ n w, ipPvc n = some w → w < 64

namespace FwdState

/-- The entry in a slot. -/
def entry (s : FwdState) (q : Nat) : Option RouteFwd4 := s.fwd[q]?.join

/-- An entry is written or deleted. -/
def setFwd (s : FwdState) (q : Nat) (e : Option RouteFwd4) : FwdState :=
  { s with
    fwd := s.fwd.set q e
    fwd_length := (List.length_set ..).trans s.fwd_length }

/-- Attributes of an entry are set; an entry that is missing is created. -/
def modFwd (s : FwdState) (q : Nat) (f : RouteFwd4 → RouteFwd4) : FwdState :=
  s.setFwd q (some (f ((s.entry q).getD {})))

/-- A static route is written or deleted. -/
def setRoute (s : FwdState) (i : Nat) (r : Option RouteAttrs) : FwdState :=
  { s with
    route := s.route.set i r
    route_length := (List.length_set ..).trans s.route_length }

end FwdState

/-! ## Indices -/

/-- `atoi` of `pvcIndex`, which is 0 for no index. -/
def atoiPvc (e : Option RouteFwd4) : Int := readIdx (e.bind (·.pvcIndex.join))

/-- `getPvcIdxByTR181NodeEntry`, on the forwarding table and on the IP entries. -/
def getPvcIdx (pvcIndex : Option Int) : Int := pvcIndex.getD (-1)

/-- `getTR181NodeEntryIdxByWanIf` on the `num` first entries of a table. -/
def getTR181NodeEntryIdxByWanIf (pvc : Int → Option Int) (num : Nat) (wanIf : Int) : Int :=
  match (List.range num).find? fun i : Nat => pvc (i + 1) = some wanIf with
  | some i => i
  | none => -1

/-- `"Device.IP.Interface."` and a number. -/
def ipInterface (index : Int) : Str := "Device.IP.Interface.".toList ++ fmtInt (index + 1)

/-- `getIPIfByTR181Node`: the number of the IP entry that `Interface` names. -/
def getIPIf (interface : Option Str) : Int :=
  let strInterface := attrText interface 256 []
  if hasStr strInterface "Device.IP.Interface.".toList then getSuffixIntByInterface strInterface
  else -1

/-- The WAN of that IP entry, or -1. -/
def interfaceWan (env : FwdEnv) (interface : Option Str) : Int :=
  if getIPIf interface < 1 then -1 else getPvcIdx (env.ipPvc (getIPIf interface))

/-! ## Routes and WANs that are carried over -/

/-- What an entry is looked for: a static route or a WAN. -/
inductive RouteType
  | static (staticRouteIdx : Nat)
  | wanSync (wanIf : Int)
deriving Repr, DecidableEq

/-- The entry is the one for the route or the WAN. -/
def isFor (type : RouteType) (e : Option RouteFwd4) : Bool :=
  match type, e.bind (·.staticRoute) with
  | .static i, some true => (e.bind (·.staticRouteIdx)).getD 0 == i
  | .wanSync wanIf, some false => wanIf == atoiPvc e
  | _, _ => false

/-- The entry counts as empty. -/
def isEmpty (e : Option RouteFwd4) : Bool := (e.bind (·.staticRoute)).isNone

/-- `getEmptyRouteFwd4Entry`: the slot, and whether it is the one for the route or the WAN. -/
def getEmptyRouteFwd4Entry (type : RouteType) (s : FwdState) : Option (Nat × Bool) :=
  slotFor (isFor type) isEmpty s.fwd

/-- `Interface` and `pvcIndex` for the device of a route. -/
def fromDevice (env : FwdEnv) (device : Str) : Str × Option Int :=
  if device = "br0".toList then (ipInterface env.lanIp, some (-1))
  else if hasStr device "ppp".toList && hasStr device "nas".toList then ([], none)
  else
    let wanIf : Int := (Wan.getWanindexByName device).elim (-1) (↑)
    (ipInterface (getTR181NodeEntryIdxByWanIf env.ipPvc 65 wanIf), some wanIf)

/-- The attributes that `syncStaticRoute2RouteFwd4` sets. -/
def fromRoute (env : FwdEnv) (routeIdx : Nat) (r : RouteAttrs) (e : RouteFwd4) : RouteFwd4 :=
  let ofDevice := fromDevice env (attrText r.device 256 [])
  { e with
    enable := some (if attrText r.active 256 [] = "Yes".toList then "1".toList else "0".toList)
    destIPAddress := copyAttr 256 r.dst e.destIPAddress
    destSubnetMask := copyAttr 256 r.mask e.destSubnetMask
    gatewayIPAddress := copyAttr 256 r.gateway e.gatewayIPAddress
    forwardingMetric := copyAttr 256 r.metric e.forwardingMetric
    interface := if r.device = none then e.interface else some ofDevice.1
    pvcIndex := if r.device = none then e.pvcIndex else some ofDevice.2
    staticRoute := some true
    staticRouteIdx := some routeIdx }

/-- `syncStaticRoute2RouteFwd4`. -/
def syncStaticRoute2RouteFwd4 (env : FwdEnv) (routeIdx : Nat) (s : FwdState) : FwdState :=
  match s.route[routeIdx]?.join with
  | none => s
  | some r =>
    if r.active = none then s
    else
      match getEmptyRouteFwd4Entry (.static routeIdx) s with
      | none => s
      | some (q, _) => s.modFwd q (fromRoute env routeIdx r)

/-- The attributes that `wanSync2Fwd4ByWanIf` sets. -/
def fromWan (wanIf : Int) (enable : Str) (gateway : Option Str) (e : RouteFwd4) : RouteFwd4 :=
  { e with
    enable := some enable
    staticRoute := some false
    gatewayIPAddress := some (gateway.getD [])
    pvcIndex := some (some wanIf) }

/-- `wanSync2Fwd4ByWanIf`. -/
def wanSync2Fwd4ByWanIf (wanIf : Int) (enable : Str) (gateway : Option Str) (s : FwdState) :
    FwdState :=
  if wanIf < 0 then s
  else
    match getEmptyRouteFwd4Entry (.wanSync wanIf) s with
    | none => s
    | some (q, _) => s.modFwd q (fromWan wanIf enable gateway)

/-- `delRouteFwd4ByRouteNode`: the first entry that holds the index of the route is deleted. -/
def delRouteFwd4ByRouteNode (commitFromTR181 : Bool) (routeIdx : Nat) (s : FwdState) : FwdState :=
  if commitFromTR181 then s
  else
    match s.fwd.findIdx? fun e => e.bind (·.staticRouteIdx) == some routeIdx with
    | none => s
    | some q => s.setFwd q none

/-! ## The commit of an entry -/

/-- `findEmptyStaticRoute4Entry`. -/
def findEmptyStaticRoute4Entry (s : FwdState) : Option Nat :=
  s.route.findIdx? fun r => (r.bind (·.dst)).isNone

/-- `Device` of the route, for the number of the IP entry. A WAN has an index below 64, so that
`setWanNodeByWanIf` does not fail. -/
def routeDevice (env : FwdEnv) (ipIfIdx : Int) : Str :=
  match env.ipPvc ipIfIdx with
  | none => []
  | some wanIf =>
    if wanIf < 0 then
      if atoi (attrText (env.ipLan ipIfIdx) 8 []) = 0 then "br0".toList else []
    else if env.isPPP wanIf then snprintf 32 ("ppp".toList ++ fmtInt wanIf)
    else snprintf 32 (Wan.nasName (wanIf.toNat / 8) (wanIf.toNat % 8))

/-- The attributes that `tr181Route4UpdateStaticRoute` sets in the route. -/
def toRoute (env : FwdEnv) (e : RouteFwd4) (r : RouteAttrs) : RouteAttrs :=
  let ipIfIdx := if e.interface = none then -1
    else getSuffixIntByInterface (attrText e.interface 32 [])
  { active := if e.enable = none then r.active
      else some (if attrText e.enable 32 [] = "1".toList then "Yes".toList else "No".toList)
    dst := copyAttr 32 e.destIPAddress r.dst
    mask := copyAttr 32 e.destSubnetMask r.mask
    gateway := copyAttr 32 e.gatewayIPAddress r.gateway
    device := if 0 < ipIfIdx then some (routeDevice env ipIfIdx) else r.device
    metric := some (attrText e.forwardingMetric 32 "0".toList) }

/-- The route of an entry: the one it has been given before, else one without a destination. -/
def routeFor (e : RouteFwd4) (s : FwdState) : Option Nat :=
  e.staticRouteIdx.or (findEmptyStaticRoute4Entry s)

/-- `tr181Route4UpdateStaticRoute`. A route that has a destination is deleted first. -/
def tr181Route4UpdateStaticRoute (env : FwdEnv) (q : Nat) (s : FwdState) : FwdState :=
  match routeFor ((s.entry q).getD {}) s with
  | none => s
  | some i =>
    let s := s.modFwd q fun e => { e with staticRoute := some true, staticRouteIdx := some i }
    let old := s.route[i]?.join.getD noAttrs
    let old := if old.dst = none then old else noAttrs
    s.setRoute i (some (toRoute env ((s.entry q).getD {}) old))

/-- `clearOtherWanRouteByWanIf`: the other entries of the WAN lose `pvcIndex` and `Interface`. -/
def clearOtherWanRouteByWanIf (q : Nat) (wanIf : Int) (s : FwdState) : FwdState :=
  { s with
    fwd := s.fwd.mapIdx fun i e => e.map fun x =>
      if x.pvcIndex ≠ none ∧ atoiPvc e = wanIf ∧ i ≠ q ∧ x.staticRoute = some false then
        { x with pvcIndex := some (some (-1)), interface := some [] }
      else x
    fwd_length := List.length_mapIdx.trans s.fwd_length }

/-- The text of `DestIPAddress` as the commit reads it. -/
def destIP (e : RouteFwd4) : Str := attrText e.destIPAddress 128 []

/-- The commit releases the other entries of the new WAN. -/
def Releases (e : RouteFwd4) (newWanIf : Int) : Prop :=
  newWanIf ≠ getPvcIdx e.pvcIndex.join ∧
    (0 ≤ getPvcIdx e.pvcIndex.join ∧ e.staticRoute = some false ∨
      e.staticRoute = none ∧ destIP e = [])

instance (e : RouteFwd4) (newWanIf : Int) : Decidable (Releases e newWanIf) :=
  inferInstanceAs (Decidable (_ ∧ _))

/-- `cfg_type_routeforward4_func_commit` on an entry that exists. What it does to the WANs is left
out. -/
def routeForward4Commit (env : FwdEnv) (q : Nat) (s : FwdState) : FwdState :=
  let e := (s.entry q).getD {}
  let newWanIf := interfaceWan env e.interface
  let s := if Releases e newWanIf then clearOtherWanRouteByWanIf q newWanIf s else s
  let s := s.modFwd q fun e =>
    { e with pvcIndex := some (if 0 < newWanIf then some newWanIf else none) }
  if destIP e ≠ [] then tr181Route4UpdateStaticRoute env q s
  else if 0 < newWanIf then s.modFwd q fun e => { e with staticRoute := some false }
  else s

/-! ## Runs -/

/-- What happens to the table. -/
inductive FwdEvent
  /-- A static route is set or removed. -/
  | setRoute (routeIdx : Nat) (r : Option RouteAttrs)
  /-- A static route is carried over. -/
  | syncRoute (env : FwdEnv) (routeIdx : Nat)
  /-- A WAN is carried over. -/
  | syncWan (wanIf : { w : Int // w < 64 }) (enable : Str) (gateway : Option Str)
  /-- The entry of a static route is deleted. -/
  | delRoute (commitFromTR181 : Bool) (routeIdx : Nat)
  /-- An entry is created or changed, and committed. -/
  | edit (env : FwdEnv) (q : Fin routeIpv4ForwardingNum) (attrs : RouteFwd4)

/-- The attributes that an entry has after a change; what it is bound to is not changed from
outside. -/
def RouteFwd4.withBinding (attrs : RouteFwd4) (old : Option RouteFwd4) : RouteFwd4 :=
  { attrs with
    pvcIndex := old.bind (·.pvcIndex)
    staticRoute := old.bind (·.staticRoute)
    staticRouteIdx := old.bind (·.staticRouteIdx) }

/-- One event. -/
def fwdStep (s : FwdState) : FwdEvent → FwdState
  | .setRoute i r => s.setRoute i r
  | .syncRoute env i => syncStaticRoute2RouteFwd4 env i s
  | .syncWan wanIf enable gateway => wanSync2Fwd4ByWanIf wanIf.1 enable gateway s
  | .delRoute fromTR181 i => delRouteFwd4ByRouteNode fromTR181 i s
  | .edit env q attrs =>
    routeForward4Commit env q.1 (s.setFwd q.1 (some (attrs.withBinding (s.entry q.1))))

/-- The table before the first event; there may be static routes. -/
def clearedFwd (route : List (Option RouteAttrs)) (h : route.length = maxRouteEntryNum) :
    FwdState :=
  ⟨List.replicate routeIpv4ForwardingNum none, route, List.length_replicate, h⟩

/-! ## Statement -/

/-- What an entry can be bound to. -/
inductive Binding
  | route (routeIdx : Nat)
  | wan (wanIf : Int)
deriving Repr, DecidableEq

/-- What an entry is bound to. -/
def bindingOf (e : RouteFwd4) : Option Binding :=
  match e.staticRoute with
  | none => none
  | some true => e.staticRouteIdx.map .route
  | some false =>
    if 0 ≤ getPvcIdx e.pvcIndex.join then some (.wan (getPvcIdx e.pvcIndex.join)) else none

/-- The entry in a slot is bound to a route or a WAN. -/
def Bound (s : FwdState) (b : Binding) (q : Nat) : Prop := Holds bindingOf s.fwd b q

/-- At most one entry is bound to each route and to each WAN. -/
def FwdRight (s : FwdState) : Prop := UniqueKeys bindingOf s.fwd

/-- There is an entry that counts as empty. -/
def HasRoom (s : FwdState) : Prop := ∃ e ∈ s.fwd, isEmpty e = true

/-- The entry of the route or the WAN is updated, or else one is bound that was bound to nothing. -/
def SyncRight (s s' : FwdState) (b : Binding) : Prop :=
  ∃ q, (∀ j ≠ q, s'.fwd[j]? = s.fwd[j]?) ∧ Bound s' b q ∧
    (Bound s b q ∨ (∀ j, ¬ Bound s b j) ∧ ∀ b', ¬ Bound s b' q)

/-- What an event is to do. -/
def FwdStepRight (s s' : FwdState) : FwdEvent → Prop
  | .syncRoute _ i => ∀ r, s.route[i]? = some (some r) → r.active ≠ none → HasRoom s →
    SyncRight s s' (.route i)
  | .syncWan wanIf _ _ => 0 ≤ wanIf.1 → HasRoom s → SyncRight s s' (.wan wanIf.1)
  | .edit env q attrs => destIP attrs = [] → 0 ≤ interfaceWan env attrs.interface →
    Bound s' (.wan (interfaceWan env attrs.interface)) q.1
  | _ => True

/-- No other entry is bound to the route or the WAN. -/
def OnlyHere (s : FwdState) (b : Binding) (q : Nat) : Prop := ∀ j, Bound s b j → j = q

/-- The commit of an entry binds nothing twice and does not lose WAN 0. -/
def EditOk (env : FwdEnv) (s : FwdState) (q : Nat) (e : RouteFwd4) : Prop :=
  let newWanIf := interfaceWan env e.interface
  let free := 0 < newWanIf → Releases e newWanIf ∨ OnlyHere s (.wan newWanIf) q
  if destIP e = [] then newWanIf ≠ 0 ∧ free
  else
    match routeFor e s with
    | some i => OnlyHere s (.route i) q
    | none => e.staticRoute = some false → free

/-- When an event does what it is to do. -/
def FwdCond (s : FwdState) : FwdEvent → Prop
  | .syncWan wanIf _ _ => wanIf.1 = 0 → ∀ q e, s.fwd[q]? = some (some e) →
    e.staticRoute = some false → e.pvcIndex.join = none → ∀ j, Bound s (.wan 0) j → j < q
  | .edit env q attrs => EditOk env s q.1 (attrs.withBinding (s.entry q.1))
  | _ => True

end OnuFirmware.Tr181
