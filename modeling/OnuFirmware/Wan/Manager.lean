import OnuFirmware.Wan.Entry
import OnuFirmware.Cfg.Path

/-!
# The WAN manager (`wan_mgr.c`, `wan_link_list.c`, `default_route_handle.c`)

The manager keeps a list of objects, one for each WAN entry it has heard of, and handles events:
updates and deletions of entries by path, got and lost addresses by device name, and the state of
the optical link. Handlers hold pointers to objects; here a pointer is the address of the block, and
a read through a pointer whose object is no longer in the list sets `freedRead`.

What a handler asks the rest of the system is part of the event: whether the path names an existing
object, the configuration that is loaded, the gateways that `root.waninfo` shows when a default
route is chosen. Two logs, which no handler reads, record the calls that start and stop interfaces
and each handling of a got or lost address with the index of the default route before and after it.
-/

namespace OnuFirmware.Wan

open Clib Cfg

/-! ## Names of interfaces -/

/-- `%1s` of `sscanf`. -/
def scanOne (s : Str) : Option (Char × Str) :=
  match s.dropWhile isSpace with
  | [] => none
  | c :: r => some (c, r)

/-- `sscanf(name, "nas%1s_%1s", pvc, entry)`, if both are read. -/
def scanNas : Str → Option (Char × Char)
  | 'n' :: 'a' :: 's' :: s =>
    match scanOne s with
    | some (pvc, '_' :: r) => (scanOne r).map fun e => (pvc, e.1)
    | _ => none
  | _ => none

/-- `PVC_NUM * MAX_SMUX_NUM`. -/
def maxWanIfIndex : Int := 64

/-- `get_wanindex_by_name`; `none` is the return value `-1`. -/
def getWanindexByName (name : Str) : Option Nat :=
  let ifIndex : Int :=
    match strstrRest "ppp".toList name with
    | some r => atoi r
    | none =>
      match scanNas name with
      | some (pvc, entry) => atoi [pvc] * 8 + atoi [entry]
      | none => -1
  if name = [] ∨ ifIndex < 0 ∨ maxWanIfIndex < ifIndex then none else some ifIndex.toNat

/-- `nas%d_%d`. -/
def nasName (pvc entry : Nat) : Str := "nas".toList ++ fmtNat pvc ++ '_' :: fmtNat entry

/-! ## State -/

/-- `EVT_WAN_CONN_GETV4`, `EVT_WAN_CONN_LOSTV4` and the two for IPv6. -/
inductive ConnEvt
  | get (f : Family)
  | lost (f : Family)
deriving Repr, DecidableEq

def ConnEvt.fam : ConnEvt → Family
  | .get f => f
  | .lost f => f

/-- `EVT_XPON_UP` and `EVT_XPON_DOWN`. -/
inductive XponEvt
  | up
  | down
deriving Repr, DecidableEq

/-- What a handler learns from outside while it runs. -/
structure Outside where
  /-- The gateway attribute of an entry when the default route is handled for an event. -/
  gateway : ConnEvt → Nat → Str
  /-- `check_ipv6_info_ready` -/
  ipv6Ready : Bool
  /-- `svc_wan_cfg_get_system_protocol_version` -/
  protocolVersion : Int
  /-- `svc_wan_create_conf`, `svc_wan_create_device` and `svc_wan_start_device` succeed. -/
  deviceOk : Bool

/-- A call of `svc_wan_do_start_intf` or `svc_wan_do_stop_intf`. -/
inductive IntfCall
  | start (idx : Nat) (cfg : WanEntryCfg)
  | stop (idx : Nat) (cfg : WanEntryCfg)
deriving DecidableEq

/-- One handling of a got or lost address: the entry, the list and the index of the default route
before and after it, and the gateways it saw. -/
structure ConnRec where
  evt : ConnEvt
  idx : Nat
  objsBefore : List WanEntryObj
  objsAfter : List WanEntryObj
  before : Str
  after : Str
  gateway : Nat → Str

/-- `svc_wan_entry_list`, the next address of `malloc`, `DefRouteIndexv4` and `DefRouteIndexv6`,
`pre_evt`, and the records. -/
structure WanState where
  objs : List WanEntryObj
  next : Nat
  defRoute : Family → Option Str
  preEvt : Option XponEvt
  freedRead : Bool
  intfLog : List IntfCall
  connLog : List ConnRec

/-- The state in which the service starts. -/
def WanState.boot : WanState :=
  { objs := [], next := 0, defRoute := fun _ => none, preEvt := none, freedRead := false,
    intfLog := [], connLog := [] }

namespace WanState

/-- The object at an address. -/
def obj? (st : WanState) (a : Nat) : Option WanEntryObj := st.objs.find? fun o => o.addr == a

/-- Reads the object at an address. -/
def withObj (st : WanState) (a : Nat) (k : WanEntryObj → WanState) : WanState :=
  match st.obj? a with
  | some o => k o
  | none => { st with freedRead := true }

/-- Writes the object at an address. -/
def modify (st : WanState) (a : Nat) (f : WanEntryObj → WanEntryObj) : WanState :=
  { st with objs := st.objs.map fun o => if o.addr == a then f o else o }

/-- The text of an index, with `N/A` for an index that is not set. -/
def index (st : WanState) (f : Family) : Str := (st.defRoute f).getD "N/A".toList

end WanState

def WanEntryObj.setUp (o : WanEntryObj) (f : Family) (b : Bool) : WanEntryObj :=
  match f with
  | .v4 => { o with upv4 := b }
  | .v6 => { o with upv6 := b }

/-! ## The list -/

/-- `svc_wan_find_object`. -/
def svcWanFindObject (st : WanState) (path : Str) : Option WanEntryObj :=
  st.objs.find? fun o => o.path == path

/-- `svc_wan_find_object_by_dev`. -/
def svcWanFindObjectByDev (st : WanState) (dev : Str) : Option WanEntryObj :=
  match getWanindexByName dev with
  | none => none
  | some i => st.objs.find? fun o => o.idx == i

/-- `svc_wan_del_from_list`: removes and frees the first object with the path of `obj`. -/
def svcWanDelFromList (st : WanState) (a : Nat) : WanState :=
  st.withObj a fun obj => { st with objs := st.objs.eraseP fun o => o.path == obj.path }

/-! ## The default route -/

/-- `default_route_switch`: the new index. -/
def defaultRouteSwitch (w : Outside) (st : WanState) (f : Family) : Str :=
  match st.objs.find? fun o =>
      o.cfg.srvE8cInternet && o.up f && w.gateway (.lost f) o.idx != [] with
  | some o => snprintf 16 (fmtNat o.idx)
  | none => "N/A".toList

/-- `cfg_set_object_attr(WANINFO_COMMON_NODE, "DefRouteIndexv4", ..)`. -/
def WanState.setIndex (st : WanState) (f : Family) (text : Str) : WanState :=
  { st with defRoute := Function.update st.defRoute f (some text) }

/-- The reads of both indices, which store `N/A` where there is none. -/
def WanState.initIndices (st : WanState) : WanState :=
  { st with defRoute := fun f => some (snprintf 16 (st.index f)) }

/-- `update_default_route`. -/
def updateDefaultRoute (w : Outside) (st : WanState) (path : Str) (evt : ConnEvt) : WanState :=
  match svcWanFindObject st path with
  | none => st
  | some obj =>
    match evt with
    | .get .v4 =>
      if obj.upv4 = false ∨ w.gateway (.get .v4) obj.idx = [] then st
      else
        let st := st.initIndices
        if obj.cfg.srvE8cInternet ∧ st.index .v4 = "N/A".toList then
          st.setIndex .v4 (snprintf 16 (fmtNat obj.idx))
        else st
    | .get .v6 =>
      if obj.upv6 = false ∨ obj.cfg.srvE8cInternet = false ∨
        w.gateway (.get .v6) obj.idx = [] then st
      else
        let st := st.initIndices
        if st.index .v6 = "N/A".toList then st.setIndex .v6 (snprintf 16 (fmtNat obj.idx))
        else st
    | .lost f =>
      let st := st.initIndices
      if st.index f ≠ "N/A".toList then
        st.setIndex f (if (obj.idx : Int) = atoi (st.index f) then defaultRouteSwitch w st f
          else st.index f)
      else st

/-! ## Got and lost addresses -/

/-- `svc_wan_set_info` and `svc_wan_handle_conn_evt` for an object whose flag has been written, as
far as they reach the default route, with the record of the handling. -/
def svcWanHandleConnEvt (w : Outside) (old st : WanState) (obj : WanEntryObj) (evt : ConnEvt) :
    WanState :=
  let st := updateDefaultRoute w st obj.path evt
  { st with
    connLog := st.connLog ++ [⟨evt, obj.idx, old.objs, st.objs, old.index evt.fam,
      st.index evt.fam, w.gateway evt⟩] }

/-- `svc_wan_handle_event_conn_lostv4_deal`, `svc_wan_handle_event_conn_lostv6_deal`. -/
def svcWanHandleEventConnLostDeal (w : Outside) (st : WanState) (a : Nat) (f : Family) : WanState :=
  st.withObj a fun obj =>
    svcWanHandleConnEvt w st (st.modify a fun o => o.setUp f false) obj (.lost f)

/-- `SVC_WAN_IS_IPV4_STATIC`, `SVC_WAN_IS_IPV6_STATIC`. -/
def WanEntryCfg.isStatic (cfg : WanEntryCfg) : Family → Bool
  | .v4 => cfg.isIpv4Static
  | .v6 => cfg.isIpv6Static

/-- `svc_wan_handle_event_conn_lostv4`, `svc_wan_handle_event_conn_lostv6`. -/
def svcWanHandleEventConnLost (w : Outside) (st : WanState) (f : Family) (dev : Str) : WanState :=
  match svcWanFindObjectByDev st dev with
  | none => st
  | some obj =>
    if !obj.up f then st
    else if obj.cfg.isStatic f then st
    else svcWanHandleEventConnLostDeal w st obj.addr f

/-- `svc_wan_handle_event_conn_getv4`. -/
def svcWanHandleEventConnGetv4 (w : Outside) (st : WanState) (dev : Str) : WanState :=
  match svcWanFindObjectByDev st dev with
  | none => st
  | some obj =>
    if obj.upv4 then st
    else svcWanHandleConnEvt w st (st.modify obj.addr fun o => o.setUp .v4 true) obj (.get .v4)

/-- `svc_wan_handle_event_conn_getv6`. -/
def svcWanHandleEventConnGetv6 (w : Outside) (st : WanState) (dev : Str) : WanState :=
  match svcWanFindObjectByDev st dev with
  | none => st
  | some obj =>
    if obj.upv6 && !obj.cfg.isIpv6Slaac then st
    else if !w.ipv6Ready then st
    else svcWanHandleConnEvt w st (st.modify obj.addr fun o => o.setUp .v6 true) obj (.get .v6)

def svcWanHandleEventConnGet (w : Outside) (st : WanState) (f : Family) (dev : Str) : WanState :=
  match f with
  | .v4 => svcWanHandleEventConnGetv4 w st dev
  | .v6 => svcWanHandleEventConnGetv6 w st dev

/-! ## Starting and stopping an interface -/

/-- `svc_wan_check_cfg` (build without `TCSUPPORT_CT_PPP_MANUALLY`). -/
def svcWanCheckCfg (cfg : WanEntryCfg) : Bool :=
  if cfg.active != 1 then false
  else if cfg.wanmode != 1 && cfg.wanmode != 2 then false
  else if cfg.linkmode != 1 && cfg.linkmode != 2 then false
  else if cfg.vtag != 1 && cfg.vtag != 2 && cfg.vtag != 3 && cfg.vtag != 4 then false
  else if cfg.vtag == 3 && 4096 ≤ cfg.vid then false
  else if cfg.version != versionIpv4 && cfg.version != versionIpv6 && cfg.version != versionBoth then
    false
  else if cfg.isBridge then true
  else if cfg.isPpp then true
  else if cfg.isIpv4 && cfg.isp != 0 && cfg.isp != 1 then false
  else if cfg.isIpv6 && cfg.ipv6mode != 1 && cfg.ipv6mode != 2 && cfg.ipv6mode != 3 then false
  else true

/-- A loss that stopping an interface reports: through the event with the name of the interface, or
by a direct call of the `deal` function. -/
structure Loss where
  fam : Family
  direct : Bool
deriving Repr, DecidableEq

/-- The losses that `svc_wan_do_stop_intf` reports for a configuration, in order. -/
def stopLosses (cfg : WanEntryCfg) : List Loss :=
  if cfg.isBridge then []
  else if cfg.isPpp then
    -- `svc_wan_stop_ppp`
    if cfg.isIpv4 && cfg.isIpv6 && cfg.dslite != 1 then [⟨.v6, false⟩, ⟨.v4, false⟩]
    else if cfg.isIpv6 then [⟨.v6, false⟩]
    else if cfg.isIpv4 then [⟨.v4, false⟩]
    else []
  else if cfg.isIp then
    -- neither DHCP nor static for IPv4 alone goes to the label `error`
    if cfg.isIpv4 && !cfg.isIpv4Dhcp && !cfg.isIpv4Static && !cfg.isIpv6 then []
    else
      (if cfg.isIpv4Dhcp then [⟨.v4, false⟩] else if cfg.isIpv4Static then [⟨.v4, true⟩] else []) ++
      (if cfg.isIpv6Dhcp then [⟨.v6, false⟩] else if cfg.isIpv6Static then [⟨.v6, true⟩]
        else if cfg.isIpv6Slaac then [⟨.v6, false⟩] else [])
  else []

/-- The addresses that `svc_wan_do_start_intf` reports at once, in order: the static ones. -/
def startGets (cfg : WanEntryCfg) (protocolVersion : Int) : List Family :=
  if cfg.isBridge then []
  else if cfg.isPpp then []
  else if cfg.isIp then
    if protocolVersion ≠ 2 ∧ cfg.isIpv4 ∧ !(cfg.isIpv4Dhcp && cfg.dslite != 1) ∧
        !cfg.isIpv4Static ∧ !cfg.isIpv6 then []
    else
      (if protocolVersion ≠ 2 ∧ cfg.isIpv4Static then [.v4] else []) ++
      (if protocolVersion ≠ 1 ∧ cfg.isIpv6Static then [.v6] else [])
  else []

/-- One report of a stopped interface. -/
def reportLoss (w : Outside) (a : Nat) (dev : Str) (st : WanState) (l : Loss) : WanState :=
  if l.direct then svcWanHandleEventConnLostDeal w st a l.fam
  else svcWanHandleEventConnLost w st l.fam dev

/-- `svc_wan_do_stop_intf`. -/
def svcWanDoStopIntf (w : Outside) (st : WanState) (a : Nat) : WanState :=
  st.withObj a fun obj =>
    (stopLosses obj.cfg).foldl (reportLoss w a (svcWanIntfName obj 16))
      { st with intfLog := st.intfLog ++ [.stop obj.idx obj.cfg] }

/-- `svc_wan_do_start_intf`. -/
def svcWanDoStartIntf (w : Outside) (st : WanState) (a : Nat) : WanState :=
  st.withObj a fun obj =>
    let st := { st with intfLog := st.intfLog ++ [.start obj.idx obj.cfg] }
    if w.deviceOk then
      (startGets obj.cfg w.protocolVersion).foldl
        (fun st f => svcWanHandleEventConnGet w st f obj.dev) st
    else st

/-- `svc_wan_stop_intf`. -/
def svcWanStopIntf (w : Outside) (st : WanState) (a : Nat) : WanState :=
  st.withObj a fun obj =>
    if !obj.started then st
    else (svcWanDoStopIntf w st a).modify a fun o => { o with started := false }

/-- `svc_wan_start_intf`; `svc_wan_check_xpon_up` always returns `1`. -/
def svcWanStartIntf (w : Outside) (st : WanState) (a : Nat) : WanState :=
  st.withObj a fun obj =>
    if obj.started then st
    else if !svcWanCheckCfg obj.cfg then st
    else (svcWanDoStartIntf w st a).modify a fun o => { o with started := true }

/-! ## Updates and deletions -/

/-- An update of an entry: the path, and what the handler finds out about it. -/
structure UpdateEvt where
  path : Str
  /-- `cfg_query_object(path, ..) > 0` -/
  present : Bool
  /-- `malloc` succeeds. -/
  alloc : Bool
  /-- What `svc_wan_load_cfg` loads, if it does not fail. -/
  loaded : Option WanEntryCfg
  /-- `is_commit_from_tr069()`, with `cwmp_work_timer` not set where the build asks for it. -/
  tr069 : Bool
  outside : Outside

/-- `memcpy(&obj->cfg, &tmp, sizeof(wan_entry_cfg_t))`. -/
def WanState.storeCfg (st : WanState) (a : Nat) (tmp : WanEntryCfg) : WanState :=
  st.modify a fun o => { o with cfg := tmp }

/-- `if (effect) svc_wan_stop_intf(obj);`. -/
def stopIf (effect : Bool) (w : Outside) (st : WanState) (a : Nat) : WanState :=
  if effect then svcWanStopIntf w st a else st

/-- `if (effect) svc_wan_start_intf(obj);`. -/
def startIf (effect : Bool) (w : Outside) (st : WanState) (a : Nat) : WanState :=
  if effect then svcWanStartIntf w st a else st

/-- The variable `effect`: a commit from TR-069 does not touch the interface of a TR-069 WAN. -/
def UpdateEvt.effect (u : UpdateEvt) (obj : WanEntryObj) : Bool := !(obj.cfg.srvTr069 && u.tr069)

/-- `svc_wan_update_object`; `effect` is evaluated on the configuration that is stored before. -/
def svcWanUpdateObject (u : UpdateEvt) (st : WanState) (a : Nat) : WanState :=
  st.withObj a fun obj =>
    match u.loaded with
    | none => st
    | some tmp =>
      if obj.cfg.active = 0 ∧ tmp.active = 1 then
        startIf (u.effect obj) u.outside (st.storeCfg a tmp) a
      else if obj.cfg.active = 1 ∧ tmp.active = 0 then
        (stopIf (u.effect obj) u.outside st a).storeCfg a tmp
      else if obj.cfg.active = 1 ∧ tmp.active = 1 then
        startIf (u.effect obj) u.outside ((stopIf (u.effect obj) u.outside st a).storeCfg a tmp) a
      else st

/-- `set_port_binding_info` reads its object only without the flag, and
`svc_wan_vlanbind_execute` only passes it on. -/
def svcWanVlanbindExecute (st : WanState) (a : Nat) (flag : Bool) : WanState :=
  if flag then st else st.withObj a fun _ => st

/-- `svc_wan_delete_object`. -/
def svcWanDeleteObject (w : Outside) (st : WanState) (a : Nat) : WanState :=
  let st := svcWanStopIntf w st a
  -- `del_object_do_something` reads the index and the device of the object
  let st := st.withObj a fun _ => st
  let st := svcWanDelFromList st a
  svcWanVlanbindExecute st a true

/-- `(id & CFG_OBJ_MASK) - 1` in `unsigned int`. -/
def instanceIndex (id : Nat) : Nat := ((id &&& 0xffff) + 0xffffffff) % 0x100000000

/-- The `pvc` and `entry` of a path, if the path has four levels and both are in range; `maxPvc` is
`SVC_WAN_MAX_PVC_NUM`. -/
def entryOfPath (tt : TypeTree) (maxPvc : Nat) (path : Str) : Option (Nat × Nat) :=
  match cfgPathToOidArray tt path with
  | .ok (some [_, _, id2, id3]) =>
    let pvc := instanceIndex id2
    let entry := instanceIndex id3
    if maxPvc ≤ pvc ∨ 8 ≤ entry then none else some (pvc, entry)
  | _ => none

/-- The object that `svc_wan_handle_event_update` makes. -/
def newWanObj (addr : Nat) (path : Str) (pvc entry : Nat) : WanEntryObj :=
  { addr := addr, path := path.take 31, idx := pvc * 8 + entry,
    dev := snprintf 16 (nasName pvc entry) }

/-- `svc_wan_handle_event_update`, up to the multicast proxies. -/
def svcWanHandleEventUpdate (tt : TypeTree) (maxPvc : Nat) (st : WanState) (u : UpdateEvt) :
    WanState :=
  if !u.present then st
  else
    match svcWanFindObject st u.path with
    | some obj => svcWanUpdateObject u st obj.addr
    | none =>
      match entryOfPath tt maxPvc u.path with
      | none => st
      | some (pvc, entry) =>
        if !u.alloc then st
        else
          svcWanUpdateObject u
            { st with objs := st.objs ++ [newWanObj st.next u.path pvc entry], next := st.next + 1 }
            st.next

/-- `svc_wan_handle_event_delete`. -/
def svcWanHandleEventDelete (w : Outside) (st : WanState) (path : Str) : WanState :=
  match svcWanFindObject st path with
  | none => st
  | some obj => svcWanDeleteObject w st obj.addr

/-! ## The optical link -/

/-- The loop of `svc_wan_stop_all_wan_entry` over the objects that were in the list at its start. -/
def stopAllLoop (w : Outside) : List Nat → WanState → WanState
  | [], st => st
  | a :: as, st => stopAllLoop w as (svcWanDelFromList (svcWanStopIntf w st a) a)

/-- `svc_wan_stop_all_wan_entry`. -/
def svcWanStopAllWanEntry (w : Outside) (st : WanState) : WanState :=
  { stopAllLoop w (st.objs.map WanEntryObj.addr) st with objs := [] }

/-- `WAN_PVC_ENTRY_NODE` in a 32-byte buffer. -/
def wanPvcEntryNode (pvc entry : Nat) : Str :=
  snprintf 32 ("root.wan.pvc.".toList ++ fmtNat pvc ++ ".entry.".toList ++ fmtNat entry)

/-- What can happen to the manager (build with `TCSUPPORT_CT_DSL_EX`; in other builds the optical
link reaches it through other processes only). The entries that `svc_wan_start_all_wan_entry`
updates come with what each update finds out. -/
inductive WanEvt
  | update (u : UpdateEvt)
  | delete (w : Outside) (path : Str)
  | conn (w : Outside) (evt : ConnEvt) (dev : Str)
  | xponUp (entries : List (Nat × Nat × UpdateEvt))
  | xponDown (w : Outside)

/-- The update that `svc_wan_start_all_wan_entry` makes for an entry. -/
def startAllUpdate (e : Nat × Nat × UpdateEvt) : UpdateEvt :=
  { e.2.2 with path := wanPvcEntryNode e.1 e.2.1 }

/-- `svc_wan_mgr_handle_event`. -/
def svcWanMgrHandleEvent (tt : TypeTree) (maxPvc : Nat) (st : WanState) : WanEvt → WanState
  | .update u => svcWanHandleEventUpdate tt maxPvc st u
  | .delete w path => svcWanHandleEventDelete w st path
  | .conn w (.get f) dev => svcWanHandleEventConnGet w st f dev
  | .conn w (.lost f) dev => svcWanHandleEventConnLost w st f dev
  | .xponUp entries =>
    if st.preEvt = some .up then st
    else
      { (entries.map startAllUpdate).foldl (svcWanHandleEventUpdate tt maxPvc) st with
        preEvt := some .up }
  | .xponDown w =>
    if st.preEvt = some .down then st
    else { svcWanStopAllWanEntry w st with preEvt := some .down }

/-- A sequence of events. -/
def runWan (tt : TypeTree) (maxPvc : Nat) (st : WanState) (evts : List WanEvt) : WanState :=
  evts.foldl (svcWanMgrHandleEvent tt maxPvc) st

end OnuFirmware.Wan
