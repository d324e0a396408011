import OnuFirmware.Clib.Str
import Mathlib.Logic.Function.Basic

/-!
# The table of LAN hosts (`lan_host_api.c`)

The daemon keeps a table of LAN hosts and mirrors entry `i` in the configuration node
`LANHost2_Entry<i>`. The model is the build with `TCSUPPORT_CT_JOYME4` and `TCSUPPORT_WLAN`, without
`TCSUPPORT_ANDLINK` and `TCSUPPORT_CHARSET_CHANGE`.

An entry is named by its slot, which stands for the pointer `p_lan_host_entry`; the index of the
node is passed beside it, as in the source. `log` records each access to a node with the entry it is
made for. What the daemon reads from files, the configuration and the kernel is given by a `World`,
which may answer differently each time it is asked (`now` counts the questions). Fields that are
only written to the node (times, counters) are left out, and so are the texts that are written.
-/

namespace OnuFirmware.LanHost

open Clib

/-! ## Data -/

/-- `DEV_MAC_ADDR_LEN`. -/
def devMacAddrLen : Nat := 12

/-- `IP_ADDR_LEN`. -/
def ipAddrLen : Nat := 16

/-- `HOSTNAME_LEN`. -/
def hostnameLen : Nat := 63

/-- `OFFLINE_TIME`. -/
def offlineTimeMax : Nat := 86400

/-- `WIFI_ONLINING`. -/
def wifiOnlining : Nat := 2

/-- `IPV4_IPV6_MODE`, `IPV6_ONLY_MODE` and `IPV4_ONLY_MODE`. -/
inductive IpMode
  | both
  | ipv6Only
  | ipv4Only
deriving Repr, DecidableEq

/-- `lan_host_entry_t`. The bits of `update_flag` are fields of their own, and `ipType` says whether
the address is from PPP. The defaults are those of a cleared entry. -/
structure LanHostEntry where
  valid : Bool := false
  ipFlag : Bool := false
  hostNameFlag : Bool := false
  ipv6Flag : Bool := false
  ipv6IdleFlag : Bool := false
  ipv6IdleCnt : Nat := 0
  exist : Nat := 0
  mac : Str := []
  hostName : Str := []
  ip : Str := []
  ipv6 : Str := []
  connType : Nat := 0
  port : Nat := 0
  portBind : Bool := false
  active : Bool := false
  offlineTime : Nat := 0
  otherBrDev : Bool := false
  lastActiveSec : Nat := 0
  ipType : Bool := false
  pppLostCnt : Nat := 0
  lockLost : Nat := 0
  ipmode : IpMode := .both
deriving Repr, DecidableEq

/-- The `SYNC_` flags. -/
inductive SyncFlag
  | newEntry
  | delEntry
  | updateState
  | updateMac
  | updateIp
  | updateCnt
  | updateHostname
  | updateOnlineTime
  | updateActiveTime
  | updateInactiveTime
  | updatePort
  | updatePowerLevel
  | updateConntype
  | updateNegorate
  | updateIpv6
  | updateDuplexmode
  | addIp
deriving Repr, DecidableEq

/-- The attributes of a node. -/
inductive Attr
  | active
  | oBDev
  | mac
  | ip
  | lIpv6
  | gIpv6
  | rxBytes
  | txBytes
  | hostName
  | onlineTime
  | latestActiveTime
  | latestInactiveTime
  | port
  | portBind
  | connectionType
  | powerLevel
  | negoRate
  | duplexMode
  | ipMode
deriving Repr, DecidableEq

/-- What is done with a node: it is looked up, an attribute is set, it is removed. -/
inductive NodeOp
  | check
  | set (attr : Attr)
  | unset
deriving Repr, DecidableEq

/-- An access to the node with index `node` for the entry in slot `entry`. -/
structure Access where
  node : Int
  op : NodeOp
  entry : Nat
deriving Repr, DecidableEq

/-- What the daemon finds outside: whether a node has a MAC, the addresses in the lease file and in
the ARP table, the host name beside an address in the lease file, that of a node and its conversion,
the port of a MAC, the uptime and so on, at the moment it asks. -/
structure World where
  maxLanHostNum : Nat
  hasMac : Nat → Int → Bool
  lease : Nat → Str → Option Str
  leaseName : Nat → Str → Str := fun _ _ => []
  nodeHostName : Nat → Int → Str := fun _ _ => []
  charsetconv : Str → Option Str := fun _ => none
  arp : Nat → Str → Option Str
  leaseOrArp : Nat → Str → Bool
  lanPortByMac : Nat → Str → Int
  lanPortBind : Nat → Int → Bool
  lanPortDuplex : Nat → Int → Bool
  wifiExist : Nat → Str → Bool
  controlStatus : Nat → Nat → Bool
  lanHostNumber : Nat → Int
  lanHostMaxNumber : Nat → Int
  uptime : Nat → Nat

/-- The state of the daemon. -/
structure Daemon where
  tab : Nat → LanHostEntry
  checkFlag : Nat → Int
  lanPortStatus : Nat → Bool
  periodSec : Nat
  log : List Access
  now : Nat

/-- Stores an entry. -/
def Daemon.put (d : Daemon) (p : Nat) (e : LanHostEntry) : Daemon :=
  { d with tab := Function.update d.tab p e }

/-- Records accesses to a node. -/
def Daemon.access (d : Daemon) (node : Int) (p : Nat) (ops : List NodeOp) : Daemon :=
  { d with log := d.log ++ ops.map fun op => { node := node, op := op, entry := p } }

/-- Lets time pass. -/
def Daemon.tick (d : Daemon) : Daemon := { d with now := d.now + 1 }

/-- `strcasecmp` returns `0`. -/
def strcaseEq (a b : Str) : Bool := a.map Char.toLower == b.map Char.toLower

/-- `mac_rm_dot`: of the first 17 bytes those that are not colons. -/
def macRmDot (mac : Str) : Str := (mac.take 17).filter (· != ':')

/-- Conversion of an `int` to `unsigned char`. -/
def ucharOfInt (n : Int) : Nat := (n % 256).toNat

/-- Subtraction of `unsigned int`. -/
def uintSub (a b : Nat) : Nat := ((a : Int) - b).emod 0x100000000 |>.toNat

/-! ## Writing to the nodes -/

/-- `check_ipv6_device_inform`. -/
def checkIpv6DeviceInform (e : LanHostEntry) : Bool × LanHostEntry :=
  if e.ipFlag then (true, { e with ipv6IdleFlag := false, ipv6IdleCnt := 0 })
  else if e.ipmode = .ipv6Only ∧ e.ipv6Flag then
    if e.ipv6IdleFlag then (e.ipv6IdleCnt == 0, e) else (true, e)
  else (false, e)

/-- The attributes that `sync_lan_host_info` sets for a flag, those of IPv6 as far as addresses are
known. -/
def syncAttrs (e : LanHostEntry) : SyncFlag → List Attr
  | .updateState => [.active, .oBDev]
  | .updateMac => [.mac]
  | .updateIp => if e.portBind && !e.otherBrDev then [] else [.ip]
  | .addIp => [.ip]
  | .updateIpv6 => [.lIpv6, .gIpv6]
  | .updateCnt => [.rxBytes, .txBytes]
  | .updateHostname => [.hostName]
  | .updateOnlineTime => [.onlineTime]
  | .updateActiveTime => [.latestActiveTime]
  | .updateInactiveTime => [.latestInactiveTime]
  | .updatePort => [.port, .portBind]
  | .updateConntype => [.connectionType]
  | .updatePowerLevel => [.powerLevel]
  | .updateNegorate => [.negoRate]
  | .updateDuplexmode => [.duplexMode]
  | .newEntry => []
  | .delEntry => []

/-- The mode that `sync_lan_host_info` computes. -/
def ipModeOf (e : LanHostEntry) : IpMode :=
  if e.ipFlag then (if e.ipv6Flag then .both else .ipv4Only)
  else if e.ipv6Flag then .ipv6Only
  else .both

/-- The flags that make `sync_lan_host_info` write the mode. -/
def ipModeFlags : List SyncFlag := [.updateState, .addIp, .updateIp, .updateIpv6]

/-- `sync_lan_host_info`. An entry whose node is gone is cleared. -/
def syncLanHostInfo (W : World) (d : Daemon) (node : Int) (p : Nat) (flags : List SyncFlag) :
    Daemon :=
  if flags = [] then d
  else if .delEntry ∈ flags then d.access node p [.unset]
  else if .newEntry ∉ flags ∧ W.hasMac d.now node = false then
    (d.access node p [.check]).tick.put p {}
  else
    let e := (checkIpv6DeviceInform (d.tab p)).2
    let d := d.access node p
      ((if .newEntry ∈ flags then [] else [.check]) ++ (flags.flatMap (syncAttrs e)).map NodeOp.set)
    if flags.any (· ∈ ipModeFlags) then
      (d.access node p [.set .ipMode]).tick.put p { e with ipmode := ipModeOf e }
    else d.tick.put p e

/-! ## Addresses -/

/-- `set_ip_from_dhcp`: whether it returns `1`. Without `TCSUPPORT_CHARSET_CHANGE`, which would take
the name from the node. -/
def setIpFromDhcp (W : World) (d : Daemon) (p : Nat) (node : Int) : Bool × Daemon :=
  let e := d.tab p
  match W.lease d.now e.mac with
  | none => (false, d.tick)
  | some ip =>
    if !e.hostNameFlag || !strcaseEq e.ip ip || !e.ipFlag then
      let e := { e with hostName := (W.leaseName d.now e.mac).take hostnameLen,
                        ip := ip.take ipAddrLen, hostNameFlag := true, ipFlag := true }
      (true, syncLanHostInfo W (d.tick.put p e) node p [.updateIp, .updateHostname])
    else (true, d.tick)

/-- `set_ip_from_arp`: whether it returns `1`. -/
def setIpFromArp (W : World) (d : Daemon) (p : Nat) (node : Int) : Bool × Daemon :=
  let e := d.tab p
  if e.ipFlag && e.ip ≠ [] then (true, d)
  else
    match W.arp d.now e.mac with
    | none => (false, d.tick)
    | some ip =>
      (true, syncLanHostInfo W (d.tick.put p { e with ip := ip.take ipAddrLen, ipFlag := true })
        node p [.updateIp])

/-- `set_lan_host_entry`: whether it returns `0`. -/
def setLanHostEntry (W : World) (d : Daemon) (p : Nat) (node : Int) : Bool × Daemon :=
  let dhcp := setIpFromDhcp W d p node
  if dhcp.1 then dhcp else setIpFromArp W dhcp.2 p node

/-- `set_hostname_from_dhcp`. -/
def setHostnameFromDhcp (W : World) (d : Daemon) (p : Nat) (node : Int) : Daemon :=
  let e := d.tab p
  if (W.lease d.now e.mac).isSome && !e.hostNameFlag then
    let name :=
      if W.nodeHostName d.now node ≠ [] then
        ((W.charsetconv (W.nodeHostName d.now node)).map (·.take hostnameLen)).getD e.hostName
      else (W.leaseName d.now e.mac).take hostnameLen
    syncLanHostInfo W (d.tick.put p { e with hostName := name, hostNameFlag := true }) node p
      [.updateHostname]
  else d.tick

/-! ## Looking up entries -/

/-- The slots of the table. -/
def slots (W : World) : List Nat := List.range W.maxLanHostNum

/-- `find_lan_host_entry_by_mac`. -/
def findLanHostEntryByMac (W : World) (d : Daemon) (mac : Str) : Option Nat :=
  (slots W).find? fun i => strcaseEq (d.tab i).mac mac

/-- `find_lan_host_OB_entry_by_mac`. -/
def findLanHostOBEntryByMac (W : World) (d : Daemon) (isOBDev : Bool) (mac : Str) : Option Nat :=
  (slots W).find? fun i => (d.tab i).otherBrDev == isOBDev && strcaseEq (d.tab i).mac mac

/-- `LANHostMaxNumber`, at most the size of the table. -/
def lanHostMaxNum (W : World) (d : Daemon) : Int :=
  min (W.lanHostMaxNumber d.now) W.maxLanHostNum

/-- The slots below `LANHostMaxNumber`. -/
def usableSlots (W : World) (d : Daemon) : List Nat := List.range (lanHostMaxNum W d).toNat

/-- An entry that is offline since an earlier time, unless `ControlStatus` protects it; the
variables `offline_time` and `latest_inactive_index` of two loops. -/
def olderInactive (W : World) (d : Daemon) (acc : Nat × Int) (i : Nat) : Nat × Int :=
  let e := d.tab i
  if !e.active && decide (0 < e.offlineTime) && decide (e.offlineTime < acc.1) &&
      !W.controlStatus d.now i then (e.offlineTime, i)
  else acc

/-- The loop of `find_empty_lan_host_entry`: the first free slot, or the entry that is offline for
the longest time. -/
def findEmptyLoop (W : World) (d : Daemon) : List Nat → Nat × Int → Nat ⊕ Int
  | [], acc => .inr acc.2
  | i :: is, acc =>
    let acc := olderInactive W d acc i
    if (d.tab i).valid then findEmptyLoop W d is acc else .inl i

/-- `find_empty_lan_host_entry`. -/
def findEmptyLanHostEntry (W : World) (d : Daemon) : Option Nat :=
  match findEmptyLoop W d (usableSlots W d) (offlineTimeMax, -1) with
  | .inl i => some i
  | .inr latest =>
    if lanHostMaxNum W d = W.lanHostNumber d.now ∧ 0 ≤ latest then some latest.toNat else none

/-- What `find_empty_lan_host_entry` leaves in its argument `found`. -/
def findEmptyIndex (W : World) (d : Daemon) (found : Int) : Int :=
  match findEmptyLoop W d (usableSlots W d) (offlineTimeMax, -1) with
  | .inl i => i
  | .inr latest => if lanHostMaxNum W d = W.lanHostNumber d.now then latest else found

/-- How the loop of `check_mac_exist` ends: it returns `0` from its body with an index, it finds the
MAC at an index, or it runs to its end. The last two carry `empty_index` and
`latest_inactive_index`. -/
inductive MacSearch
  | noIp (i : Nat)
  | found (i : Nat) (emptyIndex latest : Int)
  | missing (emptyIndex latest : Int)
deriving Repr, DecidableEq

/-- The loop of `check_mac_exist`. -/
def checkMacExistLoop (W : World) (d : Daemon) (newMac : Str) :
    List Nat → Bool → Int → Nat × Int → MacSearch
  | [], _, emptyIndex, acc => .missing emptyIndex acc.2
  | i :: is, foundEmpty, emptyIndex, acc =>
    let e := d.tab i
    let acc := olderInactive W d acc i
    if e.valid then
      if strcaseEq e.mac newMac then
        if e.ip = [] ∧ e.portBind = false ∧ e.ipv6Flag = false then .noIp i
        else .found i emptyIndex acc.2
      else checkMacExistLoop W d newMac is foundEmpty emptyIndex acc
    else if foundEmpty then checkMacExistLoop W d newMac is foundEmpty emptyIndex acc
    else checkMacExistLoop W d newMac is true i acc

/-- `check_mac_exist`: whether it returns `0`, and the new `empty_index`. -/
def checkMacExist (W : World) (d : Daemon) (mac : Str) (emptyIndex : Int) : (Bool × Int) × Daemon :=
  let full := lanHostMaxNum W d = W.lanHostNumber d.now
  match checkMacExistLoop W d (macRmDot mac) (usableSlots W d) false emptyIndex
      (offlineTimeMax, -1) with
  | .noIp i => ((true, i), d.tick)
  | .found i emptyIndex latest =>
    let e := d.tab i
    ((false, if full then latest else emptyIndex),
      d.tick.put i { e with exist := if e.exist = 0 then 1 else e.exist })
  | .missing emptyIndex latest => ((true, if full then latest else emptyIndex), d.tick)

/-! ## Adding, removing, going on- and offline -/

/-- The part of `add_lan_host` that makes the entry valid for a MAC. -/
def claimEntry (e : LanHostEntry) (newMac : Str) (connType : Nat) (port : Int) (bound ipOk : Bool) :
    LanHostEntry :=
  let e := { e with valid := true }
  let e :=
    if connType = 0 then
      let inform := checkIpv6DeviceInform { e with exist := 1 }
      if inform.1 then { inform.2 with active := true } else inform.2
    else e
  let e := { e with mac := newMac.take devMacAddrLen, port := ucharOfInt port,
                    portBind := if connType = 0 then bound else e.portBind, connType := connType }
  if connType = 0 ∨ ipOk then { e with active := true, exist := 1 } else e

/-- The state that `add_lan_host` gives an entry after it looked its address up. -/
def addedState (ipOk : Bool) (e : LanHostEntry) : Bool × LanHostEntry :=
  let e :=
    if ipOk then { e with exist := 1, active := true }
    else if e.connType = 1 then { e with exist := wifiOnlining, active := false }
    else e
  let inform := checkIpv6DeviceInform e
  (inform.1, if inform.1 then { inform.2 with exist := 1, active := true } else inform.2)

/-- The second half of `add_lan_host`: the address is looked up again, now with the new MAC, and the
node is written. -/
def addSettle (W : World) (d : Daemon) (p : Nat) (node : Int) (flags : List SyncFlag) : Daemon :=
  let ipRet := setLanHostEntry W d p node
  let r := addedState ipRet.1 (ipRet.2.tab p)
  syncLanHostInfo W (ipRet.2.put p r.2) node p
    ([.newEntry, .updateState, .updateMac, .updateConntype, .updateActiveTime] ++ flags ++
      (if r.1 then [.updateIpv6] else []))

/-- The first test of `add_lan_host`: an entry that has the MAC already and still no address is left
alone unless IPv6 makes it known. -/
def addInform (ipOk : Bool) (newMac : Str) (e : LanHostEntry) : Bool × LanHostEntry :=
  if e.mac = newMac ∧ ipOk = false then checkIpv6DeviceInform e else (true, e)

/-- `add_lan_host`. -/
def addLanHost (W : World) (d : Daemon) (p : Nat) (mac : Str) (node : Int) (connType : Nat)
    (port : Int) : Daemon :=
  let newMac := macRmDot mac
  let ipRet := setLanHostEntry W d p node
  let e := ipRet.2.tab p
  let inform := addInform ipRet.1 newMac e
  if inform.1 = false then ipRet.2
  else
    let claimed := claimEntry inform.2 newMac connType port (W.lanPortBind ipRet.2.now port) ipRet.1
    if connType = 0 ∧ W.lanPortDuplex ipRet.2.now port = false then (ipRet.2.put p claimed).tick
    else
      addSettle W (ipRet.2.put p claimed).tick p node
        ((if (e.port : Int) ≠ port then [.updatePort] else []) ++
          (if connType = 0 then [.updateNegorate, .updateDuplexmode] else []))

/-- `del_lan_host`. -/
def delLanHost (W : World) (d : Daemon) (p : Nat) (node : Int) : Daemon :=
  syncLanHostInfo W (d.put p {}) node p [.delEntry]

/-- The end of `set_lan_host_online`. -/
def onlineSettle (W : World) (d : Daemon) (p : Nat) (node : Int) : Daemon :=
  let e := { d.tab p with active := true, exist := 1 }
  let d := (d.put p e).tick
  if e.connType = 0 ∧ W.lanPortDuplex d.now e.port = false then d
  else
    syncLanHostInfo W d node p
      ((if e.connType = 0 then [.updateNegorate, .updateDuplexmode] else []) ++
        [.updateIpv6, .updateState, .updateActiveTime, .updateConntype])

/-- `set_lan_host_online`. -/
def setLanHostOnline (W : World) (d : Daemon) (p : Nat) (node : Int) (ipFlag : Bool) : Daemon :=
  let e := d.tab p
  if e.valid && e.active then d
  else
    let inform := checkIpv6DeviceInform e
    if inform.1 = false then d
    else
      let e := { inform.2 with valid := true }
      if ipFlag then
        onlineSettle W (setLanHostEntry W (d.put p { e with ipFlag := false }) p node).2 p node
      else onlineSettle W (d.put p e) p node

/-- `set_lan_host_offline`. -/
def setLanHostOffline (W : World) (d : Daemon) (p : Nat) (node : Int) : Daemon :=
  let e := d.tab p
  let e := { e with active := false, ipFlag := false, ipv6Flag := false, ipv6 := [],
                    offlineTime := W.uptime d.now, hostName := [], hostNameFlag := false,
                    ipv6IdleFlag := false, ipv6IdleCnt := 0, otherBrDev := false,
                    ipType := if e.otherBrDev then false else e.ipType }
  syncLanHostInfo W (d.tick.put p e) node p
    ([.updateState, .updateIp, .updateInactiveTime] ++
      (if (d.tab p).otherBrDev then [.updateIpv6] else []))

end OnuFirmware.LanHost
