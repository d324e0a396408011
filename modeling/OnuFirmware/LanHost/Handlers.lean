import OnuFirmware.LanHost.Table

/-!
# The events of the LAN host daemon (`lan_host_msg.c`, `lan_host_mgr.c`)

The message thread handles events of the Wi-Fi driver, the DHCP server, the switch and the ARP
table; the checking thread looks at the bridge table and at the bridged devices in turn. A
`HostEvent` is one call of a handler or one pass of the checking thread, with what it receives or
reads.
-/

namespace OnuFirmware.LanHost

open Clib

/-! ## Messages -/

/-- The fields of a text that `strtok` separates at semicolons. -/
def strtokFields : Str → List Str
  | s => (s.splitOn ';').filter (· ≠ [])

/-- A station without an address is only on its way to be online. -/
def wifiSettle (d : Daemon) (p : Nat) : Daemon :=
  let e := d.tab p
  if !e.ipFlag || e.ip = [] then d.put p { e with exist := wifiOnlining } else d

/-- Stores the port of an entry, and writes it to the node when it changed. -/
def updatePort (W : World) (d : Daemon) (p : Nat) (port : Int) : Daemon :=
  let e := d.tab p
  if (e.port : Int) ≠ port then
    syncLanHostInfo W (d.put p { e with port := ucharOfInt port }) p p [.updatePort]
  else d

/-- `wifi_update_handler` for the command `add`. -/
def wifiAdd (W : World) (d : Daemon) (newMac : Str) (oldSsidIdx : Int) : Daemon :=
  match findLanHostEntryByMac W d newMac with
  | some p =>
    let d := setLanHostOnline W (d.put p { d.tab p with connType := 1 }) p p true
    wifiSettle (setLanHostOnline W (updatePort W d p (oldSsidIdx + 1)) p p true) p
  | none =>
    match findEmptyLanHostEntry W d with
    | none => d.tick
    | some p => wifiSettle (addLanHost W d.tick p newMac p 1 (oldSsidIdx + 1)) p

/-- `wifi_update_handler` for the command `del`. -/
def wifiDel (W : World) (d : Daemon) (newMac : Str) (oldSsidIdx : Int) : Daemon :=
  match findLanHostEntryByMac W d newMac with
  | none => d
  | some p =>
    let e := d.tab p
    if (e.port : Int) = oldSsidIdx + 1 then
      setLanHostOffline W
        (d.put p { e with lockLost := if e.otherBrDev then 2 else e.lockLost }) p p
    else d

/-- `wifi_update_handler` for the command `update`. -/
def wifiUpdate (W : World) (d : Daemon) (newMac : Str) (oldSsidIdx : Int) : Daemon :=
  match findLanHostEntryByMac W d newMac with
  | none => d
  | some p =>
    let e := d.tab p
    syncLanHostInfo W (d.put p { e with port := ucharOfInt (oldSsidIdx + 1) }) p p
      ((if (e.port : Int) ≠ oldSsidIdx + 1 then [.updatePort] else []) ++
        [.updatePowerLevel, .updateNegorate, .updateDuplexmode])

/-- `wifi_update_handler`. -/
def wifiUpdateHandler (W : World) (d : Daemon) (data : Str) : Daemon :=
  let fields := strtokFields data
  let cmd := (fields.getD 0 []).take 15
  let oldSsidIdx := atoi ((fields.getD 1 []).take 15)
  let newMac := macRmDot ((fields.getD 3 []).take 31)
  if cmd = "add".toList then wifiAdd W d newMac oldSsidIdx
  else if cmd = "del".toList then wifiDel W d newMac oldSsidIdx
  else if cmd = "update".toList then wifiUpdate W d newMac oldSsidIdx
  else d

/-- `dhcp_update_hander`; `type` and `macaddr` are the two parts of the message. -/
def dhcpUpdateHander (W : World) (d : Daemon) (type macaddr : Str) : Daemon :=
  match findLanHostEntryByMac W d (macRmDot macaddr) with
  | none => d
  | some p =>
    if type.head? = some 'd' then setLanHostOffline W d p p
    else if type.head? = some 'a' then
      let ret := setIpFromDhcp W d p p
      if ret.1 then setLanHostOnline W ret.2 p p false else ret.2
    else d

/-- `lan_up_handler`. -/
def lanUpHandler (d : Daemon) (lanPort : Nat) : Daemon :=
  { d with lanPortStatus := Function.update d.lanPortStatus lanPort true, checkFlag := fun _ => 3 }

/-- The body of the loop of `lan_down_handler`. -/
def lanDownEntry (W : World) (lanPort : Nat) (d : Daemon) (i : Nat) : Daemon :=
  let e := d.tab i
  if e.valid && e.active && decide (e.connType = 0) && decide (e.port = lanPort + 1) then
    setLanHostOffline W (d.put i { e with lockLost := if e.otherBrDev then 2 else e.lockLost }) i i
  else d

/-- `lan_down_handler`. -/
def lanDownHandler (W : World) (d : Daemon) (lanPort : Nat) : Daemon :=
  (slots W).foldl (lanDownEntry W lanPort)
    { d with lanPortStatus := Function.update d.lanPortStatus lanPort false }

/-- The body of the loop of `alink_bridge_dev_handler`. -/
def alinkBridgeEntry (W : World) (mac ipaddr : Str) (d : Daemon) (i : Nat) : Daemon :=
  let e := d.tab i
  if strcaseEq mac e.mac && e.valid then
    let lanPort := W.lanPortByMac d.now e.mac
    if 0 < lanPort ∧ (e.active = false ∨ e.ip = [] ∨ strcaseEq ipaddr e.ip = false) then
      let move := e.connType = 0 ∧ lanPort ≤ 4
      let e := { e with ip := ipaddr.take ipAddrLen, ipFlag := true,
                        port := if move then ucharOfInt lanPort else e.port }
      let d := syncLanHostInfo W (d.tick.put i e) i i
        (.updateIp :: if move then [.updatePort] else [])
      setLanHostOnline W d i i false
    else d.tick
  else d

/-- `alink_bridge_dev_handler`. -/
def alinkBridgeDevHandler (W : World) (d : Daemon) (macaddr ipaddr : Str) : Daemon :=
  (slots W).foldl (alinkBridgeEntry W (macRmDot macaddr) ipaddr) d

/-- The part of `arp_add_handler` that stores a new IPv4 address. -/
def arpTakeIp (W : World) (d : Daemon) (p : Nat) (abuf : Str) (lanPort : Int) : Daemon :=
  let e := d.tab p
  if e.ipFlag then d
  else
    let lan := e.connType = 0
    let e' := { e with ip := abuf.take ipAddrLen, ipFlag := true,
                       port := if lan then ucharOfInt lanPort else e.port,
                       portBind := if lan then W.lanPortBind d.now lanPort else e.portBind }
    syncLanHostInfo W (d.tick.put p e') p p
      ((if e.ip = [] then SyncFlag.addIp else .updateIp) :: if lan then [.updatePort] else [])

/-- The part of `arp_add_handler` that sets an entry online. -/
def arpOnline (W : World) (d : Daemon) (p : Nat) : Daemon :=
  if (d.tab p).connType = 0 ∨ (d.tab p).exist = wifiOnlining then setLanHostOnline W d p p false
  else d

/-- `arp_add_handler` for an IPv4 address of an entry. -/
def arpAddIpv4 (W : World) (d : Daemon) (p : Nat) (abuf : Str) : Daemon :=
  let lanPort := W.lanPortByMac d.now (d.tab p).mac
  let lanPortSt := decide (1 ≤ lanPort ∧ lanPort ≤ 4) && d.lanPortStatus (lanPort - 1).toNat
  let e := { d.tab p with ipFlag := (d.tab p).ipFlag && strcaseEq (d.tab p).ip abuf }
  let d := d.tick.put p e
  if !e.active || !e.ipFlag then
    if e.connType = 1 ∨ (e.connType = 0 ∧ lanPortSt) then
      arpOnline W (arpTakeIp W d p abuf lanPort) p
    else d
  else if strcaseEq (abuf.take ipAddrLen) e.ip then d
  else syncLanHostInfo W (d.put p { e with ip := abuf.take ipAddrLen }) p p [.updateIp]

/-- `arp_add_handler`. -/
def arpAddHandler (W : World) (d : Daemon) (lladdr abuf : Str) (ipv6 : Bool) : Daemon :=
  match findLanHostEntryByMac W d (macRmDot lladdr) with
  | none => d
  | some p =>
    if (d.tab p).valid then
      if ipv6 then
        if (d.tab p).ipv6Flag then d.tick
        else syncLanHostInfo W (d.tick.put p { d.tab p with ipv6Flag := true }) p p [.updateIpv6]
      else arpAddIpv4 W d p abuf
    else d

/-- The marks that `lan_host_ipv6only_update` sets in an entry. -/
def markIpv6Only (d : Daemon) (p : Nat) : Daemon :=
  let e := d.tab p
  let e := { e with ipv6Flag := true, ipmode := if e.ipFlag then .both else .ipv6Only }
  if e.ipv6IdleFlag then d.put p e
  else
    { d.put p { e with ipv6IdleFlag := true, ipv6IdleCnt := 2 } with
      checkFlag := Function.update d.checkFlag p 5 }

/-- `lan_host_ipv6only_update` for an entry of the table. -/
def ipv6onlyFound (W : World) (d : Daemon) (p : Nat) (ipv6addr : Str) : Daemon :=
  let d :=
    if (d.tab p).ipv6 = ipv6addr then d
    else syncLanHostInfo W (markIpv6Only d p) p p [.updateIpv6]
  if (d.tab p).active then d else setLanHostOnline W (markIpv6Only d p) p p false

/-- The connection type of a port: `0` for the four LAN ports. -/
def connTypeOf (port : Int) : Nat := if 1 ≤ port ∧ port ≤ 4 then 0 else 1

/-- `lan_host_ipv6only_update`, for an address that was found in the detection queue. -/
def lanHostIpv6onlyUpdate (W : World) (d : Daemon) (mac ipv6addr : Str) : Daemon :=
  let newMac := macRmDot mac
  let lanHostPort := W.lanPortByMac d.now newMac
  if lanHostPort < 0 then d.tick
  else
    match findLanHostEntryByMac W d newMac with
    | some p => ipv6onlyFound W d.tick p ipv6addr
    | none =>
      match findEmptyLanHostEntry W d with
      | none => d.tick
      | some p =>
        addLanHost W (markIpv6Only d.tick p) p newMac p (connTypeOf lanHostPort) lanHostPort

/-! ## The checking thread -/

/-- A line of `stb_list`, as far as `sscanf` reads it. -/
structure StbLine where
  port : Option Int
  mac : Option Str
deriving Repr, DecidableEq

/-- The variables of the loop over `stb_list`. -/
structure StbLoop where
  d : Daemon
  port : Int
  mac : Str
  emptyIndex : Int

/-- One turn of the loop over `stb_list`. -/
def stbTurn (W : World) (s : StbLoop) (line : StbLine) : StbLoop :=
  let port := line.port.getD s.port
  let mac := line.mac.getD s.mac
  let ret := checkMacExist W s.d mac s.emptyIndex
  let d := ret.2
  let emptyIndex := ret.1.2
  if ret.1.1 ∧ W.leaseOrArp d.now mac ∧ 1 ≤ port ∧ port ≤ 4 ∧ emptyIndex ≠ -1 then
    { d := addLanHost W d.tick emptyIndex.toNat mac emptyIndex 0 port,
      port := port, mac := mac, emptyIndex := emptyIndex }
  else { d := d.tick, port := port, mac := mac, emptyIndex := emptyIndex }

/-- The part of `check_lan_host_update` that sets an entry of a LAN port online; `port` is the port
in the last line of `stb_list`. -/
def recheckLan (W : World) (port : Int) (d : Daemon) (i : Nat) : Daemon :=
  let lanPort := W.lanPortByMac d.now (d.tab i).mac
  if 1 ≤ lanPort ∧ lanPort ≤ 4 ∧ d.lanPortStatus (lanPort - 1).toNat then
    let ret := setLanHostEntry W d.tick i i
    let e := ret.2.tab i
    let inform := if ret.1 || e.portBind then (true, e) else checkIpv6DeviceInform e
    if inform.1 then
      let e := inform.2
      let d := ret.2.put i e
      let d :=
        if lanPort ≠ e.port then
          syncLanHostInfo W
            (d.put i { e with port := ucharOfInt lanPort, portBind := W.lanPortBind d.now port })
            i i [.updatePort]
        else d
      let d := setLanHostOnline W d i i true
      { d with checkFlag := Function.update d.checkFlag i 0 }
    else ret.2
  else d.tick

/-- The part of `check_lan_host_update` that sets a Wi-Fi station with IPv6 only online. -/
def recheckWifi (W : World) (d : Daemon) (i : Nat) : Daemon :=
  let e := d.tab i
  if e.valid && W.wifiExist d.now e.mac && decide (e.ipmode = .ipv6Only) && e.ipv6Flag then
    let d := setLanHostOnline W (syncLanHostInfo W d.tick i i [.updateIpv6]) i i false
    { d with checkFlag := Function.update d.checkFlag i 0 }
  else d.tick

/-- The part of `check_lan_host_update` for an entry that is not online: its address is looked for
again. -/
def recheckEntry (W : World) (port : Int) (d : Daemon) (i : Nat) : Daemon :=
  let inform := checkIpv6DeviceInform (d.tab i)
  if inform.1 = false then d
  else
    let e := inform.2
    let d :=
      if e.valid && decide (e.connType = 0) then recheckLan W port (d.put i e) i
      else recheckWifi W (d.put i e) i
    { d with checkFlag := Function.update d.checkFlag i (d.checkFlag i - 1) }

/-- The counters of an online entry; another one may go online. -/
def countEntry (W : World) (port : Int) (d : Daemon) (i : Nat) : Daemon :=
  if (d.tab i).valid && (d.tab i).active then
    syncLanHostInfo W d i i [.updateCnt, .updateOnlineTime]
  else if 0 < d.checkFlag i then recheckEntry W port d i
  else d

/-- An online entry that is no longer in the bridge table goes offline. -/
def dropLost (W : World) (d : Daemon) (i : Nat) : Daemon :=
  let e := d.tab i
  if e.valid && e.active && decide (e.exist = 0) &&
      (decide (e.connType = 0) || !W.wifiExist d.now e.mac) then
    setLanHostOffline W d.tick i i
  else d.tick

/-- An entry that is offline for too long is removed. -/
def dropOld (W : World) (d : Daemon) (i : Nat) : Daemon :=
  let e := d.tab i
  if e.valid && !e.active && decide (offlineTimeMax < uintSub (W.uptime d.now) e.offlineTime) then
    delLanHost W d.tick i i
  else d.tick

/-- An online device of another bridge that was not seen for a minute goes offline. -/
def ageBridged (W : World) (d : Daemon) (i : Nat) : Daemon :=
  let e := d.tab i
  if e.active && e.otherBrDev && decide (60 ≤ W.uptime d.now - e.lastActiveSec) then
    setLanHostOffline W d.tick i i
  else d.tick

/-- The host name of an entry that is online at the start of this part. -/
def nameEntry (W : World) (online : Bool) (d : Daemon) (i : Nat) : Daemon :=
  let e := d.tab i
  if online && !e.hostNameFlag && decide (e.mac ≠ []) && e.ipFlag then
    let d := setHostnameFromDhcp W d i i
    d.put i { d.tab i with hostNameFlag := true }
  else d

/-- The countdown of an entry with IPv6 only. -/
def idleEntry (d : Daemon) (i : Nat) : Daemon :=
  let e := d.tab i
  if e.ipv6IdleFlag then d.put i { e with ipv6IdleCnt := e.ipv6IdleCnt - 1 } else d

/-- The body of the loop over the entries in `check_lan_host_update`. -/
def checkEntry (W : World) (port : Int) (d : Daemon) (i : Nat) : Daemon :=
  let d := dropOld W (dropLost W (countEntry W port d i) i) i
  idleEntry (nameEntry W (d.tab i).active (ageBridged W d i) i) i

/-- Clears the mark of an entry that was seen in the last pass. -/
def clearExist (d : Daemon) (i : Nat) : Daemon :=
  let e := d.tab i
  d.put i { e with exist := if e.exist = 1 then 0 else e.exist }

/-- `check_lan_host_update`, up to the detection queue; `none` if `stb_list` cannot be opened. -/
def checkLanHostUpdate (W : World) (d : Daemon) (stbList : Option (List StbLine)) : Daemon :=
  let d := (slots W).foldl clearExist d
  match stbList with
  | none => d
  | some lines =>
    let s := lines.foldl (stbTurn W) { d := d, port := 0, mac := [], emptyIndex := -1 }
    (slots W).foldl (checkEntry W s.port) s.d

/-- The text of a device's address: an IPv6 address (in short form), an IPv4 address or neither. -/
inductive ObAddr
  | ipv6 (text : Str)
  | ipv4 (text : Str)
  | other
deriving Repr, DecidableEq

/-- A device of another bridge; `mac` are its six bytes. -/
structure ObDevice where
  mac : Fin 6 → Fin 256
  port : Nat
  addr : ObAddr
  ppp : Bool

/-- `%02x`. -/
def hexByte (b : Fin 256) : Str := [Nat.digitChar (b / 16), Nat.digitChar (b % 16)]

/-- The text of a device's MAC. -/
def ObDevice.devmac (dev : ObDevice) : Str := (List.ofFn dev.mac).flatMap hexByte

/-- The variables that the device loop of `check_OB_lan_host_update` carries along; `flags` is never
reset. -/
structure ObLoop where
  d : Daemon
  lanHostEntry : Int
  flags : List SyncFlag

/-- The address part of the update of a bridged device. -/
def obAddress (e : LanHostEntry) (dev : ObDevice) : LanHostEntry × List SyncFlag :=
  match dev.addr with
  | .ipv6 text =>
    if text = [] then (e, []) else ({ e with ipv6 := text, ipv6Flag := true }, [.updateIpv6])
  | .ipv4 text =>
    let take := { e with ip := text, ipType := dev.ppp, ipFlag := true }
    if !dev.ppp && e.ipType then
      if 3 ≤ e.pppLostCnt + 1 then ({ take with pppLostCnt := 0 }, [.updateIp])
      else ({ e with pppLostCnt := e.pppLostCnt + 1 }, [])
    else if e.ip = text then ({ e with pppLostCnt := 0 }, [])
    else ({ take with pppLostCnt := 0 }, [.updateIp])
  | .other => (e, [])

/-- The port part of the update of a bridged device. -/
def obPort (e : LanHostEntry) (dev : ObDevice) : LanHostEntry × List SyncFlag :=
  if e.port = dev.port then (e, [])
  else if 1 ≤ dev.port ∧ dev.port ≤ 4 then
    ({ e with connType := 0, port := dev.port }, [.updatePort, .updateConntype])
  else ({ e with connType := 1, port := ucharOfInt (dev.port - 4) }, [.updatePort, .updateConntype])

/-- A bridged device that is in the table goes online. -/
def obOnline (W : World) (d : Daemon) (p : Nat) : Daemon :=
  let d := d.put p { d.tab p with otherBrDev := true }
  if (d.tab p).active then d
  else
    let d := setLanHostOnline W d p p false
    d.put p { d.tab p with active := true }

/-- The update of a bridged device that is in the table. -/
def obUpdate (W : World) (d : Daemon) (flags : List SyncFlag) (p : Nat) (dev : ObDevice) :
    Daemon × List SyncFlag :=
  let d := obOnline W d p
  let moved := obPort (d.tab p) dev
  let r := obAddress moved.1 dev
  let flags := flags ++ moved.2 ++ r.2 ++ [.updateState, .updateOnlineTime]
  (syncLanHostInfo W (d.tick.put p { r.1 with lastActiveSec := W.uptime d.now }) p p flags, flags)

/-- One turn of the device loop of `check_OB_lan_host_update`. -/
def obTurn (W : World) (s : ObLoop) (dev : ObDevice) : ObLoop :=
  let found := (findLanHostOBEntryByMac W s.d true dev.devmac).or
    (findLanHostOBEntryByMac W s.d false dev.devmac)
  match found with
  | some p =>
    if (s.d.tab p).lockLost ≠ 0 then { s with lanHostEntry := p }
    else
      let r := obUpdate W s.d s.flags p dev
      { d := r.1, lanHostEntry := p, flags := r.2 }
  | none =>
    let index := findEmptyIndex W s.d s.lanHostEntry
    match findEmptyLanHostEntry W s.d with
    | none => { s with d := s.d.tick, lanHostEntry := index }
    | some p =>
      let d := s.d.tick.put p { s.d.tab p with otherBrDev := true }
      { s with d := addLanHost W d p dev.devmac index (connTypeOf dev.port) dev.port,
               lanHostEntry := index }

/-- The body of the last loop of `check_OB_lan_host_update`. The node it writes to is the one of the
last device, not that of the entry. -/
def lockLostTurn (W : World) (lanHostEntry : Int) (d : Daemon) (i : Nat) : Daemon :=
  let e := d.tab i
  if e.lockLost = 0 then d
  else
    let d := d.put i { e with lockLost := e.lockLost - 1 }
    if e.otherBrDev && e.active then setLanHostOffline W d i lanHostEntry else d

/-- What `check_OB_lan_host_update` reads: the devices of all bridges, and whether `malloc` failed
after them. -/
structure ObInput where
  devices : List ObDevice
  aborted : Bool

/-- `BRIDGE_UPDATE_PERIOD_TIME`. -/
def bridgeUpdatePeriodTime : Nat := 5

/-- The device loop of `check_OB_lan_host_update`. -/
def obDevices (W : World) (d : Daemon) (devices : List ObDevice) : ObLoop :=
  devices.foldl (obTurn W) { d := { d with periodSec := 0 }, lanHostEntry := -1, flags := [] }

/-- `check_OB_lan_host_update`; `none` if there is no other bridge. -/
def checkOBLanHostUpdate (W : World) (d : Daemon) (input : Option ObInput) : Daemon :=
  if d.periodSec + 1 < bridgeUpdatePeriodTime then { d with periodSec := d.periodSec + 1 }
  else
    match input with
    | none => { d with periodSec := 0 }
    | some input =>
      let s := obDevices W d input.devices
      if input.aborted then s.d else (slots W).foldl (lockLostTurn W s.lanHostEntry) s.d

/-! ## Runs -/

/-- An event. -/
inductive HostEvent
  | wifiUpdate (data : Str)
  | dhcpUpdate (type macaddr : Str)
  | lanUp (lanPort : Nat)
  | lanDown (lanPort : Nat)
  | arpAdd (lladdr abuf : Str) (ipv6 : Bool)
  | arpDel (lladdr abuf : Str)
  | bridgeDev (macaddr ipaddr : Str)
  | ipv6Only (mac ipv6addr : Str)
  | check (stbList : Option (List StbLine))
  | checkOB (input : Option ObInput)

/-- What the daemon does for an event; `arp_del_handler` only looks an entry up. -/
def Daemon.handle (W : World) (d : Daemon) : HostEvent → Daemon
  | .wifiUpdate data => wifiUpdateHandler W d data
  | .dhcpUpdate type macaddr => dhcpUpdateHander W d type macaddr
  | .lanUp lanPort => lanUpHandler d lanPort
  | .lanDown lanPort => lanDownHandler W d lanPort
  | .arpAdd lladdr abuf ipv6 => arpAddHandler W d lladdr abuf ipv6
  | .arpDel _ _ => d
  | .bridgeDev macaddr ipaddr => alinkBridgeDevHandler W d macaddr ipaddr
  | .ipv6Only mac ipv6addr => lanHostIpv6onlyUpdate W d mac ipv6addr
  | .check stbList => checkLanHostUpdate W d stbList
  | .checkOB input => checkOBLanHostUpdate W d input

/-- `init_lan_host_entry`: the entry that a node describes is valid and offline. -/
def initLanHostEntry (W : World) (conf : Nat → Option LanHostEntry) (d : Daemon)
    (i : Nat) : Daemon :=
  match conf i with
  | none => d
  | some e =>
    let read : LanHostEntry := { mac := e.mac.take devMacAddrLen, ip := e.ip.take ipAddrLen,
                                 connType := e.connType, port := e.port, valid := true }
    setLanHostOffline W (d.put i read) i i

/-- The state after `init_lan_port_status` and `init_lan_host_info`; `conf i` is what the node of
entry `i` says, if it has a MAC. -/
def initLanHostInfo (W : World) (status : Nat → Bool) (conf : Nat → Option LanHostEntry) : Daemon :=
  (slots W).foldl (initLanHostEntry W conf)
    { tab := fun _ => {}, checkFlag := fun _ => 10, lanPortStatus := status, periodSec := 0,
      log := [], now := 0 }

/-- A run. -/
def Daemon.handleAll (W : World) (d : Daemon) (evs : List HostEvent) : Daemon :=
  evs.foldl (Daemon.handle W) d

/-! ## A small table -/

/-- A table with two entries; no address is known for any device. -/
def twoHosts : World where
  maxLanHostNum := 2
  hasMac _ _ := true
  lease _ _ := none
  arp _ _ := none
  leaseOrArp _ _ := false
  lanPortByMac _ _ := 1
  lanPortBind _ _ := false
  lanPortDuplex _ _ := true
  wifiExist _ _ := false
  controlStatus _ _ := false
  lanHostNumber _ := 2
  lanHostMaxNumber _ := 2
  uptime _ := 100

/-- The daemon when it starts with no node. -/
def twoHostsStart : Daemon := initLanHostInfo twoHosts (fun _ => true) fun _ => none

end OnuFirmware.LanHost
