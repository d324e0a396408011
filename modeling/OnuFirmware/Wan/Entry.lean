import OnuFirmware.Clib.Num

/-!
# WAN entries (`wan_common.h`)

The configuration of a WAN entry, with the tests the source makes on it as macros, and the object
the WAN service keeps for the entry. `pd6addr` and `orgpd6addr` are left out: `load_opt` does not
fill them, they are written while an interface is up. Two configurations are the same here when the
loaded fields are.
-/

namespace OnuFirmware.Wan

open Clib

/-- `wan_entry_cfg_t`. -/
structure WanEntryCfg where
  vid : UInt16 := 0
  mvid : UInt16 := 0
  mtu : UInt16 := 0
  pdtm1 : Word := 0
  pdtm2 : Word := 0
  prefix6 : UInt16 := 0
  bindbit : Word := 0
  active : UInt8 := 0
  wanmode : UInt8 := 0
  linkmode : UInt8 := 0
  version : UInt8 := 0
  phymode : UInt8 := 0
  dot1p : UInt8 := 0
  vtag : UInt8 := 0
  isp : UInt8 := 0
  connMode : UInt8 := 0
  pppManualStatus : UInt8 := 0
  user : Str := []
  pwd : Str := []
  addrv4 : Str := []
  maskv4 : Str := []
  gwv4 : Str := []
  dns1v4 : Str := []
  dns2v4 : Str := []
  ipv6mode : UInt8 := 0
  addrv6 : Str := []
  gwv6 : Str := []
  dns1v6 : Str := []
  dns2v6 : Str := []
  pd : UInt8 := 0
  pdmode : UInt8 := 0
  dhcpv6pd : UInt8 := 0
  pdaddr : Str := []
  dslite : UInt8 := 0
  dsliteMode : UInt8 := 0
  srvList : Str := []
  srvType : Word := 0
  gwv6Op : UInt8 := 0
  pppHybrid : UInt8 := 0
  pdorigin : Str := []
  proxyenable : UInt8 := 0
  dhcpRealy : UInt8 := 0
  dhcpEnable : UInt8 := 0
  vlanmask : Str := []
  sdn : UInt8 := 0
  pingresp : UInt8 := 0
  npt : UInt8 := 0
deriving Repr, DecidableEq

/-! ## Constants -/

def versionIpv4 : UInt8 := 1
def versionIpv6 : UInt8 := 2
def versionBoth : UInt8 := 3

def eSrvInternet : Word := 1#32 <<< 0
def eSrvE8cInternet : Word := 1#32 <<< 1
def eSrvTr069 : Word := 1#32 <<< 2
def eSrvE8cTr069 : Word := 1#32 <<< 3
def eSrvOther : Word := 1#32 <<< 4
def eSrvIptv : Word := 1#32 <<< 5
def eSrvOtt : Word := 1#32 <<< 6
def eSrvVoice : Word := 1#32 <<< 7
def eSrvVr : Word := 1#32 <<< 8
def eSrvSpeSer : Word := 1#32 <<< 9

/-- `bl_map_data`: the attribute that binds a LAN port, and the device of the port. -/
def blMapData (wlanAc : Bool) : List (Str × Str) :=
  [("LAN1".toList, "eth0.1".toList), ("LAN2".toList, "eth0.2".toList),
    ("LAN3".toList, "eth0.3".toList), ("LAN4".toList, "eth0.4".toList),
    ("SSID1".toList, "ra0".toList), ("SSID2".toList, "ra1".toList),
    ("SSID3".toList, "ra2".toList), ("SSID4".toList, "ra3".toList)] ++
  if wlanAc then
    [("USB".toList, "usb0".toList), ("WDS".toList, "wds0".toList),
      ("SSIDAC1".toList, "rai0".toList), ("SSIDAC2".toList, "rai1".toList),
      ("SSIDAC3".toList, "rai2".toList), ("SSIDAC4".toList, "rai3".toList)]
  else []

namespace WanEntryCfg

variable (x : WanEntryCfg)

/-- `SVC_WAN_IS_ACTIVE`. -/
def isActive : Bool := x.active == 1

/-- `SVC_WAN_IS_ROUTE`. -/
def isRoute : Bool := x.wanmode == 1

/-- `SVC_WAN_IS_BRIDGE`. -/
def isBridge : Bool := x.wanmode == 2 || x.isp == 3

/-- `SVC_WAN_IS_PPP`. -/
def isPpp : Bool := x.linkmode == 2 || x.isp == 2

/-- `SVC_WAN_IS_IP`. -/
def isIp : Bool := x.linkmode == 1 || x.isp == 1 || x.isp == 0

/-- `SVC_WAN_IS_IPV4`. -/
def isIpv4 : Bool := x.version &&& versionIpv4 != 0

/-- `SVC_WAN_IS_IPV6`. -/
def isIpv6 : Bool := x.version &&& versionIpv6 != 0

/-- `SVC_WAN_IS_IPV4_DHCP`. -/
def isIpv4Dhcp : Bool := x.isp == 0 && x.isIpv4

/-- `SVC_WAN_IS_IPV4_STATIC`. -/
def isIpv4Static : Bool := x.isp == 1 && x.isIpv4

/-- `SVC_WAN_IS_IPV6_DHCP`. -/
def isIpv6Dhcp : Bool := x.ipv6mode == 1 && x.isIpv6

/-- `SVC_WAN_IS_IPV6_SLAAC`. -/
def isIpv6Slaac : Bool := x.ipv6mode == 2 && x.isIpv6

/-- `SVC_WAN_IS_IPV6_STATIC`. -/
def isIpv6Static : Bool := x.ipv6mode == 3 && x.isIpv6

/-- `SVC_WAN_SRV_INTERNET`. -/
def srvInternet : Bool := x.srvType &&& eSrvInternet != 0

/-- `SVC_WAN_SRV_E8C_INTERNET`. -/
def srvE8cInternet : Bool := x.srvType &&& eSrvE8cInternet != 0

/-- `SVC_WAN_SRV_TR069`. -/
def srvTr069 : Bool := x.srvType &&& eSrvTr069 != 0

/-- `SVC_WAN_SRV_OTHER`. -/
def srvOther : Bool := x.srvType &&& eSrvOther != 0

/-- `SVC_WAN_SRV_IPTV`. -/
def srvIptv : Bool := x.srvType &&& eSrvIptv != 0

/-- `SVC_WAN_SRV_OTT`. -/
def srvOtt : Bool := x.srvType &&& eSrvOtt != 0

/-- `SVC_WAN_IPV6_PD_ENABLE`. -/
def pdEnable : Bool := x.pd == 1

/-- `SVC_WAN_IPV6_DHCPV6PD_ENABLE`. -/
def dhcpv6pdEnable : Bool := x.dhcpv6pd == 1

/-- `SVC_WAN_NPT_ENABLE`. -/
def nptEnable : Bool := x.npt == 1

/-- `bindbit & (1 << i)`. -/
def binds (i : Nat) : Bool := x.bindbit &&& 1#32 <<< i != 0

theorem bindbit_ne_zero_of_binds {x : WanEntryCfg} {i : Nat} (h : x.binds i = true) :
    x.bindbit ≠ 0 := by
  intro hz
  simp [binds, hz] at h

end WanEntryCfg

/-! ## Objects -/

/-- An IP family. -/
inductive Family
  | v4
  | v6
deriving Repr, DecidableEq

/-- `version` is `SVC_WAN_ATTR_VERSION_BOTH` or the one of the family. -/
def Family.inVersion (f : Family) (version : UInt8) : Bool :=
  match f with
  | .v4 => version == versionIpv4 || version == versionBoth
  | .v6 => version == versionIpv6 || version == versionBoth

/-- `SVC_WAN_IS_IPV4` or `SVC_WAN_IS_IPV6`. -/
def WanEntryCfg.hasFamily (x : WanEntryCfg) : Family → Bool
  | .v4 => x.isIpv4
  | .v6 => x.isIpv6

/-- `wan_entry_obj_t`; `addr` is the address of the block and the bits of `flag` have names. -/
structure WanEntryObj where
  addr : Nat := 0
  path : Str := []
  started : Bool := false
  upv4 : Bool := false
  upv6 : Bool := false
  idx : Nat := 0
  dev : Str := []
  cfg : WanEntryCfg := {}
deriving Repr, DecidableEq

/-- `SVC_WAN_FLAG_UPV4` or `SVC_WAN_FLAG_UPV6` is set. -/
def WanEntryObj.up (o : WanEntryObj) : Family → Bool
  | .v4 => o.upv4
  | .v6 => o.upv6

/-- The text of an index that names no entry. -/
def notAvailable : Str := "N/A".toList

/-- `WANINFO_ENTRY_NODE`. -/
def waninfoEntryNode (ifIndex : Nat) : Str :=
  snprintf 32 ("root.waninfo.entry.".toList ++ fmtNat (ifIndex + 1))

/-- `svc_wan_intf_name`. -/
def svcWanIntfName (o : WanEntryObj) (size : Nat) : Str :=
  if !o.cfg.isBridge && o.cfg.isPpp then snprintf size ("ppp".toList ++ fmtNat o.idx)
  else snprintf size o.dev

end OnuFirmware.Wan
