import OnuFirmware.Cfg.ReadAttr
import OnuFirmware.Wan.Entry

/-!
# Loading the configuration of a WAN (`wan_cfg.c`)

`svc_wan_load_cfg` reads the attributes of an entry one after the other through one buffer. A read
of an absent attribute leaves the buffer as it was, and not every read is preceded by clearing it,
so the text of an attribute read earlier can be taken for that of an absent one. `ownCfg` is the
configuration in which each field comes from its own attribute, and `NoLeak` says of each of the
reads without clearing that the text in the buffer does not matter.

`svc_wan_load_opt` sets the NAT flag of an object, but not if there is nothing to read.
-/

namespace OnuFirmware.Wan

open Clib Cfg

/-- The options of the build that the function depends on. -/
structure LoadBuild where
  cmccv2 : Bool
  serviceListE8c : Bool
  vrwan : Bool
  sdn : Bool
  joyme4 : Bool
  wlanAc : Bool

/-- The attributes of the entry. -/
abbrev EntryAttrs := Str → Option Str

/-! ## What a text does to a field -/

def setActive (old : UInt8) (tmp : Str) : UInt8 := if tmp = "Yes".toList then 1 else old

def setWanmode (old : UInt8) (tmp : Str) : UInt8 :=
  if tmp = "Route".toList then 1 else if tmp = "Bridge".toList then 2 else old

def setLinkmode (old : UInt8) (tmp : Str) : UInt8 :=
  if tmp = "linkIP".toList then 1 else if tmp = "linkPPP".toList then 2 else old

/-- The tag mode; `tag` is the text of `v8021PEnable`. -/
def setVtag (old : UInt8) (tmp tag : Str) : UInt8 :=
  if tmp = "UNTAG".toList then 1
  else if tmp = "TRANSPARENT".toList then 2
  else if tmp = "TAG".toList then (if tag = "No".toList then 4 else 3)
  else old

def setVersion (old : UInt8) (tmp : Str) : UInt8 :=
  if tmp = "IPv4".toList then 1
  else if tmp = "IPv6".toList then 2
  else if tmp = "IPv4/IPv6".toList then 3
  else old

/-- `if (strcasecmp(tmp, "Yes") == 0)`, with `ENABLE`. -/
def setYes (old : UInt8) (tmp : Str) : UInt8 := if strcasecmpEq tmp "Yes".toList then 1 else old

def setIpv6mode (old : UInt8) (tmp : Str) : UInt8 :=
  if strcasecmpEq tmp "Yes".toList then 1
  else if strcasecmpEq tmp "No".toList then 2
  else if strcasecmpEq tmp "N/A".toList then 3
  else old

def pdmodeOf (tmp : Str) : UInt8 :=
  if strcasecmpEq tmp "Yes".toList then 1 else if strcasecmpEq tmp "No".toList then 2 else 0

def nptOf (tmp : Str) : UInt8 := if strcasecmpEq tmp "1".toList then 1 else 0

/-- The services in the text of `ServiceList`. -/
def srvTypeOf (b : LoadBuild) (tmp : Str) : Word :=
  let bit := fun (c : Bool) (w : Word) => if c then w else 0
  bit (hasStr tmp "INTERNET".toList) eSrvInternet |||
  bit (hasStr tmp "INTERNET".toList && (b.serviceListE8c || tmp == "INTERNET".toList ||
    tmp == "TR069_INTERNET".toList)) eSrvE8cInternet |||
  bit (hasStr tmp "OTHER".toList) eSrvOther |||
  bit (b.cmccv2 && hasStr tmp "IPTV".toList) eSrvIptv |||
  bit (b.cmccv2 && hasStr tmp "OTT".toList) eSrvOtt |||
  bit (hasStr tmp "TR069".toList) eSrvTr069 |||
  bit (hasStr tmp "TR069".toList && (b.serviceListE8c || tmp == "TR069".toList ||
    tmp == "TR069_INTERNET".toList)) eSrvE8cTr069 |||
  bit (hasStr tmp "VOICE".toList) eSrvVoice |||
  bit (b.vrwan && hasStr tmp "VR".toList) eSrvVr |||
  bit (hasStr tmp "SPECIAL_SERVICE_".toList && !hasStr tmp "VR".toList) eSrvSpeSer

/-- The limit on the MTU of a CMCC build. -/
def limitMtu (b : LoadBuild) (isPpp : Bool) (mtu : UInt16) : UInt16 :=
  if b.cmccv2 then
    if isPpp then (if mtu = 0 ∨ 1892 < mtu then 1892 else mtu)
    else (if mtu = 0 ∨ 1900 < mtu then 1900 else mtu)
  else mtu

def dhcpRealyOf (tmp : Str) : UInt8 :=
  if strcasecmpEq tmp "Yes".toList then 2 else if strcasecmpEq tmp "No".toList then 1 else 0

/-- `get_port_binding_interface_info`. -/
def getPortBindingInterfaceInfo (b : LoadBuild) (attr : EntryAttrs) : Word :=
  (blMapData b.wlanAc).zipIdx.foldl (fun bindbit e =>
    let r := cfgGetObjectAttr (attr e.1.1) [] 64
    if 0 < r.1 ∧ r.2 = "Yes".toList then bindbit ||| 1#32 <<< e.2 else bindbit) 0

/-! ## The function, in the order of its reads -/

/-- The reads up to `ISP`. -/
def loadLink (attr : EntryAttrs) (cfg : WanEntryCfg) (tmp : Str) : WanEntryCfg × Str :=
  let tmp := (cfgGetObjectAttr (attr "Active".toList) tmp 64).2
  let cfg := { cfg with active := setActive cfg.active tmp }
  let tmp := (cfgGetObjectAttr (attr "WanMode".toList) tmp 64).2
  let cfg := { cfg with wanmode := setWanmode cfg.wanmode tmp }
  let tmp := (cfgGetObjectAttr (attr "LinkMode".toList) tmp 64).2
  let cfg := { cfg with linkmode := setLinkmode cfg.linkmode tmp }
  let r := cfgGetObjectAttr (attr "VLANID".toList) tmp 64
  let cfg := { cfg with vid := if 0 < r.1 then UInt16.ofInt (atoi r.2) else UInt16.ofInt (-1) }
  let r := cfgGetObjectAttr (attr "dot1pData".toList) r.2 64
  let cfg := { cfg with dot1p := if 0 < r.1 then UInt8.ofInt (atoi r.2) else 0 }
  let tmp := (cfgGetObjectAttr (attr "VLANMode".toList) r.2 64).2
  let tag := (cfgGetObjectAttr (attr "v8021PEnable".toList) [] 64).2
  let cfg := { cfg with vtag := setVtag cfg.vtag tmp tag }
  let tmp := if tmp = "TAG".toList then tag else tmp
  let tmp := (cfgGetObjectAttr (attr "IPVERSION".toList) tmp 64).2
  let cfg := { cfg with version := setVersion cfg.version tmp }
  let r := cfgGetObjectAttr (attr "ISP".toList) tmp 64
  let cfg := { cfg with isp := if 0 < r.1 then UInt8.ofInt (atoi r.2) else UInt8.ofInt (-1) }
  (cfg, r.2)

/-- The reads up to the test for a bridge. -/
def loadServices (b : LoadBuild) (attr : EntryAttrs) (cfg : WanEntryCfg) : WanEntryCfg × Str :=
  let r := cfgGetObjectAttr (attr "ServiceList".toList) [] 64
  let cfg := { cfg with
    srvList := if 0 < r.1 then r.2.take 31 else cfg.srvList
    srvType := if 0 < r.1 then srvTypeOf b r.2 else cfg.srvType }
  let r := cfgGetObjectAttr (attr "MTU".toList) r.2 64
  let mtu := if 0 < r.1 then UInt16.ofInt (atoi r.2) else cfg.mtu
  let cfg := { cfg with mtu := limitMtu b cfg.isPpp mtu }
  let r := cfgGetObjectAttr (attr "MulticastVID".toList) r.2 64
  let cfg := { cfg with mvid := if 0 < r.1 then UInt16.ofInt (atoi r.2) else cfg.mvid }
  let cfg := { cfg with bindbit := getPortBindingInterfaceInfo b attr }
  let r := cfgGetObjectAttr (attr "ProxyEnable".toList) [] 64
  let cfg := { cfg with proxyenable := if 0 < r.1 then UInt8.ofInt (atoi r.2) else cfg.proxyenable }
  let r := cfgGetObjectAttr (attr "DHCPRealy".toList) [] 64
  let cfg := { cfg with dhcpRealy := if 0 < r.1 then dhcpRealyOf r.2 else 0 }
  let r := cfgGetObjectAttr (attr "DHCPEnable".toList) [] 64
  let cfg := { cfg with dhcpEnable := if 0 < r.1 then UInt8.ofInt (atoi r.2) else cfg.dhcpEnable }
  if b.sdn then
    let r := cfgGetObjectAttr (attr "sdn".toList) [] 64
    ({ cfg with sdn := if 0 < r.1 then UInt8.ofInt (atoi r.2) else 0 }, r.2)
  else (cfg, r.2)

/-- The read of a JOYME4 build behind the test for a bridge. -/
def loadPing (b : LoadBuild) (attr : EntryAttrs) (cfg : WanEntryCfg) (tmp : Str) :
    WanEntryCfg × Str :=
  if b.joyme4 then
    let tmp := (cfgGetObjectAttr (attr "PingResponse".toList) tmp 64).2
    ({ cfg with pingresp := setYes cfg.pingresp tmp }, tmp)
  else (cfg, tmp)

/-- The reads for PPP. -/
def loadPpp (attr : EntryAttrs) (cfg : WanEntryCfg) (tmp : Str) : WanEntryCfg × Str :=
  let r := cfgGetObjectAttr (attr "USERNAME".toList) tmp 64
  let cfg := { cfg with user := if 0 < r.1 then r.2.take 63 else cfg.user }
  let r := cfgGetObjectAttr (attr "PASSWORD".toList) r.2 64
  let cfg := { cfg with pwd := if 0 < r.1 then r.2.take 63 else cfg.pwd }
  let r := cfgGetObjectAttr (attr "CONNECTION".toList) [] 64
  let manual := cfgGetObjectAttr (attr "PPPManualStatus".toList) [] 64
  let isManual : Bool := 0 < r.1 ∧ r.2 = "Connect_Manually".toList
  let cfg := { cfg with
    connMode :=
      if 0 < r.1 then
        if r.2 = "Connect_on_Demand".toList then 1 else if isManual then 2 else 0
      else cfg.connMode
    pppManualStatus :=
      if isManual then (if 0 < manual.1 ∧ manual.2 = "connect".toList then 1 else 0)
      else cfg.pppManualStatus }
  let tmp := if isManual then manual.2 else r.2
  let tmp := (cfgGetObjectAttr (attr "BridgeInterface".toList) tmp 64).2
  ({ cfg with pppHybrid := setYes cfg.pppHybrid tmp }, tmp)

/-- The reads for a static IPv4 address. -/
def loadIpv4Static (attr : EntryAttrs) (cfg : WanEntryCfg) (tmp : Str) : WanEntryCfg × Str :=
  let r := cfgGetObjectAttr (attr "IPADDR".toList) tmp 64
  let cfg := { cfg with addrv4 := if 0 < r.1 then r.2.take 15 else cfg.addrv4 }
  let r := cfgGetObjectAttr (attr "NETMASK".toList) r.2 64
  let cfg := { cfg with maskv4 := if 0 < r.1 then r.2.take 15 else cfg.maskv4 }
  let r := cfgGetObjectAttr (attr "GATEWAY".toList) r.2 64
  let cfg := { cfg with gwv4 := if 0 < r.1 then r.2.take 15 else cfg.gwv4 }
  let r := cfgGetObjectAttr (attr "DNS".toList) r.2 64
  let cfg := { cfg with dns1v4 := if 0 < r.1 then r.2.take 15 else cfg.dns1v4 }
  let r := cfgGetObjectAttr (attr "SecDNS".toList) r.2 64
  ({ cfg with dns2v4 := if 0 < r.1 then r.2.take 15 else cfg.dns2v4 }, r.2)

/-- The reads for IPv6 up to the mode of the prefix. -/
def loadIpv6Mode (attr : EntryAttrs) (cfg : WanEntryCfg) : WanEntryCfg × Str :=
  let tmp := (cfgGetObjectAttr (attr "DsliteEnable".toList) [] 64).2
  let cfg := { cfg with dslite := setYes 0 tmp }
  let mode := cfgGetObjectAttr (attr "DsliteMode".toList) [] 64
  let cfg := { cfg with
    dsliteMode :=
      if cfg.dslite == 1 then (if 0 < mode.1 then UInt8.ofInt (atoi mode.2) else 0)
      else cfg.dsliteMode }
  let tmp := if cfg.dslite == 1 then mode.2 else tmp
  let tmp := (cfgGetObjectAttr (attr "DHCPv6".toList) tmp 64).2
  let cfg := { cfg with ipv6mode := setIpv6mode cfg.ipv6mode tmp }
  let tmp := (cfgGetObjectAttr (attr "DHCPv6PD".toList) tmp 64).2
  let cfg := { cfg with dhcpv6pd := setYes cfg.dhcpv6pd tmp }
  let tmp := (cfgGetObjectAttr (attr "PDEnable".toList) tmp 64).2
  let cfg := { cfg with pd := setYes cfg.pd tmp }
  let tmp := (cfgGetObjectAttr (attr "NPT".toList) tmp 64).2
  let cfg := { cfg with npt := nptOf tmp }
  if cfg.pdEnable then
    let tmp := (cfgGetObjectAttr (attr "DHCPv6PD".toList) tmp 64).2
    ({ cfg with pdmode := pdmodeOf tmp }, tmp)
  else (cfg, tmp)

/-- The reads for a prefix that is set by hand. -/
def loadPdManual (attr : EntryAttrs) (cfg : WanEntryCfg) : WanEntryCfg × Str :=
  let r := cfgGetObjectAttr (attr "PDPrefix".toList) [] 64
  let cfg := { cfg with pdaddr := if 0 < r.1 then r.2.take 48 else cfg.pdaddr }
  let r := cfgGetObjectAttr (attr "PrefixPltime".toList) [] 64
  let cfg := { cfg with pdtm1 := if 0 < r.1 then BitVec.ofInt 32 (atoi r.2) else cfg.pdtm1 }
  let r := cfgGetObjectAttr (attr "PrefixVltime".toList) [] 64
  ({ cfg with pdtm2 := if 0 < r.1 then BitVec.ofInt 32 (atoi r.2) else cfg.pdtm2 }, r.2)

/-- The reads for a static IPv6 address. -/
def loadIpv6Static (attr : EntryAttrs) (cfg : WanEntryCfg) (tmp : Str) : WanEntryCfg × Str :=
  let r := cfgGetObjectAttr (attr "IPADDR6".toList) tmp 64
  let cfg := { cfg with addrv6 := if 0 < r.1 then r.2.take 48 else cfg.addrv6 }
  let r := cfgGetObjectAttr (attr "GATEWAY6".toList) r.2 64
  let cfg := { cfg with gwv6 := if 0 < r.1 then r.2.take 48 else cfg.gwv6 }
  let r := cfgGetObjectAttr (attr "DNS6".toList) r.2 64
  let cfg := { cfg with dns1v6 := if 0 < r.1 then r.2.take 48 else cfg.dns1v6 }
  let r := cfgGetObjectAttr (attr "SecDNS6".toList) r.2 64
  ({ cfg with dns2v6 := if 0 < r.1 then r.2.take 48 else cfg.dns2v6 }, r.2)

/-- The last reads for IPv6. -/
def loadIpv6Rest (attr : EntryAttrs) (cfg : WanEntryCfg) : WanEntryCfg :=
  let r := cfgGetObjectAttr (attr "GW6_Manual".toList) [] 64
  let cfg := { cfg with gwv6Op := if 0 < r.1 then setYes cfg.gwv6Op r.2 else cfg.gwv6Op }
  let r := cfgGetObjectAttr (attr "PREFIX6".toList) [] 64
  let cfg := { cfg with prefix6 := if 0 < r.1 then UInt16.ofInt (atoi r.2) else cfg.prefix6 }
  let r := cfgGetObjectAttr (attr "PDOrigin".toList) [] 64
  { cfg with pdorigin := if 0 < r.1 then r.2.take 31 else cfg.pdorigin }

/-- The reads for IPv6. -/
def loadIpv6 (attr : EntryAttrs) (cfg : WanEntryCfg) : WanEntryCfg :=
  let s := loadIpv6Mode attr cfg
  let s := if s.1.pdmode == 2 then loadPdManual attr s.1 else s
  let s := if s.1.isIpv6Static then loadIpv6Static attr s.1 s.2 else s
  loadIpv6Rest attr s.1

/-- `svc_wan_load_cfg`. -/
def svcWanLoadCfg (b : LoadBuild) (attr : EntryAttrs) : WanEntryCfg :=
  let s := loadLink attr {} []
  let s := loadServices b attr s.1
  if s.1.isBridge then s.1
  else
    let s := loadPing b attr s.1 s.2
    let s := if s.1.isPpp then loadPpp attr s.1 s.2 else s
    let s := if s.1.isIpv4Static then loadIpv4Static attr s.1 s.2 else s
    if s.1.isIpv6 then loadIpv6 attr s.1 else s.1

/-! ## Each field from its own attribute -/

/-- The text of an attribute, nothing for an absent one. -/
def ownText (attr : EntryAttrs) (name : Str) : Str := attrText (attr name) 64 []

/-- What a text with a number gives, with the default for an empty one. -/
def ownVal {α : Type} (attr : EntryAttrs) (name : Str) (f : Str → α) (dflt : α) : α :=
  if ownText attr name ≠ [] then f (ownText attr name) else dflt

def ownLink (attr : EntryAttrs) : WanEntryCfg :=
  { active := setActive 0 (ownText attr "Active".toList)
    wanmode := setWanmode 0 (ownText attr "WanMode".toList)
    linkmode := setLinkmode 0 (ownText attr "LinkMode".toList)
    vid := ownVal attr "VLANID".toList (fun t => UInt16.ofInt (atoi t)) (UInt16.ofInt (-1))
    dot1p := ownVal attr "dot1pData".toList (fun t => UInt8.ofInt (atoi t)) 0
    vtag := setVtag 0 (ownText attr "VLANMode".toList) (ownText attr "v8021PEnable".toList)
    version := setVersion 0 (ownText attr "IPVERSION".toList)
    isp := ownVal attr "ISP".toList (fun t => UInt8.ofInt (atoi t)) (UInt8.ofInt (-1)) }

def ownServices (b : LoadBuild) (attr : EntryAttrs) (cfg : WanEntryCfg) : WanEntryCfg :=
  { cfg with
    srvList := ownVal attr "ServiceList".toList (List.take 31) cfg.srvList
    srvType := ownVal attr "ServiceList".toList (srvTypeOf b) cfg.srvType
    mtu := limitMtu b cfg.isPpp
      (ownVal attr "MTU".toList (fun t => UInt16.ofInt (atoi t)) cfg.mtu)
    mvid := ownVal attr "MulticastVID".toList (fun t => UInt16.ofInt (atoi t)) cfg.mvid
    bindbit := getPortBindingInterfaceInfo b attr
    proxyenable := ownVal attr "ProxyEnable".toList (fun t => UInt8.ofInt (atoi t)) cfg.proxyenable
    dhcpRealy := ownVal attr "DHCPRealy".toList dhcpRealyOf 0
    dhcpEnable := ownVal attr "DHCPEnable".toList (fun t => UInt8.ofInt (atoi t)) cfg.dhcpEnable
    sdn := if b.sdn then ownVal attr "sdn".toList (fun t => UInt8.ofInt (atoi t)) 0 else cfg.sdn }

def ownPing (b : LoadBuild) (attr : EntryAttrs) (cfg : WanEntryCfg) : WanEntryCfg :=
  { cfg with
    pingresp := if b.joyme4 then setYes cfg.pingresp (ownText attr "PingResponse".toList)
      else cfg.pingresp }

/-- The connection is opened by hand. -/
def ownManual (attr : EntryAttrs) :
    Bool := ownText attr "CONNECTION".toList == "Connect_Manually".toList

def ownPpp (attr : EntryAttrs) (cfg : WanEntryCfg) : WanEntryCfg :=
  { cfg with
    user := ownVal attr "USERNAME".toList (List.take 63) cfg.user
    pwd := ownVal attr "PASSWORD".toList (List.take 63) cfg.pwd
    connMode := ownVal attr "CONNECTION".toList (fun t =>
      if t = "Connect_on_Demand".toList then 1 else if ownManual attr then 2 else 0) cfg.connMode
    pppManualStatus :=
      if ownManual attr then
        (if ownText attr "PPPManualStatus".toList = "connect".toList then 1 else 0)
      else cfg.pppManualStatus
    pppHybrid := setYes cfg.pppHybrid (ownText attr "BridgeInterface".toList) }

def ownIpv4Static (attr : EntryAttrs) (cfg : WanEntryCfg) : WanEntryCfg :=
  { cfg with
    addrv4 := ownVal attr "IPADDR".toList (List.take 15) cfg.addrv4
    maskv4 := ownVal attr "NETMASK".toList (List.take 15) cfg.maskv4
    gwv4 := ownVal attr "GATEWAY".toList (List.take 15) cfg.gwv4
    dns1v4 := ownVal attr "DNS".toList (List.take 15) cfg.dns1v4
    dns2v4 := ownVal attr "SecDNS".toList (List.take 15) cfg.dns2v4 }

/-- DS-Lite is enabled. -/
def ownDslite (attr : EntryAttrs) : UInt8 := setYes 0 (ownText attr "DsliteEnable".toList)

def ownIpv6Mode (attr : EntryAttrs) (cfg : WanEntryCfg) : WanEntryCfg :=
  { cfg with
    dslite := ownDslite attr
    dsliteMode :=
      if ownDslite attr == 1 then ownVal attr "DsliteMode".toList (fun t => UInt8.ofInt (atoi t)) 0
      else cfg.dsliteMode
    ipv6mode := setIpv6mode cfg.ipv6mode (ownText attr "DHCPv6".toList)
    dhcpv6pd := setYes cfg.dhcpv6pd (ownText attr "DHCPv6PD".toList)
    pd := setYes cfg.pd (ownText attr "PDEnable".toList)
    npt := nptOf (ownText attr "NPT".toList)
    pdmode :=
      if setYes cfg.pd (ownText attr "PDEnable".toList) == 1 then
        pdmodeOf (ownText attr "DHCPv6PD".toList)
      else cfg.pdmode }

def ownPdManual (attr : EntryAttrs) (cfg : WanEntryCfg) : WanEntryCfg :=
  { cfg with
    pdaddr := ownVal attr "PDPrefix".toList (List.take 48) cfg.pdaddr
    pdtm1 := ownVal attr "PrefixPltime".toList (fun t => BitVec.ofInt 32 (atoi t)) cfg.pdtm1
    pdtm2 := ownVal attr "PrefixVltime".toList (fun t => BitVec.ofInt 32 (atoi t)) cfg.pdtm2 }

def ownIpv6Static (attr : EntryAttrs) (cfg : WanEntryCfg) : WanEntryCfg :=
  { cfg with
    addrv6 := ownVal attr "IPADDR6".toList (List.take 48) cfg.addrv6
    gwv6 := ownVal attr "GATEWAY6".toList (List.take 48) cfg.gwv6
    dns1v6 := ownVal attr "DNS6".toList (List.take 48) cfg.dns1v6
    dns2v6 := ownVal attr "SecDNS6".toList (List.take 48) cfg.dns2v6 }

def ownIpv6Rest (attr : EntryAttrs) (cfg : WanEntryCfg) : WanEntryCfg :=
  { cfg with
    gwv6Op := ownVal attr "GW6_Manual".toList (setYes cfg.gwv6Op) cfg.gwv6Op
    prefix6 := ownVal attr "PREFIX6".toList (fun t => UInt16.ofInt (atoi t)) cfg.prefix6
    pdorigin := ownVal attr "PDOrigin".toList (List.take 31) cfg.pdorigin }

def ownIpv6 (attr : EntryAttrs) (cfg : WanEntryCfg) : WanEntryCfg :=
  let cfg := ownIpv6Mode attr cfg
  let cfg := if cfg.pdmode == 2 then ownPdManual attr cfg else cfg
  let cfg := if cfg.isIpv6Static then ownIpv6Static attr cfg else cfg
  ownIpv6Rest attr cfg

/-- What is read for a WAN that is not a bridge. -/
def ownRouted (b : LoadBuild) (attr : EntryAttrs) (cfg : WanEntryCfg) : WanEntryCfg :=
  let cfg := ownPing b attr cfg
  let cfg := if cfg.isPpp then ownPpp attr cfg else cfg
  let cfg := if cfg.isIpv4Static then ownIpv4Static attr cfg else cfg
  if cfg.isIpv6 then ownIpv6 attr cfg else cfg

/-- The configuration before the test for a bridge. -/
def ownBase (b : LoadBuild) (attr : EntryAttrs) : WanEntryCfg := ownServices b attr (ownLink attr)

/-- **The configuration in which each field comes from its own attribute**, as far as mode, link,
version, ISP, DS-Lite and PD ask for it, and keeps its default if the attribute is absent. -/
def ownCfg (b : LoadBuild) (attr : EntryAttrs) : WanEntryCfg :=
  if (ownBase b attr).isBridge then ownBase b attr else ownRouted b attr (ownBase b attr)

/-! ## What is left in the buffer -/

/-- The text in the buffer after reads of the attributes `names`. -/
def carried (attr : EntryAttrs) (names : List Str) (tmp : Str) : Str :=
  names.foldl (fun tmp name => attrText (attr name) 64 tmp) tmp

/-- The attribute is there, or the text in the buffer is none of `words`. -/
def Quiet (attr : EntryAttrs) (name : Str) (words : List Str) (tmp : Str) : Prop :=
  attr name = none → tmp ∉ words

/-- The same for words that are compared without regard to case. -/
def QuietCase (attr : EntryAttrs) (name : Str) (words : List Str) (tmp : Str) : Prop :=
  attr name = none → ∀ w ∈ words, strcasecmpEq tmp w = false

/-- The reads up to `ISP` that are not preceded by clearing the buffer. -/
structure LinkQuiet (attr : EntryAttrs) : Prop where
  wanmode : Quiet attr "WanMode".toList ["Route".toList, "Bridge".toList]
    (carried attr ["Active".toList] [])
  linkmode : Quiet attr "LinkMode".toList ["linkIP".toList, "linkPPP".toList]
    (carried attr ["Active".toList, "WanMode".toList] [])
  vtag : Quiet attr "VLANMode".toList ["UNTAG".toList, "TRANSPARENT".toList, "TAG".toList]
    (carried attr ["Active".toList, "WanMode".toList, "LinkMode".toList, "VLANID".toList,
      "dot1pData".toList] [])
  version : Quiet attr "IPVERSION".toList ["IPv4".toList, "IPv6".toList, "IPv4/IPv6".toList]
    (if ownText attr "VLANMode".toList = "TAG".toList then ownText attr "v8021PEnable".toList
      else carried attr ["Active".toList, "WanMode".toList, "LinkMode".toList, "VLANID".toList,
        "dot1pData".toList, "VLANMode".toList] [])

/-- The text in the buffer when the bridge interface is read. -/
def beforeHybrid (attr : EntryAttrs) : Str :=
  if ownManual attr then ownText attr "PPPManualStatus".toList else ownText attr "CONNECTION".toList

/-- The text in the buffer when the IPv6 mode is read. -/
def beforeIpv6mode (attr : EntryAttrs) : Str :=
  if ownDslite attr == 1 then ownText attr "DsliteMode".toList
  else ownText attr "DsliteEnable".toList

/-- The reads for IPv6 that are not preceded by clearing the buffer. -/
structure Ipv6Quiet (attr : EntryAttrs) : Prop where
  ipv6mode : QuietCase attr "DHCPv6".toList ["Yes".toList, "No".toList, "N/A".toList]
    (beforeIpv6mode attr)
  dhcpv6pd : QuietCase attr "DHCPv6PD".toList ["Yes".toList]
    (carried attr ["DHCPv6".toList] (beforeIpv6mode attr))
  pd : QuietCase attr "PDEnable".toList ["Yes".toList]
    (carried attr ["DHCPv6".toList, "DHCPv6PD".toList] (beforeIpv6mode attr))
  npt : QuietCase attr "NPT".toList ["1".toList]
    (carried attr ["DHCPv6".toList, "DHCPv6PD".toList, "PDEnable".toList] (beforeIpv6mode attr))
  pdmode : strcasecmpEq (ownText attr "PDEnable".toList) "Yes".toList = true →
    QuietCase attr "DHCPv6PD".toList ["Yes".toList, "No".toList]
      (carried attr ["DHCPv6".toList, "DHCPv6PD".toList, "PDEnable".toList, "NPT".toList]
        (beforeIpv6mode attr))

/-- For each read without clearing that is reached, the text in the buffer does not matter. -/
structure NoLeak (b : LoadBuild) (attr : EntryAttrs) : Prop where
  link : LinkQuiet attr
  ping : (ownBase b attr).isBridge = false → b.joyme4 = true →
    QuietCase attr "PingResponse".toList ["Yes".toList]
      (if b.sdn then ownText attr "sdn".toList else ownText attr "DHCPEnable".toList)
  hybrid : (ownBase b attr).isBridge = false → (ownBase b attr).isPpp = true →
    QuietCase attr "BridgeInterface".toList ["Yes".toList] (beforeHybrid attr)
  ipv6 : (ownBase b attr).isBridge = false → (ownBase b attr).isIpv6 = true → Ipv6Quiet attr

/-! ## Reads -/

theorem ownVal_eq (attr : EntryAttrs) (name tmp : Str) {α : Type} (f : Str → α) (dflt : α) :
    (if 0 < (cfgGetObjectAttr (attr name) tmp 64).1 then f (cfgGetObjectAttr (attr name) tmp 64).2
      else dflt) = ownVal attr name f dflt := by
  rw [ownVal, ownText]
  by_cases h : attrText (attr name) 64 [] = []
  · have hn := fun hp => (cfgGetObjectAttr_pos (attr name) tmp 64).mp hp h
    rw [if_neg hn, if_neg (not_not.mpr h)]
  · rw [if_pos ((cfgGetObjectAttr_pos _ _ _).mpr h), if_pos h, cfgGetObjectAttr_snd]
    -- a text that is not empty does not depend on the buffer
    cases ha : attr name with
    | none => exact absurd (by rw [ha]; rfl) h
    | some v => rfl

/-- A value of the text is the one of the attribute exactly if the attribute is there or the text in
the buffer has the value of the empty text. -/
theorem read_eq_iff {α : Type} (f : Str → α) (a : Option Str) (tmp : Str) :
    f (attrText a 64 tmp) = f (attrText a 64 []) ↔ (a = none → f tmp = f []) := by
  cases a with
  | none => simp [attrText]
  | some v => simp [attrText]

/-! ## The stages without leaks -/

theorem loadServices_snd (b : LoadBuild) (attr : EntryAttrs) (cfg : WanEntryCfg) :
    (loadServices b attr cfg).2 =
      if b.sdn then ownText attr "sdn".toList else ownText attr "DHCPEnable".toList := by
  rw [ownText, ownText, ← cfgGetObjectAttr_snd, ← cfgGetObjectAttr_snd]
  unfold loadServices
  cases b.sdn <;> rfl

theorem loadServices_fst (b : LoadBuild) (attr : EntryAttrs) (cfg : WanEntryCfg) :
    (loadServices b attr cfg).1 = ownServices b attr cfg := by
  have hmtu := fun tmp => ownVal_eq attr "MTU".toList tmp (fun t => UInt16.ofInt (atoi t)) cfg.mtu
  simp only [loadServices, ownServices]
  cases hb : b.sdn
  · simp only [Bool.false_eq_true, if_false]
    congr 1
    · exact ownVal_eq attr _ _ (fun t => UInt16.ofInt (atoi t)) _
    · exact congrArg (limitMtu b cfg.isPpp) (hmtu _)
    · exact ownVal_eq _ _ _ _ _
    · exact ownVal_eq _ _ _ _ _
    · exact ownVal_eq attr _ _ (fun t => UInt8.ofInt (atoi t)) _
    · exact ownVal_eq _ _ _ _ _
    · exact ownVal_eq attr _ _ (fun t => UInt8.ofInt (atoi t)) _
  · simp only [if_true]
    congr 1
    · exact ownVal_eq attr _ _ (fun t => UInt16.ofInt (atoi t)) _
    · exact congrArg (limitMtu b cfg.isPpp) (hmtu _)
    · exact ownVal_eq _ _ _ _ _
    · exact ownVal_eq _ _ _ _ _
    · exact ownVal_eq attr _ _ (fun t => UInt8.ofInt (atoi t)) _
    · exact ownVal_eq _ _ _ _ _
    · exact ownVal_eq attr _ _ (fun t => UInt8.ofInt (atoi t)) _
    · exact ownVal_eq attr _ _ (fun t => UInt8.ofInt (atoi t)) _

theorem loadIpv4Static_fst (attr : EntryAttrs) (cfg : WanEntryCfg) (tmp : Str) :
    (loadIpv4Static attr cfg tmp).1 = ownIpv4Static attr cfg := by
  simp only [loadIpv4Static, ownIpv4Static]
  congr 1 <;> exact ownVal_eq _ _ _ _ _

theorem loadPdManual_fst (attr : EntryAttrs) (cfg : WanEntryCfg) :
    (loadPdManual attr cfg).1 = ownPdManual attr cfg := by
  simp only [loadPdManual, ownPdManual]
  congr 1
  · exact ownVal_eq attr _ _ (fun t => BitVec.ofInt 32 (atoi t)) _
  · exact ownVal_eq attr _ _ (fun t => BitVec.ofInt 32 (atoi t)) _
  · exact ownVal_eq _ _ _ _ _

theorem loadIpv6Static_fst (attr : EntryAttrs) (cfg : WanEntryCfg) (tmp : Str) :
    (loadIpv6Static attr cfg tmp).1 = ownIpv6Static attr cfg := by
  simp only [loadIpv6Static, ownIpv6Static]
  congr 1 <;> exact ownVal_eq _ _ _ _ _

theorem loadIpv6Rest_eq (attr : EntryAttrs) (cfg : WanEntryCfg) :
    loadIpv6Rest attr cfg = ownIpv6Rest attr cfg := by
  simp only [loadIpv6Rest, ownIpv6Rest]
  congr 1
  · exact ownVal_eq attr _ _ (fun t => UInt16.ofInt (atoi t)) _
  · exact ownVal_eq _ _ _ _ _
  · exact ownVal_eq _ _ _ _ _

/-! ## The stages with leaks -/

/-- A value that is chosen by texts is the default exactly if none of them is there. -/
theorem ite_eq_default_iff {p q r : Prop} [Decidable p] [Decidable q] [Decidable r]
    {x y z dflt : UInt8} (hx : x ≠ dflt) (hy : y ≠ dflt) (hz : z ≠ dflt) :
    (if p then x else if q then y else if r then z else dflt) = dflt ↔ ¬ p ∧ ¬ q ∧ ¬ r := by
  by_cases hp : p <;> by_cases hq : q <;> by_cases hr : r <;> simp [hp, hq, hr, hx, hy, hz]

theorem ite_eq_default_iff₂ {p q : Prop} [Decidable p] [Decidable q] {x y dflt : UInt8}
    (hx : x ≠ dflt) (hy : y ≠ dflt) :
    (if p then x else if q then y else dflt) = dflt ↔ ¬ p ∧ ¬ q := by
  by_cases hp : p <;> by_cases hq : q <;> simp [hp, hq, hx, hy]

theorem setWanmode_eq_iff (tmp : Str) :
    setWanmode 0 tmp = setWanmode 0 [] ↔ tmp ∉ ["Route".toList, "Bridge".toList] := by
  rw [show setWanmode 0 [] = 0 from rfl, setWanmode, ite_eq_default_iff₂ (by decide) (by decide),
    List.mem_cons, List.mem_singleton, not_or]

theorem setLinkmode_eq_iff (tmp : Str) :
    setLinkmode 0 tmp = setLinkmode 0 [] ↔ tmp ∉ ["linkIP".toList, "linkPPP".toList] := by
  rw [show setLinkmode 0 [] = 0 from rfl, setLinkmode, ite_eq_default_iff₂ (by decide) (by decide),
    List.mem_cons, List.mem_singleton, not_or]

theorem setVersion_eq_iff (tmp : Str) :
    setVersion 0 tmp = setVersion 0 [] ↔
    tmp ∉ ["IPv4".toList, "IPv6".toList, "IPv4/IPv6".toList] := by
  rw [show setVersion 0 [] = 0 from rfl, setVersion,
    ite_eq_default_iff (by decide) (by decide) (by decide), List.mem_cons, List.mem_cons,
    List.mem_singleton, not_or, not_or]

theorem setVtag_eq_iff (tmp tag : Str) :
    setVtag 0 tmp tag = setVtag 0 [] tag ↔
      tmp ∉ ["UNTAG".toList, "TRANSPARENT".toList, "TAG".toList] := by
  have htag : (if tag = "No".toList then (4 : UInt8) else 3) ≠ 0 := by split <;> decide
  rw [show setVtag 0 [] tag = 0 from rfl, setVtag,
    ite_eq_default_iff (by decide) (by decide) htag, List.mem_cons, List.mem_cons,
    List.mem_singleton, not_or, not_or]

theorem setYes_eq_iff (tmp : Str) :
    setYes 0 tmp = setYes 0 [] ↔ ∀ w ∈ ["Yes".toList], strcasecmpEq tmp w = false := by
  rw [show setYes 0 [] = 0 from rfl, setYes, List.forall_mem_singleton]
  cases strcasecmpEq tmp "Yes".toList <;> simp

theorem setIpv6mode_eq_iff (tmp : Str) :
    setIpv6mode 0 tmp = setIpv6mode 0 [] ↔
      ∀ w ∈ ["Yes".toList, "No".toList, "N/A".toList], strcasecmpEq tmp w = false := by
  rw [show setIpv6mode 0 [] = 0 from rfl, setIpv6mode,
    ite_eq_default_iff (by decide) (by decide) (by decide), List.forall_mem_cons,
    List.forall_mem_cons, List.forall_mem_singleton, Bool.not_eq_true, Bool.not_eq_true,
    Bool.not_eq_true]

theorem pdmodeOf_eq_iff (tmp : Str) :
    pdmodeOf tmp = pdmodeOf [] ↔
      ∀ w ∈ ["Yes".toList, "No".toList], strcasecmpEq tmp w = false := by
  rw [show pdmodeOf [] = 0 from rfl, pdmodeOf, ite_eq_default_iff₂ (by decide) (by decide),
    List.forall_mem_cons, List.forall_mem_singleton, Bool.not_eq_true, Bool.not_eq_true]

theorem nptOf_eq_iff (tmp : Str) :
    nptOf tmp = nptOf [] ↔ ∀ w ∈ ["1".toList], strcasecmpEq tmp w = false := by
  rw [show nptOf [] = 0 from rfl, nptOf, List.forall_mem_singleton]
  cases strcasecmpEq tmp "1".toList <;> simp

/-- The fields that the reads up to `ISP` set. -/
theorem loadLink_fst (attr : EntryAttrs) :
    (loadLink attr {} []).1 = { ownLink attr with
      wanmode := setWanmode 0
        (attrText (attr "WanMode".toList) 64 (carried attr ["Active".toList] []))
      linkmode := setLinkmode 0 (attrText (attr "LinkMode".toList) 64
        (carried attr ["Active".toList, "WanMode".toList] []))
      vtag := setVtag 0 (carried attr ["Active".toList, "WanMode".toList, "LinkMode".toList,
        "VLANID".toList, "dot1pData".toList, "VLANMode".toList] [])
          (ownText attr "v8021PEnable".toList)
      version := setVersion 0 (attrText (attr "IPVERSION".toList) 64
        (if carried attr ["Active".toList, "WanMode".toList, "LinkMode".toList, "VLANID".toList,
            "dot1pData".toList, "VLANMode".toList] [] = "TAG".toList
          then ownText attr "v8021PEnable".toList
          else carried attr ["Active".toList, "WanMode".toList, "LinkMode".toList, "VLANID".toList,
            "dot1pData".toList, "VLANMode".toList] [])) } := by
  simp only [loadLink, ownLink, carried, List.foldl_cons, List.foldl_nil, ← cfgGetObjectAttr_snd,
    ownText]
  congr 1
  · exact ownVal_eq attr _ _ (fun t => UInt16.ofInt (atoi t)) _
  · exact ownVal_eq attr _ _ (fun t => UInt8.ofInt (atoi t)) _
  · exact ownVal_eq attr _ _ (fun t => UInt8.ofInt (atoi t)) _

theorem carried_concat (attr : EntryAttrs) (names : List Str) (name tmp : Str) :
    carried attr (names ++ [name]) tmp = attrText (attr name) 64 (carried attr names tmp) := by
  rw [carried, List.foldl_append]
  rfl

/-- The text of the tag mode is `TAG` exactly if its own attribute says so, unless it leaks. -/
theorem tag_iff {attr : EntryAttrs} {tmp : Str}
    (h : Quiet attr "VLANMode".toList ["UNTAG".toList, "TRANSPARENT".toList, "TAG".toList] tmp) :
    attrText (attr "VLANMode".toList) 64 tmp = "TAG".toList ↔
      ownText attr "VLANMode".toList = "TAG".toList := by
  rw [ownText]
  cases ha : attr "VLANMode".toList with
  | some v => rfl
  | none =>
    have hno := h ha
    refine iff_of_false (fun ht => hno ?_) (by decide)
    have ht : tmp = "TAG".toList := ht
    rw [ht]
    exact List.mem_cons_of_mem _ (List.mem_cons_of_mem _ List.mem_cons_self)

/-- **The reads up to `ISP` take every field from its own attribute exactly if none of them meets a
text that matters.** -/
theorem loadLink_fst_eq_iff (attr : EntryAttrs) :
    (loadLink attr {} []).1 = ownLink attr ↔ LinkQuiet attr := by
  have hcarried := carried_concat attr ["Active".toList, "WanMode".toList, "LinkMode".toList,
    "VLANID".toList, "dot1pData".toList] "VLANMode".toList []
  rw [List.cons_append, List.cons_append, List.cons_append, List.cons_append, List.cons_append,
    List.nil_append] at hcarried
  rw [loadLink_fst, hcarried]
  generalize hbuf : carried attr ["Active".toList, "WanMode".toList, "LinkMode".toList,
    "VLANID".toList, "dot1pData".toList] [] = buf
  have hw : setWanmode 0 (attrText (attr "WanMode".toList) 64 (carried attr ["Active".toList] [])) =
      (ownLink attr).wanmode ↔
      Quiet attr "WanMode".toList ["Route".toList, "Bridge".toList]
        (carried attr ["Active".toList] []) := by
    rw [Quiet, ← setWanmode_eq_iff]
    exact read_eq_iff (setWanmode 0) _ _
  have hl : setLinkmode 0 (attrText (attr "LinkMode".toList) 64
      (carried attr ["Active".toList, "WanMode".toList] [])) = (ownLink attr).linkmode ↔
      Quiet attr "LinkMode".toList ["linkIP".toList, "linkPPP".toList]
        (carried attr ["Active".toList, "WanMode".toList] []) := by
    rw [Quiet, ← setLinkmode_eq_iff]
    exact read_eq_iff (setLinkmode 0) _ _
  have ht : setVtag 0 (attrText (attr "VLANMode".toList) 64 buf)
      (ownText attr "v8021PEnable".toList) = (ownLink attr).vtag ↔
      Quiet attr "VLANMode".toList ["UNTAG".toList, "TRANSPARENT".toList, "TAG".toList] buf := by
    rw [Quiet, ← setVtag_eq_iff _ (ownText attr "v8021PEnable".toList)]
    exact read_eq_iff (fun t => setVtag 0 t (ownText attr "v8021PEnable".toList)) _ _
  have hv : ∀ tmp, setVersion 0 (attrText (attr "IPVERSION".toList) 64 tmp) =
      (ownLink attr).version ↔
      Quiet attr "IPVERSION".toList ["IPv4".toList, "IPv6".toList, "IPv4/IPv6".toList] tmp := by
    intro tmp
    rw [Quiet, ← setVersion_eq_iff]
    exact read_eq_iff (setVersion 0) _ _
  constructor
  · intro h
    have h1 := hw.mp (congrArg WanEntryCfg.wanmode h)
    have h2 := hl.mp (congrArg WanEntryCfg.linkmode h)
    have h3 := ht.mp (congrArg WanEntryCfg.vtag h)
    have h4 := (hv _).mp (congrArg WanEntryCfg.version h)
    refine ⟨h1, h2, hbuf ▸ h3, ?_⟩
    rw [hcarried, hbuf]
    simpa only [tag_iff h3] using h4
  · rintro ⟨h1, h2, h3, h4⟩
    rw [hbuf] at h3
    rw [hcarried, hbuf] at h4
    simp only [tag_iff h3]
    rw [hw.mpr h1, hl.mpr h2, ht.mpr h3, (hv _).mpr h4]

theorem setYes_read_iff {attr : EntryAttrs} {name tmp : Str} :
    setYes 0 (attrText (attr name) 64 tmp) = setYes 0 (ownText attr name) ↔
      QuietCase attr name ["Yes".toList] tmp := by
  rw [QuietCase, ← setYes_eq_iff]
  exact read_eq_iff (setYes 0) _ _

theorem loadPing_fst_eq_iff (b : LoadBuild) (attr : EntryAttrs) {cfg : WanEntryCfg} (tmp : Str)
    (hcfg : cfg.pingresp = 0) :
    (loadPing b attr cfg tmp).1 = ownPing b attr cfg ↔
      (b.joyme4 = true → QuietCase attr "PingResponse".toList ["Yes".toList] tmp) := by
  rw [← setYes_read_iff, loadPing, ownPing]
  cases hj : b.joyme4 with
  | false => simp
  | true =>
    simp only [if_true, cfgGetObjectAttr_snd, forall_const, hcfg]
    exact ⟨fun h => congrArg WanEntryCfg.pingresp h, fun h => by rw [h]⟩

/-- The fields that the reads for PPP set. -/
theorem loadPpp_fst (attr : EntryAttrs) (cfg : WanEntryCfg) (tmp : Str) :
    (loadPpp attr cfg tmp).1 = { ownPpp attr cfg with
      pppHybrid := setYes cfg.pppHybrid
        (attrText (attr "BridgeInterface".toList) 64 (beforeHybrid attr)) } := by
  have hread := fun name => cfgGetObjectAttr_snd (attr name) [] 64
  have hmanual : (decide (0 < (cfgGetObjectAttr (attr "CONNECTION".toList) [] 64).1 ∧
      (cfgGetObjectAttr (attr "CONNECTION".toList) [] 64).2 = "Connect_Manually".toList)) =
      ownManual attr := by
    rw [ownManual, ownText, Bool.eq_iff_iff, decide_eq_true_eq, beq_iff_eq, cfgGetObjectAttr_pos,
      hread]
    refine and_iff_right_of_imp fun h => ?_
    rw [h]
    decide
  have hstatus : (0 < (cfgGetObjectAttr (attr "PPPManualStatus".toList) [] 64).1 ∧
      (cfgGetObjectAttr (attr "PPPManualStatus".toList) [] 64).2 = "connect".toList) ↔
      ownText attr "PPPManualStatus".toList = "connect".toList := by
    rw [ownText, cfgGetObjectAttr_pos, hread]
    refine and_iff_right_of_imp fun h => ?_
    rw [h]
    decide
  have hmode := ownVal_eq attr "CONNECTION".toList [] (fun t =>
    if t = "Connect_on_Demand".toList then (1 : UInt8) else if ownManual attr then 2 else 0)
    cfg.connMode
  simp only [loadPpp, ownPpp, beforeHybrid, hmanual, hstatus]
  congr 1
  · exact ownVal_eq _ _ _ _ _
  · exact ownVal_eq _ _ _ _ _
  · rw [cfgGetObjectAttr_snd, hread, hread]
    rfl

theorem loadPpp_fst_eq_iff (attr : EntryAttrs) {cfg : WanEntryCfg} (tmp : Str)
    (hcfg : cfg.pppHybrid = 0) :
    (loadPpp attr cfg tmp).1 = ownPpp attr cfg ↔
      QuietCase attr "BridgeInterface".toList ["Yes".toList] (beforeHybrid attr) := by
  rw [← setYes_read_iff, loadPpp_fst, hcfg]
  constructor
  · intro h
    have hy := congrArg WanEntryCfg.pppHybrid h
    rwa [ownPpp, hcfg] at hy
  · intro h
    rw [h, ← hcfg]
    rfl

/-- The fields that the reads for the mode and the prefix set. -/
theorem loadIpv6Mode_fst (attr : EntryAttrs) (cfg : WanEntryCfg) :
    let buf := beforeIpv6mode attr
    let pd := setYes cfg.pd (attrText (attr "PDEnable".toList) 64
      (carried attr ["DHCPv6".toList, "DHCPv6PD".toList] buf))
    (loadIpv6Mode attr cfg).1 = { ownIpv6Mode attr cfg with
      ipv6mode := setIpv6mode cfg.ipv6mode (attrText (attr "DHCPv6".toList) 64 buf)
      dhcpv6pd := setYes cfg.dhcpv6pd (attrText (attr "DHCPv6PD".toList) 64
        (carried attr ["DHCPv6".toList] buf))
      pd := pd
      npt := nptOf (attrText (attr "NPT".toList) 64
        (carried attr ["DHCPv6".toList, "DHCPv6PD".toList, "PDEnable".toList] buf))
      pdmode := if pd == 1 then pdmodeOf (attrText (attr "DHCPv6PD".toList) 64
          (carried attr ["DHCPv6".toList, "DHCPv6PD".toList, "PDEnable".toList, "NPT".toList] buf))
        else cfg.pdmode } := by
  have hmode := ownVal_eq attr "DsliteMode".toList [] (fun t => UInt8.ofInt (atoi t)) 0
  rw [cfgGetObjectAttr_snd] at hmode
  simp only [loadIpv6Mode, ownIpv6Mode, beforeIpv6mode, ownDslite, carried, List.foldl_cons,
    List.foldl_nil, cfgGetObjectAttr_snd, ownText, WanEntryCfg.pdEnable, hmode]
  -- the gates are those of DS-Lite and of the prefix, the same on both sides
  split <;> rename_i hd <;> split <;> rename_i hpd <;>
    simp only [hd, hpd, if_true, if_false, Bool.false_eq_true]

/-- **The reads for the mode and the prefix take every field from its own attribute exactly if none
of them meets a text that matters.** -/
theorem loadIpv6Mode_fst_eq_iff (attr : EntryAttrs) {cfg : WanEntryCfg} (hmode : cfg.ipv6mode = 0)
    (hdhcp : cfg.dhcpv6pd = 0) (hpd : cfg.pd = 0) :
    (loadIpv6Mode attr cfg).1 = ownIpv6Mode attr cfg ↔ Ipv6Quiet attr := by
  have hm : ∀ tmp, setIpv6mode 0 (attrText (attr "DHCPv6".toList) 64 tmp) =
      setIpv6mode 0 (ownText attr "DHCPv6".toList) ↔
      QuietCase attr "DHCPv6".toList ["Yes".toList, "No".toList, "N/A".toList] tmp := by
    intro tmp
    rw [QuietCase, ← setIpv6mode_eq_iff]
    exact read_eq_iff (setIpv6mode 0) _ _
  have hn : ∀ tmp, nptOf (attrText (attr "NPT".toList) 64 tmp) = nptOf (ownText attr "NPT".toList) ↔
      QuietCase attr "NPT".toList ["1".toList] tmp := by
    intro tmp
    rw [QuietCase, ← nptOf_eq_iff]
    exact read_eq_iff nptOf _ _
  have hp : ∀ tmp, pdmodeOf (attrText (attr "DHCPv6PD".toList) 64 tmp) =
      pdmodeOf (ownText attr "DHCPv6PD".toList) ↔
      QuietCase attr "DHCPv6PD".toList ["Yes".toList, "No".toList] tmp := by
    intro tmp
    rw [QuietCase, ← pdmodeOf_eq_iff]
    exact read_eq_iff pdmodeOf _ _
  have hgate : (setYes 0 (ownText attr "PDEnable".toList) == 1) =
      strcasecmpEq (ownText attr "PDEnable".toList) "Yes".toList := by
    rw [setYes]
    cases strcasecmpEq (ownText attr "PDEnable".toList) "Yes".toList <;> rfl
  rw [loadIpv6Mode_fst]
  constructor
  · intro h
    have h1 := congrArg WanEntryCfg.ipv6mode h
    have h2 := congrArg WanEntryCfg.dhcpv6pd h
    have h3 := congrArg WanEntryCfg.pd h
    have h4 := congrArg WanEntryCfg.npt h
    have h5 := congrArg WanEntryCfg.pdmode h
    simp only [ownIpv6Mode, hmode, hdhcp, hpd] at h1 h2 h3 h4 h5
    refine ⟨(hm _).mp h1, setYes_read_iff.mp h2, setYes_read_iff.mp h3, (hn _).mp h4, fun hon => ?_⟩
    -- the gate of the prefix is the same on both sides
    rw [h3, hgate, hon, if_pos rfl, if_pos rfl] at h5
    exact (hp _).mp h5
  · rintro ⟨h1, h2, h3, h4, h5⟩
    have h3' := setYes_read_iff.mpr h3
    simp only [ownIpv6Mode, hmode, hdhcp, hpd, (hm _).mpr h1, setYes_read_iff.mpr h2, h3',
      (hn _).mpr h4, hgate]
    split
    · next hon => rw [(hp _).mpr (h5 hon)]
    · rfl

/-! ## The whole function -/

theorem ownBase_zero (b : LoadBuild) (attr : EntryAttrs) :
    (ownBase b attr).pingresp = 0 ∧ (ownBase b attr).pppHybrid = 0 ∧ (ownBase b attr).ipv6mode = 0 ∧
      (ownBase b attr).dhcpv6pd = 0 ∧ (ownBase b attr).pd = 0 := ⟨rfl, rfl, rfl, rfl, rfl⟩

/-- The stages behind the test for a bridge. -/
def loadRouted (b : LoadBuild) (attr : EntryAttrs) (cfg : WanEntryCfg) (tmp : Str) : WanEntryCfg :=
  let s := loadPing b attr cfg tmp
  let s := if s.1.isPpp then loadPpp attr s.1 s.2 else s
  let s := if s.1.isIpv4Static then loadIpv4Static attr s.1 s.2 else s
  if s.1.isIpv6 then loadIpv6 attr s.1 else s.1

theorem svcWanLoadCfg_eq (b : LoadBuild) (attr : EntryAttrs) :
    svcWanLoadCfg b attr =
      let cfg := ownServices b attr (loadLink attr {} []).1
      if cfg.isBridge then cfg
      else loadRouted b attr cfg
        (if b.sdn then ownText attr "sdn".toList else ownText attr "DHCPEnable".toList) := by
  rw [svcWanLoadCfg]
  simp only [loadServices_fst, loadServices_snd, loadRouted]

/-- The fields behind the test for a bridge that can be leaked into. -/
def leakFields (cfg : WanEntryCfg) : UInt8 × UInt8 × UInt8 × UInt8 × UInt8 × UInt8 × UInt8 :=
  (cfg.pingresp, cfg.pppHybrid, cfg.ipv6mode, cfg.dhcpv6pd, cfg.pd, cfg.npt, cfg.pdmode)

theorem leakFields_ite {p : Prop} [Decidable p] {f cfg : WanEntryCfg}
    (h : leakFields f = leakFields cfg) : leakFields (if p then f else cfg) = leakFields cfg := by
  split
  · exact h
  · rfl

/-- What is read behind the mode and the prefix. -/
def ownIpv6Tail (attr : EntryAttrs) (cfg : WanEntryCfg) : WanEntryCfg :=
  let cfg := if cfg.pdmode == 2 then ownPdManual attr cfg else cfg
  let cfg := if cfg.isIpv6Static then ownIpv6Static attr cfg else cfg
  ownIpv6Rest attr cfg

theorem loadIpv6_eq (attr : EntryAttrs) (cfg : WanEntryCfg) :
    loadIpv6 attr cfg = ownIpv6Tail attr (loadIpv6Mode attr cfg).1 := by
  simp only [loadIpv6, ownIpv6Tail, loadIpv6Rest_eq]
  cases hm : (loadIpv6Mode attr cfg).1.pdmode == 2 with
  | true =>
    simp only [if_true, loadPdManual_fst]
    cases (ownPdManual attr (loadIpv6Mode attr cfg).1).isIpv6Static <;>
      simp [loadIpv6Static_fst, loadPdManual_fst]
  | false =>
    simp only [Bool.false_eq_true, if_false]
    cases (loadIpv6Mode attr cfg).1.isIpv6Static <;> simp [loadIpv6Static_fst]

theorem leakFields_ownIpv6Tail (attr : EntryAttrs) (cfg : WanEntryCfg) :
    leakFields (ownIpv6Tail attr cfg) = leakFields cfg := by
  have hman : leakFields (if cfg.pdmode == 2 then ownPdManual attr cfg else cfg) = leakFields cfg :=
    leakFields_ite rfl
  rw [← hman]
  exact leakFields_ite rfl

/-- What is left of the stages once the first two have been passed. -/
def ownRest (attr : EntryAttrs) (cfg : WanEntryCfg) : WanEntryCfg :=
  if cfg.isIpv4Static then ownIpv4Static attr cfg else cfg

theorem leakFields_ownRest (attr : EntryAttrs) (cfg : WanEntryCfg) :
    leakFields (ownRest attr cfg) = leakFields cfg := leakFields_ite rfl

theorem ownRest_isIpv6 (attr : EntryAttrs) (cfg : WanEntryCfg) :
    (ownRest attr cfg).isIpv6 = cfg.isIpv6 := by
  rw [ownRest]
  split <;> rfl

theorem loadRouted_eq (b : LoadBuild) (attr : EntryAttrs) (cfg : WanEntryCfg) (tmp : Str) :
    loadRouted b attr cfg tmp =
      let ping := (loadPing b attr cfg tmp).1
      let ppp := if ping.isPpp then (loadPpp attr ping []).1 else ping
      let v4 := ownRest attr ppp
      if v4.isIpv6 then ownIpv6Tail attr (loadIpv6Mode attr v4).1 else v4 := by
  have hppp : ∀ cfg t, (loadPpp attr cfg t).1 = (loadPpp attr cfg []).1 := fun cfg t => by
    rw [loadPpp_fst, loadPpp_fst]
  rw [loadRouted]
  cases hp : (loadPing b attr cfg tmp).1.isPpp <;>
    simp only [if_true, if_false, Bool.false_eq_true, ← loadIpv6_eq, ownRest]
  · cases h4 : (loadPing b attr cfg tmp).1.isIpv4Static <;>
      simp [hp, h4, loadIpv4Static_fst]
  · rw [hppp]
    cases h4 : (loadPpp attr (loadPing b attr cfg tmp).1 []).1.isIpv4Static <;>
      simp [hp, h4, loadIpv4Static_fst, hppp]

theorem ownRouted_eq (b : LoadBuild) (attr : EntryAttrs) (cfg : WanEntryCfg) :
    ownRouted b attr cfg =
      let ping := ownPing b attr cfg
      let ppp := if ping.isPpp then ownPpp attr ping else ping
      let v4 := ownRest attr ppp
      if v4.isIpv6 then ownIpv6Tail attr (ownIpv6Mode attr v4) else v4 := rfl

/-- Equal configurations have equal fields that can be leaked into before the last stage. -/
theorem leakFields_last {attr : EntryAttrs} {m m' cfg cfg' : WanEntryCfg} {p p' : Prop}
    [Decidable p] [Decidable p']
    (h : (if p then ownIpv6Tail attr m else cfg) = if p' then ownIpv6Tail attr m' else cfg') :
    leakFields (if p then m else cfg) = leakFields (if p' then m' else cfg') := by
  have hl := congrArg leakFields h
  by_cases hp : p <;> by_cases hp' : p' <;>
    simpa [hp, hp', leakFields_ownIpv6Tail] using hl

/-- The mode stage sets none of the two fields of the stages before it. -/
theorem loadIpv6Mode_frame (attr : EntryAttrs) (cfg : WanEntryCfg) :
    (loadIpv6Mode attr cfg).1.pingresp = cfg.pingresp ∧
      (loadIpv6Mode attr cfg).1.pppHybrid = cfg.pppHybrid := by
  rw [loadIpv6Mode_fst]
  exact ⟨rfl, rfl⟩

/-- **Behind the test for a bridge every field comes from its own attribute exactly if no read meets
a text that matters.** -/
theorem loadRouted_eq_iff (b : LoadBuild) (attr : EntryAttrs) {cfg : WanEntryCfg} (tmp : Str)
    (hping : cfg.pingresp = 0) (hhyb : cfg.pppHybrid = 0) (hmode : cfg.ipv6mode = 0)
    (hdhcp : cfg.dhcpv6pd = 0) (hpd : cfg.pd = 0) :
    loadRouted b attr cfg tmp = ownRouted b attr cfg ↔
      (b.joyme4 = true → QuietCase attr "PingResponse".toList ["Yes".toList] tmp) ∧
      (cfg.isPpp = true →
        QuietCase attr "BridgeInterface".toList ["Yes".toList] (beforeHybrid attr)) ∧
      (cfg.isIpv6 = true → Ipv6Quiet attr) := by
  rw [← loadPing_fst_eq_iff b attr tmp hping, loadRouted_eq, ownRouted_eq]
  dsimp only
  have hP : (loadPing b attr cfg tmp).1 =
      { ownPing b attr cfg with pingresp := (loadPing b attr cfg tmp).1.pingresp } := by
    rw [loadPing, ownPing]
    cases b.joyme4 <;> rfl
  have hhyb' : (ownPing b attr cfg).pppHybrid = 0 := hhyb
  have hmode' : (ownPing b attr cfg).ipv6mode = 0 := hmode
  have hdhcp' : (ownPing b attr cfg).dhcpv6pd = 0 := hdhcp
  have hpd' : (ownPing b attr cfg).pd = 0 := hpd
  have hppp : (ownPing b attr cfg).isPpp = cfg.isPpp := rfl
  have hipv6 : (ownPing b attr cfg).isIpv6 = cfg.isIpv6 := rfl
  generalize (loadPing b attr cfg tmp).1 = ping at hP
  generalize ownPing b attr cfg = own at hP hhyb' hmode' hdhcp' hpd' hppp hipv6
  -- the stages behind the mode stage leave the fields that are leaked into, so do those before it
  have hframe : ∀ c : WanEntryCfg, (if c.isIpv6 then (loadIpv6Mode attr c).1 else c).pingresp =
      c.pingresp ∧ (if c.isIpv6 then (loadIpv6Mode attr c).1 else c).pppHybrid = c.pppHybrid := by
    intro c
    split
    · exact loadIpv6Mode_frame attr c
    · exact ⟨rfl, rfl⟩
  have hframe' : ∀ c : WanEntryCfg, (if c.isIpv6 then ownIpv6Mode attr c else c).pingresp =
      c.pingresp ∧ (if c.isIpv6 then ownIpv6Mode attr c else c).pppHybrid = c.pppHybrid := by
    intro c
    split <;> exact ⟨rfl, rfl⟩
  have hrest : ∀ c, (ownRest attr c).pingresp = c.pingresp ∧
      (ownRest attr c).pppHybrid = c.pppHybrid := fun c =>
    ⟨congrArg Prod.fst (leakFields_ownRest attr c),
      congrArg (fun t => t.2.1) (leakFields_ownRest attr c)⟩
  have hppp1 : ∀ c : WanEntryCfg,
      (if c.isPpp then (loadPpp attr c []).1 else c).pingresp = c.pingresp := by
    intro c
    split
    · rw [loadPpp_fst]
      rfl
    · rfl
  have hppp2 : (if own.isPpp then ownPpp attr own else own).pingresp = own.pingresp := by
    split <;> rfl
  -- the configuration that the mode stage starts from
  generalize hv4 : ownRest attr (if own.isPpp then ownPpp attr own else own) = v4
  have hv6 : v4.isIpv6 = cfg.isIpv6 := by
    rw [← hv4, ownRest_isIpv6, ← hipv6]
    split <;> rfl
  have hzero : v4.ipv6mode = 0 ∧ v4.dhcpv6pd = 0 ∧ v4.pd = 0 := by
    have hl := leakFields_ownRest attr (if own.isPpp then ownPpp attr own else own)
    rw [hv4] at hl
    refine ⟨(congrArg (fun t => t.2.2.1) hl).trans ?_, (congrArg (fun t => t.2.2.2.1) hl).trans ?_,
      (congrArg (fun t => t.2.2.2.2.1) hl).trans ?_⟩
    · rw [← hmode']
      dsimp only [leakFields]
      split <;> rfl
    · rw [← hdhcp']
      dsimp only [leakFields]
      split <;> rfl
    · rw [← hpd']
      dsimp only [leakFields]
      split <;> rfl
  have hquiet := loadIpv6Mode_fst_eq_iff attr hzero.1 hzero.2.1 hzero.2.2
  constructor
  · intro h
    have hl := leakFields_last h
    have hresp : ping.pingresp = own.pingresp := by
      have hfst := congrArg Prod.fst hl
      rw [← hv4] at hfst
      simp only [leakFields, (hframe _).1, (hframe' _).1, (hrest _).1, hppp1, hppp2] at hfst
      exact hfst
    have hpo : ping = own := by rw [hP, hresp]
    subst hpo
    have hstage : (if ping.isPpp then (loadPpp attr ping []).1 else ping) =
        if ping.isPpp then ownPpp attr ping else ping := by
      have hsnd := congrArg (fun t => t.2.1) hl
      rw [← hv4] at hsnd
      simp only [leakFields, (hframe _).2, (hframe' _).2, (hrest _).2] at hsnd
      split at hsnd
      · next hon =>
        rw [if_pos hon, if_pos hon]
        rw [loadPpp_fst] at hsnd ⊢
        rw [show setYes ping.pppHybrid (attrText (attr "BridgeInterface".toList) 64
          (beforeHybrid attr)) = (ownPpp attr ping).pppHybrid from hsnd]
      · next hoff => rw [if_neg hoff, if_neg hoff]
    refine ⟨rfl, fun hon => ?_, fun hon => ?_⟩
    · rw [← hppp] at hon
      rw [if_pos hon, if_pos hon] at hstage
      exact (loadPpp_fst_eq_iff attr [] hhyb').mp hstage
    · rw [hstage, hv4, if_pos (hv6.trans hon), if_pos (hv6.trans hon), loadIpv6Mode_fst] at hl
      rw [← hquiet, loadIpv6Mode_fst]
      simp only [leakFields, Prod.mk.injEq] at hl
      obtain ⟨_, _, e1, e2, e3, e4, e5⟩ := hl
      rw [e5, e1, e2, e3, e4]
  · rintro ⟨rfl, hyb, hip⟩
    have hstage : (if ping.isPpp then (loadPpp attr ping []).1 else ping) =
        if ping.isPpp then ownPpp attr ping else ping := by
      split
      · next hon => exact (loadPpp_fst_eq_iff attr [] hhyb').mpr (hyb (hppp.symm.trans hon))
      · rfl
    rw [hstage, hv4]
    split
    · next hon => rw [hquiet.mpr (hip (hv6.symm.trans hon))]
    · rfl

/-- The fields before the test for a bridge that can be leaked into. -/
def linkFields (cfg : WanEntryCfg) : UInt8 × UInt8 × UInt8 × UInt8 :=
  (cfg.wanmode, cfg.linkmode, cfg.vtag, cfg.version)

theorem linkFields_ite {p : Prop} [Decidable p] {f cfg : WanEntryCfg}
    (h : linkFields f = linkFields cfg) : linkFields (if p then f else cfg) = linkFields cfg := by
  split
  · exact h
  · rfl

theorem linkFields_ownIpv6Tail (attr : EntryAttrs) (cfg : WanEntryCfg) :
    linkFields (ownIpv6Tail attr cfg) = linkFields cfg := by
  have hman : linkFields (if cfg.pdmode == 2 then ownPdManual attr cfg else cfg) = linkFields cfg :=
    linkFields_ite rfl
  rw [← hman]
  exact linkFields_ite rfl

theorem linkFields_ownRest (attr : EntryAttrs) (cfg : WanEntryCfg) :
    linkFields (ownRest attr cfg) = linkFields cfg := linkFields_ite rfl

theorem linkFields_ownRouted (b : LoadBuild) (attr : EntryAttrs) (cfg : WanEntryCfg) :
    linkFields (ownRouted b attr cfg) = linkFields cfg := by
  have hmode : ∀ c, linkFields (ownIpv6Mode attr c) = linkFields c := fun _ => rfl
  have hppp : ∀ c, linkFields (ownPpp attr c) = linkFields c := fun _ => rfl
  have hping : linkFields (ownPing b attr cfg) = linkFields cfg := rfl
  rw [ownRouted_eq]
  dsimp only
  rw [apply_ite linkFields, linkFields_ownIpv6Tail, hmode, ite_self, linkFields_ownRest,
    apply_ite linkFields, hppp, ite_self, hping]

theorem linkFields_loadRouted (b : LoadBuild) (attr : EntryAttrs) (cfg : WanEntryCfg) (tmp : Str) :
    linkFields (loadRouted b attr cfg tmp) = linkFields cfg := by
  have hping : linkFields (loadPing b attr cfg tmp).1 = linkFields cfg := by
    rw [loadPing]
    split <;> rfl
  have hmode : ∀ c, linkFields (loadIpv6Mode attr c).1 = linkFields c := by
    intro c
    rw [loadIpv6Mode_fst]
    rfl
  have hppp : ∀ c, linkFields (loadPpp attr c []).1 = linkFields c := by
    intro c
    rw [loadPpp_fst]
    rfl
  rw [loadRouted_eq]
  dsimp only
  rw [apply_ite linkFields, linkFields_ownIpv6Tail, hmode, ite_self, linkFields_ownRest,
    apply_ite linkFields, hppp, ite_self, hping]

/-- **`svc_wan_load_cfg` takes every field from its own attribute exactly if no read without
clearing meets a text that matters.** -/
theorem svcWanLoadCfg_eq_ownCfg_iff (b : LoadBuild) (attr : EntryAttrs) :
    svcWanLoadCfg b attr = ownCfg b attr ↔ NoLeak b attr := by
  have hbase : ∀ c : WanEntryCfg, linkFields (ownServices b attr c) = linkFields c := fun _ => rfl
  have hlink : svcWanLoadCfg b attr = ownCfg b attr → (loadLink attr {} []).1 = ownLink attr := by
    intro h
    have hl := congrArg linkFields h
    rw [svcWanLoadCfg_eq, ownCfg] at hl
    dsimp only at hl
    rw [apply_ite linkFields, apply_ite linkFields, linkFields_loadRouted, linkFields_ownRouted,
      ite_self, ite_self, hbase, ownBase, hbase] at hl
    rw [loadLink_fst] at hl ⊢
    simp only [linkFields, Prod.mk.injEq] at hl
    obtain ⟨e1, e2, e3, e4⟩ := hl
    rw [e1, e2, e3, e4]
  have hrouted := loadRouted_eq_iff b attr
    (if b.sdn then ownText attr "sdn".toList else ownText attr "DHCPEnable".toList)
    (ownBase_zero b attr).1 (ownBase_zero b attr).2.1 (ownBase_zero b attr).2.2.1
    (ownBase_zero b attr).2.2.2.1 (ownBase_zero b attr).2.2.2.2
  constructor
  · intro h
    have hl := hlink h
    rw [svcWanLoadCfg_eq, hl, ownCfg] at h
    have hrest : (ownBase b attr).isBridge = false → _ := fun hb => hrouted.mp (by
      rw [← ownBase] at h
      simpa only [hb, Bool.false_eq_true, if_false] using h)
    exact ⟨(loadLink_fst_eq_iff attr).mp hl, fun hb => (hrest hb).1, fun hb => (hrest hb).2.1,
      fun hb => (hrest hb).2.2⟩
  · intro h
    rw [svcWanLoadCfg_eq, (loadLink_fst_eq_iff attr).mpr h.link, ownCfg, ← ownBase]
    dsimp only
    split
    · rfl
    · next hb =>
      have hb : (ownBase b attr).isBridge = false := by simpa using hb
      exact hrouted.mpr ⟨h.ping hb, h.hybrid hb, h.ipv6 hb⟩

/-! ## The NAT flag -/

/-- What `svc_wan_load_opt` sets of an object. -/
structure WanOpt where
  nat : UInt8
  childPrefixBits : Str

/-- `svc_wan_load_opt`. -/
def svcWanLoadOpt (cfg : WanEntryCfg) (attr : EntryAttrs) (o : WanOpt) : WanOpt :=
  let r := cfgGetObjectAttr (attr "NATENABLE".toList) [] 64
  let o := { o with
    nat :=
      if cfg.isIpv4 ∧ 0 < r.1 then (if hasStr r.2 "Enable".toList then 1 else 0) else o.nat }
  let r := cfgGetObjectAttr (attr "ChildPrefixBits".toList) [] 64
  { o with childPrefixBits := if 0 < r.1 then r.2.take 63 else o.childPrefixBits }

/-- The flag says that the configuration is one for IPv4 and the attribute contains `Enable`. -/
def NatRight (cfg : WanEntryCfg) (attr : EntryAttrs) (nat : UInt8) : Prop :=
  nat = 1 ↔ cfg.isIpv4 = true ∧ ∃ v, attr "NATENABLE".toList = some v ∧ hasStr v "Enable".toList

/-- Either there is a text to read, and `Enable` is in it if it is in the whole attribute, or the
flag was not set before. -/
def NatCond (cfg : WanEntryCfg) (attr : EntryAttrs) (before : UInt8) : Prop :=
  if cfg.isIpv4 = true ∧ ownText attr "NATENABLE".toList ≠ [] then
    ∀ v, attr "NATENABLE".toList = some v → hasStr v "Enable".toList = true →
      hasStr (v.take 63) "Enable".toList = true
  else before ≠ 1

theorem hasStr_of_take {s k : Str} {n : Nat} (h : hasStr (s.take n) k = true) :
    hasStr s k = true :=
  hasStr_iff.mpr ((hasStr_iff.mp h).trans (List.take_prefix n s).isInfix)

/-- **The flag is right exactly if there is something to read or it was not set before.** -/
theorem svcWanLoadOpt_natRight_iff (cfg : WanEntryCfg) (attr : EntryAttrs) (o : WanOpt) :
    NatRight cfg attr (svcWanLoadOpt cfg attr o).nat ↔ NatCond cfg attr o.nat := by
  have hnat : (svcWanLoadOpt cfg attr o).nat =
      if cfg.isIpv4 = true ∧ ownText attr "NATENABLE".toList ≠ [] then
        (if hasStr (ownText attr "NATENABLE".toList) "Enable".toList then 1 else 0)
      else o.nat := by
    simp only [svcWanLoadOpt, cfgGetObjectAttr_pos, cfgGetObjectAttr_snd, ownText]
    exact if_congr Iff.rfl rfl rfl
  rw [NatRight, NatCond, hnat]
  split
  · next h =>
    obtain ⟨hv4, hne⟩ := h
    cases ha : attr "NATENABLE".toList with
    | none => exact absurd (by rw [ownText, ha]; rfl) hne
    | some v =>
      have hown : ownText attr "NATENABLE".toList = v.take 63 := by
        rw [ownText, ha]
        rfl
      rw [hown]
      generalize "Enable".toList = k
      cases hs : hasStr (v.take 63) k with
      | true => simp [hv4, hs, hasStr_of_take hs]
      | false => simp [hv4, hs]
  · next h =>
    have hno : ¬ (cfg.isIpv4 = true ∧
        ∃ v, attr "NATENABLE".toList = some v ∧ hasStr v "Enable".toList = true) := by
      rintro ⟨hv4, v, ha, hs⟩
      refine h ⟨hv4, fun hnil => ?_⟩
      -- an attribute that contains the word is not empty
      rcases v with _ | ⟨c, v⟩
      · exact absurd hs (by decide)
      · rw [ownText, ha] at hnil
        exact absurd hnil (by simp [attrText, snprintf])
    exact ⟨fun hi hb => hno (hi.mp hb), fun hb => iff_of_false hb hno⟩

/-- **Every field of the loaded configuration comes from its own attribute and the NAT flag is right
exactly if no read meets a text that matters, and the flag has something to read or was not
set.** -/
theorem load_right_iff (b : LoadBuild) (attr : EntryAttrs) (o : WanOpt) :
    (svcWanLoadCfg b attr = ownCfg b attr ∧
      NatRight (svcWanLoadCfg b attr) attr (svcWanLoadOpt (svcWanLoadCfg b attr) attr o).nat) ↔
    NoLeak b attr ∧ NatCond (ownCfg b attr) attr o.nat := by
  rw [svcWanLoadOpt_natRight_iff, ← svcWanLoadCfg_eq_ownCfg_iff]
  exact and_congr_right fun h => by rw [h]

/-- A WAN for IPv6 without DS-Lite and without the attribute of the address mode. -/
def noDslite : EntryAttrs :=
  cfgXmlGetAttr [("Active".toList, "Yes".toList), ("WanMode".toList, "Route".toList),
    ("LinkMode".toList, "linkIP".toList), ("IPVERSION".toList, "IPv6".toList),
    ("ISP".toList, "0".toList), ("DsliteEnable".toList, "No".toList)]

/-- The address mode is taken from the text of DS-Lite, and the flag of an object stays set when its
WAN is changed to one without IPv4. -/
theorem load_fails :
    (svcWanLoadCfg ⟨false, false, false, false, false, false⟩ noDslite).ipv6mode = 2 ∧
      (ownCfg ⟨false, false, false, false, false, false⟩ noDslite).ipv6mode = 0 ∧
      svcWanLoadCfg ⟨false, false, false, false, false, false⟩ noDslite ≠
        ownCfg ⟨false, false, false, false, false, false⟩ noDslite ∧
      ¬ NatRight (ownCfg ⟨false, false, false, false, false, false⟩ noDslite) noDslite
        (svcWanLoadOpt (ownCfg ⟨false, false, false, false, false, false⟩ noDslite) noDslite
          ⟨1, []⟩).nat := by
  have hleak : (svcWanLoadCfg ⟨false, false, false, false, false,
    false⟩ noDslite).ipv6mode = 2 := by
    decide
  have hown : (ownCfg ⟨false, false, false, false, false, false⟩ noDslite).ipv6mode = 0 := by
    decide
  refine ⟨hleak, hown, fun h => ?_, ?_⟩
  · rw [h, hown] at hleak
    exact absurd hleak (by decide)
  · rw [svcWanLoadOpt_natRight_iff, NatCond, if_neg (by decide)]
    decide

end OnuFirmware.Wan
