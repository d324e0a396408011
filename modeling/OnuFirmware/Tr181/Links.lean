import OnuFirmware.Tr181.Keys

/-!
# The links between the interfaces of a WAN (`updateTR181IFByPvcIdx`)

Each WAN has an IP entry, a PPP entry if its ISP is PPP, a VLANTermination entry if it has a VLAN
tag, and a Link entry. `LowerLayers` of each names the one below, and `uplayer` is to name the one
above. Which of them are written depends on the ISP and the tag: without a tag the `uplayer` of the
Link entry is left as it was.
-/

namespace OnuFirmware.Tr181

open Clib Cfg Lib

/-! ## The tables -/

/-- The kinds of interfaces, from the top. -/
inductive Layer
  | ip
  | ppp
  | vlanT
  | link
deriving Repr, DecidableEq

/-- The path that an interface of the kind has in the data model, up to its number. -/
def Layer.path : Layer → Str
  | .ip => "Device.IP.Interface.".toList
  | .ppp => "Device.PPP.Interface.".toList
  | .vlanT => "Device.Ethernet.VLANTermination.".toList
  | .link => "Device.Ethernet.Link.".toList

/-- The node of the table in the configuration. -/
def Layer.node : Layer → Str
  | .ip => "root.tr181ip".toList
  | .ppp => "root.tr181ppp".toList
  | .vlanT => "root.ethervlant".toList
  | .link => "root.etherlink".toList

/-- The path of the entry with an index. It fits the 256 bytes that it is printed into. -/
def Layer.interface (l : Layer) (index : Int) : Str := l.path ++ fmtInt (index + 1)

/-- `TR181_OPTICAL_INTERFACE`. -/
def opticalInterface : Str := "Device.Optical.Interface.1".toList

/-- `TR181_LOWERLAYER_ATTR`. -/
def lowerLayersAttr : Str := "LowerLayers".toList

/-- `TR181_UPLAYER_ATTR`. -/
def uplayerAttr : Str := "uplayer".toList

/-- The four tables. -/
abbrev Tables := Layer → Table

/-- An attribute of the entry with an index; there is none without such an entry. -/
def entryAttr (T : Tables) (l : Layer) (index : Int) (name : Str) : Option Str :=
  if 0 ≤ index then readAttr ((T l).slots[index.toNat]?.getD none) name else none

/-- An attribute of an entry is set. -/
def Table.setAttr (t : Table) (i : Nat) (name text : Str) : Table :=
  { t with slots := t.slots.modify i fun s => s.map fun a => a.set name text }

/-- `cfg_obj_set_object_attr` on the entry with an index: it fails without such an entry. -/
def setEntryAttr (T : Tables) (l : Layer) (index : Int) (name text : Str) : Tables :=
  if 0 ≤ index then Function.update T l ((T l).setAttr index.toNat name text) else T

/-- `setIPInterfaceLowerLayer`. -/
def setIPInterfaceLowerLayer (T : Tables) (ipIndex : Int) (lowerlayer : Str) : Tables :=
  setEntryAttr T .ip ipIndex lowerLayersAttr lowerlayer

/-- `setPPPInterfaceUpLayer`. -/
def setPPPInterfaceUpLayer (T : Tables) (pppIndex : Int) (uplayer : Str) : Tables :=
  setEntryAttr T .ppp pppIndex uplayerAttr uplayer

/-- `setPPPInterfaceLowerLayer`. -/
def setPPPInterfaceLowerLayer (T : Tables) (pppIndex : Int) (lowerlayer : Str) : Tables :=
  setEntryAttr T .ppp pppIndex lowerLayersAttr lowerlayer

/-- `setEtherVlanTermUpLayer`. -/
def setEtherVlanTermUpLayer (T : Tables) (vlanTIndex : Int) (uplayer : Str) : Tables :=
  setEntryAttr T .vlanT vlanTIndex uplayerAttr uplayer

/-- `setEtherVlanTermLowerLayer`. -/
def setEtherVlanTermLowerLayer (T : Tables) (vlanTIndex : Int) (lowerlayer : Str) : Tables :=
  setEntryAttr T .vlanT vlanTIndex lowerLayersAttr lowerlayer

/-- `setEtherLinkUpLayer`. -/
def setEtherLinkUpLayer (T : Tables) (etherLinkIndex : Int) (uplayer : Str) : Tables :=
  setEntryAttr T .link etherLinkIndex uplayerAttr uplayer

/-- `setEtherLinkLowerLayer`. -/
def setEtherLinkLowerLayer (T : Tables) (etherLinkIndex : Int) (lowerlayer : Str) : Tables :=
  setEntryAttr T .link etherLinkIndex lowerLayersAttr lowerlayer

/-! ## The update -/

/-- Constants of the build. -/
structure Consts where
  /-- `WAN_INTERFACE_NUM`. -/
  wanInterfaceNum : Int
  /-- `LAN_INDEX_WLAN_START`. -/
  wlanStart : Int
  /-- `WAN_ENCAP_PPP_INT`. -/
  wanEncapPpp : Int
  /-- `WAN_ENCAP_DYN_INT`. -/
  wanEncapDyn : Int

/-- The number of slots of a table: `IP_INTERFACE_NUM`, `PPP_INTERFACE_NUM`, `ETHER_VLAN_T_NUM` and
`ETHER_LINK_NUM`. -/
def Layer.num (c : Consts) : Layer → Int
  | .ip => c.wanInterfaceNum + 1
  | .ppp => c.wanInterfaceNum
  | .vlanT => c.wanInterfaceNum
  | .link => c.wanInterfaceNum + 1

/-- The tables after `clearTR181InterfaceNode` on each. -/
def clearedTables (c : Consts) : Tables := fun l =>
  ⟨l.node, List.replicate (l.num c).toNat none, "0".toList⟩

/-- What a call reads of the WAN, and what it meets elsewhere: `dot1q` is the content of an array
that is not initialised; the entries for the DHCP client and for NAT are in tables without links. -/
structure Wan where
  isp : Option Str
  active : Option Str
  dot1qAttr : Option Str
  vlanid : Option Str
  ipversion : Option Str
  dot1q : Str
  dhcpv4ClientEntry : Int
  natEntry : Int

/-- The WAN is active, as a number. -/
def Wan.activeFlag (w : Wan) : Int := if attrText w.active 8 [] = "Yes".toList then 1 else 0

variable (c : Consts) (T : Tables) (wanIf : Int) (w : Wan)

/-- `createTR181InterfaceEntry` on one of the tables. -/
def createEntry (l : Layer) (active : Int) : Tables × Int :=
  let r := createTR181InterfaceEntry c.wlanStart (T l) ⟨wanIf, -1, active⟩
  (Function.update T l r.1, r.2)

/-- `findIPInterfaceEntry`: without a free entry the index is 0. -/
def findIPInterfaceEntry (active : Int) : Tables × Int :=
  if wanIf < 0 then (T, 0)
  else
    let r := createEntry c T wanIf .ip active
    if r.2 < 0 then (r.1, 0) else r

/-- `findEtherLinkEntry`. -/
def findEtherLinkEntry (active : Int) : Tables × Int := createEntry c T wanIf .link active

/-- `findEtherVlanTermEntry`. -/
def findEtherVlanTermEntry (active : Int) : Tables × Int := createEntry c T wanIf .vlanT active

/-- `findPPPInterfaceEntry`. -/
def findPPPInterfaceEntry (active : Int) : Tables × Int :=
  if wanIf < 0 then (T, 0)
  else
    let r := createEntry c T wanIf .ppp (if active = 1 then active else 0)
    if r.2 < 0 then (r.1, -1) else r

/-- `getWanVlanTag`. -/
def getWanVlanTag : Int :=
  if (cfgGetObjectAttr w.dot1qAttr w.dot1q 8).2 = "Yes".toList then
    match w.vlanid with
    | some t => atoi (snprintf 8 t)
    | none => 0
  else -1

/-- The indexes of the entries of a WAN; -1 where none was looked for. -/
structure WanEntries where
  ip : Int
  ppp : Int
  vlanT : Int
  link : Int
deriving Repr, DecidableEq

/-- The searches of `updateTR181IFByPvcIdx`, all of which come before the links. The entry for the
VLAN tag is not checked. -/
def findWanEntries (isPpp : Bool) (iVlanTag active : Int) : Tables × Option WanEntries :=
  let ip := findIPInterfaceEntry c T wanIf active
  if ip.2 < 0 then (ip.1, none)
  else
    let link := findEtherLinkEntry c ip.1 wanIf active
    if link.2 < 0 then (link.1, none)
    else
      let vlanT :=
        if 0 ≤ iVlanTag then findEtherVlanTermEntry c link.1 wanIf active else (link.1, -1)
      if isPpp then
        let ppp := findPPPInterfaceEntry c vlanT.1 wanIf active
        if ppp.2 < 0 then (ppp.1, none) else (ppp.1, some ⟨ip.2, ppp.2, vlanT.2, link.2⟩)
      else (vlanT.1, some ⟨ip.2, -1, vlanT.2, link.2⟩)

/-- The links of a WAN with a PPP entry. -/
def linkPpp (e : WanEntries) (iVlanTag : Int) : Tables :=
  let T := setIPInterfaceLowerLayer T e.ip (Layer.ppp.interface e.ppp)
  let T := setPPPInterfaceUpLayer T e.ppp (Layer.ip.interface e.ip)
  if 0 ≤ iVlanTag then
    let T := setPPPInterfaceLowerLayer T e.ppp (Layer.vlanT.interface e.vlanT)
    let T := setEtherVlanTermUpLayer T e.vlanT (Layer.ppp.interface e.ppp)
    let T := setEtherVlanTermLowerLayer T e.vlanT (Layer.link.interface e.link)
    setEtherLinkUpLayer T e.link (Layer.vlanT.interface e.vlanT)
  else setPPPInterfaceLowerLayer T e.ppp (Layer.link.interface e.link)

/-- The links of a WAN without a PPP entry. -/
def linkIp (e : WanEntries) (iVlanTag : Int) : Tables :=
  if 0 ≤ iVlanTag then
    let T := setIPInterfaceLowerLayer T e.ip (Layer.vlanT.interface e.vlanT)
    let T := setEtherVlanTermUpLayer T e.vlanT (Layer.ip.interface e.ip)
    let T := setEtherVlanTermLowerLayer T e.vlanT (Layer.link.interface e.link)
    setEtherLinkUpLayer T e.link (Layer.vlanT.interface e.vlanT)
  else setIPInterfaceLowerLayer T e.ip (Layer.link.interface e.link)

/-- The ISP is PPP. -/
def isPpp (isp : Str) : Bool := atoi (snprintf 4 isp) == c.wanEncapPpp

/-- The entry for the DHCP client is looked for and not found. -/
def dhcpFails (isp : Str) : Bool :=
  atoi (snprintf 4 isp) == c.wanEncapDyn && hasStr (attrText w.ipversion 16 []) "IPv4".toList &&
    decide (w.dhcpv4ClientEntry < 0)

/-- `updateTR181IFByPvcIdx`: the tables afterwards and the return value. -/
def updateTR181IFByPvcIdx : Tables × Int :=
  if wanIf < 0 then (T, 0)
  else if c.wanInterfaceNum ≤ wanIf then (T, 0)
  else
    match w.isp with
    | none => (T, 0)
    | some isp =>
      match findWanEntries c T wanIf (isPpp c isp) (getWanVlanTag w) w.activeFlag with
      | (T, none) => (T, -1)
      | (T, some e) =>
        let T := if isPpp c isp then linkPpp T e (getWanVlanTag w) else linkIp T e (getWanVlanTag w)
        if ¬ isPpp c isp ∧ dhcpFails c w isp then (T, -1)
        else
          let T := setEtherLinkLowerLayer T e.link opticalInterface
          if w.natEntry < 0 then (T, -1) else (T, e.ip)

/-! ## Attributes of entries -/

section Entries

variable {T : Tables} {l l' : Layer} {i i' : Int} {name name' text : Str}

/-- The table has an entry with the index. -/
def HasEntry (T : Tables) (l : Layer) (i : Int) : Prop :=
  0 ≤ i ∧ ∃ a, (T l).slots[i.toNat]? = some (some a)

theorem entryAttr_of_not (h : ¬ HasEntry T l i) : entryAttr T l i name = none := by
  rw [entryAttr]
  split
  · next hi =>
    rcases hget : (T l).slots[i.toNat]? with _ | _ | a
    · rfl
    · rfl
    · exact absurd ⟨hi, a, hget⟩ h
  · rfl

theorem getElem?_setAttr (t : Table) (i j : Nat) :
    (t.setAttr i name text).slots[j]? =
      if j = i then t.slots[j]?.map fun s => s.map fun a => a.set name text else t.slots[j]? := by
  rw [Table.setAttr]
  split
  · next h =>
    rw [h, List.getElem?_modify_eq]
    rfl
  · next h => rw [List.getElem?_modify_ne _ _ (Ne.symm h)]

theorem hasEntry_set :
    HasEntry (setEntryAttr T l i name text) l' i' ↔ HasEntry T l' i' := by
  rw [setEntryAttr]
  split
  · by_cases hl : l' = l
    · subst hl
      rw [HasEntry, HasEntry, Function.update_self, getElem?_setAttr]
      refine and_congr_right fun _ => ?_
      split
      · rcases (T l').slots[i'.toNat]? with _ | _ | a <;> simp
      · exact Iff.rfl
    · rw [HasEntry, HasEntry, Function.update_of_ne hl]
  · exact Iff.rfl

theorem entryAttr_set_self (h : HasEntry T l i) :
    entryAttr (setEntryAttr T l i name text) l i name = some text := by
  obtain ⟨hi, a, ha⟩ := h
  rw [setEntryAttr, if_pos hi, entryAttr, if_pos hi, Function.update_self, getElem?_setAttr,
    if_pos rfl, ha]
  exact Attrs.set_self name text

theorem nodeName_set : ((setEntryAttr T l i name text) l').nodeName = (T l').nodeName := by
  rw [setEntryAttr]
  split
  · by_cases hl : l' = l
    · rw [hl, Function.update_self, Table.setAttr]
    · rw [Function.update_of_ne hl]
  · rfl

theorem length_set : ((setEntryAttr T l i name text) l').slots.length = (T l').slots.length := by
  rw [setEntryAttr]
  split
  · by_cases hl : l' = l
    · rw [hl, Function.update_self, Table.setAttr, List.length_modify]
    · rw [Function.update_of_ne hl]
  · rfl

theorem setEntryAttr_of_not (h : ¬ HasEntry T l i) : setEntryAttr T l i name text = T := by
  rw [setEntryAttr]
  split
  · next hi =>
    have hslots : ((T l).setAttr i.toNat name text).slots = (T l).slots := by
      refine List.ext_getElem? fun j => ?_
      rw [getElem?_setAttr]
      split
      · next hj =>
        subst hj
        rcases hget : (T l).slots[i.toNat]? with _ | _ | a
        · rfl
        · rfl
        · exact absurd ⟨hi, a, hget⟩ h
      · rfl
    have htable : (T l).setAttr i.toNat name text = T l :=
      congrArg (fun slots => { T l with slots := slots }) hslots
    rw [htable, Function.update_eq_self]
  · rfl

/-- Everything else is unchanged. -/
theorem entryAttr_set_ne (h : l' ≠ l ∨ i' ≠ i ∨ name' ≠ name) :
    entryAttr (setEntryAttr T l i name text) l' i' name' = entryAttr T l' i' name' := by
  by_cases hi : 0 ≤ i ∧ 0 ≤ i' ∧ l' = l
  · obtain ⟨hi, hi', rfl⟩ := hi
    rw [setEntryAttr, if_pos hi, entryAttr, entryAttr, if_pos hi', Function.update_self,
      getElem?_setAttr]
    split
    · next hii =>
      have hname : name' ≠ name := by
        refine (h.resolve_left (not_not.mpr rfl)).resolve_left (not_not.mpr ?_)
        omega
      rcases (T l').slots[i'.toNat]? with _ | _ | a
      · rfl
      · rfl
      · exact Attrs.set_ne hname text
    · rfl
  · rw [setEntryAttr]
    split
    · rw [entryAttr, entryAttr]
      split
      · next hpos hpos' =>
        have hl : l' ≠ l := fun hl => hi ⟨hpos, hpos', hl⟩
        rw [Function.update_of_ne hl]
      · rfl
    · rfl

end Entries

end OnuFirmware.Tr181
