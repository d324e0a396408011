import OnuFirmware.Cfg.ReadAttr
import OnuFirmware.Lib.Run
import OnuFirmware.Lib.Slots
import Mathlib.Logic.Function.Basic

/-!
# The interface tables of TR-181 (`cfg_tr181_common.c`)

A table keeps an entry for each WAN or LAN interface, which it names by `pvcIndex` or `lanIndex`. An
entry can be absent, or unbound: `setTR181NodeWanIf` unbinds one by an empty `pvcIndex`. An unbound
entry is used again for a new WAN, but then `Num` counts it a second time; and since `atoi` of an
empty text is 0, it is deleted with the WAN of index 0.
-/

namespace OnuFirmware.Tr181

open Clib Cfg Lib

/-! ## The functions -/

/-- `PVC_INDEX_ATTR`. -/
def pvcIndexAttr : Str := "pvcIndex".toList

/-- `LAN_INDEX_ATTR`. -/
def lanIndexAttr : Str := "lanIndex".toList

/-- `TR181_ENABLE_ATTR`. -/
def enableAttr : Str := "Enable".toList

/-- The attributes of an entry. -/
abbrev Attrs := Str → Option Str

/-- `cfg_obj_set_object_attr` on an entry. -/
def Attrs.set (a : Attrs) (name text : Str) : Attrs := Function.update a name (some text)

/-- A table: entry `i + 1` in slot `i`, and the attribute `Num` of its common node. -/
structure Table where
  nodeName : Str
  slots : List (Option Attrs)
  num : Str

/-- An attribute of an entry; an entry that is absent has none. -/
def readAttr (slot : Option Attrs) (name : Str) : Option Str := slot.bind (· name)

/-- `tr181_interface_s`, without the table. -/
structure Tr181Interface where
  pvcIndex : Int
  lanIndex : Int
  active : Int
deriving Repr, DecidableEq

/-- The variables of the loop in `createTR181InterfaceEntry` that live from one round to the
next. -/
structure ScanVars where
  fisrtEmptyEntry : Option Nat
  lanindex : Str
  pvcindex : Str

/-- The buffer has no index of a LAN interface. -/
def noLan (lanindex : Str) : Bool := lanindex == [] || lanindex == "-1".toList

/-- The two buffers that a round reads first; an entry that is absent leaves them as they were. -/
def ScanVars.read (v : ScanVars) (slot : Option Attrs) : ScanVars :=
  let lanindex := (cfgGetObjectAttr (readAttr slot lanIndexAttr) v.lanindex 4).2
  { v with
    lanindex := lanindex
    pvcindex :=
      if noLan lanindex then (cfgGetObjectAttr (readAttr slot pvcIndexAttr) v.pvcindex 4).2
      else v.pvcindex }

/-- The flag that the entry is the same as one of no WAN. -/
def ScanVars.flag (v : ScanVars) : Bool := noLan v.lanindex && v.pvcindex == "-1".toList

/-- The variables after an entry that can be used for a new one. -/
def ScanVars.asEmpty (v : ScanVars) (i : Nat) : ScanVars :=
  { v with fisrtEmptyEntry := v.fisrtEmptyEntry.or (some i) }

/-- One round of the loop: the variables afterwards, and whether the entry is found. -/
def scanEntry (interface : Tr181Interface) (i : Nat) (slot : Option Attrs) (v : ScanVars) :
    ScanVars × Bool :=
  let v' := v.read slot
  let lan := cfgGetObjectAttr (readAttr slot lanIndexAttr) [] 20
  let pvc := cfgGetObjectAttr (readAttr slot pvcIndexAttr) [] 20
  if 0 ≤ interface.lanIndex ∧ (lan.1 < 0 ∨ lan.2 = [] ∨ v'.flag) then (v'.asEmpty i, false)
  else if 0 ≤ interface.lanIndex ∧ atoi lan.2 = interface.lanIndex then (v', true)
  else if 0 ≤ interface.pvcIndex ∧ (pvc.1 < 0 ∨ pvc.2 = [] ∨ v'.flag) then (v'.asEmpty i, false)
  else if 0 ≤ interface.pvcIndex ∧ atoi pvc.2 = interface.pvcIndex then (v', true)
  else (v', false)

/-- The loop of `createTR181InterfaceEntry`: the index and whether the entry exists. -/
def scanEntries (interface : Tr181Interface) :
    Nat → ScanVars → List (Option Attrs) → Option (Nat × Bool)
  | _, v, [] => v.fisrtEmptyEntry.map (·, false)
  | i, v, slot :: slots =>
    let r := scanEntry interface i slot v
    if r.2 then some (i, true) else scanEntries interface (i + 1) r.1 slots

/-- The attributes that `createTR181InterfaceEntry` writes. -/
def writeIndexes (interface : Tr181Interface) (a : Attrs) : Attrs :=
  ((a.set enableAttr (snprintf 20 (fmtInt interface.active))).set pvcIndexAttr
    (if interface.lanIndex = 0 then "-1".toList else snprintf 20 (fmtInt interface.pvcIndex))).set
    lanIndexAttr (snprintf 20 (fmtInt interface.lanIndex))

/-- `Num` with `d` added: the number is printed into four bytes. -/
def addNum (num : Str) (d : Int) : Str := snprintf 4 (fmtInt (atoi (snprintf 20 num) + d))

/-- The tables of Wi-Fi, whose entry is not the one that was looked for. -/
def wifiNodes : List Str :=
  ["root.wifiap".toList, "root.wifissid".toList, "root.wifiapwps".toList]

/-- `createTR181InterfaceEntry`: the table afterwards and the returned index; `wlanStart` is
`LAN_INDEX_WLAN_START`. -/
def createTR181InterfaceEntry (wlanStart : Int) (t : Table) (interface : Tr181Interface) :
    Table × Int :=
  match scanEntries interface 0 ⟨none, [], []⟩ t.slots with
  | none => (t, -1)
  | some (i, existFlag) =>
    let index : Int := if t.nodeName ∈ wifiNodes then interface.lanIndex - wlanStart else i
    let num := if existFlag then t.num else addNum t.num 1
    let slots :=
      if index < 0 then t.slots
      else t.slots.modify index.toNat fun slot =>
        some (writeIndexes interface (slot.getD fun _ => none))
    ({ t with slots := slots, num := num }, index)

/-- Whether the entry has the index of a WAN, as `atoi` reads it into `size` bytes. -/
def hasWanIf (size : Nat) (wanIf : Int) (slot : Option Attrs) : Bool :=
  match readAttr slot pvcIndexAttr with
  | none => false
  | some t => atoi (snprintf size t) == wanIf

/-- The loop of `clearTR181InterfaceNodeByWanIf`: the slots and `Num` afterwards. -/
def clearEntries (wanIf : Int) : List (Option Attrs) → Str → List (Option Attrs) × Str
  | [], num => ([], num)
  | slot :: slots, num =>
    if hasWanIf 20 wanIf slot then
      let r := clearEntries wanIf slots (addNum num (-1))
      (none :: r.1, r.2)
    else
      let r := clearEntries wanIf slots num
      (slot :: r.1, r.2)

/-- `clearTR181InterfaceNodeByWanIf`. The addresses of an IP interface, which it deletes too, are
not part of the table. -/
def clearTR181InterfaceNodeByWanIf (t : Table) (wanIf : Int) : Table :=
  let r := clearEntries wanIf t.slots t.num
  { t with slots := r.1, num := r.2 }

/-- `clearTR181InterfaceNode`: the cleared table. -/
def clearTR181InterfaceNode (t : Table) : Table :=
  { t with slots := List.replicate t.slots.length none, num := "0".toList }

/-- One round of `setTR181NodeWanIf`. -/
def rebind (oldWanIf newWanIf : Int) (slot : Option Attrs) : Option Attrs :=
  if readAttr slot pvcIndexAttr ≠ some [] ∧ hasWanIf 8 oldWanIf slot then
    slot.map fun a => a.set pvcIndexAttr
      (if newWanIf < 0 then [] else snprintf 8 (fmtInt newWanIf))
  else slot

/-- `setTR181NodeWanIf` from the entry `start + 1` on. -/
def setTR181NodeWanIf (t : Table) (start : Nat) (oldWanIf newWanIf : Int) : Table :=
  if oldWanIf < 0 then t
  else
    { t with slots := t.slots.take start ++ (t.slots.drop start).map (rebind oldWanIf newWanIf) }

end OnuFirmware.Tr181
