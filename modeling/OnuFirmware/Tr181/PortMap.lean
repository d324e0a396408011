import OnuFirmware.Cfg.ReadAttr
import OnuFirmware.Lib.BackLink
import Mathlib.Data.Finset.Insert

/-!
# Virtual servers and port mappings (`cfg_type_NatPortMap.c`)

A virtual server and a port mapping stand for each other. The virtual server holds the index of its
port mapping, the port mapping the indices of its virtual server. Indices count from 0 where they
are stored and from 1 in the names of the nodes and in most arguments, and two of the four searches
compare the one with the other.
-/

namespace OnuFirmware.Tr181

open Clib Cfg Lib

/-! ## Tables -/

/-- `MAX_VIRSERV_RULE`. -/
def maxVirservRule : Nat := 10

/-- `TR181_NATPORTMAPPING_NUM`, which is `MAX_WAN_IF_INDEX * MAX_VIRSERV_RULE`. -/
def natPortMappingNum : Nat := 64 * maxVirservRule

/-- A virtual server. `PMEntryIdx` is printed from the index of a port mapping. -/
structure VirServer where
  active : Option Str := none
  mapName : Option Str := none
  localIP : Option Str := none
  startPort : Option Str := none
  endPort : Option Str := none
  srcIP : Option Str := none
  protocal : Option Str := none
  pmEntryIdx : Option Nat := none
deriving Repr, DecidableEq

/-- A port mapping. -/
structure PortMap where
  active : Option Str := none
  descrip : Option Str := none
  localIP : Option Str := none
  startPort : Option Str := none
  endPort : Option Str := none
  remoteIP : Option Str := none
  protocol : Option Str := none
  interface : Option Str := none
  pvcIndex : Option Int := none
  vsEntryIdx : Option Int := none
deriving Repr, DecidableEq

/-- The tables, by the numbers in the names of the nodes, and `Num`. The numbers of the port
mappings that updates of virtual servers have created are kept for the statement only. -/
structure NatState where
  vs : Int × Int → Option VirServer
  pm : Int → Option PortMap
  num : Int
  made : Finset Int

/-- The rest of the configuration: the WAN of each IP entry, and the names of the WAN devices. -/
structure NatEnv where
  ipPvc : Int → Option Int
  ifName : Int → Option Str
  ipPvc_lt : ∀ n a, ipPvc n = some a → a < 64

/-- `cfg_obj_set_object_attr` and the like on a port mapping. -/
def NatState.setPm (s : NatState) (q : Int) (e : Option PortMap) : NatState :=
  { s with pm := Function.update s.pm q e }

/-- The same on a virtual server. -/
def NatState.setVs (s : NatState) (v : Int × Int) (e : Option VirServer) : NatState :=
  { s with vs := Function.update s.vs v e }

/-- A port mapping is created for a virtual server. -/
def NatState.makePm (s : NatState) (q : Int) : NatState :=
  { s.setPm q (some {}) with made := insert q s.made }

/-- A port mapping is deleted. -/
def NatState.dropPm (s : NatState) (q : Int) : NatState :=
  { s.setPm q none with made := s.made.erase q }

/-- `atoi` of an index; 0 if there is none. -/
def readIdx (idx : Option Int) : Int := idx.getD 0

/-! ## From the virtual server to the port mapping -/

/-- An attribute is copied through `char tmp[256]` if it is not empty. -/
def copyText (src dst : Option Str) : Option Str :=
  if attrText src 256 [] = [] then dst else some (attrText src 256 [])

/-- `getTR181NodeEntryIdxByWanIf` on the IP entries. -/
def ipEntryIdx (env : NatEnv) (wanIf : Int) : Int :=
  match (List.range 65).find? fun i : Nat => env.ipPvc (i + 1) = some wanIf with
  | some i => i
  | none => -1

/-- The attributes that `moveVirServerNodeToPortMap` sets in the port mapping. -/
def fromVirServer (env : NatEnv) (v : Int × Int) (e : Option VirServer) (p : PortMap) : PortMap :=
  { p with
    descrip := copyText (e.bind (·.mapName)) p.descrip
    interface := some ("Device.IP.Interface.".toList ++ fmtInt (ipEntryIdx env (v.1 - 1) + 1))
    pvcIndex := some (v.1 - 1)
    vsEntryIdx := some (v.2 - 1)
    localIP := copyText (e.bind (·.localIP)) p.localIP
    startPort := copyText (e.bind (·.startPort)) p.startPort
    endPort := copyText (e.bind (·.endPort)) p.endPort
    active := copyText (e.bind (·.active)) p.active
    remoteIP := copyText (e.bind (·.srcIP)) p.remoteIP
    protocol := copyText (e.bind (·.protocal)) p.protocol }

/-- `moveVirServerNodeToPortMap`. -/
def moveVirServerNodeToPortMap (env : NatEnv) (v : Int × Int) (portMapEntryNum : Nat)
    (s : NatState) : NatState :=
  let q : Int := portMapEntryNum + 1
  let s := if (s.pm q).isSome then s else { s.makePm q with num := s.num + 1 }
  let s := s.setPm q ((s.pm q).map (fromVirServer env v (s.vs v)))
  s.setVs v ((s.vs v).map fun e => { e with pmEntryIdx := some portMapEntryNum })

/-- The first index whose port mapping passes a test. -/
def findPm (s : NatState) (test : Option PortMap → Bool) : Option Nat :=
  (List.range natPortMappingNum).find? fun i : Nat => test (s.pm (i + 1))

/-- Both indices of a port mapping are there, and `test` holds of them. -/
def linkTest (test : Int → Int → Bool) (e : Option PortMap) : Bool :=
  match e.bind (·.pvcIndex), e.bind (·.vsEntryIdx) with
  | some a, some b => test a b
  | _, _ => false

/-- `createPortMappingEntry`: the index, or `none` for -1. -/
def createPortMappingEntry (v : Int × Int) (s : NatState) : Option (Nat × NatState) :=
  let isEmpty := fun e : Option PortMap => (e.bind (·.active)).isNone
  let exist := findPm s fun e => !isEmpty e && readIdx (e.bind (·.pvcIndex)) == v.1 &&
    readIdx (e.bind (·.vsEntryIdx)) == v.2
  match exist.or (findPm s isEmpty) with
  | none => none
  | some index =>
    let q : Int := index + 1
    let s := if (s.pm q).isSome then s else s.makePm q
    let s := s.setPm q ((s.pm q).map fun p =>
      { p with active := some "Yes".toList, pvcIndex := some (v.1 - 1) })
    some (index, if exist.isSome then s else { s with num := s.num + 1 })

/-- `updatePortMapNodeByIdx`. -/
def updatePortMapNodeByIdx (env : NatEnv) (v : Int × Int) (s : NatState) : NatState :=
  match s.vs v with
  | none => s
  | some e =>
    if e.active = none then s
    else
      match e.pmEntryIdx with
      | some n => moveVirServerNodeToPortMap env v n s
      | none =>
        match findPm s (linkTest fun a b => a + 1 == v.1 && b + 1 == v.2) with
        | some i => moveVirServerNodeToPortMap env v i s
        | none =>
          match createPortMappingEntry v s with
          | none => s
          | some (index, s) => moveVirServerNodeToPortMap env v index s

/-- `ClearPortMapNodeByIdx`. -/
def clearPortMapNodeByIdx (v : Int × Int) (s : NatState) : NatState :=
  match (s.vs v).bind (·.pmEntryIdx) with
  | some n =>
    if (s.pm (n + 1)).isSome then { s.dropPm (n + 1) with num := s.num - 1 } else s
  | none =>
    match findPm s (linkTest fun a b => a == v.1 && b == v.2) with
    | some i => { s.dropPm (i + 1) with num := s.num - 1 }
    | none => s

/-! ## From the port mapping to the virtual server -/

/-- An attribute is copied through a buffer if it is there. -/
def copyAttr (size : Nat) (src dst : Option Str) : Option Str :=
  if src = none then dst else some (attrText src size [])

/-- The attributes that `movePortMapNodeToVirServer` sets in the virtual server. -/
def toVirServer (p : PortMap) (portMapEntryNum : Int) (e : VirServer) : VirServer :=
  { e with
    mapName := copyAttr 256 p.descrip e.mapName
    srcIP := copyAttr 256 p.remoteIP e.srcIP
    startPort := copyAttr 32 p.startPort e.startPort
    endPort := if attrText p.endPort 256 [] = "0".toList then some (attrText p.startPort 32 [])
      else copyAttr 256 p.endPort e.endPort
    localIP := copyAttr 256 p.localIP e.localIP
    protocal := copyAttr 256 p.protocol e.protocal
    active := copyAttr 256 p.active e.active
    pmEntryIdx := some (portMapEntryNum - 1).toNat }

/-- `movePortMapNodeToVirServer`. The commit of the virtual server at the end sends an event only. -/
def movePortMapNodeToVirServer (env : NatEnv) (vsPvcIndex vsEntryIndex portMapEntryNum : Int)
    (s : NatState) : NatState :=
  let v := (vsPvcIndex + 1, vsEntryIndex + 1)
  let s := if (s.vs v).isSome then s else s.setVs v (some {})
  if attrText (env.ifName vsPvcIndex) 256 [] = [] then s
  else
    let s := s.setPm portMapEntryNum ((s.pm portMapEntryNum).map fun p =>
      { p with pvcIndex := some vsPvcIndex, vsEntryIdx := some vsEntryIndex })
    s.setVs v ((s.vs v).map
      (toVirServer ((s.pm portMapEntryNum).getD {}) portMapEntryNum))

/-- The first rule of a WAN without a local address. -/
def freeRule (s : NatState) (ipPvcIdx : Int) : Option Nat :=
  (List.range maxVirservRule).find? fun i : Nat =>
    ((s.vs (ipPvcIdx + 1, i + 1)).bind (·.localIP)).isNone

/-- `findVirServerByIPPvcIdx`. -/
def findVirServerByIPPvcIdx (env : NatEnv) (pmEntryIdx ipPvcIdx : Int) (s : NatState) : NatState :=
  match freeRule s ipPvcIdx with
  | none => s
  | some i => movePortMapNodeToVirServer env ipPvcIdx i pmEntryIdx s

/-- The index of the WAN that `Interface` names; `char ipInterface[32]` was cleared. -/
def interfacePvc (env : NatEnv) (p : PortMap) : Int :=
  readIdx (env.ipPvc (atoi ((attrText p.interface 32 []).drop "Device.IP.Interface.".toList.length)))

/-- The port mapping is complete, so that it is carried over. -/
def isComplete (p : PortMap) : Bool :=
  attrText p.interface 32 [] != [] && attrText p.active 64 [] == "Yes".toList &&
    attrText p.localIP 64 [] != []

/-- `syncVirServer2` on the port mapping with a number. -/
def syncVirServer2 (env : NatEnv) (pmEntryIdx : Int) (s : NatState) : NatState :=
  match s.pm pmEntryIdx with
  | none => s
  | some p =>
    if pmEntryIdx < 1 ∨ isComplete p = false ∨ interfacePvc env p < 0 then s
    else
      let ipPvcIdx := interfacePvc env p
      match p.pvcIndex, p.vsEntryIdx with
      | some a, some b =>
        if ipPvcIdx = a then movePortMapNodeToVirServer env ipPvcIdx b pmEntryIdx s
        else findVirServerByIPPvcIdx env pmEntryIdx ipPvcIdx (s.setVs (a + 1, b + 1) none)
      | _, _ => findVirServerByIPPvcIdx env pmEntryIdx ipPvcIdx s

/-- `cfg_type_natportmap_entry_func_delete`. -/
def natPortMapDelete (pmEntryIdx : Int) (s : NatState) : NatState :=
  let pvcIdx := readIdx ((s.pm pmEntryIdx).bind (·.pvcIndex))
  let etyIdx := readIdx ((s.pm pmEntryIdx).bind (·.vsEntryIdx))
  let s := if 0 ≤ pvcIdx ∧ 0 ≤ etyIdx then s.setVs (pvcIdx + 1, etyIdx + 1) none else s
  s.dropPm pmEntryIdx

/-! ## Runs -/

/-- The numbers that a virtual server can have: those of its WAN and of the rule. -/
abbrev VsKey := { v : Int × Int // 1 ≤ v.1 ∧ v.1 ≤ 64 ∧ 1 ≤ v.2 ∧ v.2 ≤ maxVirservRule }

/-- The number that a port mapping can have. -/
abbrev PmKey := { q : Int // 1 ≤ q ∧ q ≤ natPortMappingNum }

/-- What happens to the tables. -/
inductive NatEvent
  /-- A virtual server is created or changed and committed. -/
  | update (env : NatEnv) (v : VsKey) (attrs : VirServer)
  /-- A virtual server is removed. -/
  | remove (v : VsKey)
  /-- A port mapping is created or changed and committed. -/
  | sync (env : NatEnv) (q : PmKey) (attrs : PortMap)
  /-- A port mapping is deleted. -/
  | delete (q : PmKey)

/-- The port mapping that a virtual server names. -/
def NatState.link (s : NatState) (v : Int × Int) : Option Nat := (s.vs v).bind (·.pmEntryIdx)

/-- One event. The links are not among the attributes that are changed from outside. -/
def natStep (s : NatState) : NatEvent → NatState
  | .update env v attrs =>
    updatePortMapNodeByIdx env v.1 (s.setVs v.1 (some { attrs with pmEntryIdx := s.link v.1 }))
  | .remove v => (clearPortMapNodeByIdx v.1 s).setVs v.1 none
  | .sync env q attrs =>
    syncVirServer2 env q.1 (s.setPm q.1 (some { attrs with
      pvcIndex := (s.pm q.1).bind (·.pvcIndex), vsEntryIdx := (s.pm q.1).bind (·.vsEntryIdx) }))
  | .delete q => natPortMapDelete q.1 s

/-! ## Statement -/

/-- The virtual server whose indices a port mapping holds. -/
def backOf (e : Option PortMap) : Option (Int × Int) :=
  match e.bind (·.pvcIndex), e.bind (·.vsEntryIdx) with
  | some a, some b => some (a + 1, b + 1)
  | _, _ => none

/-- The virtual server whose indices the port mapping with an index holds. -/
def NatState.back (s : NatState) (n : Nat) : Option (Int × Int) := backOf (s.pm (n + 1))

/-- The virtual server names the port mapping with a number. -/
def Names (s : NatState) (v : Int × Int) (q : Int) : Prop := ∃ n : Nat, q = n + 1 ∧ s.link v = some n

/-- The links are inverse, and `Num` has grown by the port mappings that updates have created. -/
structure NatRight (num : Int) (s : NatState) : Prop where
  inverse : ∀ v n, s.link v = some n → ∃ p, s.pm (n + 1) = some p ∧
    p.pvcIndex = some (v.1 - 1) ∧ p.vsEntryIdx = some (v.2 - 1)
  unique : ∀ v v' n, s.link v = some n → s.link v' = some n → v = v'
  num_eq : s.num = num + s.made.card

/-- An event changes nothing but a virtual server and a port mapping that belong together. -/
def NatFrame (s s' : NatState) : NatEvent → Prop
  | .update _ v _ => (∀ v' ≠ v.1, s'.vs v' = s.vs v') ∧
    ∀ q, s'.pm q ≠ s.pm q → Names s' v.1 q ∧ ∀ v', Names s v' q → v' = v.1
  | .remove v => (∀ v' ≠ v.1, s'.vs v' = s.vs v') ∧ ∀ q, s'.pm q ≠ s.pm q → Names s v.1 q
  | .sync _ q _ => (∀ q' ≠ q.1, s'.pm q' = s.pm q') ∧ ∀ v, s'.vs v ≠ s.vs v →
    Names s v q.1 ∨ s.link v = none ∧ (Names s' v q.1 ∨ s.vs v = none)
  | .delete q => (∀ q' ≠ q.1, s'.pm q' = s.pm q') ∧ ∀ v, s'.vs v ≠ s.vs v → Names s v q.1

/-- Tables without links. -/
structure Unlinked (s : NatState) : Prop where
  vs : ∀ v, s.link v = none
  pm : ∀ q p, s.pm q = some p → p.pvcIndex = none ∧ p.vsEntryIdx = none
  made : s.made = ∅

/-- There is no virtual server, or it names the port mapping. -/
def OwnOrNone (s : NatState) (v : Int × Int) (q : Int) : Prop := s.vs v = none ∨ Names s v q

/-- The rule that is chosen for a port mapping belongs to no other one. -/
def FreeOk (s : NatState) (ipPvcIdx : Int) : Prop :=
  ∀ i, freeRule s ipPvcIdx = some i → s.link (ipPvcIdx + 1, i + 1) = none

/-- When an event keeps the links. -/
def NatCond (s : NatState) : NatEvent → Prop
  | .update _ v attrs => attrs.active ≠ none → s.link v.1 = none →
    (∀ i < natPortMappingNum, s.back i ≠ some v.1) →
      s.link (v.1.1 + 1, v.1.2 + 1) = none ∧
      ∀ i < natPortMappingNum, (s.pm (i + 1)).bind (·.active) = none →
        ∃ j ≤ i, s.pm (j + 1) = none
  | .remove v =>
    match s.link v.1 with
    | some n => (n + 1 : Int) ∈ s.made
    | none => ∀ i < natPortMappingNum, s.back i ≠ some (v.1.1 + 1, v.1.2 + 1)
  | .sync env q attrs => isComplete attrs = true → 0 ≤ interfacePvc env attrs →
    match (s.pm q.1).bind (·.pvcIndex), (s.pm q.1).bind (·.vsEntryIdx) with
    | some a, some b =>
      if interfacePvc env attrs = a then s.link (a + 1, b + 1) = none ∨ Names s (a + 1, b + 1) q.1
      else OwnOrNone s (a + 1, b + 1) q.1 ∧ FreeOk s (interfacePvc env attrs)
    | _, _ => FreeOk s (interfacePvc env attrs)
  | .delete q => OwnOrNone s (readIdx ((s.pm q.1).bind (·.pvcIndex)) + 1,
      readIdx ((s.pm q.1).bind (·.vsEntryIdx)) + 1) q.1 ∧ q.1 ∉ s.made

end OnuFirmware.Tr181
