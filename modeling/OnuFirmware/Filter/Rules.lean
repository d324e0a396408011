import OnuFirmware.Clib.Num
import OnuFirmware.Cfg.AttrWrite

/-!
# Filter rules and their TR-181 chains (`cfg_type_ipmacfilter.c`, `cfg_type_firewallch.c`)

The entries of `root.ipmacfilter` and `root.acl` are shown once more as entries of the chains
`root.firewallch.pvc.1` to `.4`: MAC rules, IP rules upwards, IP rules downwards and access control.
The first three take consecutive ranges of the filter entries. Deleting an entry on one side deletes
its twin on the other; a deletion on the chain side ends with a commit of the filters, which is told
by the attribute `CommitFromTR181` not to fill the chains again. In the build with the E8 pages a
commit of the filters also deletes the entries whose numbers the attribute `DeleteIndex` lists.
-/

namespace OnuFirmware.Filter

open Clib Cfg

/-! ## Sizes and paths -/

/-- The compile switches that size the tables, and `TCSUPPORT_CT_E8GUI`. -/
structure Build where
  andlink : Bool
  joyme4 : Bool
  e8gui : Bool
deriving Repr, DecidableEq

/-- `MAX_MAC_FILTER_RULE`. -/
def Build.maxMacFilterRule (b : Build) : Nat := if b.andlink then 40 else 100

/-- `MAX_IPUP_FILTER_RULE`. -/
def Build.maxIpupFilterRule (b : Build) : Nat := if b.joyme4 then 40 else 100

/-- `MAX_IPMACFILTER_RULE`. -/
def Build.maxIpmacfilterRule (b : Build) : Nat := 2 * b.maxMacFilterRule + b.maxMacFilterRule

/-- `TR181_FIREWALL_CHAIN_ENTRY_NUM`. -/
def Build.tr181FirewallChainEntryNum (b : Build) : Nat := b.maxMacFilterRule

def macFilterRuleFlag : Nat := 1
def ipUpFilterRuleFlag : Nat := 2
def ipDownFilterRuleFlag : Nat := 3
def aclFilterRuleFlag : Nat := 4

/-- `MAXLEN_NODE_NAME`. -/
def maxlenNodeName : Nat := 64

def ipmacfilterNode : Str := "root.ipmacfilter".toList
def ipmacfilterCommonNode : Str := "root.ipmacfilter.common".toList
def aclNode : Str := "root.acl".toList
def globalstateNode : Str := "root.globalstate".toList
def globalstateCommonNode : Str := "root.globalstate.common".toList
def webcursetEntryNode : Str := "root.webcurset.entry".toList

/-- `IPMACFILTER_ENTRY_N_NODE`, printed. -/
def ipmacfilterEntryNNode (n : Int) : Str := "root.ipmacfilter.entry.".toList ++ fmtInt n

/-- `ACL_ENTRY_N_NODE`, printed. -/
def aclEntryNNode (n : Int) : Str := "root.acl.entry.".toList ++ fmtInt n

/-- `TR181_FIREWALLCH_PVC_ENTRY_NODE`, printed. -/
def tr181FirewallchPvcEntryNode (pvc entry : Int) : Str :=
  "root.firewallch.pvc.".toList ++ fmtInt pvc ++ ".entry.".toList ++ fmtInt entry

/-- `get_entry_number_cfg2`. -/
def getEntryNumberCfg2 (buffer keyword : Str) : Option Int := (strstrRest keyword buffer).map atoi

/-! ## Deleting a filter entry -/

section Delete

variable (b : Build) (tt : TypeTree)

/-- `nodeName` in `deleteFirewallChNodeByIpmacfilterNode`, which starts out empty. -/
def firewallChNodeName (entryIdx : Int) : Str :=
  let m : Int := b.maxMacFilterRule
  let u : Int := b.maxIpupFilterRule
  if 0 < entryIdx ∧ entryIdx < m then
    snprintf maxlenNodeName (tr181FirewallchPvcEntryNode macFilterRuleFlag entryIdx)
  else if m < entryIdx ∧ entryIdx < m + u then
    snprintf maxlenNodeName (tr181FirewallchPvcEntryNode ipUpFilterRuleFlag (entryIdx - m))
  else if m + u < entryIdx ∧ entryIdx < b.maxIpmacfilterRule then
    snprintf maxlenNodeName (tr181FirewallchPvcEntryNode ipDownFilterRuleFlag (entryIdx - m - u))
  else []

/-- `deleteFirewallChNodeByIpmacfilterNode`. -/
def deleteFirewallChNodeByIpmacfilterNode (st : ObjState) (path : Str) :
    Except Fault (Int × ObjState) :=
  match getEntryNumberCfg2 path "entry.".toList with
  | none => .ok (-1, st)
  | some entryIdx => do
    let r ← cfgObjDeleteObject tt st (firewallChNodeName b entryIdx)
    .ok (0, r.2)

/-- `cfg_type_ipmacfilter_entry_func_delete`. -/
def cfgTypeIpmacfilterEntryFuncDelete (st : ObjState) (path : Str) :
    Except Fault (Int × ObjState) := do
  let r ← deleteFirewallChNodeByIpmacfilterNode b tt st path
  cfgObjDeleteObject tt r.2 path

end Delete

/-! ## The filter scripts -/

/-- What a commit depends on besides the tree: which lock files, filter scripts and files for the
counted entries can be opened, and how the chains are filled from the filters. -/
structure Env where
  lock : Str → Bool
  script : Nat → Bool
  tmpFile : Nat → Bool
  updateFireWallChByIpmacfilter : ObjState → Except Fault ObjState
  updateFireWallChByAclfilter : ObjState → Except Fault ObjState

/-! The values of `mac_ip`: `0` for the MAC rules, `1` for the IP rules upwards, `2` downwards. -/

def listTypeAttr : Nat → Str
  | 0 => "ListTypeMac".toList
  | 1 => "ListTypeIpUp".toList
  | _ => "ListTypeIpDown".toList

def onOffAttr : Nat → Str
  | 0 => "ActiveMac".toList
  | 1 => "ActivePortOut".toList
  | _ => "ActivePortIn".toList

def numAttr : Nat → Str
  | 0 => "mac_num".toList
  | 1 => "ipup_num".toList
  | _ => "ipdown_num".toList

def addNumAttr : Nat → Str
  | 0 => "add_macnum".toList
  | 1 => "add_ipupnum".toList
  | _ => "add_ipdownnum".toList

/-- `start_index` to `end_index`. -/
def Build.indexes (b : Build) : Nat → List Nat
  | 0 => List.range b.maxMacFilterRule
  | 1 => List.range' b.maxMacFilterRule b.maxIpupFilterRule
  | _ =>
    let start := b.maxMacFilterRule + b.maxIpupFilterRule
    List.range' start (b.maxIpmacfilterRule - start)

section Scripts

variable (b : Build) (env : Env) (tt : TypeTree)

/-- `cfg_delete_object`, with the delete function of the type. -/
def cfgDeleteObject (delete : ObjState → Str → Except Fault (Int × ObjState)) (st : ObjState)
    (path : Str) : Except Fault (Int × ObjState) := do
  match ← cfgTypeQuery tt path with
  | none => .ok (-1, st)
  | some _ => delete st path

/-- What `unset_action` takes up: the texts before the commas, up to the first that is empty, as far
as they fit into `strnum`. -/
def unsetItems (pstr : Str) : List Str :=
  ((pstr.splitOn ',').dropLast.takeWhile (· ≠ [])).map (·.take 4)

/-- One turn of `unset_action` for `DEL_IP`. -/
def unsetItem (st : ObjState) (strnum : Str) : Except Fault ObjState := do
  let st ← cfgSetObjectAttr tt st webcursetEntryNode "ipfilter_id".toList strnum
  let r ← cfgDeleteObject tt (cfgTypeIpmacfilterEntryFuncDelete b tt) st
    (ipmacfilterEntryNNode (atoi strnum + 1))
  .ok r.2

/-- `unset_action` for `DEL_IP`. -/
def unsetAction (st : ObjState) (pstr : Str) : Except Fault ObjState :=
  (unsetItems pstr).foldlM (unsetItem b tt) st

/-- `DeleteFilterIndex`. -/
def deleteFilterIndex (st : ObjState) : Except Fault ObjState := do
  let pAttr ← cfgObjGetObjectAttr tt st ipmacfilterCommonNode "Action".toList 400
  if pAttr.2 = "Del".toList then
    let strDel ← cfgObjGetObjectAttr tt st ipmacfilterCommonNode "DeleteIndex".toList 400
    -- an empty text has no items
    unsetAction b tt st strDel.2
  else .ok st

/-- One turn of the loop of `cfg_type_ipmacfilter_entry_func_get`, with `norecord` and
`static_ip_index`. -/
def countEntry (macIp : Nat) (acc : ObjState × Bool × Nat) (i : Nat) :
    Except Fault (ObjState × Bool × Nat) := do
  let r ← cfgObjQueryObject tt acc.1 (ipmacfilterEntryNNode (i + 1)) none
  if 0 < r.1 then .ok (acc.1, acc.2.1, acc.2.2 + 1)
  else if acc.2.1 then .ok acc
  else
    let st ← cfgSetObjectAttr tt acc.1 ipmacfilterNode (addNumAttr macIp)
      (snprintf 4 (fmtInt i))
    .ok (st, true, acc.2.2)

/-- `cfg_type_ipmacfilter_entry_func_get` for a counter of entries. -/
def cfgTypeIpmacfilterEntryFuncGet (st : ObjState) (macIp : Nat) : Except Fault ObjState := do
  let r ← cfgObjQueryObject tt st ipmacfilterNode none
  if r.1 ≤ 0 ∨ env.tmpFile macIp = false then .ok st
  else
    let acc ← (b.indexes macIp).foldlM (countEntry tt macIp) (st, false, 0)
    cfgSetObjectAttr tt acc.1 ipmacfilterNode (numAttr macIp) (snprintf 4 (fmtInt acc.2.2))

/-- `getfiltertype`; `none` is `FAIL`. -/
def filterTypeOf (macIpType : Str) : Option Nat :=
  if macIpType = "Mac".toList then some 0
  else if macIpType = "IpUp".toList then some 1
  else if macIpType = "IpDown".toList then some 2
  else none

/-- The list types with a target. -/
def listTypeKnown (listType : Str) : Bool :=
  strcasecmpEq listType "black".toList || strcasecmpEq listType "white".toList

/-- What follows the label `ip_mac_handle` in `svc_wan_related_ipmacfilter_write`, as far as it
changes the tree; `true` where the function returns even while `g_ip_mac_flag` is not set. -/
def ipMacHandle (st : ObjState) (macIp : Nat) : Except Fault (Bool × ObjState) := do
  let listType ← cfgObjGetObjectAttr tt st ipmacfilterCommonNode (listTypeAttr macIp) 8
  if listTypeKnown listType.2 = false then .ok (false, st)
  else if b.e8gui then
    let onOff ← cfgObjGetObjectAttr tt st ipmacfilterCommonNode (onOffAttr macIp) 8
    let st ← deleteFilterIndex b tt st
    let delOnly ← cfgObjGetObjectAttr tt st ipmacfilterCommonNode "DelOnly".toList 8
    if delOnly.2 = "Yes".toList then
      let st ← cfgSetObjectAttr tt st ipmacfilterCommonNode "DelOnly".toList "No".toList
      .ok (true, st)
    else if env.script macIp ∧ onOff.2.head? = some '1' ∧
        strcasecmpEq listType.2 "white".toList then
      let st ← cfgTypeIpmacfilterEntryFuncGet b env tt st macIp
      .ok (false, st)
    else .ok (false, st)
  -- without these pages the switch stays empty, and the entries are not counted
  else .ok (false, st)

/-- The turns while `g_ip_mac_flag` is not set. -/
def ipMacHandles : List Nat → ObjState → Except Fault ObjState
  | [], st => cfgSetObjectAttr tt st globalstateNode "g_ip_mac_flag".toList "1".toList
  | macIp :: rest, st => do
    let r ← ipMacHandle b env tt st macIp
    if r.1 then .ok r.2 else ipMacHandles rest r.2

/-- `svc_wan_related_ipmacfilter_write`, as far as it changes the tree. -/
def svcWanRelatedIpmacfilterWrite (st : ObjState) : Except Fault ObjState := do
  let flag ← cfgObjGetObjectAttr tt st globalstateNode "g_ip_mac_flag".toList 2
  let common ← cfgObjQueryObject tt st ipmacfilterCommonNode none
  if common.1 ≤ 0 then .ok st
  else if atoi flag.2 = 1 then
    let macIpType ← cfgObjGetObjectAttr tt st ipmacfilterCommonNode "IpMacType".toList 8
    match filterTypeOf macIpType.2 with
    | none => .ok st
    | some macIp => (ipMacHandle b env tt st macIp).map Prod.snd
  else if atoi flag.2 = 0 then ipMacHandles b env tt [0, 1, 2] st
  -- `mac_ip` stays `-1`
  else .ok st

end Scripts

/-! ## Commits -/

section Commit

variable (b : Build) (env : Env) (tt : TypeTree)

/-- `updateFireWallChByNodeFlag`, with the function that it calls for the flag. -/
def updateFireWallChByNodeFlag (update : ObjState → Except Fault ObjState) (st : ObjState) :
    Except Fault ObjState := do
  let buf ← cfgObjGetObjectAttr tt st globalstateCommonNode "CommitFromTR181".toList 8
  if buf.2 ≠ "1".toList then update st else .ok st

/-- `cfg_type_ipmacfilter_entry_commit`, up to the event that it sends. -/
def cfgTypeIpmacfilterEntryCommit (st : ObjState) : Except Fault ObjState := do
  let st ← svcWanRelatedIpmacfilterWrite b env tt st
  updateFireWallChByNodeFlag tt env.updateFireWallChByIpmacfilter st

/-- `cfg_type_acl_commit`, up to the event that it sends. -/
def cfgTypeAclCommit (st : ObjState) : Except Fault ObjState :=
  updateFireWallChByNodeFlag tt env.updateFireWallChByAclfilter st

/-- `cfg_commit_object`, with the commit function of the type. -/
def cfgCommitObject (commit : ObjState → Except Fault ObjState) (st : ObjState) (path : Str) :
    Except Fault ObjState := do
  match ← cfgTypeQuery tt path with
  | none => .ok st
  | some _ => if env.lock path then commit st else .ok st

/-- `cfg_tr181_commit_object`. -/
def cfgTr181CommitObject (commit : ObjState → Except Fault ObjState) (st : ObjState) (node : Str) :
    Except Fault ObjState := do
  let r ← cfgObjSetObjectAttr tt st globalstateCommonNode "CommitFromTR181".toList "1".toList
  let st ← cfgCommitObject env tt commit r.2 node
  let r ← cfgObjSetObjectAttr tt st globalstateCommonNode "CommitFromTR181".toList "0".toList
  .ok r.2

end Commit

/-! ## Deleting on the chain side -/

section Chains

variable (b : Build) (env : Env) (tt : TypeTree)

/-- `nodeName` in `deleteIpmacfilterNodeRangeByPvcIdx` and `deleteIpmacfilterNodeEntryByPvcIdx`. -/
def ipmacfilterNodeName (pvcIdx : Nat) (entryIdx : Int) : Str :=
  if pvcIdx = macFilterRuleFlag then
    snprintf maxlenNodeName (ipmacfilterEntryNNode entryIdx)
  else if pvcIdx = ipUpFilterRuleFlag then
    snprintf maxlenNodeName (ipmacfilterEntryNNode (entryIdx + b.maxMacFilterRule))
  else if pvcIdx = ipDownFilterRuleFlag then
    snprintf maxlenNodeName
      (ipmacfilterEntryNNode (entryIdx + b.maxMacFilterRule + b.maxIpupFilterRule))
  else []

/-- Deletes objects one after the other. -/
def deleteObjects (st : ObjState) (paths : List Str) : Except Fault ObjState :=
  paths.foldlM (fun st path => (cfgObjDeleteObject tt st path).map Prod.snd) st

/-- `1` to `TR181_FIREWALL_CHAIN_ENTRY_NUM`. -/
def chainEntries : List Nat := List.range' 1 b.tr181FirewallChainEntryNum

/-- `deleteIpmacfilterNodeRangeByPvcIdx`. -/
def deleteIpmacfilterNodeRangeByPvcIdx (st : ObjState) (pvcIdx : Nat) : Except Fault ObjState := do
  let st ← deleteObjects tt st ((chainEntries b).map fun i : Nat => ipmacfilterNodeName b pvcIdx i)
  cfgTr181CommitObject env tt (cfgTypeIpmacfilterEntryCommit b env tt) st ipmacfilterNode

/-- `deleteAclNodeRangeByPvcIdx`. -/
def deleteAclNodeRangeByPvcIdx (st : ObjState) : Except Fault ObjState := do
  let st ← deleteObjects tt st
    ((chainEntries b).map fun i : Nat => snprintf maxlenNodeName (aclEntryNNode i))
  cfgTr181CommitObject env tt (cfgTypeAclCommit env tt) st aclNode

/-- `deleteIpmacfilterNodeEntryByPvcIdx`. -/
def deleteIpmacfilterNodeEntryByPvcIdx (st : ObjState) (pvcIdx : Nat) (entryIdx : Int) :
    Except Fault ObjState := do
  let st ← deleteObjects tt st [ipmacfilterNodeName b pvcIdx entryIdx]
  cfgTr181CommitObject env tt (cfgTypeIpmacfilterEntryCommit b env tt) st ipmacfilterNode

/-- `deleteAclNodeEntryByEntryIdx`. -/
def deleteAclNodeEntryByEntryIdx (st : ObjState) (entryIdx : Int) : Except Fault ObjState := do
  let st ← deleteObjects tt st [snprintf maxlenNodeName (aclEntryNNode entryIdx)]
  cfgTr181CommitObject env tt (cfgTypeAclCommit env tt) st aclNode

/-- `cfg_type_firewallch_pvc_func_delete`. -/
def cfgTypeFirewallchPvcFuncDelete (st : ObjState) (path : Str) : Except Fault (Int × ObjState) :=
  match getEntryNumberCfg2 path "pvc.".toList with
  | none => .ok (-1, st)
  | some pvcIdx => do
    let st ←
      if pvcIdx = macFilterRuleFlag then
        deleteIpmacfilterNodeRangeByPvcIdx b env tt st macFilterRuleFlag
      else if pvcIdx = ipUpFilterRuleFlag then
        deleteIpmacfilterNodeRangeByPvcIdx b env tt st ipUpFilterRuleFlag
      else if pvcIdx = ipDownFilterRuleFlag then
        deleteIpmacfilterNodeRangeByPvcIdx b env tt st ipDownFilterRuleFlag
      else if pvcIdx = aclFilterRuleFlag then deleteAclNodeRangeByPvcIdx b env tt st
      else .ok st
    cfgObjDeleteObject tt st path

/-- `cfg_type_firewallch_pvc_entry_func_delete`. -/
def cfgTypeFirewallchPvcEntryFuncDelete (st : ObjState) (path : Str) :
    Except Fault (Int × ObjState) :=
  match getEntryNumberCfg2 path "pvc.".toList, getEntryNumberCfg2 path "entry.".toList with
  | some pvcIdx, some entryIdx => do
    let st ←
      if pvcIdx = macFilterRuleFlag then
        deleteIpmacfilterNodeEntryByPvcIdx b env tt st macFilterRuleFlag entryIdx
      else if pvcIdx = ipUpFilterRuleFlag then
        deleteIpmacfilterNodeEntryByPvcIdx b env tt st ipUpFilterRuleFlag entryIdx
      else if pvcIdx = ipDownFilterRuleFlag then
        deleteIpmacfilterNodeEntryByPvcIdx b env tt st ipDownFilterRuleFlag entryIdx
      else if pvcIdx = aclFilterRuleFlag then deleteAclNodeEntryByEntryIdx env tt st entryIdx
      else .ok st
    cfgObjDeleteObject tt st path
  | _, _ => .ok (-1, st)

end Chains

/-! ## What the chains are filled from -/

/-- The filter entry that `syncMacRuleToTr181Firewallch` and `syncIpRuleToTr181Firewallch` read when
they fill entry `i` of a chain. -/
def syncedFilter (b : Build) (pvcIdx i : Nat) : Option Nat :=
  if pvcIdx = macFilterRuleFlag then some i
  else if pvcIdx = ipUpFilterRuleFlag then some (i + b.maxMacFilterRule)
  else if pvcIdx = ipDownFilterRuleFlag then some (i + b.maxMacFilterRule + b.maxIpupFilterRule)
  else none

/-- One of the turns of these functions fills entry `i` of chain `pvcIdx` from filter entry `e`. -/
def FilledFrom (b : Build) (pvcIdx i e : Nat) : Prop :=
  i ∈ chainEntries b ∧ syncedFilter b pvcIdx i = some e

end OnuFirmware.Filter
