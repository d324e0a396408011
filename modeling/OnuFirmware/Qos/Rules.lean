import OnuFirmware.Clib.Buf
import OnuFirmware.Qos.TypeRule

/-!
# The rules of the QoS entries (`svc_wan_related_qos_execute`)

The entries have numbers from 1: ten type entries, four application entries, eight template entries
and eight VLAN entries. The callers add the numbers of the entries before, and the functions
subtract them again, from a number that they take to begin at 0.
-/

namespace OnuFirmware.Qos

open Clib Cfg Lib
open Other (setAttr)

/-- `MAX_TEM_RULE_NUM`. -/
def maxTemRuleNum : Nat := 8

/-- `MAX_VLAN_RULE_NUM`. -/
def maxVlanRuleNum : Nat := 8

/-- `MAX_APP_TYPE_NUM`. -/
def maxAppTypeNum : Nat := 15

/-- `QUEUE_NUM`. -/
def Build.queueNum (b : Build) : Nat := if b.eightQueue then 12 else 4

def appNameName : Str := "AppName".toList
def pvcIndexName : Str := "pvcIndex".toList
def vpiName : Str := "VPI".toList
def vciName : Str := "VCI".toList
def vlanidName : Str := "vlanid".toList
def cwmpCommitFlagName : Str := "cwmpCommitFlag".toList
def webCommitFlagName : Str := "webCommitFlag".toList
def cwmpEntryNode : Str := "root.cwmp.entry".toList
def gponOnuNode : Str := "root.gpon.onu".toList
def disciplineName : Str := "Discipline".toList

/-- `WAN_PVC_NODE`. -/
def wanPvcNode (i : Int) : Str := snprintf 64 ("root.wan.pvc.".toList ++ fmtInt i)

/-- What is outside: `prepare_itf_name`, and `resolveName`, which asks the resolver; here it gives
the text of the address. -/
structure RuleEnv where
  itfName : Int → Option Str
  resolveName : Str → Str

/-! ## VLAN entries -/

/-- `sw`; `type` is whether the entry is to be on at all. -/
def vlanSwitch (conf : Conf) (path : Str) (type : Bool) : Option Bool :=
  if type then
    let buf := attrText (conf path activeName) 64 []
    if buf = "Yes".toList then some true
    else if buf = "No".toList then some false
    else none
  else some false

/-- `vpi` and `vci`. -/
def vlanPvc (conf : Conf) (path : Str) : Option (Int × Int) :=
  let buf := attrText (conf path pvcIndexName) 64 []
  if buf = [] then some (0, 0)
  else if atoi buf < 0 ∨ 8 < atoi buf then none
  else
    let wanPath := wanPvcNode (atoi buf)
    let cvpi := attrText (conf wanPath vpiName) 4 []
    if cvpi = [] then none
    else
      -- the VCI goes into `Cvpi`, and `Cvci` stays empty
      let cvpi := attrText (conf wanPath vciName) 4 []
      if cvpi = [] then none else some (atoi cvpi, atoi [])

/-- `svc_wan_related_set_qos_vlanid_rule`. -/
def setQosVlanidRule (conf : Conf) (index : Int) (type : Bool) : Call :=
  let index := index - (maxTypeRuleNum + maxAppRuleNum + maxTemRuleNum)
  if index < 0 ∨ maxVlanRuleNum - 1 < index then ⟨none, []⟩
  else
    let entry := (index + (maxTypeRuleNum + maxAppRuleNum + maxTemRuleNum)).toNat
    let qosPath := qosEntryNode entry
    ⟨some entry,
      match vlanSwitch conf qosPath type, vlanPvc conf qosPath with
      | some sw, some (vpi, vci) =>
        let buf := attrText (conf qosPath vlanidName) 64 []
        if buf = [] then [] else [.vlanid sw vpi vci (atoi buf)]
      | _, _ => []⟩

/-! ## Application entries -/

/-- The queue of an application; `none` if `-1` is returned. -/
def appQueue (b : Build) (conf : Conf) (path : Str) : Option Str :=
  let buf := attrText (conf path actQueueName) 64 []
  if buf = [] ∨ atoi buf < 1 ∨ ↑b.maxQueueNum + 1 < atoi buf then none
  else
    let buf := attrText (conf commNode (queueBuf buf)) 64 []
    if buf = [] ∨ atoi buf < 0 ∨ ↑b.maxQueueNum + 1 < atoi buf then none
    else some (fmtInt (atoi buf))

/-- `parseUrl`, for `char url[128]` and `char dstIP[32]`: the address of the host and the port;
`none` if `-1` is returned. The function takes the host to begin three characters after the first
colon, and to fit if it has less than 64 characters. -/
def parseUrl (ssl : Bool) (resolveName : Str → Str) (url : Str) :
    Except Fault (Option (Str × Nat)) :=
  match url.idxOf? ':' with
  | none => .ok none
  | some p => do
    let source ← cstr ((url ++ zeros (128 - url.length)).drop (p + 3))
    let host := source.takeWhile fun c => c != ':' && c != '/'
    if 64 ≤ host.length then .ok none
    else if 32 ≤ host.length then .error .overrun
    else
      let port := match source.drop host.length with
        | ':' :: number => (atoi number % 2 ^ 32).toNat
        | _ => if ssl && "https".toList.isPrefixOf url then 443 else 80
      .ok (some (resolveName host, port))

/-- Where the management server is, for fields of any length; `none` if `-1` is returned. -/
def appServer (ssl : Bool) (env : RuleEnv) (conf : Conf) : Except Fault (Option AppParam) :=
  let url := attrText (conf cwmpEntryNode "acsUrl".toList) 128 []
  if url = [] then .ok (some ⟨[], [], [], 0, []⟩)
  else (parseUrl ssl env.resolveName url).map fun r => r.map fun (dstIP, dstPort) =>
    let conreqport := attrText (conf cwmpEntryNode "conReqPort".toList) 12 []
    ⟨"tr069".toList, dstIP, if conreqport = [] then "tcp".toList else conreqport, dstPort, []⟩

/-- The rule of the management server. -/
def appTr069 (x : RuleBuild) (env : RuleEnv) (conf : Conf) (path : Str) (ruleIdx : Int)
    (type : Bool) : Except Fault (Conf × List Cmd) :=
  let cwmpCommit := attrText (conf commNode cwmpCommitFlagName) 4 []
  if type = false then .ok (conf, [])
  else if cwmpCommit.head? ≠ some '1' then
    .ok (setAttr conf commNode webCommitFlagName "1".toList, [])
  else do
    let conf := setAttr conf commNode cwmpCommitFlagName "0".toList
    match ← appServer x.ssl env conf, appQueue x.toBuild conf path with
    | some param, some queueNum => .ok (conf, [.app (.add { param with queueNum }) ruleIdx])
    | _, _ => .ok (conf, [])

/-- The rule of an application whose packets have a protocol of their own. -/
def appProto (x : RuleBuild) (env : RuleEnv) (conf : Conf) (entry : Nat) (ruleIdx : Int)
    (proto : Str) : Except Fault (Conf × List Cmd) :=
  let conf := setAttr conf (qosEntryNode entry) protocolIDName proto
  (setQosTypeRule x env.itfName conf entry).map fun r =>
    (r.1, .app .del ruleIdx :: r.2.cmds)

/-- The queue of the telephone, with CT_VOIP_QOS. -/
def appVoip (b : Build) (conf : Conf) (path : Str) : List Cmd :=
  let buf := attrText (conf path actQueueName) 64 []
  if buf = [] ∨ atoi buf < 1 ∨ ↑b.maxQueueNum + 1 < atoi buf then [] else [.rtpPriority (atoi buf)]

/-- The commands for an application. -/
def appCmds (x : RuleBuild) (env : RuleEnv) (conf : Conf) (entry : Nat) (ruleIdx : Int)
    (type : Bool) (appName : Str) : Except Fault (Conf × List Cmd) :=
  if appName = "TR069".toList then
    appTr069 x env conf (qosEntryNode entry) ruleIdx type
  else if appName = "IPTV".toList then appProto x env conf entry ruleIdx "igmp".toList
  else if appName = "VOIP".toList then
    if x.voipQos then .ok (conf, appVoip x.toBuild conf (qosEntryNode entry))
    else appProto x env conf entry ruleIdx "rtp".toList
  else .ok (conf, [])

/-- `svc_wan_related_set_qos_app_rule`. -/
def setQosAppRule (x : RuleBuild) (env : RuleEnv) (conf : Conf) (index : Int) (type : Bool) :
    Except Fault (Conf × Call) :=
  let index := index - maxTypeRuleNum
  if index < 0 ∨ maxAppRuleNum - 1 < index then .ok (conf, ⟨none, []⟩)
  else
    let ruleIdx := index - 1
    let entry := (index + maxTypeRuleNum).toNat
    let appName := attrText (conf (qosEntryNode entry) appNameName) 64 []
    if appName = [] then .ok (conf, ⟨some entry, [.app .del ruleIdx]⟩)
    else (appCmds x env conf entry ruleIdx type appName).map fun r =>
      -- the entry may have been one of another application before
      (r.1, ⟨some entry, .type .del (ruleIdx + maxTypeRuleNum) ::
        .remark .del (ruleIdx + maxTypeRuleNum) :: r.2⟩)

/-! ## The template -/

/-- The variables that are kept from one run to the next, the configuration, and the calls of the
functions above. -/
structure Exec where
  qosFlag : Bool
  appmode : Str
  conf : Conf
  calls : List Call

/-- A call of a function. -/
def Exec.call (s : Exec) (r : Conf × Call) : Exec :=
  { s with conf := r.1, calls := s.calls ++ [r.2] }

def Exec.typeRule (x : RuleBuild) (env : RuleEnv) (s : Exec) (index : Nat) : Except Fault Exec :=
  (setQosTypeRule x env.itfName s.conf index).map s.call

def Exec.appRule (x : RuleBuild) (env : RuleEnv) (type : Bool) (s : Exec) (index : Nat) :
    Except Fault Exec :=
  (setQosAppRule x env s.conf index type).map s.call

/-- The loops over the VLAN entries. -/
def Exec.vlanRules (type : Bool) (s : Exec) : Exec :=
  { s with calls := s.calls ++ (List.range' 1 maxVlanRuleNum).map fun i : Nat =>
      setQosVlanidRule s.conf (i + maxTypeRuleNum + maxTemRuleNum) type }

/-- `deleteQosTempRules`. -/
def deleteQosTempRules : List Cmd :=
  ((List.range maxAppRuleNum).map fun i : Nat => .app .del i) ++
    ((List.range' maxTypeRuleNum (maxAppTypeNum - maxTypeRuleNum)).map fun i : Nat => .type .del i) ++
      (List.range' maxTypeRuleNum (maxAppTypeNum - maxTypeRuleNum)).map fun i : Nat => .remark .del i

/-- `cfg_delete_object`. -/
def deleteObject (conf : Conf) (path : Str) : Conf := fun p n => if p = path then none else conf p n

/-- Some attributes of an entry are set. -/
def setAttrs (path : Str) (attrs : List (String × Str)) (conf : Conf) : Conf :=
  attrs.foldl (fun conf a => setAttr conf path a.1.toList a.2) conf

/-- The attributes of a type entry. -/
def typeTemplate (x : RuleBuild) (priority : Priority) (i : Nat) : List (String × Str) :=
  if priority .iptv ≠ 0 ∧ i = 1 then
    [("Active", "Yes".toList), ("ActDSCPRemarking", "0".toList),
      ("Act8021pRemarkingNum", "0".toList), ("Type1", "LANInterface".toList), ("Max1", "2".toList),
      ("Min1", "2".toList), ("ProtocolID", "all".toList), ("ActQueue", fmtNat (priority .iptv))]
  else if x.eightQueue = true ∧ (i = 11 ∨ i = 12) then [("Active", "No".toList)]
  else
    [("Active", if x.dbus then [] else "No".toList), ("ActDSCPRemarking", "0".toList),
      ("Act8021pRemarkingNum", "0".toList), ("ActQueue", fmtNat i)] ++
      (if x.eightQueue then [("Type1", "N/A".toList), ("Max1", "0".toList), ("Min1", "0".toList),
        ("ProtocolID", "all".toList)] else [])

/-- A type entry of the template. With JOYME4 there is none, it has just been deleted. -/
def templateType (x : RuleBuild) (env : RuleEnv) (priority : Priority) (type : Bool) (s : Exec)
    (i : Nat) : Except Fault Exec :=
  let s := if x.joyme4 then s
    else { s with conf := setAttrs (qosEntryNode i) (typeTemplate x priority i) s.conf }
  if type then s.typeRule x env i else .ok s

/-- An application entry of the template, if the application has a priority. -/
def templateApp (x : RuleBuild) (env : RuleEnv) (type : Bool) (priority i : Nat)
    (attrs : List (String × Str)) (s : Exec) : Except Fault Exec :=
  let index := maxTypeRuleNum + i
  if priority = 0 then .ok s
  else
    let attrs := ("Active", "Yes".toList) :: attrs ++ [("ActQueue", fmtNat priority)]
    let s := { s with conf := setAttrs (qosEntryNode index) attrs s.conf }
    if type then s.appRule x env false index else .ok s

/-- The application entries of the template. -/
def templateApps (x : RuleBuild) (env : RuleEnv) (priority : Priority) (type : Bool) (s : Exec) :
    Except Fault Exec :=
  if x.cwmp = true ∧ x.voip = true then do
    let both := priority .tr069 ≠ 0 ∧ priority .voip ≠ 0
    let tr069Index := if both ∧ ¬ priority .tr069 < priority .voip then 2 else 1
    let voipIndex := if both ∧ priority .tr069 < priority .voip then 2 else 1
    let s ← templateApp x env type (priority .tr069) tr069Index [("AppName", "TR069".toList)] s
    templateApp x env type (priority .voip) voipIndex
      [("AppName", "VOIP".toList), ("ProtocolID", "rtp".toList)] s
  else .ok s

/-- The entries of the template take the place of the others. -/
def templateRules (x : RuleBuild) (env : RuleEnv) (priority : Priority) (type : Bool) (s : Exec) :
    Except Fault Exec := do
  let conf := (List.range' 1 maxAppTypeNum).foldl
    (fun conf i => deleteObject conf (qosEntryNode i)) s.conf
  let s ← (List.range' 1 x.queueNum).foldlM (templateType x env priority type) { s with conf }
  templateApps x env priority type s

/-- `svc_wan_related_set_qos_temp_rule`, with `fuel` turns for the loop over the services. -/
def tempRule (x : RuleBuild) (env : RuleEnv) (fuel : Nat) (type : Bool) (s : Exec) :
    Option (Except Fault Exec) :=
  (setQosTempRule x.toBuild fuel ⟨s.appmode, s.conf⟩).map fun out =>
    let s := { s with appmode := out.state.appmode, conf := out.state.conf }
    match out.priority with
    | none => .ok s
    | some priority => templateRules x env priority type
        (if type then s.call (s.conf, ⟨none, deleteQosTempRules⟩) else s)

/-! ## The run -/

/-- `svc_wan_related_set_qos_discpline_rule` does not return `-1`. -/
def disciplineOk (b : Build) (conf : Conf) : Bool :=
  let discipline := attrText (conf commNode disciplineName) 32 []
  let queues (n : Nat) := (List.range' 1 n).all fun i =>
    attrText (conf commNode (queueSW i)) 32 [] ≠ []
  if discipline = [] then false
  else if discipline ∈ ["SP".toList, "PQ".toList, "WRR".toList] then
    queues (if b.eightQueue then 8 else 4)
  else if discipline = "CAR".toList then queues (if b.eightQueue then 8 else 6)
  else true

/-- `svc_wan_related_set_qos_switch_rule`, without the modules and chains that it loads: the state
before, unless nothing changes. -/
def setQosSwitchRule (sw : Bool) (s : Exec) : Option Bool × Exec :=
  if sw = s.qosFlag then (none, s)
  else
    let t := { s with qosFlag := sw }
    (some s.qosFlag, if sw then t else t.vlanRules false)

/-- The loops over the entries. -/
def qosRules (x : RuleBuild) (env : RuleEnv) (s : Exec) : Except Fault Exec := do
  let s ← (List.range' 1 maxTypeRuleNum).foldlM (fun s i => s.typeRule x env i) s
  let s ← (List.range' 1 maxAppRuleNum).foldlM
    (fun s i => s.appRule x env true (i + maxTypeRuleNum)) s
  .ok (s.vlanRules true)

/-- `qosWanInterfaceUpdate`. -/
def Exec.wanIf (x : RuleBuild) (onOff : Nat) (s : Exec) : Except Fault Exec :=
  (qosWanInterfaceUpdate x.wanTypeSize onOff s.conf).map fun rules =>
    s.call (s.conf, ⟨none, [.wanIf rules]⟩)

/-- What is done before the loops if QoS is active. -/
def qosOn (x : RuleBuild) (env : RuleEnv) (fuel : Nat) (s : Exec) : Option (Except Fault Exec) :=
  let r := setQosSwitchRule true s
  let s := if r.1 = some false then r.2.vlanRules true else r.2
  (tempRule x env fuel true s).map fun t => t.bind (Exec.wanIf x 1)

/-- What is done if it is not. -/
def qosOff (x : RuleBuild) (env : RuleEnv) (fuel : Nat) (s : Exec) : Option (Except Fault Exec) :=
  match s.wanIf x 0 with
  | .error e => some (.error e)
  | .ok s => (tempRule x env fuel false s).map fun t => t.map fun s => (setQosSwitchRule false s).2

/-- The configuration with which the loops begin, if they are reached, and the end. -/
structure Outcome where
  before : Option Conf
  after : Exec

/-- `svc_wan_related_qos_execute`, with `fuel` turns for the loop over the services. -/
def qosExecute (x : RuleBuild) (env : RuleEnv) (fuel : Nat) (s : Exec) :
    Option (Except Fault Outcome) :=
  let active := attrText (s.conf commNode activeName) 64 []
  if attrText (s.conf gponOnuNode "OnuType".toList) 64 [] = "1".toList then some (.ok ⟨none, s⟩)
  else if active = [] then some (.ok ⟨none, s⟩)
  else if active = "Yes".toList then
    (qosOn x env fuel s).map fun t => t.bind fun s =>
      if disciplineOk x.toBuild s.conf = true then
        (qosRules x env s).map fun after => ⟨some s.conf, after⟩
      else .ok ⟨none, s⟩
  else (qosOff x env fuel s).map fun t => t.map fun after => ⟨none, after⟩

/-! ## Statement -/

/-- What is to be done for application entry `i`: without `AppName` its rule is deleted. -/
def AppCallRight (conf : Conf) (i : Nat) (c : Call) : Prop :=
  c.entry = some (maxTypeRuleNum + i) ∧
    ((conf (qosEntryNode (maxTypeRuleNum + i)) appNameName).getD [] = [] →
      c.cmds = [.app .del (i - 1)])

/-- The command of a VLAN entry that has all attributes, with the VPI and the VCI of its PVC. -/
def vlanCmd (conf : Conf) (n : Nat) : Option Cmd :=
  let active := (conf (qosEntryNode n) activeName).getD []
  let pvcIndex := attrText (conf (qosEntryNode n) pvcIndexName) 64 []
  let vpi := (conf (wanPvcNode (atoi pvcIndex)) vpiName).getD []
  let vci := (conf (wanPvcNode (atoi pvcIndex)) vciName).getD []
  let vlanid := attrText (conf (qosEntryNode n) vlanidName) 64 []
  if (active = "Yes".toList ∨ active = "No".toList) ∧
      (pvcIndex ≠ [] ∧ 0 ≤ atoi pvcIndex ∧ atoi pvcIndex ≤ 8) ∧
      vpi ≠ [] ∧ vci ≠ [] ∧ vlanid ≠ [] then
    some (.vlanid (active = "Yes".toList) (atoi vpi) (atoi vci) (atoi vlanid))
  else none

/-- What is to be done for VLAN entry `n`. -/
def VlanCallRight (conf : Conf) (n : Nat) (c : Call) : Prop :=
  c.entry = some n ∧ ∀ cmd, vlanCmd conf n = some cmd → c.cmds = [cmd]

/-- The run ends, with no access out of bounds, and does what is to be done for every type,
application and VLAN entry of the configuration with which its loops begin. -/
def QosRight (x : RuleBuild) (env : RuleEnv) (qosFlag : Bool) (appmode : Str) (conf : Conf) : Prop :=
  ∃ fuel before after,
    qosExecute x env fuel ⟨qosFlag, appmode, conf, []⟩ = some (.ok ⟨some before, after⟩) ∧
    (∀ k, 1 ≤ k → k ≤ maxTypeRuleNum →
      ∃ c ∈ after.calls, TypeCallRight x env.itfName before k c) ∧
    (∀ i, 1 ≤ i → i ≤ maxAppRuleNum → ∃ c ∈ after.calls, AppCallRight before i c) ∧
    ∀ i, 1 ≤ i → i ≤ maxVlanRuleNum → ∃ c ∈ after.calls,
      VlanCallRight before (maxTypeRuleNum + maxAppRuleNum + maxTemRuleNum + i) c

/-- The PVC of an entry has no VCI but 0, and its VPI is what of the VCI is read. -/
def VpiIsVci (conf : Conf) (n : Nat) : Prop :=
  let wanPath := wanPvcNode (atoi (attrText (conf (qosEntryNode n) pvcIndexName) 64 []))
  atoi (snprintf 4 ((conf wanPath vciName).getD [])) = atoi ((conf wanPath vpiName).getD []) ∧
    atoi ((conf wanPath vciName).getD []) = 0

/-! ## The entries that are reached -/

theorem entry_typeRule {x : RuleBuild} {itfName : Int → Option Str} {conf : Conf} {index : Nat}
    {r : Conf × Call} (h : setQosTypeRule x itfName conf index = .ok r) :
    r.2.entry = if index ≤ 13 then some index else none := by
  rw [setQosTypeRule] at h
  split at h
  · next hout =>
    obtain rfl := Except.ok.inj h
    rw [if_neg (by simp only [maxTypeRuleNum, maxAppRuleNum] at hout; omega)]
  · next hin =>
    rw [if_pos (by simp only [maxTypeRuleNum, maxAppRuleNum] at hin; omega)]
    dsimp only at h
    split at h
    · obtain rfl := Except.ok.inj h
      rfl
    · obtain ⟨v, -, h⟩ := bind_eq_ok.mp h
      obtain ⟨remark, -, h⟩ := bind_eq_ok.mp h
      obtain rfl := Except.ok.inj h
      rfl

theorem entry_appRule {x : RuleBuild} {env : RuleEnv} {conf : Conf} {index : Nat} {type : Bool}
    {r : Conf × Call} (h : setQosAppRule x env conf index type = .ok r) :
    r.2.entry = if 10 ≤ index ∧ index ≤ 13 then some index else none := by
  have hrange : ((index : Int) - maxTypeRuleNum < 0 ∨ (maxAppRuleNum : Int) - 1 <
      index - maxTypeRuleNum) ↔ ¬ (10 ≤ index ∧ index ≤ 13) := by
    simp only [maxTypeRuleNum, maxAppRuleNum]
    omega
  have hentry : ((index : Int) - maxTypeRuleNum + maxTypeRuleNum).toNat = index := by omega
  simp only [setQosAppRule, hrange, hentry] at h
  by_cases hin : 10 ≤ index ∧ index ≤ 13
  · rw [if_neg (not_not.mpr hin)] at h
    rw [if_pos hin]
    split at h
    · obtain rfl := Except.ok.inj h
      rfl
    · obtain ⟨v, -, rfl⟩ := map_eq_ok.mp h
      rfl
  · rw [if_pos hin] at h
    obtain rfl := Except.ok.inj h
    rw [if_neg hin]

theorem entry_vlanidRule (conf : Conf) (index : Nat) (type : Bool) :
    (setQosVlanidRule conf index type).entry =
      if 22 ≤ index ∧ index ≤ 29 then some index else none := by
  have hrange : ((index : Int) - (maxTypeRuleNum + maxAppRuleNum + maxTemRuleNum) < 0 ∨
      (maxVlanRuleNum : Int) - 1 < index - (maxTypeRuleNum + maxAppRuleNum + maxTemRuleNum)) ↔
        ¬ (22 ≤ index ∧ index ≤ 29) := by
    simp only [maxTypeRuleNum, maxAppRuleNum, maxTemRuleNum, maxVlanRuleNum]
    omega
  simp only [setQosVlanidRule, hrange, sub_add_cancel, Int.toNat_natCast]
  by_cases hin : 22 ≤ index ∧ index ≤ 29
  · rw [if_neg (not_not.mpr hin), if_pos hin]
  · rw [if_pos hin, if_neg hin]

/-- The entries of the calls. -/
def Exec.entries (s : Exec) : List (Option Nat) := s.calls.map Call.entry

/-- A loop in which each turn makes one call. -/
theorem entries_loop {f : Exec → Nat → Except Fault Exec} {e : Nat → Option Nat}
    (hf : ∀ s i t, f s i = .ok t → t.entries = s.entries ++ [e i]) {l : List Nat} {s t : Exec}
    (h : l.foldlM f s = .ok t) : t.entries = s.entries ++ l.map e := by
  induction l generalizing s with
  | nil =>
    obtain rfl := Except.ok.inj h
    exact (List.append_nil _).symm
  | cons i l ih =>
    rw [List.foldlM_cons] at h
    obtain ⟨u, hu, h⟩ := bind_eq_ok.mp h
    rw [ih h, hf s i u hu, List.append_assoc, List.map_cons, List.singleton_append]

theorem entries_typeRule {x : RuleBuild} {env : RuleEnv} {s t : Exec} {i : Nat}
    (h : s.typeRule x env i = .ok t) :
    t.entries = s.entries ++ [if i ≤ 13 then some i else none] := by
  obtain ⟨r, hr, rfl⟩ := map_eq_ok.mp h
  rw [Exec.entries, Exec.call, List.map_append, List.map_singleton, entry_typeRule hr]
  rfl

theorem entries_appRule {x : RuleBuild} {env : RuleEnv} {type : Bool} {s t : Exec} {i : Nat}
    (h : s.appRule x env type i = .ok t) :
    t.entries = s.entries ++ [if 10 ≤ i ∧ i ≤ 13 then some i else none] := by
  obtain ⟨r, hr, rfl⟩ := map_eq_ok.mp h
  rw [Exec.entries, Exec.call, List.map_append, List.map_singleton, entry_appRule hr]
  rfl

theorem entries_vlanRules (type : Bool) (s : Exec) : (s.vlanRules type).entries =
    s.entries ++ List.replicate 3 none ++ (List.range' 22 5).map some := by
  rw [Exec.entries, Exec.vlanRules, List.map_append, List.map_map, List.append_assoc]
  refine congrArg (s.entries ++ ·) ?_
  have hentry : ∀ i : Nat, (Call.entry ∘ fun i : Nat =>
      setQosVlanidRule s.conf (i + maxTypeRuleNum + maxTemRuleNum) type) i =
        if 22 ≤ i + 18 ∧ i + 18 ≤ 29 then some (i + 18) else none := by
    intro i
    exact entry_vlanidRule s.conf (i + 18) type
  rw [funext hentry]
  rfl

/-- **The loops reach the type entries, the application entries but the last, and the VLAN entries
1 to 4 behind the last template entry.** -/
theorem entries_qosRules {x : RuleBuild} {env : RuleEnv} {s t : Exec}
    (h : qosRules x env s = .ok t) : t.entries = s.entries ++ (List.range' 1 13).map some ++
      List.replicate 4 none ++ (List.range' 22 5).map some := by
  rw [qosRules] at h
  obtain ⟨u, hu, h⟩ := bind_eq_ok.mp h
  obtain ⟨v, hv, h⟩ := bind_eq_ok.mp h
  obtain rfl := Except.ok.inj h
  have htype := @entries_loop _ (fun i => if i ≤ 13 then some i else none)
    (fun _ _ _ => entries_typeRule) _ _ _ hu
  have happ := @entries_loop _ (fun i => if 10 ≤ i + maxTypeRuleNum ∧ i + maxTypeRuleNum ≤ 13
    then some (i + maxTypeRuleNum) else none) (fun _ _ _ => entries_appRule) _ _ _ hv
  rw [entries_vlanRules, happ, htype]
  simp only [List.append_assoc]
  rfl

/-- Only entries 0 to 13 and 22 to 26 have been reached. -/
def Reached (s : Exec) : Prop := ∀ n, some n ∈ s.entries → n ≤ 13 ∨ 22 ≤ n ∧ n ≤ 26

theorem Reached.append {s t : Exec} {l : List (Option Nat)} (h : Reached s)
    (ht : t.entries = s.entries ++ l) (hl : ∀ n, some n ∈ l → n ≤ 13 ∨ 22 ≤ n ∧ n ≤ 26) :
    Reached t := by
  intro n hn
  rw [ht, List.mem_append] at hn
  exact hn.elim (h n) (hl n)

section Reached

variable {x : RuleBuild} {env : RuleEnv} {s t : Exec} {type : Bool} {i fuel : Nat}

theorem Reached.typeRule (h : Reached s) (ht : s.typeRule x env i = .ok t) : Reached t := by
  refine h.append (entries_typeRule ht) fun n hn => .inl ?_
  rw [List.mem_singleton] at hn
  split at hn
  · exact Option.some.inj hn ▸ ‹_›
  · exact nomatch hn

theorem Reached.appRule (h : Reached s) (ht : s.appRule x env type i = .ok t) : Reached t := by
  refine h.append (entries_appRule ht) fun n hn => .inl ?_
  rw [List.mem_singleton] at hn
  split at hn
  · next hi => exact Option.some.inj hn ▸ hi.2
  · exact nomatch hn

theorem Reached.vlanRules (h : Reached s) (type : Bool) : Reached (s.vlanRules type) := by
  refine h.append ((entries_vlanRules type s).trans (List.append_assoc _ _ _)) fun n hn => .inr ?_
  rw [List.mem_append, List.mem_replicate, List.mem_map] at hn
  obtain ⟨-, hn⟩ | ⟨m, hm, hmn⟩ := hn
  · exact nomatch hn
  · rw [List.mem_range'_1, Option.some.inj hmn] at hm
    omega

/-- A call that reaches no entry. -/
theorem Reached.call_none (h : Reached s) (conf : Conf) (cmds : List Cmd) :
    Reached (s.call (conf, ⟨none, cmds⟩)) :=
  h.append List.map_append fun _ hn => nomatch List.mem_singleton.mp hn

theorem Reached.templateType {priority : Priority} (h : Reached s)
    (ht : templateType x env priority type s i = .ok t) : Reached t := by
  rw [Qos.templateType] at ht
  have hconf : Reached (if x.joyme4 then s
      else { s with conf := setAttrs (qosEntryNode i) (typeTemplate x priority i) s.conf }) := by
    split <;> exact h
  split at ht
  · exact hconf.typeRule ht
  · exact Except.ok.inj ht ▸ hconf

theorem Reached.templateApp {priority : Nat} {attrs : List (String × Str)} (h : Reached s)
    (ht : templateApp x env type priority i attrs s = .ok t) : Reached t := by
  rw [Qos.templateApp] at ht
  split at ht
  · exact Except.ok.inj ht ▸ h
  · split at ht
    · exact Reached.appRule (by exact h) ht
    · exact Except.ok.inj ht ▸ h

theorem Reached.templateRules {priority : Priority} (h : Reached s)
    (ht : templateRules x env priority type s = .ok t) : Reached t := by
  rw [Qos.templateRules] at ht
  obtain ⟨u, hu, ht⟩ := bind_eq_ok.mp ht
  have hur : Reached u := foldlM_inv (fun _ _ _ hv hw => Reached.templateType hv hw) hu h
  rw [templateApps] at ht
  split at ht
  · obtain ⟨v, hv, ht⟩ := bind_eq_ok.mp ht
    exact (hur.templateApp hv).templateApp ht
  · exact Except.ok.inj ht ▸ hur

theorem Reached.tempRule {r : Except Fault Exec} (h : Reached s)
    (hr : tempRule x env fuel type s = some r) (ht : r = .ok t) : Reached t := by
  obtain ⟨out, -, rfl⟩ := Option.map_eq_some_iff.mp hr
  dsimp only at ht
  split at ht
  · exact Except.ok.inj ht ▸ h
  · refine Reached.templateRules ?_ ht
    split
    · exact Reached.call_none (by exact h) _ _
    · exact h

theorem Reached.qosRules (h : Reached s) (ht : qosRules x env s = .ok t) : Reached t := by
  rw [Qos.qosRules] at ht
  obtain ⟨u, hu, ht⟩ := bind_eq_ok.mp ht
  obtain ⟨v, hv, ht⟩ := bind_eq_ok.mp ht
  obtain rfl := Except.ok.inj ht
  have hur : Reached u := foldlM_inv (fun _ _ _ hs hw => Reached.typeRule hs hw) hu h
  exact (foldlM_inv (fun _ _ _ hs hw => Reached.appRule hs hw) hv hur).vlanRules true

theorem Reached.switch (h : Reached s) (sw : Bool) : Reached (setQosSwitchRule sw s).2 := by
  rw [setQosSwitchRule]
  split
  · exact h
  · cases sw
    · exact Reached.vlanRules (by exact h) false
    · exact h

theorem Reached.qosOn {r : Except Fault Exec} (h : Reached s) (hr : qosOn x env fuel s = some r)
    (ht : r = .ok t) : Reached t := by
  obtain ⟨r', hr', rfl⟩ := Option.map_eq_some_iff.mp hr
  obtain ⟨u, hu, ht⟩ := bind_eq_ok.mp ht
  obtain ⟨rules, -, rfl⟩ := map_eq_ok.mp ht
  refine (Reached.tempRule ?_ hr' hu).call_none _ _
  split
  · exact (h.switch true).vlanRules true
  · exact h.switch true

end Reached

/-- **The run reaches no entry but those.** -/
theorem reached_qosExecute {x : RuleBuild} {env : RuleEnv} {fuel : Nat} {s after : Exec}
    {before : Conf} (h : Reached s)
    (hr : qosExecute x env fuel s = some (.ok ⟨some before, after⟩)) : Reached after := by
  rw [qosExecute] at hr
  split at hr
  · exact nomatch Outcome.mk.inj (Except.ok.inj (Option.some.inj hr))
  · split at hr
    · exact nomatch Outcome.mk.inj (Except.ok.inj (Option.some.inj hr))
    · split at hr
      · obtain ⟨r, hon, hr⟩ := Option.map_eq_some_iff.mp hr
        obtain ⟨t, ht, hr⟩ := bind_eq_ok.mp hr
        split at hr
        · obtain ⟨u, hu, hout⟩ := map_eq_ok.mp hr
          obtain ⟨-, rfl⟩ := Outcome.mk.inj hout
          exact (h.qosOn hon ht).qosRules hu
        · exact nomatch Outcome.mk.inj (Except.ok.inj hr)
      · obtain ⟨r, -, hr⟩ := Option.map_eq_some_iff.mp hr
        obtain ⟨t, -, hout⟩ := map_eq_ok.mp hr
        exact nomatch Outcome.mk.inj hout

/-! ## VLAN entries -/

theorem attrText_vlan {conf : Conf} {path : Str} {t : Str} (ht : t ∈ ["Yes".toList, "No".toList]) :
    attrText (conf path activeName) 64 [] = t ↔ (conf path activeName).getD [] = t := by
  rw [attrText_getD]
  have hlen : t.length < 63 ∧ t ≠ [] := by
    rcases List.mem_cons.mp ht with rfl | ht
    · decide
    · rw [List.mem_singleton.mp ht]
      decide
  constructor
  · intro h
    rw [← h, snprintf, List.take_of_length_le]
    by_contra hlong
    have hcut := congrArg List.length h
    rw [snprintf, List.length_take] at hcut
    omega
  · rintro h
    rw [h, snprintf_eq (by omega)]

theorem vlanSwitch_eq {conf : Conf} {path : Str}
    (h : (conf path activeName).getD [] = "Yes".toList ∨
      (conf path activeName).getD [] = "No".toList) :
    vlanSwitch conf path true = some (decide ((conf path activeName).getD [] = "Yes".toList)) := by
  rw [vlanSwitch, if_pos rfl]
  simp only [attrText_vlan List.mem_cons_self,
    attrText_vlan (List.mem_cons_of_mem _ List.mem_cons_self)]
  rcases h with hyes | hno
  · rw [if_pos hyes, decide_eq_true hyes]
  · have hne : ¬ (conf path activeName).getD [] = "Yes".toList := by
      rw [hno]
      decide
    rw [if_neg hne, if_pos hno, decide_eq_false hne]

/-- The command that a VLAN entry with all attributes gets. -/
theorem vlanidRule_cmds {conf : Conf} {n : Nat} (h : 22 ≤ n) (hn : n ≤ 29)
    (hcmd : (vlanCmd conf n).isSome) :
    let wanPath := wanPvcNode (atoi (attrText (conf (qosEntryNode n) pvcIndexName) 64 []))
    vlanCmd conf n = some (.vlanid ((conf (qosEntryNode n) activeName).getD [] = "Yes".toList)
      (atoi ((conf wanPath vpiName).getD [])) (atoi ((conf wanPath vciName).getD []))
      (atoi (attrText (conf (qosEntryNode n) vlanidName) 64 []))) ∧
    setQosVlanidRule conf n true = ⟨some n,
      [.vlanid ((conf (qosEntryNode n) activeName).getD [] = "Yes".toList)
        (atoi (snprintf 4 ((conf wanPath vciName).getD []))) 0
        (atoi (attrText (conf (qosEntryNode n) vlanidName) 64 []))]⟩ := by
  have hrange : ¬ ((n : Int) - (maxTypeRuleNum + maxAppRuleNum + maxTemRuleNum) < 0 ∨
      (maxVlanRuleNum : Int) - 1 < n - (maxTypeRuleNum + maxAppRuleNum + maxTemRuleNum)) := by
    simp only [maxTypeRuleNum, maxAppRuleNum, maxTemRuleNum, maxVlanRuleNum]
    omega
  rw [vlanCmd] at hcmd ⊢
  split at hcmd
  · next hall =>
    obtain ⟨hactive, ⟨hpvc, hpvc0, hpvc8⟩, hvpi, hvci, hvlan⟩ := hall
    have hread : vlanPvc conf (qosEntryNode n) = some (atoi (snprintf 4 ((conf (wanPvcNode (atoi
        (attrText (conf (qosEntryNode n) pvcIndexName) 64 []))) vciName).getD [])), 0) := by
      rw [vlanPvc, if_neg hpvc, if_neg (by omega)]
      simp only [attrText_getD, snprintf_eq_nil_iff (by decide : 1 < 4)] at hvpi hvci ⊢
      rw [if_neg hvpi, if_neg hvci]
      rfl
    refine ⟨if_pos ⟨hactive, ⟨hpvc, hpvc0, hpvc8⟩, hvpi, hvci, hvlan⟩, ?_⟩
    simp only [setQosVlanidRule, if_neg hrange, sub_add_cancel, Int.toNat_natCast,
      vlanSwitch_eq hactive, hread, if_neg hvlan]
  · exact absurd hcmd Bool.false_ne_true

/-- **A VLAN entry with all attributes is treated right exactly if what of the VCI is read is the VPI
and the VCI is 0.** -/
theorem vlanCall_right_iff {conf : Conf} {n : Nat} (h : 22 ≤ n) (hn : n ≤ 29) :
    VlanCallRight conf n (setQosVlanidRule conf n true) ↔
      ((vlanCmd conf n).isSome → VpiIsVci conf n) := by
  by_cases hcmd : (vlanCmd conf n).isSome
  · obtain ⟨hv, hc⟩ := vlanidRule_cmds h hn hcmd
    simp only [VlanCallRight, hv, hc, Option.isSome_some, true_imp_iff, true_and, Option.some_inj,
      forall_eq', List.cons.injEq, and_true, Cmd.vlanid.injEq, VpiIsVci]
    exact and_congr_right' eq_comm
  · rw [Bool.not_eq_true, Option.isSome_eq_false_iff, Option.isNone_iff_eq_none] at hcmd
    rw [hcmd]
    have hentry : (setQosVlanidRule conf n true).entry = some n := by
      rw [entry_vlanidRule, if_pos ⟨h, hn⟩]
    exact iff_of_true ⟨hentry, fun _ hs => nomatch hcmd.symm.trans hs⟩
      fun hs => absurd hs Bool.false_ne_true

/-! ## The last application entry -/

/-- **No run reaches the last application entry.** -/
theorem qos_not_right (x : RuleBuild) (env : RuleEnv) (qosFlag : Bool) (appmode : Str)
    (conf : Conf) : ¬ QosRight x env qosFlag appmode conf := by
  rintro ⟨fuel, before, after, hrun, -, happ, -⟩
  obtain ⟨c, hc, hentry, -⟩ := happ maxAppRuleNum (by decide) (Nat.le_refl _)
  have hstart : Reached ⟨qosFlag, appmode, conf, []⟩ := fun _ hn => absurd hn List.not_mem_nil
  have hmem : some (maxTypeRuleNum + maxAppRuleNum) ∈ after.entries :=
    hentry ▸ List.mem_map_of_mem hc
  have hreach := reached_qosExecute hstart hrun _ hmem
  simp only [maxTypeRuleNum, maxAppRuleNum] at hreach
  omega

/-! ## A VLAN entry with a VPI and a VCI -/

/-- A build without any of the switches. -/
def plainBuild : RuleBuild :=
  ⟨⟨false, false, false, false⟩, false, false, false, false, false, false, false, false, 16, 32, 64,
    64⟩

/-- QoS is active, and the first VLAN entry is one for VPI 8 and VCI 35. -/
def vlanConf : Conf := attrConf
  [("root.qos.common", "Active", "Yes"), ("root.qos.common", "Discipline", "PQ"),
    ("root.qos.common", "QueueSW1", "Yes"), ("root.qos.common", "QueueSW2", "No"),
    ("root.qos.common", "QueueSW3", "No"), ("root.qos.common", "QueueSW4", "No"),
    ("root.qos.entry.23", "Active", "Yes"), ("root.qos.entry.23", "pvcIndex", "1"),
    ("root.qos.entry.23", "vlanid", "100"), ("root.wan.pvc.1", "VPI", "8"),
    ("root.wan.pvc.1", "VCI", "35")]

/-- Nothing outside answers. -/
def noEnv : RuleEnv := ⟨fun _ => none, fun _ => "0.0.0.0".toList⟩

/-- The VCI becomes the VPI. -/
theorem qos_wrong : ¬ QosRight plainBuild noEnv false [] vlanConf := by
  rintro ⟨fuel, before, after, hrun, -, -, hvlan⟩
  have hfuel : qosExecute plainBuild noEnv fuel ⟨false, [], vlanConf, []⟩ =
      qosExecute plainBuild noEnv 0 ⟨false, [], vlanConf, []⟩ := rfl
  have hcalls : (qosExecute plainBuild noEnv 0 ⟨false, [], vlanConf, []⟩).map (fun r =>
      r.toOption.map fun out => out.after.calls.filter fun c => c.entry = some 23) =
        some (some (List.replicate 2 ⟨some 23, [.vlanid true 35 0 100]⟩)) := by decide +kernel
  have hcmd : (qosExecute plainBuild noEnv 0 ⟨false, [], vlanConf, []⟩).map (fun r =>
      r.toOption.map fun out => out.before.map fun conf => vlanCmd conf 23) =
        some (some (some (some (.vlanid true 8 35 100)))) := by decide +kernel
  rw [hfuel] at hrun
  rw [hrun] at hcalls hcmd
  obtain ⟨c, hc, hentry, hright⟩ := hvlan 1 (by decide) (by decide)
  have hfilter : after.calls.filter (fun c => c.entry = some 23) =
      List.replicate 2 ⟨some 23, [.vlanid true 35 0 100]⟩ :=
    Option.some.inj (Option.some.inj hcalls)
  have hmem : c ∈ after.calls.filter fun c => c.entry = some 23 :=
    List.mem_filter.mpr ⟨hc, decide_eq_true hentry⟩
  rw [hfilter] at hmem
  have hcmds := hright _ (Option.some.inj (Option.some.inj (Option.some.inj hcmd)))
  rw [List.eq_of_mem_replicate hmem] at hcmds
  exact absurd hcmds (by decide)

end OnuFirmware.Qos
