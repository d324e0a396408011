import OnuFirmware.Other.AccessRules
import OnuFirmware.Qos.Template
import OnuFirmware.Qos.WanInterface

/-!
# The rule of a QoS type entry (`svc_wan_related_set_qos_type_rule`)

A type entry has up to ten conditions. Each gives a parameter of the command that installs the rule:
a range of addresses, ports or marks, or the names of LAN or WAN interfaces. A LAN interface is
looked up in a table by a number of the configuration. The buffer with the names of WAN interfaces
is not cleared between two conditions.
-/

namespace OnuFirmware.Qos

open Clib Cfg Lib
open Other (setAttr setAttr_of_ne)

/-! ## Builds and commands -/

/-- `TCSUPPORT_CMCCV2`, `TCSUPPORT_CUC_QOS` or `TCSUPPORT_CMCC`, `TCSUPPORT_CT_DBUS`,
`TCSUPPORT_CT_VOIP_QOS`, `TCSUPPORT_CT_2PWIFI` and `TCSUPPORT_WLAN_AC`; `multi` is
`TCSUPPORT_MULTI_USER_ITF` or `TCSUPPORT_MULTI_SWITCH_EXT`, and `ssl` is `SSL` or
`TCSUPPORT_CWMP_SSL`. The sizes are those of `typeParam_t`, of an array of them, and of
`wanType_value` in `qos_wanIf_value_t`. -/
structure RuleBuild extends Build where
  cmccv2 : Bool
  etherType : Bool
  dbus : Bool
  voipQos : Bool
  twoPWifi : Bool
  wlanAc : Bool
  multi : Bool
  ssl : Bool
  maxTypeParamNum : Nat
  nameSize : Nat
  valueSize : Nat
  wanTypeSize : Nat
deriving Repr, DecidableEq

/-- `MAX_APP_RULE_NUM`. -/
def maxAppRuleNum : Nat := 4

/-- `typeParam_t`: the name and the value of a parameter. -/
abbrev Param := Str × Str

/-- `TYPE_ADD` with the parameters, or `TYPE_DEL`. -/
inductive RuleType (α : Type)
  | add (params : α)
  | del
deriving Repr, DecidableEq

/-- `appParam_t`. -/
structure AppParam where
  appName : Str
  dstIP : Str
  dstProto : Str
  dstPort : Nat
  queueNum : Str
deriving Repr, DecidableEq

/-- The calls of the library that installs the rules. -/
inductive Cmd
  | type (rule : RuleType (List Param)) (ruleIdx : Int)
  | remark (rule : RuleType (List Param)) (ruleIdx : Int)
  | app (rule : RuleType AppParam) (ruleIdx : Int)
  | vlanid (sw : Bool) (vpi vci vlanid : Int)
  | trafficClass (add : Bool) (cls : Str) (min max : Int)
  | rtpPriority (queue : Int)
  | wanIf (rules : List Rule)
deriving Repr, DecidableEq

/-- What a call of one of the functions below does: the entry whose node it reads, unless it
returns before, and its commands. -/
structure Call where
  entry : Option Nat
  cmds : List Cmd
deriving Repr, DecidableEq

def maskName (i : Nat) : Str := snprintf 10 ("Mask".toList ++ fmtNat (i + 1))
def tmpTypeName (i : Nat) : Str := snprintf 32 ("tmpType".toList ++ fmtNat (i + 1))
def tmpMaxName (i : Nat) : Str := snprintf 32 ("tmpMax".toList ++ fmtNat (i + 1))
def tmpMinName (i : Nat) : Str := snprintf 32 ("tmpMin".toList ++ fmtNat (i + 1))
def activeName : Str := "Active".toList
def protocolIDName : Str := "ProtocolID".toList
def lanInterface : Str := "LANInterface".toList

/-- What is read of the attributes of a condition. -/
def typeText (conf : Conf) (path : Str) (i : Nat) : Str := attrText (conf path (typeName i)) 20 []
def maxText (conf : Conf) (path : Str) (i : Nat) : Str := attrText (conf path (maxName i)) 64 []
def minText (conf : Conf) (path : Str) (i : Nat) : Str := attrText (conf path (minName i)) 64 []
def maskText (conf : Conf) (path : Str) (i : Nat) : Str := attrText (conf path (maskName i)) 64 []

/-- The protocol of an entry. -/
def protoText (conf : Conf) (path : Str) : Str := attrText (conf path protocolIDName) 64 []

/-! ## The interfaces of the LAN -/

/-- `g_lanif`. -/
def RuleBuild.lanif (x : RuleBuild) : List Str :=
  (if x.twoPWifi then ["eth0.1".toList, "eth0.2".toList, [], []]
    else ["eth0.1".toList, "eth0.2".toList, "eth0.3".toList, "eth0.4".toList]) ++
  ["ra0".toList, "ra1".toList, "ra2".toList, "ra3".toList] ++
  (if x.wlanAc then ["rai0".toList, "rai1".toList, "rai2".toList, "rai3".toList] else [])

/-- The name of interface `j`; `itfName` is `prepare_itf_name`. -/
def lanName (x : RuleBuild) (itfName : Int → Option Str) (j : Int) : Except Fault Str :=
  if x.multi then .ok ((itfName j).getD [])
  else if 1 ≤ j ∧ j ≤ x.lanif.length then .ok (x.lanif.getD (j - 1).toNat [])
  else .error .overrun

/-- One turn of the loop, with `char qosCmdBuf[256]`. -/
def addLan (qosCmdBuf name : Str) : Str :=
  if name = [] then qosCmdBuf else snprintf 256 (qosCmdBuf ++ ',' :: name)

/-- The numbers from `min` to `max`. -/
def numbers (min max : Int) : List Int := (List.range (max + 1 - min).toNat).map fun n : Nat => min + n

/-- The names of the LAN interfaces of a range. -/
def lanNames (x : RuleBuild) (itfName : Int → Option Str) (minVal maxVal : Str) :
    Except Fault Str :=
  if minVal = [] then .ok []
  else
    let min := atoi minVal
    let max := if maxVal = [] then min else atoi maxVal
    (numbers min max).foldlM (fun buf j => (lanName x itfName j).map (addLan buf)) []

/-! ## The conditions -/

/-- `"%s:%s"`, or the first text alone. -/
def colonRange (minVal maxVal : Str) : Str := if maxVal = [] then minVal else minVal ++ ':' :: maxVal

/-- `"%s-%s"`, or the first text alone. -/
def dashRange (minVal maxVal : Str) : Str :=
  if maxVal ≠ [] ∧ minVal ≠ maxVal then minVal ++ '-' :: maxVal else minVal

/-- The value for an address, unless it has a mask. -/
def maskRange (minVal maxVal maskVal : Str) : Str :=
  if maskVal = [] then dashRange minVal maxVal else minVal ++ '/' :: maskVal

/-- The numbers of some protocols. -/
def etherTypeValue (minVal : Str) : Str :=
  if minVal = "ARP".toList then "0x0806".toList
  else if minVal = "IPv4".toList then "0x0800".toList
  else if minVal = "IPv6".toList then "0x86dd".toList
  else snprintf 256 minVal

/-- The parameter of a condition, if it is not one on interfaces. -/
def condParam (x : RuleBuild) (typeVal minVal maxVal maskVal : Str) : Option (String × Str) :=
  let exact (name : String) := if maxVal = minVal ∧ maxVal ≠ [] then some (name, maxVal) else none
  let param (name : String) (value : Str) := if minVal ≠ [] then some (name, value) else none
  if typeVal = "SMAC".toList then exact "smac"
  else if x.cmccv2 ∧ typeVal = "DMAC".toList then exact "dmac"
  else if typeVal = "8021P".toList then param "dot1p" (colonRange minVal maxVal)
  else if typeVal = "SIP".toList then param "sip" (maskRange minVal maxVal maskVal)
  else if typeVal = "DIP".toList then param "dip" (dashRange minVal maxVal)
  else if typeVal = "SPORT".toList then param "sport" (colonRange minVal maxVal)
  else if typeVal = "DPORT".toList then param "dport" (colonRange minVal maxVal)
  else if typeVal = "DSCP".toList then
    param (if x.joyme4 then "dscp" else "dscpORTC") (colonRange minVal maxVal)
  else if x.joyme4 ∧ typeVal = "TC".toList then param "tc" (colonRange minVal maxVal)
  else if x.joyme4 ∧ typeVal = "FL".toList then param "fl" minVal
  else if typeVal = "TOS".toList then param "tos" minVal
  else if x.etherType ∧ typeVal = "EtherType".toList then param "EtherType" (etherTypeValue minVal)
  else none

/-- The class of traffic of a condition, with CMCCV2. -/
def trafficClass (typeVal : Str) : Option Str :=
  if typeVal = "8021P".toList then some "Pbit".toList
  else if typeVal = "DSCP".toList ∨ typeVal = "TOS".toList then some typeVal
  else none

/-- The variables of the loop over the conditions, with the commands and the configuration. -/
structure TypeVars where
  params : List Param
  isGetProtol : Bool
  wanIfName : Str
  cmds : List Cmd
  conf : Conf

/-- A parameter with a text, if there is one. -/
def textParam (name : String) (value : Str) : Option (String × Str) :=
  if value = [] then none else some (name, value)

/-- A parameter as it is stored. -/
def cutParam (x : RuleBuild) (p : String × Str) : Param :=
  (snprintf x.nameSize p.1.toList, snprintf x.valueSize p.2)

/-- A parameter goes to the end of `paramArr`. -/
def addParam (x : RuleBuild) (params : List Param) (p : String × Str) :
    Except Fault (List Param) :=
  if params.length < x.maxTypeParamNum then .ok (params ++ [cutParam x p]) else .error .overrun

/-- The parameter of a condition, if it has one. -/
def TypeVars.addParam (x : RuleBuild) (v : TypeVars) (p : Option (String × Str)) :
    Except Fault TypeVars :=
  match p with
  | none => .ok v
  | some p => (Qos.addParam x v.params p).map fun params => { v with params }

/-- With CMCCV2 the class of traffic of the last time is deleted. -/
def TypeVars.dropClass (x : RuleBuild) (path : Str) (i : Nat) (v : TypeVars) : TypeVars :=
  let tmpMinVal := attrText (v.conf path (tmpMinName i)) 64 []
  let tmpMaxVal := attrText (v.conf path (tmpMaxName i)) 64 []
  let tmpTypeVal := attrText (v.conf path (tmpTypeName i)) 32 []
  if x.cmccv2 ∧ tmpMinVal ≠ [] ∧ tmpMaxVal ≠ [] ∧ tmpTypeVal ≠ [] then
    { v with
      cmds := v.cmds ++ [.trafficClass false tmpTypeVal (atoi tmpMinVal) (atoi tmpMaxVal)]
      conf := setAttr (setAttr (setAttr v.conf path (tmpMinName i) []) path (tmpMaxName i) [])
        path (tmpTypeName i) [] }
  else v

/-- With CMCCV2 the class of traffic is added. -/
def TypeVars.addClass (x : RuleBuild) (path : Str) (i : Nat) (typeVal minVal maxVal : Str)
    (v : TypeVars) : TypeVars :=
  match trafficClass typeVal with
  | none => v
  | some cls =>
    if x.cmccv2 ∧ minVal ≠ [] then
      { v with
        cmds := v.cmds ++ [.trafficClass true cls (atoi minVal) (atoi maxVal)]
        conf := setAttr (setAttr (setAttr v.conf path (tmpMinName i) minVal) path (tmpMaxName i)
          maxVal) path (tmpTypeName i) cls }
    else v

/-- The protocol of the entry, at the first condition. -/
def TypeVars.addProto (x : RuleBuild) (path : Str) (v : TypeVars) : Except Fault TypeVars :=
  if v.isGetProtol = true ∨ protoText v.conf path = [] then .ok v
  else (v.addParam x (some ("proto", protoText v.conf path))).map fun v =>
    { v with isGetProtol := true }

/-- The parameter of a condition with the texts of its attributes. -/
def TypeVars.addCond (x : RuleBuild) (itfName : Int → Option Str) (path : Str) (i : Nat)
    (typeVal minVal maxVal : Str) (v : TypeVars) : Except Fault TypeVars :=
  if typeVal = lanInterface then do
    let qosCmdBuf ← lanNames x itfName minVal maxVal
    v.addParam x (textParam "LanIf" qosCmdBuf)
  else if typeVal = wanInterface then do
    -- `wanIfName` has the size of a row of names
    let wanIfName ← setWanIfQoS v.conf 0 v.wanIfName minVal maxVal
    { v with wanIfName }.addParam x (textParam "WanIf" wanIfName)
  else do
    let v ← v.addParam x (condParam x typeVal minVal maxVal (maskText v.conf path i))
    .ok (v.addClass x path i typeVal minVal maxVal)

/-- One turn of the loop over the conditions. -/
def condTurn (x : RuleBuild) (itfName : Int → Option Str) (path : Str) (v : TypeVars) (i : Nat) :
    Except Fault TypeVars :=
  let typeVal := typeText v.conf path i
  let maxVal := maxText v.conf path i
  let minVal := minText v.conf path i
  if typeVal ≠ [] ∧ maxVal ≠ [] ∧ minVal ≠ [] then
    let v := v.dropClass x path i
    if typeVal = notAvailable ∨ maxVal = notAvailable ∨ minVal = notAvailable then .ok v
    else do
      let v ← v.addProto x path
      v.addCond x itfName path i typeVal minVal maxVal
  else .ok v

/-! ## The rule -/

/-- The queue of the second command; `none` if `-1` is returned. -/
def remarkQueue (conf : Conf) (path : Str) : Option (List (String × Str)) :=
  let buf := attrText (conf path actQueueName) 64 []
  if buf = [] then some []
  else
    let queue := attrText (conf commNode (queueBuf buf)) 64 []
    if queue = [] then some []
    else if 0 < atoi queue ∧ atoi queue < 7 then some [("queue", queue)]
    else none

/-- The 802.1p mark. -/
def remarkPbit (conf : Conf) (path : Str) : List (String × Str) :=
  let buf := attrText (conf path act8021pName) 64 []
  let dotp := attrText (conf commNode en8021PName) 10 []
  if buf = [] ∨ dotp = [] then []
  else if dotp = "0".toList then [("dot1p", "8".toList)]
  else if dotp = "1".toList then [("dot1p", "9".toList)]
  else [("dot1p", buf)]

/-- The DSCP mark. -/
def remarkDscp (conf : Conf) (path : Str) : List (String × Str) :=
  let buf := attrText (conf path actDSCPName) 64 []
  let dscpEnable := attrText (conf commNode enableDSCPName) 10 []
  if buf ≠ [] ∧ dscpEnable = "Yes".toList then [("dscpORTC", buf)] else []

/-- The second command of a rule. -/
def remarkCmds (x : RuleBuild) (conf : Conf) (path : Str) (ruleIdx : Int) :
    Except Fault (List Cmd) :=
  match remarkQueue conf path with
  | none => .ok []
  | some queue => ((queue ++ remarkPbit conf path ++ remarkDscp conf path).foldlM (addParam x)
      []).map fun params => [.remark (.add params) ruleIdx]

/-- `svc_wan_related_set_qos_type_rule`: the configuration afterwards, and what has been done. -/
def setQosTypeRule (x : RuleBuild) (itfName : Int → Option Str) (conf : Conf) (index : Int) :
    Except Fault (Conf × Call) :=
  if index < 0 ∨ maxTypeRuleNum + maxAppRuleNum - 1 < index then .ok (conf, ⟨none, []⟩)
  else
    let ruleIdx := index - 1
    let qosPath := qosEntryNode index.toNat
    if attrText (conf qosPath activeName) 64 [] = [] then
      .ok (conf, ⟨some index.toNat, [.type .del ruleIdx, .remark .del ruleIdx]⟩)
    else do
      let v ← (List.range maxTypeNum).foldlM (condTurn x itfName qosPath) ⟨[], false, [], [], conf⟩
      let remark ← remarkCmds x v.conf qosPath ruleIdx
      .ok (v.conf, ⟨some index.toNat, v.cmds ++ .type (.add v.params) ruleIdx :: remark⟩)

/-! ## Statement -/

/-- A condition that is there. -/
def CondLive (conf : Conf) (path : Str) (i : Nat) : Prop :=
  (typeText conf path i ≠ [] ∧ maxText conf path i ≠ [] ∧ minText conf path i ≠ []) ∧
    ¬ (typeText conf path i = notAvailable ∨ maxText conf path i = notAvailable ∨
      minText conf path i = notAvailable)

instance (conf : Conf) (path : Str) (i : Nat) : Decidable (CondLive conf path i) :=
  inferInstanceAs (Decidable (_ ∧ _))

/-- The names of the WAN interfaces of a condition, if it is one on them. -/
def wanNames (conf : Conf) (path : Str) (i : Nat) : Option Str :=
  if CondLive conf path i ∧ typeText conf path i = wanInterface then
    (setWanIfQoS conf 0 [] (minText conf path i) (maxText conf path i)).toOption
  else none

/-- The parameter of a condition from its own attributes. -/
def ownParam (x : RuleBuild) (itfName : Int → Option Str) (conf : Conf) (path : Str) (i : Nat) :
    Option (String × Str) :=
  if CondLive conf path i then
    if typeText conf path i = lanInterface then
      (lanNames x itfName (minText conf path i) (maxText conf path i)).toOption.bind
        (textParam "LanIf")
    else if typeText conf path i = wanInterface then
      (wanNames conf path i).bind (textParam "WanIf")
    else condParam x (typeText conf path i) (minText conf path i) (maxText conf path i)
      (maskText conf path i)
  else none

/-- The parameter for the protocol, if there is a condition. -/
def protoParam (conf : Conf) (path : Str) (is : List Nat) : Option (String × Str) :=
  if ∃ i ∈ is, CondLive conf path i then textParam "proto" (protoText conf path) else none

/-- The parameters of an entry: the protocol, and one of each condition, from its own attributes. -/
def ownParams (x : RuleBuild) (itfName : Int → Option Str) (conf : Conf) (path : Str) :
    List (String × Str) :=
  (protoParam conf path (List.range maxTypeNum)).toList ++
    (List.range maxTypeNum).filterMap (ownParam x itfName conf path)

/-- What is to be done for type entry `k`: without `Active` its rule is deleted, and otherwise it is
installed with the parameters of the entry. -/
def TypeCallRight (x : RuleBuild) (itfName : Int → Option Str) (conf : Conf) (k : Nat) (c : Call) :
    Prop :=
  c.entry = some k ∧
    if (conf (qosEntryNode k) activeName).getD [] = [] then
      c.cmds = [.type .del (k - 1), .remark .del (k - 1)]
    else ∀ rule (ruleIdx : Int), .type rule ruleIdx ∈ c.cmds ↔
      rule = .add ((ownParams x itfName conf (qosEntryNode k)).map (cutParam x)) ∧ ruleIdx = k - 1

/-- No condition on WAN interfaces that has no names comes behind one that has. -/
def NoStaleNames (conf : Conf) (path : Str) : Prop :=
  (List.range maxTypeNum).Pairwise fun j i =>
    (∃ names, wanNames conf path j = some names ∧ names ≠ []) → wanNames conf path i ≠ some []

/-! ## The numbers of LAN interfaces -/

theorem mem_numbers {min max j : Int} : j ∈ numbers min max ↔ min ≤ j ∧ j ≤ max := by
  rw [numbers, List.mem_map]
  constructor
  · rintro ⟨n, hn, rfl⟩
    rw [List.mem_range] at hn
    omega
  · intro h
    exact ⟨(j - min).toNat, List.mem_range.mpr (by omega), by omega⟩

/-- **The loop stays within the table exactly if all numbers of the range are those of rows.** -/
theorem lanNames_ok_iff {x : RuleBuild} {itfName : Int → Option Str} {minVal maxVal : Str}
    (hmulti : x.multi = false) (hmin : minVal ≠ []) (hmax : maxVal ≠ []) :
    (∃ names, lanNames x itfName minVal maxVal = .ok names) ↔
      ∀ j, atoi minVal ≤ j → j ≤ atoi maxVal → 1 ≤ j ∧ j ≤ x.lanif.length := by
  have hloop := fun names => @foldlM_eq_ok_iff Int Str Fault
    (fun buf j => (lanName x itfName j).map (addLan buf))
    (fun buf j => addLan buf (x.lanif.getD (j - 1).toNat [])) (fun j => 1 ≤ j ∧ j ≤ x.lanif.length)
    (numbers (atoi minVal) (atoi maxVal)) [] names
    (fun buf j _ hj => by rw [lanName, hmulti, if_neg Bool.false_ne_true, if_pos hj]; rfl)
    (fun buf j _ hj => ⟨.overrun, by rw [lanName, hmulti, if_neg Bool.false_ne_true, if_neg hj]; rfl⟩)
  simp only [lanNames, if_neg hmin, if_neg hmax, hloop, exists_and_left, exists_eq, and_true,
    mem_numbers, and_imp]

/-! ## What one condition does -/

section Cond

variable {x : RuleBuild} {itfName : Int → Option Str} {path : Str} {i : Nat} {conf conf' : Conf}
  {v v' : TypeVars}

/-- Attributes that are only read. -/
def SameRead (conf conf' : Conf) : Prop := ∀ p n, n.head? ≠ some 't' → conf' p n = conf p n

theorem SameRead.trans {conf'' : Conf} (h : SameRead conf conf') (h' : SameRead conf' conf'') :
    SameRead conf conf'' := fun p n hn => (h' p n hn).trans (h p n hn)

theorem sameRead_setAttr {name val : Str} (h : name.head? = some 't') :
    SameRead conf (setAttr conf path name val) := fun _ _ hn =>
  setAttr_of_ne (.inr fun he => hn (he ▸ h))

theorem head_tmpTypeName (i : Nat) : (tmpTypeName i).head? = some 't' := rfl
theorem head_tmpMaxName (i : Nat) : (tmpMaxName i).head? = some 't' := rfl
theorem head_tmpMinName (i : Nat) : (tmpMinName i).head? = some 't' := rfl

theorem typeText_congr (h : SameRead conf conf') : typeText conf' path i = typeText conf path i :=
  congrArg (attrText · 20 []) (h path (typeName i) nofun)

theorem maxText_congr (h : SameRead conf conf') : maxText conf' path i = maxText conf path i :=
  congrArg (attrText · 64 []) (h path (maxName i) nofun)

theorem minText_congr (h : SameRead conf conf') : minText conf' path i = minText conf path i :=
  congrArg (attrText · 64 []) (h path (minName i) nofun)

theorem maskText_congr (h : SameRead conf conf') : maskText conf' path i = maskText conf path i :=
  congrArg (attrText · 64 []) (h path (maskName i) nofun)

theorem protoText_congr (h : SameRead conf conf') : protoText conf' path = protoText conf path :=
  congrArg (attrText · 64 []) (h path protocolIDName nofun)

theorem setWanIfQoS_congr (h : SameRead conf conf') : setWanIfQoS conf' = setWanIfQoS conf := by
  have hadd : addIface conf' = addIface conf := by
    funext ifBuf p
    rw [addIface, addIface, h _ nasName (by decide)]
  funext idx row minVal maxVal
  rw [setWanIfQoS, setWanIfQoS, hadd]

/-- The names of a range, or what the buffer held before. -/
theorem setWanIfQoS_row (row minVal maxVal : Str) : setWanIfQoS conf 0 row minVal maxVal =
    (setWanIfQoS conf 0 [] minVal maxVal).map fun names => if names = [] then row else names := by
  rw [setWanIfQoS, setWanIfQoS]
  cases ifIndexes minVal maxVal with
  | error e => rfl
  | ok r =>
    simp only [bind, Except.bind, if_pos (by decide : 0 < maxTypeRuleNum)]
    generalize (ifacesIn r.1 r.2).foldl (addIface conf) [] = ifBuf
    by_cases h : ifBuf = []
    · rw [if_pos h, if_pos h]
      rfl
    · rw [if_neg h, if_neg h, Except.map, if_neg]
      rw [List.take_eq_nil_iff]
      exact fun hnil => hnil.elim (by decide) h

theorem addParam_ok {p : Option (String × Str)} (h : v.addParam x p = .ok v') :
    v' = { v with params := v.params ++ p.toList.map (cutParam x) } := by
  cases p with
  | none =>
    obtain rfl := Except.ok.inj h
    rw [Option.toList_none, List.map_nil, List.append_nil]
  | some p =>
    rw [TypeVars.addParam, addParam] at h
    split at h
    · exact (Except.ok.inj h).symm
    · exact nomatch h

/-- The attributes that are read stay, and no rule has been installed. -/
structure Quiet (v v' : TypeVars) : Prop where
  read : SameRead v.conf v'.conf
  cmds : ∀ rule ruleIdx, .type rule ruleIdx ∈ v'.cmds → .type rule ruleIdx ∈ v.cmds

theorem Quiet.refl (v : TypeVars) : Quiet v v := ⟨fun _ _ _ => rfl, fun _ _ h => h⟩

theorem Quiet.trans {v'' : TypeVars} (h : Quiet v v') (h' : Quiet v' v'') : Quiet v v'' :=
  ⟨h.read.trans h'.read, fun rule ruleIdx hr => h.cmds rule ruleIdx (h'.cmds rule ruleIdx hr)⟩

/-- The attributes and the command of a class of traffic. -/
theorem quiet_class (v : TypeVars) (path : Str) (i : Nat) (add : Bool) (cls a b c : Str)
    (min max : Int) : Quiet v { v with
      cmds := v.cmds ++ [.trafficClass add cls min max]
      conf := setAttr (setAttr (setAttr v.conf path (tmpMinName i) a) path (tmpMaxName i) b) path
        (tmpTypeName i) c } := by
  refine ⟨?_, fun rule ruleIdx h => ?_⟩
  · exact ((sameRead_setAttr (head_tmpMinName i)).trans (sameRead_setAttr
      (head_tmpMaxName i))).trans (sameRead_setAttr (head_tmpTypeName i))
  · exact (List.mem_append.mp h).resolve_right fun hl => nomatch List.mem_singleton.mp hl

theorem dropClass_spec (x : RuleBuild) (path : Str) (i : Nat) (v : TypeVars) :
    Quiet v (v.dropClass x path i) ∧ (v.dropClass x path i).params = v.params ∧
      (v.dropClass x path i).isGetProtol = v.isGetProtol ∧
      (v.dropClass x path i).wanIfName = v.wanIfName := by
  rw [TypeVars.dropClass]
  split
  · exact ⟨quiet_class v path i _ _ _ _ _ _ _, rfl, rfl, rfl⟩
  · exact ⟨.refl v, rfl, rfl, rfl⟩

theorem addClass_spec (x : RuleBuild) (path : Str) (i : Nat) (typeVal minVal maxVal : Str)
    (v : TypeVars) : Quiet v (v.addClass x path i typeVal minVal maxVal) ∧
      (v.addClass x path i typeVal minVal maxVal).params = v.params ∧
      (v.addClass x path i typeVal minVal maxVal).isGetProtol = v.isGetProtol ∧
      (v.addClass x path i typeVal minVal maxVal).wanIfName = v.wanIfName := by
  rw [TypeVars.addClass]
  split
  · exact ⟨.refl v, rfl, rfl, rfl⟩
  · split
    · exact ⟨quiet_class v path i _ _ _ _ _ _ _, rfl, rfl, rfl⟩
    · exact ⟨.refl v, rfl, rfl, rfl⟩

/-- What the buffer holds behind a condition. -/
def heldNames (conf : Conf) (path : Str) (kept : Str) (i : Nat) : Str :=
  match wanNames conf path i with
  | some names => if names = [] then kept else names
  | none => kept

/-- The parameter of a condition, when the buffer holds some names. -/
def turnParam (x : RuleBuild) (itfName : Int → Option Str) (conf : Conf) (path : Str) (kept : Str)
    (i : Nat) : Option (String × Str) :=
  if (wanNames conf path i).isSome then textParam "WanIf" (heldNames conf path kept i)
  else ownParam x itfName conf path i

theorem condLive_congr (h : SameRead conf conf') : CondLive conf' path i ↔ CondLive conf path i := by
  simp only [CondLive, typeText_congr h, maxText_congr h, minText_congr h]

theorem wanNames_congr (h : SameRead conf conf') : wanNames conf' path = wanNames conf path := by
  funext i
  simp only [wanNames, condLive_congr h, typeText_congr h, maxText_congr h, minText_congr h,
    setWanIfQoS_congr h]

theorem turnParam_congr (h : SameRead conf conf') (kept : Str) :
    turnParam x itfName conf' path kept i = turnParam x itfName conf path kept i := by
  simp only [turnParam, heldNames, ownParam, wanNames_congr h, condLive_congr h, typeText_congr h,
    maxText_congr h, minText_congr h, maskText_congr h]

theorem heldNames_congr (h : SameRead conf conf') (kept : Str) :
    heldNames conf' path kept i = heldNames conf path kept i := by
  rw [heldNames, heldNames, wanNames_congr h]

theorem wanNames_of_ne (h : typeText conf path i ≠ wanInterface) : wanNames conf path i = none :=
  if_neg fun hw => h hw.2

/-- **A condition adds its parameter.** -/
theorem addCond_ok (hlive : CondLive v.conf path i) (h : v.addCond x itfName path i
      (typeText v.conf path i) (minText v.conf path i) (maxText v.conf path i) = .ok v') :
    Quiet v v' ∧ v'.isGetProtol = v.isGetProtol ∧
      v'.params = v.params ++
        (turnParam x itfName v.conf path v.wanIfName i).toList.map (cutParam x) ∧
      v'.wanIfName = heldNames v.conf path v.wanIfName i := by
  rw [TypeVars.addCond] at h
  by_cases hlan : typeText v.conf path i = lanInterface
  · have hnone := @wanNames_of_ne path i v.conf (hlan ▸ by decide)
    rw [if_pos hlan] at h
    obtain ⟨names, hnames, h⟩ := bind_eq_ok.mp h
    obtain rfl := addParam_ok h
    refine ⟨⟨fun _ _ _ => rfl, fun _ _ hr => hr⟩, rfl, ?_, ?_⟩
    · rw [turnParam, hnone, ownParam, if_pos hlive, if_pos hlan, hnames]
      rfl
    · rw [heldNames, hnone]
  · rw [if_neg hlan] at h
    by_cases hwan : typeText v.conf path i = wanInterface
    · rw [if_pos hwan, setWanIfQoS_row] at h
      have hw : wanNames v.conf path i = (setWanIfQoS v.conf 0 [] (minText v.conf path i)
        (maxText v.conf path i)).toOption := if_pos ⟨hlive, hwan⟩
      obtain ⟨row, hrow, h⟩ := bind_eq_ok.mp h
      obtain ⟨names, hnames, rfl⟩ := map_eq_ok.mp hrow
      obtain rfl := addParam_ok h
      rw [hnames] at hw
      refine ⟨⟨fun _ _ _ => rfl, fun _ _ hr => hr⟩, rfl, ?_, ?_⟩
      · rw [turnParam, heldNames, hw]
        rfl
      · rw [heldNames, hw]
        rfl
    · rw [if_neg hwan] at h
      have hnone := wanNames_of_ne hwan
      obtain ⟨w, hadd, h⟩ := bind_eq_ok.mp h
      obtain rfl := addParam_ok hadd
      obtain rfl := Except.ok.inj h
      obtain ⟨hq, hparams, hgot, hnames⟩ := addClass_spec x path i (typeText v.conf path i)
        (minText v.conf path i) (maxText v.conf path i) _
      refine ⟨⟨hq.read, hq.cmds⟩, hgot, ?_, ?_⟩
      · rw [hparams, turnParam, hnone, ownParam, if_pos hlive, if_neg hlan, if_neg hwan]
        rfl
      · rw [hnames, heldNames, hnone]

theorem addProto_ok (h : v.addProto x path = .ok v') : Quiet v v' ∧ v'.wanIfName = v.wanIfName ∧
    v'.isGetProtol = (v.isGetProtol || (textParam "proto" (protoText v.conf path)).isSome) ∧
    v'.params = v.params ++ (if v.isGetProtol then [] else
      (textParam "proto" (protoText v.conf path)).toList.map (cutParam x)) := by
  rw [TypeVars.addProto] at h
  split at h
  · next hskip =>
    obtain rfl := Except.ok.inj h
    refine ⟨.refl v, rfl, ?_, ?_⟩
    · rcases hskip with hg | hnil
      · rw [hg, Bool.true_or]
      · rw [textParam, if_pos hnil, Option.isSome_none, Bool.or_false]
    · rcases hskip with hg | hnil
      · rw [hg, if_pos rfl, List.append_nil]
      · rw [textParam, if_pos hnil, Option.toList_none, List.map_nil, ite_self, List.append_nil]
  · next hread =>
    rw [not_or, Bool.not_eq_true] at hread
    obtain ⟨w, hadd, rfl⟩ := map_eq_ok.mp h
    obtain rfl := addParam_ok hadd
    refine ⟨⟨fun _ _ _ => rfl, fun _ _ hr => hr⟩, rfl, ?_, ?_⟩
    · rw [textParam, if_neg hread.2, Option.isSome_some, Bool.or_true]
    · rw [hread.1, if_neg Bool.false_ne_true, textParam, if_neg hread.2]

/-! ## What the loop does -/

theorem protoParam_cons (is : List Nat) : protoParam conf path (i :: is) =
    if CondLive conf path i then textParam "proto" (protoText conf path)
    else protoParam conf path is := by
  have hexists : (∃ j ∈ i :: is, CondLive conf path j) ↔
      CondLive conf path i ∨ ∃ j ∈ is, CondLive conf path j := by
    rw [List.exists_mem_cons_iff]
  by_cases hlive : CondLive conf path i
  · rw [protoParam, if_pos (hexists.mpr (.inl hlive)), if_pos hlive]
  · rw [protoParam, protoParam, if_neg hlive]
    simp only [hexists, hlive, false_or]

theorem turnParam_not_live (hlive : ¬ CondLive conf path i) (kept : Str) :
    turnParam x itfName conf path kept i = none ∧ heldNames conf path kept i = kept := by
  have hnone : wanNames conf path i = none := if_neg fun h => hlive h.1
  constructor
  · rw [turnParam, hnone, ownParam, if_neg hlive]
    rfl
  · rw [heldNames, hnone]

/-- **One turn of the loop.** -/
theorem condTurn_ok (hread : SameRead conf v.conf) (h : condTurn x itfName path v i = .ok v') :
    Quiet v v' ∧ v'.wanIfName = heldNames conf path v.wanIfName i ∧
      v'.isGetProtol = (v.isGetProtol || (protoParam conf path [i]).isSome) ∧
      v'.params = v.params ++ ((if v.isGetProtol then [] else (protoParam conf path [i]).toList) ++
        (turnParam x itfName conf path v.wanIfName i).toList).map (cutParam x) := by
  obtain ⟨hdrop, hdparams, hdgot, hdnames⟩ := dropClass_spec x path i v
  have hlive : CondLive conf path i ↔ CondLive v.conf path i := (condLive_congr hread).symm
  rw [protoParam_cons]
  by_cases hl : CondLive conf path i
  · rw [condTurn, if_pos (hlive.mp hl).1, if_neg (hlive.mp hl).2] at h
    rw [if_pos hl]
    generalize v.dropClass x path i = w at *
    obtain ⟨u, hproto, h⟩ := bind_eq_ok.mp h
    obtain ⟨hp, hpnames, hpgot, hpparams⟩ := addProto_ok hproto
    have hw : SameRead conf w.conf := hread.trans hdrop.read
    have hvu : SameRead v.conf u.conf := hdrop.read.trans hp.read
    have hu : SameRead conf u.conf := hread.trans hvu
    rw [← typeText_congr hvu, ← minText_congr hvu, ← maxText_congr hvu] at h
    obtain ⟨hq, hgot, hparams, hnames⟩ := addCond_ok ((condLive_congr hu).mpr hl) h
    refine ⟨(hdrop.trans hp).trans hq, ?_, ?_, ?_⟩
    · rw [hnames, hpnames, hdnames, heldNames_congr hu]
    · rw [hgot, hpgot, hdgot, protoText_congr hw]
    · rw [hparams, hpparams, hdparams, hpnames, hdnames, turnParam_congr hu, protoText_congr hw,
        hdgot, List.map_append, List.append_assoc]
      split <;> rfl
  · obtain ⟨hparam, hheld⟩ := @turnParam_not_live x itfName path i conf hl v.wanIfName
    have hend : Quiet v v' ∧ v'.params = v.params ∧ v'.isGetProtol = v.isGetProtol ∧
        v'.wanIfName = v.wanIfName := by
      rw [condTurn] at h
      split at h
      · next htexts =>
        rw [if_pos (not_not.mp fun hna => hl (hlive.mpr ⟨htexts, hna⟩))] at h
        obtain rfl := Except.ok.inj h
        exact ⟨hdrop, hdparams, hdgot, hdnames⟩
      · obtain rfl := Except.ok.inj h
        exact ⟨.refl v, rfl, rfl, rfl⟩
    obtain ⟨hq, hparams, hgot, hnames⟩ := hend
    refine ⟨hq, hnames.trans hheld.symm, ?_, ?_⟩
    · rw [hgot, if_neg hl]
      exact (Bool.or_false _).symm
    · rw [hparams, hparam, if_neg hl]
      simp only [protoParam, List.not_mem_nil, false_and, exists_false, if_false,
        Option.toList_none, ite_self, List.append_nil, List.map_nil]

/-- The parameters of the conditions, when the buffer holds some names at first. -/
def turnParams (x : RuleBuild) (itfName : Int → Option Str) (conf : Conf) (path : Str) :
    Str → List Nat → List (String × Str)
  | _, [] => []
  | kept, i :: is => (turnParam x itfName conf path kept i).toList ++
      turnParams x itfName conf path (heldNames conf path kept i) is

/-- **The loop adds the protocol and the parameters of the conditions.** -/
theorem condLoop_ok {is : List Nat} (hread : SameRead conf v.conf)
    (h : is.foldlM (condTurn x itfName path) v = .ok v') :
    Quiet v v' ∧ v'.params = v.params ++
      ((if v.isGetProtol then [] else (protoParam conf path is).toList) ++
        turnParams x itfName conf path v.wanIfName is).map (cutParam x) := by
  induction is generalizing v with
  | nil =>
    obtain rfl := Except.ok.inj h
    refine ⟨.refl v, ?_⟩
    simp [protoParam, turnParams]
  | cons i is ih =>
    rw [List.foldlM_cons] at h
    obtain ⟨w, hturn, h⟩ := bind_eq_ok.mp h
    obtain ⟨hq, hnames, hgot, hparams⟩ := condTurn_ok hread hturn
    obtain ⟨hrest, hrestParams⟩ := ih (hread.trans hq.read) h
    refine ⟨hq.trans hrest, ?_⟩
    rw [hrestParams, hparams, hnames, hgot, turnParams, protoParam_cons, protoParam_cons,
      List.append_assoc, ← List.map_append]
    refine congrArg (v.params ++ List.map (cutParam x) ·) ?_
    cases hg : v.isGetProtol with
    | true => rfl
    | false =>
      by_cases hl : CondLive conf path i
      · simp only [if_pos hl, Bool.false_or, Bool.false_eq_true, if_false]
        cases hp : textParam "proto" (protoText conf path) with
        | some p => simp
        | none =>
          have hnone : protoParam conf path is = none := by
            rw [protoParam, hp, ite_self]
          simp [hnone]
      · -- a condition that is not there leaves the protocol to the next one
        rw [(turnParam_not_live hl _).1]
        simp [hl, protoParam]

theorem filterMap_cons_toList {α β : Type*} (f : α → Option β) (a : α) (l : List α) :
    (a :: l).filterMap f = (f a).toList ++ l.filterMap f := by
  rw [List.filterMap_cons]
  cases f a <;> rfl

/-- A condition on WAN interfaces has the parameter of its names. -/
theorem ownParam_of_names {names : Str} (h : wanNames conf path i = some names) :
    ownParam x itfName conf path i = textParam "WanIf" names := by
  have hcond : CondLive conf path i ∧ typeText conf path i = wanInterface := by
    by_contra hno
    rw [wanNames, if_neg hno] at h
    exact nomatch h
  rw [ownParam, if_pos hcond.1, if_neg (by rw [hcond.2]; decide), if_pos hcond.2, h]
  rfl

/-- The parameter is that of the condition by itself, unless there are only names in the buffer. -/
theorem turnParam_eq (kept : Str) (h : kept = [] ∨ wanNames conf path i ≠ some []) :
    turnParam x itfName conf path kept i = ownParam x itfName conf path i := by
  rw [turnParam, heldNames]
  cases hnames : wanNames conf path i with
  | none => rfl
  | some names =>
    rw [ownParam_of_names hnames, Option.isSome_some, if_pos rfl]
    simp only
    split
    · next hnil =>
      rw [hnil, h.resolve_right fun hne => hne (hnil ▸ hnames)]
    · rfl

theorem length_filterMap_ownParam_le (kept : Str) (is : List Nat) :
    (is.filterMap (ownParam x itfName conf path)).length ≤
      (turnParams x itfName conf path kept is).length := by
  induction is generalizing kept with
  | nil => exact Nat.le_refl _
  | cons i is ih =>
    rw [filterMap_cons_toList, turnParams, List.length_append, List.length_append]
    refine Nat.add_le_add ?_ (ih _)
    by_cases h : kept = [] ∨ wanNames conf path i ≠ some []
    · rw [turnParam_eq kept h]
    · rw [not_or, not_not] at h
      rw [ownParam_of_names h.2]
      exact Nat.zero_le _

/-- **The parameters are those of the conditions by themselves exactly if no condition on WAN
interfaces without names finds names in the buffer.** -/
theorem turnParams_eq_iff (kept : Str) (is : List Nat) :
    (turnParams x itfName conf path kept is).map (cutParam x) =
        (is.filterMap (ownParam x itfName conf path)).map (cutParam x) ↔
      (kept ≠ [] → ∀ i ∈ is, wanNames conf path i ≠ some []) ∧ is.Pairwise fun j i =>
        (∃ names, wanNames conf path j = some names ∧ names ≠ []) →
          wanNames conf path i ≠ some [] := by
  induction is generalizing kept with
  | nil => exact iff_of_true rfl ⟨fun _ i hi => absurd hi List.not_mem_nil, .nil⟩
  | cons i is ih =>
    rw [turnParams, filterMap_cons_toList, List.map_append, List.map_append, List.forall_mem_cons,
      List.pairwise_cons]
    by_cases h : kept = [] ∨ wanNames conf path i ≠ some []
    · rw [turnParam_eq kept h, List.append_cancel_left_eq, ih, heldNames]
      cases hnames : wanNames conf path i with
      | none =>
        simp only [reduceCtorEq, false_and, exists_false, false_imp_iff, implies_true, ne_eq,
          not_false_eq_true, true_and]
      | some names =>
        by_cases hnil : names = []
        · have hkept := h.resolve_right fun hne => hne (hnil ▸ hnames)
          simp [hnil, hkept]
        · simp only [Option.some_inj, ne_eq, hnil, not_false_eq_true, true_imp_iff, exists_eq_left',
            if_false, true_and]
          exact (and_iff_right_of_imp fun hp _ => hp.1).symm
    · rw [not_or, not_not] at h
      refine iff_of_false (fun heq => ?_) fun hr => (hr.1 h.1).1 h.2
      -- the condition has no parameter, but the buffer gives it one
      have hlen := congrArg List.length heq
      have hle := @length_filterMap_ownParam_le x itfName path conf (heldNames conf path kept i) is
      simp only [List.length_append, List.length_map] at hlen
      rw [ownParam_of_names h.2, turnParam, heldNames, h.2, Option.isSome_some, if_pos rfl] at hlen
      simp only [if_true, textParam, if_neg h.1, Option.toList_some, Option.toList_none,
        List.length_singleton, List.length_nil] at hlen
      rw [heldNames, h.2] at hle
      simp only [if_true] at hle
      omega

end Cond

/-! ## A call -/

theorem type_notMem_remarkCmds {x : RuleBuild} {conf : Conf} {path : Str} {idx ruleIdx : Int}
    {rule : RuleType (List Param)} {cmds : List Cmd} (h : remarkCmds x conf path idx = .ok cmds) :
    .type rule ruleIdx ∉ cmds := by
  rw [remarkCmds] at h
  split at h
  · obtain rfl := Except.ok.inj h
    exact List.not_mem_nil
  · obtain ⟨params, -, rfl⟩ := map_eq_ok.mp h
    exact fun hmem => nomatch List.mem_singleton.mp hmem

theorem active_nil_iff {conf : Conf} {path : Str} : attrText (conf path activeName) 64 [] = [] ↔
    (conf path activeName).getD [] = [] := by
  rw [attrText_getD, snprintf_eq_nil_iff (by decide)]

/-- **A type entry is treated right exactly if it has no rule or no condition finds the names of
another one.** -/
theorem typeCall_right_iff {x : RuleBuild} {itfName : Int → Option Str} {conf conf' : Conf}
    {k : Nat} {c : Call} (hk : k < maxTypeRuleNum + maxAppRuleNum)
    (h : setQosTypeRule x itfName conf k = .ok (conf', c)) :
    TypeCallRight x itfName conf k c ↔
      (conf (qosEntryNode k) activeName).getD [] = [] ∨ NoStaleNames conf (qosEntryNode k) := by
  have hrange : ¬ ((k : Int) < 0 ∨ (maxTypeRuleNum : Int) + maxAppRuleNum - 1 < k) := by omega
  rw [setQosTypeRule, if_neg hrange, Int.toNat_natCast] at h
  simp only [active_nil_iff] at h
  by_cases hactive : (conf (qosEntryNode k) activeName).getD [] = []
  · rw [if_pos hactive] at h
    obtain ⟨-, rfl⟩ := Prod.mk.inj (Except.ok.inj h)
    rw [TypeCallRight, if_pos hactive]
    exact iff_of_true ⟨rfl, rfl⟩ (.inl hactive)
  · rw [if_neg hactive] at h
    rw [TypeCallRight, if_neg hactive, or_iff_right hactive]
    obtain ⟨v, hloop, h⟩ := bind_eq_ok.mp h
    obtain ⟨remark, hremark, h⟩ := bind_eq_ok.mp h
    obtain ⟨-, rfl⟩ := Prod.mk.inj (Except.ok.inj h)
    obtain ⟨hquiet, hparams⟩ := condLoop_ok (fun _ _ _ => rfl) hloop
    have hmem : ∀ rule ruleIdx, Cmd.type rule ruleIdx ∈
        v.cmds ++ .type (.add v.params) (k - 1) :: remark ↔
          rule = .add v.params ∧ ruleIdx = k - 1 := by
      intro rule ruleIdx
      rw [List.mem_append, List.mem_cons, or_iff_left (type_notMem_remarkCmds hremark),
        or_iff_right fun hr => absurd (hquiet.cmds rule ruleIdx hr) List.not_mem_nil,
        Cmd.type.injEq]
    simp only [hmem, true_and]
    have hsame : v.params = (ownParams x itfName conf (qosEntryNode k)).map (cutParam x) ↔
        NoStaleNames conf (qosEntryNode k) := by
      simp only [List.nil_append, Bool.false_eq_true, if_false] at hparams
      rw [hparams, ownParams, List.map_append, List.map_append, List.append_cancel_left_eq,
        turnParams_eq_iff]
      exact and_iff_right fun hne => absurd rfl hne
    rw [← hsame]
    constructor
    · exact fun hall => RuleType.add.inj ((hall (.add v.params) (k - 1)).mp ⟨rfl, rfl⟩).1
    · exact fun heq _ _ => by rw [heq]

end OnuFirmware.Qos
