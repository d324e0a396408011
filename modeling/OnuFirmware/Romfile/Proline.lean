import OnuFirmware.Cfg.AttrWrite
import OnuFirmware.Clib.Num

/-!
# Parameters of the production line (`cfg_romfile.c`)

In a build with `TCSUPPORT_PRODUCTIONLINE` and `TCSUPPORT_RESERVEAREA_EXTEND`,
`handle_proline_paras` overwrites attributes of the objects that were just loaded with what the
production line left in the reserve area, or with defaults where it left nothing. Which attributes
get which values can be read off the loaded objects (`prolineCalls`), and nothing changes exactly if
each of them has its value already (`handleProlineParas_eq_self_iff`). The mxml tree that the source
passes to the function is not used by it.

The types of these nodes have the default functions, apart from events that are sent in addition.
The value of `DeviceRole` in `root.mesh.common` is set by `cfg_type_mesh_common_func_set` in the
build with `TCSUPPORT_MAP_R2`.
-/

namespace OnuFirmware.Romfile

open Lib Clib Cfg

/-! ## Parameters -/

/-- The compile switches of the parameters: `TCSUPPORT_WLAN`, `TCSUPPORT_WLAN_AC`,
`TCSUPPORT_CT_WAN_PTM`, `TCSUPPORT_ECNT_MAP`, `TCSUPPORT_MAP_R2`, `TCSUPPORT_CT_JOYME4`,
`TCSUPPORT_CMCCV2`, `TCSUPPORT_NP_CMCC`, `TCSUPPORT_NP`, `TCSUPPORT_CUC` and `TCSUPPORT_CRJO`. -/
structure ProlineBuild where
  wlan : Bool
  wlanAc : Bool
  ctWanPtm : Bool
  ecntMap : Bool
  mapR2 : Bool
  ctJoyme4 : Bool
  cmccv2 : Bool
  npCmcc : Bool
  np : Bool
  cuc : Bool
  crjo : Bool
deriving Repr, DecidableEq

/-- The parameters in `prolinePara`, by their flags. -/
inductive ProlineField
  | ssid
  | wpakey
  | ssid2nd
  | wpakey2nd
  | ssidac
  | wpakeyac
  | ssid2ndac
  | wpakey2ndac
  | webpwd
  | xponsn
  | xponpwd
  | gponregid
  | xponmode
  | mapbhssid2g
  | mapbhwpakey2g
  | mapbhssid5g
  | mapbhwpakey5g
  | mapdevrole
deriving Repr, DecidableEq

/-- `proline_Para` as `tcgetProLinePara` fills it, zeros if it fails. A field is a text up to its
NUL in an array of `len` bytes, and `buff` has room for the longest. The structure is declared
outside this repository. -/
structure ProlinePara where
  magic : UInt32
  flag : ProlineField → Bool
  text : ProlineField → Str
  len : ProlineField → Nat
  len_le : ∀ f, len f ≤ 128

def productlineparamagic : UInt32 := 0x12344321

/-- `checkParaValid`. -/
def checkParaValid (buf : Str) (len : Nat) : Bool := (buf.take (len - 1)).all fun c => c ≠ '\xff'

/-- `DEFAULT_SSID`. -/
def ProlineBuild.defaultSsid (B : ProlineBuild) : Str :=
  if B.cmccv2 then "CMCC-AP".toList else "ChinaNet-AP".toList

/-- The value of a parameter that is missing or invalid. -/
def ProlineBuild.default (B : ProlineBuild) : ProlineField → Str
  | .ssid => if B.cmccv2 || B.npCmcc then "CMCC-AP1".toList else B.defaultSsid
  | .ssid2nd => if B.cmccv2 || B.npCmcc then "CMCC-AP2".toList else B.defaultSsid
  | .ssidac => if B.cmccv2 || B.npCmcc then "CMCC-AP1-5G".toList else B.defaultSsid
  | .ssid2ndac => if B.cmccv2 || B.npCmcc then "CMCC-AP2-5G".toList else B.defaultSsid
  | .wpakey | .wpakey2nd | .wpakeyac | .wpakey2ndac => "12345678".toList
  | .webpwd => "1234".toList
  | .xponsn => if B.crjo then "MSTC00223344".toList else "FHTT12345678".toList
  | .xponpwd | .gponregid => if B.cmccv2 then [] else "00000001".toList
  | .xponmode => "GPON".toList
  | .mapbhssid2g => if B.cmccv2 || B.np then "CMCC-AP2".toList else B.defaultSsid
  | .mapbhssid5g => if B.cmccv2 || B.np then "CMCC-AP2-5G".toList else B.defaultSsid
  | .mapbhwpakey2g | .mapbhwpakey5g => "12345678".toList
  | .mapdevrole => if B.ctJoyme4 then "2".toList else "1".toList

/-- The parameter is in the block and marked as set. -/
def ProlinePara.given (para : ProlinePara) (f : ProlineField) : Bool :=
  para.magic == productlineparamagic && para.flag f

/-- One case of `parseProlinePara`. -/
def ProlinePara.value (B : ProlineBuild) (para : ProlinePara) (f : ProlineField) (valid : Bool) :
    Str :=
  snprintf (para.len f) (if para.given f && valid then para.text f else B.default f)

/-- `parseProlinePara`; `none` for `FAIL`. `xponMode` is the mode of the ONU, `0` in a build without
PON. The serial number and the password are not checked. -/
def parseProlinePara (B : ProlineBuild) (xponMode : Int) (para : ProlinePara) (f : ProlineField) :
    Option Str :=
  if B.cuc && !para.given f then none
  else
    match f with
    | .xponsn => if B.ctWanPtm then none else some (para.value B f true)
    | .xponpwd => if B.ctWanPtm ∨ xponMode ≠ 1 then none else some (para.value B f true)
    | .gponregid =>
      if B.ctWanPtm ∨ xponMode ≠ 6 then none
      else some (para.value B f (checkParaValid (para.text f) (para.len f)))
    | .xponmode =>
      if B.ctWanPtm then none
      else some (para.value B f (checkParaValid (para.text f) (para.len f)))
    | f => some (para.value B f (checkParaValid (para.text f) (para.len f)))

/-! ## The table -/

def xponLinkcfgNode : Str := "root.xpon.linkcfg".toList
def gponOnuNode : Str := "root.gpon.onu".toList
def meshCommonNode : Str := "root.mesh.common".toList
def meshDefsettingNode : Str := "root.mesh.defsetting".toList
def meshApclibhEntryNode (n : Nat) : Str := "root.mesh.apclibh.entry.".toList ++ fmtNat n
def wlanEntryNNode (n : Nat) : Str := "root.wlan.entry.".toList ++ fmtNat n
def wlan11acEntryNNode (n : Nat) : Str := "root.wlan11ac.entry.".toList ++ fmtNat n
def meshRadio2gBssinfoEntryNode (n : Nat) : Str :=
  "root.mesh.radio2gbssinfo.entry.".toList ++ fmtNat n
def meshRadio5glBssinfoEntryNode (n : Nat) : Str :=
  "root.mesh.radio5glbssinfo.entry.".toList ++ fmtNat n

/-- `Key_Parameters2_Info`, as far as the function reads it; `attr` is empty for `NULL`. -/
structure KeyParameter where
  field : ProlineField
  node : Str
  attr : Str
deriving Repr, DecidableEq

/-- The rows of `prolinePara` before the role of the device. -/
def prolineRows (B : ProlineBuild) : List KeyParameter :=
  (if B.wlan then
    [⟨.ssid, wlanEntryNNode 1, "SSID".toList⟩,
      ⟨.wpakey, wlanEntryNNode 1, "WPAPSK".toList⟩,
      ⟨.ssid2nd, wlanEntryNNode 2, "SSID".toList⟩,
      ⟨.wpakey2nd, wlanEntryNNode 2, "WPAPSK".toList⟩] ++
    (if B.wlanAc then
      [⟨.ssidac, wlan11acEntryNNode 1, "SSID".toList⟩,
        ⟨.wpakeyac, wlan11acEntryNNode 1, "WPAPSK".toList⟩,
        ⟨.ssid2ndac, wlan11acEntryNNode 2, "SSID".toList⟩,
        ⟨.wpakey2ndac, wlan11acEntryNNode 2, "WPAPSK".toList⟩]
    else [])
  else []) ++
  ⟨.webpwd, "root.account.entry.2".toList, "web_passwd".toList⟩ ::
  (if B.ctWanPtm then [] else [⟨.xponsn, gponOnuNode, "SerialNumber".toList⟩]) ++
  [⟨.xponpwd, gponOnuNode, "Password".toList⟩,
    ⟨.gponregid, gponOnuNode, "Password".toList⟩,
    ⟨.xponmode, xponLinkcfgNode, "Mode".toList⟩] ++
  (if B.ecntMap then
    [⟨.mapbhssid2g, meshApclibhEntryNode 1, "BhProfileSsid".toList⟩,
      ⟨.mapbhwpakey2g, meshApclibhEntryNode 1, "BhProfileWpaPsk".toList⟩,
      ⟨.mapbhssid5g, meshApclibhEntryNode 2, "BhProfileSsid".toList⟩,
      ⟨.mapbhwpakey5g, meshApclibhEntryNode 2, "BhProfileWpaPsk".toList⟩]
  else [])

/-- The last row, whose attribute is `NULL`. -/
def mapdevroleRow : KeyParameter := ⟨.mapdevrole, meshCommonNode, []⟩

/-- `prolinePara`. -/
def prolinePara (B : ProlineBuild) : List KeyParameter :=
  prolineRows B ++ if B.ecntMap then [mapdevroleRow] else []

/-! ## The backhaul of a mesh -/

section

variable (B : ProlineBuild) (tt : TypeTree)

/-- `get_map_bh_index`, for the nodes of one radio. -/
def getMapBhIndex (st : ObjState) (node : Nat → Str) : List Nat → Except Fault (Option Nat)
  | [] => .ok none
  | i :: is => do
    let value ← cfgGetObjectAttrAt tt st (node i) "BackHaul".toList 10
    if 0 < value.1 ∧ atoi value.2 = 1 then .ok (some i) else getMapBhIndex st node is

/-- The calls in the switch of `update_mapbhinfo_from_proline`. -/
def roleCalls (deviceRole : Int) (bh2g bh5g : Nat) (ssid2g wpapsk2g ssid5g wpapsk5g : Str) :
    List SetCall :=
  if deviceRole = 0 ∨ deviceRole = 1 then
    [⟨meshApclibhEntryNode 1, "BhProfileValid".toList, "0".toList⟩,
      ⟨meshApclibhEntryNode 2, "BhProfileValid".toList, "0".toList⟩,
      ⟨wlanEntryNNode bh2g, "SSID".toList, ssid2g⟩,
      ⟨wlanEntryNNode bh2g, "WPAPSK".toList, wpapsk2g⟩,
      ⟨wlan11acEntryNNode bh5g, "SSID".toList, ssid5g⟩,
      ⟨wlan11acEntryNNode bh5g, "WPAPSK".toList, wpapsk5g⟩]
  else if deviceRole = 2 ∧ B.ctJoyme4 = false then
    [⟨meshApclibhEntryNode 1, "BhProfileValid".toList, "1".toList⟩,
      ⟨meshApclibhEntryNode 2, "BhProfileValid".toList, "1".toList⟩]
  else []

/-- What `update_mapbhinfo_from_proline` calls after it has set the role. -/
def backhaulCalls (st : ObjState) (buff : Str) : Except Fault (List SetCall) := do
  let ssid2g ← cfgGetObjectAttrAt tt st (meshApclibhEntryNode 1) "BhProfileSsid".toList 40
  let wpapsk2g ← cfgGetObjectAttrAt tt st (meshApclibhEntryNode 1) "BhProfileWpaPsk".toList 80
  let ssid5g ← cfgGetObjectAttrAt tt st (meshApclibhEntryNode 2) "BhProfileSsid".toList 40
  let wpapsk5g ← cfgGetObjectAttrAt tt st (meshApclibhEntryNode 2) "BhProfileWpaPsk".toList 80
  let bh2g ← getMapBhIndex tt st meshRadio2gBssinfoEntryNode [1, 2, 3, 4]
  let bh5g ← getMapBhIndex tt st meshRadio5glBssinfoEntryNode [1, 2, 3, 4]
  match bh2g, bh5g with
  | some i, some j =>
    if ssid2g.2 ≠ [] ∧ wpapsk2g.2 ≠ [] ∧ ssid5g.2 ≠ [] ∧ wpapsk5g.2 ≠ [] then
      -- the role is stored in an `unsigned char`
      .ok (roleCalls B (atoi buff % 256) i j ssid2g.2 wpapsk2g.2 ssid5g.2 wpapsk5g.2)
    else .ok []
  | _, _ => .ok []

/-- The part of `cfg_type_mesh_common_func_set` before the role is set: a controller that becomes
something else is marked. -/
def cleanCalls (st : ObjState) (buff : Str) : Except Fault (List SetCall) := do
  if B.mapR2 then
    let deviceRole ← cfgGetObjectAttrAt tt st meshCommonNode "DeviceRole".toList 16
    if deviceRole.2 = "1".toList ∧ deviceRole.2 ≠ buff then
      .ok [⟨meshCommonNode, "CleanApclibhFlag".toList, " 1".toList⟩]
    else .ok []
  else .ok []

/-- `update_mapbhinfo_from_proline`. -/
def updateMapbhinfoFromProline (st : ObjState) (buff : Str) : Except Fault ObjState := do
  if buff = [] then .ok st
  else
    let st ← setAll tt st (← cleanCalls B tt st buff)
    let st ← cfgSetObjectAttr tt st meshCommonNode "DeviceRole".toList buff
    let st ← cfgSetObjectAttr tt st meshDefsettingNode "DeviceRole".toList buff
    setAll tt st (← backhaulCalls B tt st buff)

/-! ## Writing the parameters -/

/-- The value of one row. The mode of the PON is a number in the tree. -/
def KeyParameter.calls (row : KeyParameter) (buff : Str) : List SetCall :=
  if row.node = xponLinkcfgNode then
    if buff = "EPON".toList then [⟨row.node, "Mode".toList, "2".toList⟩]
    else if buff = "GPON".toList then [⟨row.node, "Mode".toList, "1".toList⟩]
    else []
  else [⟨row.node, row.attr, buff⟩]

/-- The third and the fourth entry get the name of the first with a suffix, if they exist. -/
def suffixTurn (node : Nat → Str) (attr buff : Str) (st : ObjState) (n : Nat) :
    Except Fault ObjState := do
  if 0 < (← cfgQueryObject tt st (node n)) then
    cfgSetObjectAttr tt st (node n) attr (snprintf 256 (buff ++ '-' :: fmtNat n))
  else .ok st

/-- The branch in the build with `TCSUPPORT_NP_CMCC`. -/
def updateOtherEntries (st : ObjState) (row : KeyParameter) (buff : Str) : Except Fault ObjState :=
  if B.npCmcc then
    if row.field = .ssid then [3, 4].foldlM (suffixTurn tt wlanEntryNNode row.attr buff) st
    else if B.wlanAc ∧ row.field = .ssidac then
      [3, 4].foldlM (suffixTurn tt wlan11acEntryNNode row.attr buff) st
    else .ok st
  else .ok st

/-- One turn of the loop of `handle_proline_paras`. -/
def prolineTurn (xponMode : Int) (para : ProlinePara) (st : ObjState) (row : KeyParameter) :
    Except Fault ObjState := do
  if (← cfgQueryObject tt st row.node) ≤ 0 then .ok st
  else
    match parseProlinePara B xponMode para row.field with
    | none => .ok st
    | some buff =>
      let st ← setAll tt st (row.calls buff)
      if row.field = .mapdevrole then updateMapbhinfoFromProline B tt st buff
      else updateOtherEntries B tt st row buff

/-- `handle_proline_paras`. -/
def handleProlineParas (xponMode : Int) (para : ProlinePara) (st : ObjState) :
    Except Fault ObjState :=
  (prolinePara B).foldlM (prolineTurn B tt xponMode para) st

/-! ## The calls, read off the loaded objects -/

/-- The calls of `update_mapbhinfo_from_proline`. -/
def mapCalls (st : ObjState) (buff : Str) : Except Fault (List SetCall) := do
  if buff = [] then .ok []
  else
    let clean ← cleanCalls B tt st buff
    let bh ← backhaulCalls B tt st buff
    .ok (clean ++ ⟨meshCommonNode, "DeviceRole".toList, buff⟩ ::
      ⟨meshDefsettingNode, "DeviceRole".toList, buff⟩ :: bh)

/-- The names with a suffix, for the entries that exist. -/
def suffixCalls (st : ObjState) (node : Nat → Str) (attr buff : Str) :
    List Nat → Except Fault (List SetCall)
  | [] => .ok []
  | n :: ns => do
    let r ← cfgQueryObject tt st (node n)
    let calls ← suffixCalls st node attr buff ns
    .ok (if 0 < r then ⟨node n, attr, snprintf 256 (buff ++ '-' :: fmtNat n)⟩ :: calls else calls)

def otherEntryCalls (st : ObjState) (row : KeyParameter) (buff : Str) :
    Except Fault (List SetCall) :=
  if B.npCmcc then
    if row.field = .ssid then suffixCalls tt st wlanEntryNNode row.attr buff [3, 4]
    else if B.wlanAc ∧ row.field = .ssidac then
      suffixCalls tt st wlan11acEntryNNode row.attr buff [3, 4]
    else .ok []
  else .ok []

def moreCalls (st : ObjState) (row : KeyParameter) (buff : Str) : Except Fault (List SetCall) :=
  if row.field = .mapdevrole then mapCalls B tt st buff else otherEntryCalls B tt st row buff

/-- The calls of one row. -/
def rowCalls (xponMode : Int) (para : ProlinePara) (st : ObjState) (row : KeyParameter) :
    Except Fault (List SetCall) := do
  if (← cfgQueryObject tt st row.node) ≤ 0 then .ok []
  else
    match parseProlinePara B xponMode para row.field with
    | none => .ok []
    | some buff =>
      let more ← moreCalls B tt st row buff
      .ok (row.calls buff ++ more)

/-- The calls of some rows. -/
def rowsCalls (xponMode : Int) (para : ProlinePara) (st : ObjState) :
    List KeyParameter → Except Fault (List SetCall)
  | [] => .ok []
  | row :: rows => do
    let calls ← rowCalls B tt xponMode para st row
    let more ← rowsCalls xponMode para st rows
    .ok (calls ++ more)

/-- The attributes that the parameters set on these objects. -/
def prolineCalls (xponMode : Int) (para : ProlinePara) (st : ObjState) :
    Except Fault (List SetCall) :=
  rowsCalls B tt xponMode para st (prolinePara B)

end

/-! ## The turns make the calls -/

/-- Code that starts in `st` ends exactly if the calls can be read off and made, and makes them. -/
def Makes (tt : TypeTree) (st : ObjState) (x : Except Fault ObjState)
    (calls : Except Fault (List SetCall)) : Prop :=
  ∀ s, x = .ok s ↔ ∃ l, calls = .ok l ∧ setAll tt st l = .ok s

section

variable {B : ProlineBuild} {tt : TypeTree} {st st' : ObjState} {x : Except Fault ObjState}
  {calls more : Except Fault (List SetCall)} {y : ObjState → Except Fault ObjState} {buff : Str}

theorem except_bind_ok {α β : Type} {x : Except Fault α} {f : α → Except Fault β} {b : β} :
    x.bind f = .ok b ↔ ∃ a, x = .ok a ∧ f a = .ok b := by
  cases x with
  | error e => simp [Except.bind]
  | ok a => simp [Except.bind]

theorem makes_setAll (l : List SetCall) : Makes tt st (setAll tt st l) (.ok l) := by
  intro s
  simp

theorem makes_nil : Makes tt st (.ok st) (.ok []) := makes_setAll []

theorem makes_set (path attr val : Str) :
    Makes tt st (cfgSetObjectAttr tt st path attr val) (.ok [⟨path, attr, val⟩]) := by
  have hone := @makes_setAll tt st [⟨path, attr, val⟩]
  rwa [show setAll tt st [⟨path, attr, val⟩] = cfgSetObjectAttr tt st path attr val by
    simp [setAll]] at hone

/-- One more call. -/
theorem setAll_bind_set (l : List SetCall) (path attr val : Str) :
    ((setAll tt st l).bind fun s => (cfgSetObjectAttr tt s path attr val).bind y) =
      (setAll tt st (l ++ [⟨path, attr, val⟩])).bind y := by
  rw [setAll_append]
  cases setAll tt st l with
  | error e => rfl
  | ok s =>
    show (cfgSetObjectAttr tt s path attr val).bind y = (setAll tt s [⟨path, attr, val⟩]).bind y
    rw [setAll_cons]
    cases cfgSetObjectAttr tt s path attr val <;> rfl

theorem setAll_append_ok {l l' : List SetCall} {s : ObjState} :
    setAll tt st (l ++ l') = .ok s ↔ ∃ s', setAll tt st l = .ok s' ∧ setAll tt s' l' = .ok s := by
  rw [setAll_append]
  exact except_bind_ok

/-- Something is looked up first. -/
theorem Makes.look {α : Type} {q : Except Fault α} {f : α → Except Fault ObjState}
    {c : α → Except Fault (List SetCall)} (h : ∀ a, q = .ok a → Makes tt st (f a) (c a)) :
    Makes tt st (q.bind f) (q.bind c) := by
  intro s
  cases q with
  | error e => simp [Except.bind]
  | ok a => exact h a rfl s

/-- Code in two parts, of which the second makes calls that can be read off the first state. -/
theorem Makes.bind (hx : Makes tt st x calls)
    (hy : ∀ s l, calls = .ok l → setAll tt st l = .ok s → Makes tt s (y s) more) :
    Makes tt st (x.bind y) (calls.bind fun l => more.bind fun l' => .ok (l ++ l')) := by
  intro s
  rw [except_bind_ok]
  constructor
  · rintro ⟨s', hs', hs⟩
    obtain ⟨l, hl, hset⟩ := (hx s').mp hs'
    obtain ⟨l', hl', hset'⟩ := (hy s' l hl hset s).mp hs
    exact ⟨l ++ l', by rw [hl, hl']; rfl, setAll_append_ok.mpr ⟨s', hset, hset'⟩⟩
  · rintro ⟨m, hm, hset⟩
    obtain ⟨l, hl, hm⟩ := except_bind_ok.mp hm
    obtain ⟨l', hl', hm⟩ := except_bind_ok.mp hm
    obtain rfl := Except.ok.inj hm
    obtain ⟨s', hset, hset'⟩ := setAll_append_ok.mp hset
    exact ⟨s', (hx s').mpr ⟨l, hl, hset⟩, (hy s' l hl hset s).mpr ⟨l', hl', hset'⟩⟩

/-- The names of the attributes that the backhaul is read from. -/
def backhaulNames : List Str :=
  ["BhProfileSsid".toList, "BhProfileWpaPsk".toList, "BackHaul".toList]

/-- Two states give the same when an attribute is read. -/
def SameAttr (tt : TypeTree) (st st' : ObjState) (attr : Str) : Prop :=
  ∀ path size, cfgGetObjectAttrAt tt st' path attr size = cfgGetObjectAttrAt tt st path attr size

theorem getMapBhIndex_congr (h : SameAttr tt st st' "BackHaul".toList) (node : Nat → Str) :
    ∀ is, getMapBhIndex tt st' node is = getMapBhIndex tt st node is
  | [] => rfl
  | i :: is => by
    unfold getMapBhIndex
    rw [h, getMapBhIndex_congr h node is]

theorem backhaulCalls_congr (h : ∀ n ∈ backhaulNames, SameAttr tt st st' n) :
    backhaulCalls B tt st' buff = backhaulCalls B tt st buff := by
  obtain ⟨hssid, hpsk, hbh, -⟩ : SameAttr tt st st' "BhProfileSsid".toList ∧
      SameAttr tt st st' "BhProfileWpaPsk".toList ∧ SameAttr tt st st' "BackHaul".toList ∧ True :=
    ⟨h _ (by simp [backhaulNames]), h _ (by simp [backhaulNames]), h _ (by simp [backhaulNames]),
      trivial⟩
  unfold backhaulCalls
  simp only [hssid _ _, hpsk _ _, getMapBhIndex_congr hbh]

theorem cleanCalls_congr (h : SameAttr tt st st' "DeviceRole".toList) :
    cleanCalls B tt st' buff = cleanCalls B tt st buff := by
  unfold cleanCalls
  simp only [h _ _]

theorem mapCalls_congr (hrole : SameAttr tt st st' "DeviceRole".toList)
    (h : ∀ n ∈ backhaulNames, SameAttr tt st st' n) :
    mapCalls B tt st' buff = mapCalls B tt st buff := by
  unfold mapCalls
  rw [cleanCalls_congr hrole, backhaulCalls_congr h]

theorem attr_of_mem_cleanCalls {l : List SetCall} (h : cleanCalls B tt st buff = .ok l) :
    ∀ c ∈ l, c.attr = "CleanApclibhFlag".toList := by
  unfold cleanCalls at h
  split at h
  · obtain ⟨role, -, h⟩ := except_bind_ok.mp h
    split at h
    · obtain rfl := Except.ok.inj h
      simp
    · obtain rfl := Except.ok.inj h
      simp
  · obtain rfl := Except.ok.inj h
    simp

theorem sameAttr_setAll {l : List SetCall} (h : setAll tt st l = .ok st') {attr : Str}
    (hne : ∀ c ∈ l, attr ≠ c.attr) : SameAttr tt st st' attr :=
  fun path size => cfgGetObjectAttrAt_setAll h hne path size

/-- **`update_mapbhinfo_from_proline` sets the role and then the backhaul.** -/
theorem updateMapbhinfoFromProline_makes (st : ObjState) (buff : Str) :
    Makes tt st (updateMapbhinfoFromProline B tt st buff) (mapCalls B tt st buff) := by
  unfold updateMapbhinfoFromProline mapCalls
  by_cases hbuff : buff = []
  · rw [if_pos hbuff, if_pos hbuff]
    exact makes_nil
  rw [if_neg hbuff, if_neg hbuff]
  refine Makes.look fun clean hclean => ?_
  let role : List SetCall := clean ++ [⟨meshCommonNode, "DeviceRole".toList, buff⟩,
    ⟨meshDefsettingNode, "DeviceRole".toList, buff⟩]
  let rest (s : ObjState) := (backhaulCalls B tt s buff).bind fun l => setAll tt s l
  -- the role is set by three calls, and what is read afterwards has other names
  have hrole : ((setAll tt st clean).bind fun s =>
      (cfgSetObjectAttr tt s meshCommonNode "DeviceRole".toList buff).bind fun s =>
        (cfgSetObjectAttr tt s meshDefsettingNode "DeviceRole".toList buff).bind rest) =
      (setAll tt st role).bind rest := by
    rw [setAll_bind_set, setAll_bind_set, List.append_assoc]
    rfl
  have hrest : ∀ s l, (Except.ok role : Except Fault _) = .ok l → setAll tt st l = .ok s →
      Makes tt s (rest s) (backhaulCalls B tt st buff) := by
    intro s l hl hs
    obtain rfl := Except.ok.inj hl
    have hsame : ∀ n ∈ backhaulNames, SameAttr tt st s n := by
      intro n hn
      refine sameAttr_setAll hs fun c hc => ?_
      rcases List.mem_append.mp hc with hc | hc
      · rw [attr_of_mem_cleanCalls hclean c hc]
        rintro rfl
        simp [backhaulNames] at hn
      · rintro rfl
        simp at hc
        rcases hc with rfl | rfl <;> simp [backhaulNames] at hn
    rw [← backhaulCalls_congr hsame]
    intro s'
    exact except_bind_ok
  have hmakes := (makes_setAll role).bind hrest
  intro s
  refine (hrole ▸ hmakes s).trans ?_
  simp [role, Except.bind, bind]

/-! ### Rows -/

theorem suffixCalls_congr (h : ∀ path, cfgQueryObject tt st' path = cfgQueryObject tt st path)
    (node : Nat → Str) (attr buff : Str) : ∀ ns : List Nat,
    suffixCalls tt st' node attr buff ns = suffixCalls tt st node attr buff ns
  | [] => rfl
  | n :: ns => by
    unfold suffixCalls
    rw [h, suffixCalls_congr h node attr buff ns]

theorem suffixCalls_cons (st : ObjState) (node : Nat → Str) (attr buff : Str) (n : Nat)
    (ns : List Nat) : suffixCalls tt st node attr buff (n :: ns) =
      (cfgQueryObject tt st (node n)).bind fun r =>
        (suffixCalls tt st node attr buff ns).bind fun calls => .ok
          (if 0 < r then ⟨node n, attr, snprintf 256 (buff ++ '-' :: fmtNat n)⟩ :: calls
          else calls) := rfl

theorem suffixTurn_makes (node : Nat → Str) (attr buff : Str) : ∀ (ns : List Nat) (st : ObjState),
    Makes tt st (ns.foldlM (suffixTurn tt node attr buff) st) (suffixCalls tt st node attr buff ns)
  | [], st => makes_nil
  | n :: ns, st => by
    have hone : Makes tt st (suffixTurn tt node attr buff st n)
        ((cfgQueryObject tt st (node n)).bind fun r => .ok
          (if 0 < r then [⟨node n, attr, snprintf 256 (buff ++ '-' :: fmtNat n)⟩] else [])) := by
      unfold suffixTurn
      refine Makes.look fun r _ => ?_
      split
      · exact makes_set _ _ _
      · exact makes_nil
    have hall := hone.bind (y := ns.foldlM (suffixTurn tt node attr buff)) fun s l _ hs =>
      suffixCalls_congr (cfgQueryObject_setAll hs) node attr buff ns ▸
        suffixTurn_makes node attr buff ns s
    intro s
    refine (hall s).trans ?_
    rw [suffixCalls_cons]
    cases cfgQueryObject tt st (node n) with
    | error e => rfl
    | ok r =>
      by_cases hr : 0 < r
      · simp [Except.bind, hr]
      · simp [Except.bind, hr]

theorem updateOtherEntries_makes (st : ObjState) (row : KeyParameter) (buff : Str) :
    Makes tt st (updateOtherEntries B tt st row buff) (otherEntryCalls B tt st row buff) := by
  unfold updateOtherEntries otherEntryCalls
  split
  · split
    · exact suffixTurn_makes _ _ _ _ _
    split
    · exact suffixTurn_makes _ _ _ _ _
    · exact makes_nil
  · exact makes_nil

theorem otherEntryCalls_congr (h : ∀ path, cfgQueryObject tt st' path = cfgQueryObject tt st path)
    (row : KeyParameter) (buff : Str) :
    otherEntryCalls B tt st' row buff = otherEntryCalls B tt st row buff := by
  unfold otherEntryCalls
  simp only [suffixCalls_congr h]

/-- The names of the attributes that `update_mapbhinfo_from_proline` reads. -/
def readNames : List Str := "DeviceRole".toList :: backhaulNames

/-- What the rows of the table have in common: only the last one leads to the mesh, and it sets
nothing that is read there. -/
def RowOk (row : KeyParameter) : Prop :=
  row.field = .mapdevrole → ∀ buff, ∀ c ∈ row.calls buff, c.attr ∉ readNames

variable {xponMode : Int} {para : ProlinePara}

/-- **One turn of the loop.** -/
theorem prolineTurn_makes {row : KeyParameter} (hrow : RowOk row) (st : ObjState) :
    Makes tt st (prolineTurn B tt xponMode para st row) (rowCalls B tt xponMode para st row) := by
  unfold prolineTurn rowCalls
  refine Makes.look fun r _ => ?_
  split
  · exact makes_nil
  cases parseProlinePara B xponMode para row.field with
  | none => exact makes_nil
  | some buff =>
    refine (makes_setAll (row.calls buff)).bind fun s l hl hs => ?_
    obtain rfl := Except.ok.inj hl
    unfold moreCalls
    split
    · next hfield =>
      have hsame : ∀ n ∈ readNames, SameAttr tt st s n := fun n hn =>
        sameAttr_setAll hs fun c hc he => hrow hfield buff c hc (he ▸ hn)
      rw [← mapCalls_congr (hsame _ List.mem_cons_self)
        fun n hn => hsame n (List.mem_cons_of_mem _ hn)]
      exact updateMapbhinfoFromProline_makes s buff
    · rw [← otherEntryCalls_congr (cfgQueryObject_setAll hs)]
      exact updateOtherEntries_makes s row buff

/-- The calls of a row that does not lead to the mesh depend only on which objects exist. -/
theorem rowCalls_congr (h : ∀ path, cfgQueryObject tt st' path = cfgQueryObject tt st path)
    {row : KeyParameter} (hrow : row.field ≠ .mapdevrole) :
    rowCalls B tt xponMode para st' row = rowCalls B tt xponMode para st row := by
  unfold rowCalls moreCalls
  simp only [h, hrow, if_false, otherEntryCalls_congr h]

theorem rowsCalls_congr (h : ∀ path, cfgQueryObject tt st' path = cfgQueryObject tt st path) :
    ∀ {rows : List KeyParameter}, (∀ row ∈ rows, row.field ≠ .mapdevrole) →
    rowsCalls B tt xponMode para st' rows = rowsCalls B tt xponMode para st rows
  | [], _ => rfl
  | row :: rows, hrows => by
    obtain ⟨hrow, hrows⟩ := List.forall_mem_cons.mp hrows
    unfold rowsCalls
    rw [rowCalls_congr h hrow, rowsCalls_congr h hrows]

/-- The turns before the role of the device. -/
theorem rows_make : ∀ {rows : List KeyParameter}, (∀ row ∈ rows, row.field ≠ .mapdevrole) →
    ∀ st, Makes tt st (rows.foldlM (prolineTurn B tt xponMode para) st)
      (rowsCalls B tt xponMode para st rows)
  | [], _, st => makes_nil
  | row :: rows, hrows, st => by
    obtain ⟨hrow, hrows⟩ := List.forall_mem_cons.mp hrows
    exact (prolineTurn_makes (fun h => absurd h hrow) st).bind fun s l _ hs =>
      rowsCalls_congr (cfgQueryObject_setAll hs) hrows ▸ rows_make hrows s

/-! ### The whole table -/

/-- No row before the last leads to the mesh or sets the role. -/
theorem prolineRows_ok (B : ProlineBuild) : ∀ row ∈ prolineRows B,
    row.field ≠ .mapdevrole ∧ row.attr ≠ "DeviceRole".toList := by
  unfold prolineRows
  cases B.wlan <;> cases B.wlanAc <;> cases B.ctWanPtm <;> cases B.ecntMap <;> decide

theorem calls_attr {row : KeyParameter} {c : SetCall} (h : c ∈ row.calls buff) :
    c.attr = "Mode".toList ∨ c.attr = row.attr := by
  unfold KeyParameter.calls at h
  split at h
  · split at h
    · exact .inl (List.mem_singleton.mp h ▸ rfl)
    split at h
    · exact .inl (List.mem_singleton.mp h ▸ rfl)
    · exact absurd h List.not_mem_nil
  · exact .inr (List.mem_singleton.mp h ▸ rfl)

theorem suffixCalls_attr {node : Nat → Str} {attr : Str} : ∀ {ns : List Nat} {l : List SetCall},
    suffixCalls tt st node attr buff ns = .ok l → ∀ c ∈ l, c.attr = attr
  | [], l, h, c, hc => by
    obtain rfl := Except.ok.inj h
    exact absurd hc List.not_mem_nil
  | n :: ns, l, h, c, hc => by
    rw [suffixCalls_cons] at h
    obtain ⟨r, -, h⟩ := except_bind_ok.mp h
    obtain ⟨l', hl', h⟩ := except_bind_ok.mp h
    obtain rfl := Except.ok.inj h
    split at hc
    · rcases List.mem_cons.mp hc with rfl | hc
      · rfl
      · exact suffixCalls_attr hl' c hc
    · exact suffixCalls_attr hl' c hc

theorem otherEntryCalls_attr {row : KeyParameter} {l : List SetCall}
    (h : otherEntryCalls B tt st row buff = .ok l) : ∀ c ∈ l, c.attr = row.attr := by
  unfold otherEntryCalls at h
  split at h
  · split at h
    · exact suffixCalls_attr h
    split at h
    · exact suffixCalls_attr h
    · obtain rfl := Except.ok.inj h
      simp
  · obtain rfl := Except.ok.inj h
    simp

/-- No row before the last sets the role of the device. -/
theorem rowsCalls_attr : ∀ {rows : List KeyParameter} {l : List SetCall},
    (∀ row ∈ rows, row.field ≠ .mapdevrole ∧ row.attr ≠ "DeviceRole".toList) →
    rowsCalls B tt xponMode para st rows = .ok l → ∀ c ∈ l, "DeviceRole".toList ≠ c.attr
  | [], l, _, h, c, hc => by
    obtain rfl := Except.ok.inj h
    exact absurd hc List.not_mem_nil
  | row :: rows, l, hrows, h, c, hc => by
    obtain ⟨⟨hfield, hattr⟩, hrows⟩ := List.forall_mem_cons.mp hrows
    obtain ⟨l₁, h₁, h⟩ := except_bind_ok.mp h
    obtain ⟨l₂, h₂, h⟩ := except_bind_ok.mp h
    obtain rfl := Except.ok.inj h
    rcases List.mem_append.mp hc with hc | hc
    swap
    · exact rowsCalls_attr hrows h₂ c hc
    have hname : c.attr = "Mode".toList ∨ c.attr = row.attr := by
      obtain ⟨r, -, h₁⟩ := except_bind_ok.mp h₁
      split at h₁
      · obtain rfl := Except.ok.inj h₁
        exact absurd hc List.not_mem_nil
      split at h₁
      · obtain rfl := Except.ok.inj h₁
        exact absurd hc List.not_mem_nil
      obtain ⟨more, hmore, h₁⟩ := except_bind_ok.mp h₁
      obtain rfl := Except.ok.inj h₁
      rw [moreCalls, if_neg hfield] at hmore
      rcases List.mem_append.mp hc with hc | hc
      · exact calls_attr hc
      · exact .inr (otherEntryCalls_attr hmore c hc)
    rcases hname with hname | hname
    · rw [hname]
      decide
    · rw [hname]
      exact hattr.symm

theorem roleCalls_attr {role : Int} {i j : Nat} {s₁ w₁ s₂ w₂ : Str} :
    ∀ c ∈ roleCalls B role i j s₁ w₁ s₂ w₂, c.attr ∉ backhaulNames := by
  unfold roleCalls
  split
  · simp [backhaulNames]
  split
  · simp [backhaulNames]
  · simp

theorem backhaulCalls_attr {l : List SetCall} (h : backhaulCalls B tt st buff = .ok l) :
    ∀ c ∈ l, c.attr ∉ backhaulNames := by
  obtain ⟨ssid2g, -, h⟩ := except_bind_ok.mp h
  obtain ⟨wpapsk2g, -, h⟩ := except_bind_ok.mp h
  obtain ⟨ssid5g, -, h⟩ := except_bind_ok.mp h
  obtain ⟨wpapsk5g, -, h⟩ := except_bind_ok.mp h
  obtain ⟨bh2g, -, h⟩ := except_bind_ok.mp h
  obtain ⟨bh5g, -, h⟩ := except_bind_ok.mp h
  split at h
  · split at h
    · obtain rfl := Except.ok.inj h
      exact roleCalls_attr
    · obtain rfl := Except.ok.inj h
      simp
  · obtain rfl := Except.ok.inj h
    simp

/-- The last row sets nothing that the backhaul is read from. -/
theorem mapdevroleRow_attr {l : List SetCall}
    (h : rowCalls B tt xponMode para st mapdevroleRow = .ok l) :
    ∀ c ∈ l, c.attr ∉ backhaulNames := by
  obtain ⟨r, -, h⟩ := except_bind_ok.mp h
  split at h
  · obtain rfl := Except.ok.inj h
    simp
  split at h
  · obtain rfl := Except.ok.inj h
    simp
  obtain ⟨more, hmore, h⟩ := except_bind_ok.mp h
  obtain rfl := Except.ok.inj h
  intro c hc
  rcases List.mem_append.mp hc with hc | hc
  · rcases calls_attr hc with hname | hname <;> rw [hname] <;> decide
  rw [moreCalls, if_pos (show mapdevroleRow.field = .mapdevrole from rfl)] at hmore
  unfold mapCalls at hmore
  split at hmore
  · obtain rfl := Except.ok.inj hmore
    exact absurd hc List.not_mem_nil
  obtain ⟨clean, hclean, hmore⟩ := except_bind_ok.mp hmore
  obtain ⟨bh, hbh, hmore⟩ := except_bind_ok.mp hmore
  obtain rfl := Except.ok.inj hmore
  rcases List.mem_append.mp hc with hc | hc
  · rw [attr_of_mem_cleanCalls hclean c hc]
    decide
  have hrole : "DeviceRole".toList ∉ backhaulNames := by decide
  rcases List.mem_cons.mp hc with rfl | hc
  · exact hrole
  rcases List.mem_cons.mp hc with rfl | hc
  · exact hrole
  · exact backhaulCalls_attr hbh c hc

theorem mapdevroleRow_ok : RowOk mapdevroleRow := by
  intro _ buff c hc
  rcases calls_attr hc with hname | hname <;> rw [hname] <;> decide

/-- The last row gives the same calls where the attributes that it reads are the same. -/
theorem mapdevroleRow_congr (hobj : ∀ path, cfgQueryObject tt st' path = cfgQueryObject tt st path)
    (hrole : SameAttr tt st st' "DeviceRole".toList)
    (h : ∀ n ∈ backhaulNames, SameAttr tt st st' n) :
    rowCalls B tt xponMode para st' mapdevroleRow =
      rowCalls B tt xponMode para st mapdevroleRow := by
  unfold rowCalls moreCalls
  simp only [hobj, show mapdevroleRow.field = .mapdevrole from rfl, if_true,
    mapCalls_congr hrole h]

theorem rowsCalls_append (row : KeyParameter) : ∀ rows : List KeyParameter,
    rowsCalls B tt xponMode para st (rows ++ [row]) =
      (rowsCalls B tt xponMode para st rows).bind fun l =>
        (rowCalls B tt xponMode para st row).bind fun l' => .ok (l ++ l')
  | [] => by
    show (rowCalls B tt xponMode para st row).bind (fun l => .ok (l ++ [])) =
      (rowCalls B tt xponMode para st row).bind fun l => .ok ([] ++ l)
    simp
  | r :: rows => by
    show (rowCalls B tt xponMode para st r).bind (fun l =>
        (rowsCalls B tt xponMode para st (rows ++ [row])).bind fun l' => .ok (l ++ l')) =
      ((rowCalls B tt xponMode para st r).bind fun l =>
        (rowsCalls B tt xponMode para st rows).bind fun l' => .ok (l ++ l')).bind fun l =>
          (rowCalls B tt xponMode para st row).bind fun l' => .ok (l ++ l')
    rw [rowsCalls_append row rows]
    cases rowCalls B tt xponMode para st r with
    | error e => rfl
    | ok l =>
      cases rowsCalls B tt xponMode para st rows with
      | error e => rfl
      | ok l' =>
        cases rowCalls B tt xponMode para st row with
        | error e => rfl
        | ok l'' => simp [Except.bind]

/-- **`handle_proline_paras` leaves the tree as it is exactly if the calls that the parameters ask
for on this tree do.** -/
theorem handleProlineParas_eq_self_iff (B : ProlineBuild) (tt : TypeTree) (xponMode : Int)
    (para : ProlinePara) (st : ObjState) :
    handleProlineParas B tt xponMode para st = .ok st ↔
      ∃ l, prolineCalls B tt xponMode para st = .ok l ∧ setAll tt st l = .ok st := by
  have hrows := prolineRows_ok B
  have hmake := @rows_make B tt xponMode para _ (fun row hrow => (hrows row hrow).1) st
  unfold handleProlineParas prolineCalls prolinePara
  cases B.ecntMap with
  | false => simpa using hmake st
  | true =>
    simp only [if_true]
    rw [List.foldlM_append, rowsCalls_append]
    -- the last row reads what it finds in the end, which it has not written itself
    have hlast : ∀ s l l', rowsCalls B tt xponMode para st (prolineRows B) = .ok l →
        setAll tt st l = .ok s → setAll tt s l' = .ok st → (∀ c ∈ l', c.attr ∉ backhaulNames) →
        rowCalls B tt xponMode para s mapdevroleRow =
          rowCalls B tt xponMode para st mapdevroleRow := by
      intro s l l' hl hs hs' hnames
      refine mapdevroleRow_congr (cfgQueryObject_setAll hs)
        (sameAttr_setAll hs (rowsCalls_attr hrows hl)) fun n hn => ?_
      have hback : SameAttr tt s st n := sameAttr_setAll hs' fun c hc he => hnames c hc (he ▸ hn)
      exact fun path size => (hback path size).symm
    constructor
    · intro h
      obtain ⟨s, hs, h⟩ := except_bind_ok.mp h
      obtain ⟨l, hl, hset⟩ := (hmake s).mp hs
      have hturn : prolineTurn B tt xponMode para s mapdevroleRow = .ok st := by
        simpa using h
      obtain ⟨l', hl', hset'⟩ := (prolineTurn_makes mapdevroleRow_ok s st).mp hturn
      rw [hlast s l l' hl hset hset' (mapdevroleRow_attr hl')] at hl'
      exact ⟨l ++ l', by rw [hl, hl']; rfl, setAll_append_ok.mpr ⟨s, hset, hset'⟩⟩
    · rintro ⟨m, hm, hset⟩
      obtain ⟨l, hl, hm⟩ := except_bind_ok.mp hm
      obtain ⟨l', hl', hm⟩ := except_bind_ok.mp hm
      obtain rfl := Except.ok.inj hm
      obtain ⟨s, hs, hset'⟩ := setAll_append_ok.mp hset
      have hcongr := hlast s l l' hl hs hset' (mapdevroleRow_attr hl')
      have hturn := (prolineTurn_makes mapdevroleRow_ok s st).mpr ⟨l', hcongr.trans hl', hset'⟩
      refine except_bind_ok.mpr ⟨s, (hmake s).mpr ⟨l, hl, hs⟩, ?_⟩
      simpa using hturn

end

end OnuFirmware.Romfile
