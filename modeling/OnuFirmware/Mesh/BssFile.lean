import OnuFirmware.Cfg.ReadAttr
import OnuFirmware.Clib.Hex
import OnuFirmware.Clib.Scan
import OnuFirmware.Lib.Fields

/-!
# The BSS file of the mesh (`mesh_map_cfg.c`, `mesh_map_file_io.c`)

`load_wts_bss_info` collects the wireless entries that are in use in an array, and
`write_file_mesh_wts_bss_info_config` writes a line for each row up to the first one without an
SSID. An SSID may hold blanks, so blanks and backslashes in it are escaped, in place.

The attributes that are read have fields under their own names; an object that does not exist has
none. Entries of the configuration are numbered from 1. `r2` is `TCSUPPORT_MAP_R2`.
-/

namespace OnuFirmware.Mesh

open Clib Cfg Lib

/-! ## The configuration -/

/-- `root.WLan.Entry.%d` and `root.WLan11ac.Entry.%d`. -/
structure WlanEntry where
  enableSSID : Option Str := none
  ssid : Option Str := none
  authMode : Option Str := none
  encrypType : Option Str := none
  wpapsk : Option Str := none
  hideSSID : Option Str := none

/-- `root.mesh.radio2gbssinfo.entry.%d` and `root.mesh.radio5glbssinfo.entry.%d`. -/
structure BssEntry where
  frontHaul : Option Str := none
  backHaul : Option Str := none
  vlanID : Option Str := none
  primaryVlan : Option Str := none
  defaultPCP : Option Str := none

/-- What is read of one radio: the common object, `AL-MAC` and the entries, of which number `k` is
entry `k + 1`. -/
structure RadioConf where
  apOn : Option Str := none
  channel : Option Str := none
  htBW : Option Str := none
  htBSSCoexistence : Option Str := none
  vhtBW : Option Str := none
  alMAC : Option Str := none
  entries : Nat → WlanEntry := fun _ => {}
  bssEntries : Nat → BssEntry := fun _ => {}

/-- `RADIO_2G` and `RADIO_5GL`. -/
inductive Radio
  | radio2G
  | radio5GL
deriving Repr, DecidableEq

/-- The configuration; `nonMapIface` is the attribute of `root.mesh.common`. -/
structure MeshConf where
  nonMapIface : Option Str := none
  wlan : RadioConf := {}
  wlan11ac : RadioConf := {}

def MeshConf.radio (c : MeshConf) : Radio → RadioConf
  | .radio2G => c.wlan
  | .radio5GL => c.wlan11ac

/-- The buffer `value` after an attribute is read into it. -/
def text (attr : Option Str) : Str := attrText attr 128 []

/-- The paths of a radio are empty if it is switched off. -/
def RadioConf.SwitchedOn (rc : RadioConf) : Prop := attrText rc.apOn 2 [] ≠ "0".toList

instance (rc : RadioConf) : Decidable rc.SwitchedOn :=
  inferInstanceAs (Decidable (_ ≠ _))

/-- The object with number `n` of a list of objects that are numbered from 1. -/
def objectAt {α : Type*} (absent : α) (objs : Nat → α) : Nat → α
  | 0 => absent
  | k + 1 => objs k

/-- The object at `wlan_path`. -/
def RadioConf.wlanEntry (rc : RadioConf) (n : Nat) : WlanEntry :=
  if rc.SwitchedOn then objectAt {} rc.entries n else {}

/-- The object at `path`. -/
def RadioConf.bssEntry (rc : RadioConf) (n : Nat) : BssEntry :=
  if rc.SwitchedOn then objectAt {} rc.bssEntries n else {}

/-- `AL-MAC` of the object at `AL_MAC_path`. -/
def RadioConf.alMacAttr (rc : RadioConf) : Option Str :=
  if rc.SwitchedOn then rc.alMAC else none

/-! ## Conversions -/

/-- `convert_authmod_string`. -/
def convertAuthmodString (s : Str) : Option Nat :=
  if strcasecmpEq s "WPA2PSK".toList then some 0x20
  else if strcasecmpEq s "WPAPSK".toList then some 0x2
  else if strcasecmpEq s "WPAPSKWPA2PSK".toList then some 0x22
  else if strcasecmpEq s "OPEN".toList then some 0x1
  else if strcasecmpEq s "WPA3PSK".toList then some 0x40
  else if strcasecmpEq s "WPA2PSKWPA3PSK".toList then some 0x60
  else none

/-- `convert_encryptype_string`. -/
def convertEncryptypeString (s : Str) : Option Nat :=
  if strcasecmpEq s "AES".toList then some 0x8
  else if strcasecmpEq s "TKIP".toList then some 0x4
  else if strcasecmpEq s "TKIPAES".toList then some 0xc
  else if strcasecmpEq s "NONE".toList then some 0x1
  else none

/-- `convert_bandwidth_24G_string`. -/
def convertBandwidth24G (htBW htBSSCoex : Str) : Nat :=
  if htBW = "0".toList then 0x2
  else if htBW = "1".toList ∧ htBSSCoex = "0".toList then 0x4
  else if htBW = "1".toList ∧ htBSSCoex = "1".toList then 0x6
  else 0x2

/-- `convert_bandwidth_5G_string`. -/
def convertBandwidth5G (htBW htBSSCoex vhtBW : Str) : Nat :=
  if htBW = "0".toList then 0x2
  else if htBW = "1".toList ∧ htBSSCoex = "1".toList ∧ vhtBW = "0".toList then 0x6
  else if htBW = "1".toList ∧ htBSSCoex = "0".toList ∧ vhtBW = "0".toList then 0x4
  else if htBW = "1".toList ∧ htBSSCoex = "1".toList ∧ vhtBW = "1".toList then 0xe
  else 0x2

/-- `convert_hidden_string`. -/
def convertHiddenString (hidden : Nat) : Str :=
  if hidden = 1 then "hidden-Y".toList else "hidden-N".toList

/-- `%x` of `sscanf` into a byte, and the text behind it. -/
def scanHh (s : Str) : Option (UInt8 × Str) :=
  let body := hexBody <|
    match s.dropWhile isSpace with
    | '-' :: r => r
    | '+' :: r => r
    | r => r
  if body.takeWhile (fun c => (hexVal c).isSome) = [] then none
  else some (UInt8.ofNat (scanX s).toNat, body.dropWhile fun c => (hexVal c).isSome)

/-- `n + 1` bytes with colons between them. -/
def scanBytes : Nat → Str → Option (List UInt8)
  | 0, s => (scanHh s).map fun p => [p.1]
  | n + 1, s =>
    match scanHh s with
    | some (b, ':' :: r) => (scanBytes n r).map (b :: ·)
    | _ => none

/-- `sscanf(value, MAP_ADDR_SCAN_FMT, ..)` if it fills all six bytes. -/
def scanMac (s : Str) : Option (List UInt8) := scanBytes 5 s

/-! ## The loader -/

/-- The members of `mesh_config_bss_info` that a build with `TCSUPPORT_MAP_R2` has. -/
structure VlanInfo where
  vlanId : Nat
  primaryVlan : Nat
  defaultPCP : Int
deriving Repr, DecidableEq

/-- `mesh_config_bss_info`. -/
structure BssInfo where
  alMac : List UInt8
  operClass : Str
  ssid : Str
  authMode : Nat
  encryptType : Nat
  key : Str
  frontHaul : Nat
  backHaul : Nat
  hiddenSsid : Nat
  bandWidth : Nat
  vlan : Option VlanInfo
deriving Repr, DecidableEq

/-- A row of the zeroed array. -/
def zeroRow (r2 : Bool) : BssInfo :=
  ⟨List.replicate 6 0, [], [], 0, 0, [], 0, 0, 0, 0, if r2 then some ⟨0, 0, 0⟩ else none⟩

/-- `sscanf` of a token with `WIFI_ITF_NAME` or `WIFI_5G_ITF_NAME` into `idx`, which is an
`unsigned char`: the number that `%d` stores takes four bytes. -/
def scanIface (name token : Str) (idx : Nat) : Except Fault Nat :=
  if name.isPrefixOf token then
    match scanD (token.drop name.length) with
    | some _ => .error .overrun
    | none => .ok idx
  else .ok idx

/-- One token of `insert_NonMapIfaceIDX`: the masks of both bands and `idx`. -/
def insertToken (st : Word × Word × Nat) (token : Str) : Except Fault (Word × Word × Nat) :=
  if hasStr token "rai".toList then do
    let idx ← scanIface "rai".toList token st.2.2
    return (st.1, st.2.1 ||| 1#32 <<< (idx + 1), idx)
  else if hasStr token "ra".toList then do
    let idx ← scanIface "ra".toList token st.2.2
    return (st.1 ||| 1#32 <<< (idx + 1), st.2.1, idx)
  else return st

/-- `insert_NonMapIfaceIDX`. -/
def insertNonMapIfaceIDX (value : Str) : Except Fault (Word × Word × Nat) :=
  (strtokAll ';' value).foldlM insertToken (0, 0, 0)

/-- `MAX_RADIO_BSS_INFO_NUM`. -/
def maxRadioBssInfoNum : Nat := 16

/-- `i / MAX_RADIO_BSS_INFO_NUM` as a radio. -/
def radioOf (i : Nat) : Option Radio :=
  match i / maxRadioBssInfoNum with
  | 0 => some .radio2G
  | 1 => some .radio5GL
  | _ => none

/-- The bit of a row in the mask of its band. -/
def nonMapped (masks : Word × Word × Nat) : Radio → Nat → Bool
  | .radio2G, i => masks.1.getLsbD i
  | .radio5GL, i => masks.2.1.getLsbD (i - maxRadioBssInfoNum)

/-- The class of a row. -/
def operClass (rc : RadioConf) : Radio → Str
  | .radio2G => "8x".toList
  | .radio5GL => if atoi (text rc.channel) < 100 then "11x".toList else "12x".toList

/-- `AUTHMODE_OPEN_VALUE`. -/
def authmodeOpen : Nat := 0x1

/-- The encryption of an entry; without authentication there is none. -/
def encryptType (auth : Nat) (e : WlanEntry) : Option Nat :=
  if auth = authmodeOpen then some 0x1 else convertEncryptypeString (text e.encrypType)

/-- `BSSINFO_DEF_KEY`. -/
def bssinfoDefKey : Str := "12345678".toList

/-- A flag, which is an `unsigned char`. -/
def flagByte (attr : Option Str) : Nat := (atoi (text attr) % 256).toNat

/-- A value of type `short`. -/
def shortOfInt (n : Int) : Int := (BitVec.ofInt 16 n).toInt

/-- The members of a build with `TCSUPPORT_MAP_R2`. -/
def vlanInfo (b : BssEntry) : VlanInfo where
  vlanId :=
    let id := atoi (text b.vlanID)
    if text b.vlanID = [] ∨ id < 3 ∨ 4095 < id then 4095 else id.toNat
  primaryVlan := if atoi (text b.primaryVlan) = 1 then 1 else 0
  defaultPCP := if text b.defaultPCP = [] then -1 else shortOfInt (atoi (text b.defaultPCP))

/-- The band width of a radio. -/
def bandWidth (rc : RadioConf) : Radio → Nat
  | .radio2G => convertBandwidth24G (attrText rc.htBW 8 []) (attrText rc.htBSSCoexistence 8 [])
  | .radio5GL => convertBandwidth5G (attrText rc.htBW 8 []) (attrText rc.htBSSCoexistence 8 [])
      (attrText rc.vhtBW 8 [])

/-- How the body of the loop ends: with `continue`, with `return -1`, or with `j++`. -/
inductive Round
  | skip (row : BssInfo)
  | fail (row : BssInfo)
  | take (row : BssInfo)

/-- The body of the loop of `load_wts_bss_info` for row `i` of the configuration and the row of the
array that is filled. -/
def loadRow (r2 : Bool) (c : MeshConf) (masks : Word × Word × Nat) (i : Nat) (row : BssInfo) :
    Round :=
  match radioOf i with
  | none => .fail row
  | some r =>
    let rc := c.radio r
    let e := rc.wlanEntry (i % maxRadioBssInfoNum)
    let b := rc.bssEntry (i % maxRadioBssInfoNum)
    if e.enableSSID = none ∨ atoi (text e.enableSSID) = 0 then .skip row
    else if nonMapped masks r i then .skip row
    else if e.ssid = none then .skip row
    else
      let row := { row with ssid := snprintf 65 (text e.ssid) }
      match scanMac (text rc.alMacAttr) with
      | none => .fail row
      | some mac =>
        let row := { row with alMac := mac, operClass := operClass rc r }
        match convertAuthmodString (text e.authMode) with
        | none => .skip { row with ssid := [] }
        | some auth =>
          let row := { row with authMode := auth }
          match encryptType auth e with
          | none => .skip { row with ssid := [] }
          | some enc =>
            .take { row with
              encryptType := enc
              key := if auth = authmodeOpen then bssinfoDefKey else snprintf 129 (text e.wpapsk)
              hiddenSsid := flagByte e.hideSSID
              frontHaul := flagByte b.frontHaul
              backHaul := flagByte b.backHaul
              vlan := if r2 then some (vlanInfo b) else none
              bandWidth := bandWidth rc r }

/-- What `load_wts_bss_info` leaves: its value, the array, and the text of `BssInfoCount` if it is
set. -/
structure Loaded where
  ret : Int
  info : List BssInfo
  bssInfoCount : Option Str

/-- The loop, with the rows of the configuration that are left. -/
def loadFrom (r2 : Bool) (c : MeshConf) (masks : Word × Word × Nat) :
    List Nat → List BssInfo → Nat → Except Fault Loaded
  | [], info, j => .ok ⟨0, info, some (fmtNat j)⟩
  | i :: is, info, j =>
    match info[j]? with
    | none => .error .overrun
    | some row =>
      match loadRow r2 c masks i row with
      | .skip row => loadFrom r2 c masks is (info.set j row) j
      | .take row => loadFrom r2 c masks is (info.set j row) (j + 1)
      | .fail row => .ok ⟨-1, info.set j row, none⟩

/-- `load_wts_bss_info`. Of `NonMapIface`, 64 bytes are looked at. -/
def loadWtsBssInfo (r2 : Bool) (c : MeshConf) (info : List BssInfo) (maxBssNum : Nat) :
    Except Fault Loaded := do
  let masks ← insertNonMapIfaceIDX ((text c.nonMapIface).take 64)
  loadFrom r2 c masks (List.range maxBssNum) info 0

/-! ## The writer -/

/-- `check_space_backslash_in_ssid` for one character. -/
def spaceOrBackslash (ch : Char) : Bool := isSpecial ' ' '\\' ch

/-- `ssid_transfer_for_space_backslash`. -/
def ssidTransferForSpaceBackslash (s : Str) : Str := escapeBy spaceOrBackslash '\\' s

/-- A member of `size` bytes, escaped in place with a buffer of 129 bytes. -/
def escapeMember (size : Nat) (s : Str) : Except Fault Str :=
  if s.any spaceOrBackslash then
    let replace := ssidTransferForSpaceBackslash s
    if replace.length < 129 ∧ replace.length < size then .ok replace else .error .overrun
  else .ok s

/-- `%0nx`. -/
def hexDigits (n v : Nat) : Str := (fmtHex v).leftpad n '0'

/-- `MAP_ADDR_FMT_STR`. -/
def fmtMac (mac : List UInt8) : Str := [':'].intercalate (mac.map fun b => hexDigits 2 b.toNat)

/-- What stands behind `hidden` in a line. -/
def lineTail (row : BssInfo) : Str :=
  match row.vlan with
  | none => " 0x".toList ++ hexDigits 2 row.bandWidth
  | some v =>
    ' ' :: fmtNat v.vlanId ++
    ' ' :: (if v.primaryVlan = 1 then "pvid".toList else "N/A".toList) ++
    ' ' :: (if v.defaultPCP = -1 then "N/A".toList else snprintf 10 (fmtInt v.defaultPCP))

/-- A line, in the buffer of 256 bytes. -/
def bssLine (row : BssInfo) (j : Nat) (cls : Str) : Str :=
  snprintf 256 <|
    fmtNat j ++ ',' :: fmtMac row.alMac ++ ' ' :: cls ++ ' ' :: row.ssid ++
    " 0x".toList ++ hexDigits 4 row.authMode ++ " 0x".toList ++ hexDigits 4 row.encryptType ++
    ' ' :: row.key ++ ' ' :: fmtNat row.backHaul ++ ' ' :: fmtNat row.frontHaul ++
    ' ' :: convertHiddenString row.hiddenSsid ++ lineTail row

/-- The classes of the lines of a row. -/
def lineClasses (cls : Str) : List Str :=
  if cls = "11x".toList then [cls, "12x".toList]
  else if cls = "12x".toList then [cls, "11x".toList]
  else [cls]

/-- The lines of `fprintf(file, "%s\n", buf)`. -/
def fileText (lines : List Str) : Str := lines.flatMap (· ++ ['\n'])

/-- The loop of `write_file_mesh_wts_bss_info_config`; `j` is the number of the next line. -/
def writeRows : List BssInfo → Nat → Except Fault Str
  | [], _ => .ok []
  | row :: rows, j =>
    if row.ssid = [] then .ok []
    else do
      let ssid ← escapeMember 65 row.ssid
      let key ← escapeMember 129 row.key
      if row.backHaul = 1 ∨ row.frontHaul = 1 then
        let classes := lineClasses row.operClass
        let lines := classes.zipIdx.map fun p => bssLine { row with ssid, key } (j + p.2) p.1
        let rest ← writeRows rows (j + classes.length)
        return fileText lines ++ rest
      else writeRows rows j

/-- `write_file_mesh_wts_bss_info_config`: the text of the file. -/
def writeFileMeshWtsBssInfoConfig (info : List BssInfo) : Except Fault Str := writeRows info 1

/-- `MAX_BSS_INFO_NUM`. -/
def maxBssInfoNum : Nat := 2 * maxRadioBssInfoNum

/-- The file that is written from a configuration, if the loader does not fail. -/
def bssFile (r2 : Bool) (c : MeshConf) : Except Fault (Option Str) := do
  let l ← loadWtsBssInfo r2 c (List.replicate maxBssInfoNum (zeroRow r2)) maxBssInfoNum
  if l.ret = 0 then some <$> writeFileMeshWtsBssInfoConfig l.info else return none

end OnuFirmware.Mesh
