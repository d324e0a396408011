import OnuFirmware.Clib.Num
import OnuFirmware.Cfg.Load
import OnuFirmware.Cfg.Save

/-!
# Legacy node names (`cfg_cli.c`)

Before there were paths a node was named by one to three names with underscores between them, such
as `Wan_PVC0_Entry1`. `cfg_parse_node_name` makes a path of such a name. Names that start with
`entry` or `pvc` in second place, with `entry` in third place, or with `rai` or `ra` behind a name
that starts with `info`, are taken for an instance of the type of that name; its number comes from
the digits behind it, or from the entry that was last shown on the web pages.
-/

namespace OnuFirmware.Cfg

open Lib Clib

/-- `MAX_NODE_NAME`, the length of a row. -/
def maxNodeName : Nat := 32

/-- `MAX_NODE_LEVEL`, the number of rows. -/
def maxNodeLevel : Nat := 4

/-- `CFG_WEB_INDEX_NODE`. -/
def cfgWebIndexNode : Str := "root.webcurset.entry".toList

/-! ## Rows -/

/-- At most `n` results of `strtok_r`. -/
def strtok (delim : Char) : Nat → Str → List Str
  | 0, _ => []
  | n + 1, s =>
    match s.dropWhile (· == delim) with
    | [] => []
    | c :: r =>
      (c :: r).takeWhile (· != delim) :: strtok delim n ((c :: r).dropWhile (· != delim))

/-- The rows that `cfg_parse_split_name` fills. The first one is copied from the start of the name,
where `strtok_r` would pass over separators. -/
def cfgParseSplitName (delim : Char) (name : Str) : List Str :=
  let lead := name.takeWhile (· == delim)
  let rest := name.dropWhile (· == delim)
  (lead ++ rest.takeWhile (· != delim)) ::
    strtok delim (maxNodeLevel - 1) (rest.dropWhile (· != delim))

/-- A row as a string. A name of 31 bytes or more leaves the last byte of the row, which is not
initialised, in place of the NUL. -/
def rowString (row : Str) : Except Fault Str :=
  if maxNodeName - 1 ≤ row.length then .error .uninit else .ok row

/-- `atoi` in a row from place `k` on, which reads up to the first character behind the digits. -/
def rowAtoi (row : Str) (k : Nat) : Except Fault Int :=
  if maxNodeName - 1 ≤ row.length ∧ (row.drop k).all isDigit then .error .uninit
  else .ok (atoi (row.drop k))

/-- Whether `memcmp` finds `pre` at the start of a row. -/
def rowStarts (pre row : Str) : Bool := pre.isPrefixOf row

/-! ## Numbers -/

section Numbers

variable (tt : TypeTree) (st : ObjState) (index : Nat → List Str)

/-- The number in a row behind the name that it starts with, `-1` if there is none. -/
def rowNumber (name : Str) : Except Fault Int :=
  if rowStarts "entry".toList name ∧ 5 < name.length then rowAtoi name 5
  else if rowStarts "pvc".toList name ∧ 3 < name.length then rowAtoi name 3
  else if rowStarts "rai".toList name ∧ 3 < name.length then rowAtoi name 3
  else if rowStarts "ra".toList name ∧ 2 < name.length then rowAtoi name 2
  else .ok (-1)

/-- The sum of a number and one, as an `int`. -/
def intSucc (n : Int) : Int := (n + 1).bmod 0x100000000

/-- The loop over `type->index`, the attributes of the web pages that count the instances of a
type. -/
def webNumber : List Str → Except Fault Int
  | [] => .ok 0
  | attr :: attrs => do
    let val ← cfgObjGetObjectAttr tt st cfgWebIndexNode attr 32
    if 0 < val.1 then .ok (intSucc (atoi val.2)) else webNumber attrs

/-- `cfg_parse_entry_pvc_number`; `index` gives the `index` field of the type with an id. -/
def cfgParseEntryPvcNumber (path name : Str) : Except Fault Int := do
  match ← cfgTypeQuery tt path with
  | none => .ok 0
  | some type =>
    if !type.1.hasFlag cfgTypeFlagMultiple then .ok 1
    else
      let num ← rowNumber name
      if 0 ≤ num then .ok (intSucc num) else webNumber tt st (index type.1.id)

/-! ## Paths -/

/-- A path with a name and the number of `row` behind it. -/
def numberedPath (path name row : Str) : Except Fault Str := do
  let path := path ++ '.' :: name
  let num ← cfgParseEntryPvcNumber tt st index path row
  .ok (path ++ '.' :: fmtInt num)

/-- A path with a row behind it. -/
def plainPath (path row : Str) : Except Fault Str := do
  let name ← rowString row
  .ok (path ++ '.' :: name)

/-- The row of a `nas` node with the character behind its dot moved up by one. -/
def nasRow (row : Str) : Str :=
  match row.dropWhile (· != '.') with
  | dot :: c :: s =>
    if c = '\n' ∨ c = '\r' then row
    else row.takeWhile (· != '.') ++ dot ::
      (if c.toNat = 255 then [] else Char.ofNat (c.toNat + 1) :: s)
  | _ => row

/-- The path for the first two rows. -/
def secondLevel (path row₀ row₁ : Str) : Except Fault Str :=
  if rowStarts "entry".toList row₁ then numberedPath tt st index path "entry".toList row₁
  else if rowStarts "pvc".toList row₁ then numberedPath tt st index path "pvc".toList row₁
  else if rowStarts "info".toList row₀ then
    if rowStarts "nas".toList row₁ then plainPath path (nasRow row₁)
    else if rowStarts "rai".toList row₁ then numberedPath tt st index path "rai".toList row₁
    else if rowStarts "ra".toList row₁ then numberedPath tt st index path "ra".toList row₁
    else plainPath path row₁
  else plainPath path row₁

/-- The path with the third row behind it. -/
def thirdLevel (path row₂ : Str) : Except Fault Str :=
  if rowStarts "entry".toList row₂ then numberedPath tt st index path "entry".toList row₂
  else plainPath path row₂

/-- The path for one to three rows. -/
def rowsPath : List Str → Except Fault (Option Str)
  | [row₀] => (plainPath (cfgTypeGetRoot tt).1.name row₀).map some
  | [row₀, row₁] => do
    let path ← plainPath (cfgTypeGetRoot tt).1.name row₀
    (secondLevel tt st index path row₀ row₁).map some
  | [row₀, row₁, row₂] => do
    let path ← plainPath (cfgTypeGetRoot tt).1.name row₀
    let path ← secondLevel tt st index path row₀ row₁
    (thirdLevel tt st index path row₂).map some
  | _ => .ok none

/-- `cfg_parse_node_name` with a buffer of `size` bytes for the path; `none` is the return value
`-1`. A name of `size` bytes is copied with a NUL behind it. -/
def cfgParseNodeName (name : Str) (size : Nat) : Except Fault (Option Str) :=
  if size < name.length then .ok none
  else if name.length = size then .error .overrun
  else
    match rowsPath tt st index (cfgParseSplitName '_' (cfgStrToLower name)) with
    | .error e => .error e
    | .ok none => .ok none
    | .ok (some path) => if size ≤ path.length then .error .overrun else .ok (some path)

end Numbers

end OnuFirmware.Cfg
