import OnuFirmware.Cfg.Obj

/-!
# Loading objects from XML (`cfg_cli.c`)

`cfg_load_from_xml` walks an mxml tree. For each element it builds the path of the object that the
element stands for, creates the object if it is missing and of a dynamic type, sets the attributes
and descends; below an element whose object does not come to exist nothing is loaded. An element
`entryN` or `pvcN` stands for instance `N + 1`.
-/

namespace OnuFirmware.Cfg

open Lib Clib

/-- An element: its name and attributes. -/
structure XmlElem where
  name : Str
  attrs : List (Str × Str)
deriving Repr, DecidableEq

/-- An mxml node with all that is reached through `child` and `next`. -/
abbrev MxmlNode := Lcrs XmlElem

/-- One of the two rewritings in `cfg_xml_node_to_path`: a name that is `pre` and a number becomes
`pre`, a separator and the number plus one, which is computed as an `int`. -/
def entryToPath (pre name : Str) : Str :=
  if name.take pre.length = pre ∧ name[pre.length]?.any isDigit then
    pre ++ '.' :: fmtInt ((atoi (name.drop pre.length) + 1).bmod 0x100000000)
  else name

/-- One row of `tmp` in `cfg_xml_node_to_path`. A name of 31 bytes or more leaves the last byte of
the row, which is not initialised, in place of the NUL. -/
def xmlNameToPath (name : Str) : Except Fault Str :=
  if cfgMaxTypeName - 1 ≤ name.length then .error .uninit
  else .ok (entryToPath "pvc".toList (entryToPath "entry".toList (cfgStrToLower name)))

/-- `cfg_xml_node_to_path`. `names` are the names of the element and its ancestors, innermost first;
the outermost of at most eight is replaced by the name of the root type. -/
def cfgXmlNodeToPath (tt : TypeTree) (names : List Str) : Except Fault Str := do
  let tmp := (names.take cfgMaxNodeLevel).dropLast ++ [(cfgTypeGetRoot tt).1.name]
  let rows ← tmp.mapM xmlNameToPath
  .ok (List.intercalate ['.'] rows.reverse)

/-- The part of `cfg_load_from_xml` that makes sure that the object exists: whether it does. -/
def cfgLoadEnter (tt : TypeTree) (st : ObjState) (path : Str) : Except Fault (Bool × ObjState) := do
  let exist ← cfgObjQueryObject tt st path none
  if exist.1 ≤ 0 then
    match ← cfgTypeQuery tt path with
    | none => .ok (false, st)
    | some type =>
      if cfgTypeIsDynamicType tt type.1.id then
        let r ← cfgObjCreateObject tt st path
        .ok (decide (0 < r.1), r.2)
      else .ok (false, st)
  else .ok (true, st)

/-- The loop of `cfg_load_from_xml` over the attributes of an element. -/
def cfgLoadAttrs (tt : TypeTree) (path : Str) : ObjState → List (Str × Str) → Except Fault ObjState
  | st, [] => .ok st
  | st, a :: attrs => do
    let r ← cfgObjSetObjectAttr tt st path a.1 a.2
    cfgLoadAttrs tt path r.2 attrs

/-- `cfg_load_from_xml`, which always returns `0`. `anc` are the names of the ancestors of the
node, innermost first. -/
def cfgLoadFromXml (tt : TypeTree) : MxmlNode → List Str → ObjState → Except Fault ObjState
  | .nil, _, st => .ok st
  | .node e child next, anc, st => do
    let path ← cfgXmlNodeToPath tt (e.name :: anc)
    let enter ← cfgLoadEnter tt st path
    if enter.1 then
      let st ← cfgLoadAttrs tt path enter.2 e.attrs
      let st ← cfgLoadFromXml tt child (e.name :: anc) st
      cfgLoadFromXml tt next anc st
    else cfgLoadFromXml tt next anc enter.2

end OnuFirmware.Cfg
