import OnuFirmware.Cfg.Obj

/-!
# Saving objects as XML (`cfg_obj.c`)

`cfg_obj_save_tree` writes an element for each object that is not of a `MEMORY` type. An instance of
a `MULTIPLE` type is named by its type and its number less one, the root object is named `ROMFILE`.
Values are escaped in a buffer of 1024 bytes.
-/

namespace OnuFirmware.Cfg

open Lib Clib

/-! ## Values -/

/-- What `checkvalue` writes for a character. -/
def escapeChar (c : Char) : Str :=
  if c = '&' then "&amp;".toList
  else if c = '<' then "&lt;".toList
  else if c = '>' then "&gt;".toList
  else if c = '"' then "&quot;".toList
  else [c]

/-- The value with its special characters escaped. -/
def escape (attrvalue : Str) : Str := attrvalue.flatMap escapeChar

/-- The size of `replacedstr`. -/
def replacedstrLen : Nat := 1024

/-- `checkvalue`. The text is cut at 1023 bytes, and behind a text of that length the last statement
writes one byte past the buffer. -/
def checkvalue (attrvalue : Str) : Except Fault Str :=
  if replacedstrLen - 1 ≤ (escape attrvalue).length then .error .overrun
  else .ok (escape attrvalue)

/-! ## Objects -/

/-- A flag of a type is set. -/
def TypeInfo.hasFlag (t : TypeInfo) (flag : Nat) : Bool := t.flag &&& flag != 0

/-- The name of the element for an object. -/
def saveName (t : TypeInfo) (o : ObjInfo) : Str :=
  if t.hasFlag cfgTypeFlagMultiple then t.name ++ fmtInt ((cfgOidToId o.id : Int) - 1)
  else if t.name = "root".toList then "ROMFILE".toList
  else t.name

/-- The attributes of an element. -/
def saveAttrs : List (Str × Str) → Except Fault Str
  | [] => .ok []
  | a :: attrs =>
    match checkvalue a.2 with
    | .error e => .error e
    | .ok val =>
      match saveAttrs attrs with
      | .error e => .error e
      | .ok text => .ok (' ' :: a.1 ++ "=\"".toList ++ val ++ '"' :: text)

/-- `cfg_obj_save_tree`: the text written for an object, all below it and its brothers. -/
def cfgObjSaveTree (tt : TypeTree) : CfgNodeObj → Except Fault Str
  | .nil => .ok []
  | .node o child brother =>
    match cfgTypeFindById tt (cfgOidToTid o.id) with
    | none => .ok []
    | some type =>
      if type.1.hasFlag cfgTypeFlagMemory then cfgObjSaveTree tt brother
      else
        match saveAttrs o.priv, cfgObjSaveTree tt child, cfgObjSaveTree tt brother with
        | .ok attrs, .ok inner, .ok rest =>
          let name := saveName type.1 o
          let space := if o.priv = [] then [] else [' ']
          match child with
          | .nil => .ok ('<' :: name ++ attrs ++ space ++ "/> \n".toList ++ rest)
          | .node _ _ _ =>
            .ok ('<' :: name ++ attrs ++ space ++ "> \n".toList ++ inner ++
              "</".toList ++ name ++ "> \n".toList ++ rest)
        | .error e, _, _ => .error e
        | _, .error e, _ => .error e
        | _, _, .error e => .error e

/-- `cfg_save_object`, for a file that can be opened. -/
def cfgSaveObject (tt : TypeTree) (st : ObjState) : Except Fault Str := cfgObjSaveTree tt st.tree

end OnuFirmware.Cfg
