import OnuFirmware.Cfg.Type

/-!
# Object paths (`cfg_obj.c`)

An object is named by a path such as `root.lan.entry.2`: type names, each with an optional instance
number, separated by dots. Two loops read a path token by token. `cfg_type_query` yields the type
the path names and `cfg_path_to_oid_array` the ids of the objects on the way to the object.

The loops are bounded by fuel; every turn takes at least one character off the path, so one unit
more than the length of the path is enough (`Cfg/Tokens.lean`).
-/

namespace OnuFirmware.Cfg

open Lib Clib

/-! ## Tokens -/

/-- A successful `cfg_get_token`: the return value, the token and the new `*objpath`. -/
structure Token where
  ret : Nat
  token : Str
  rest : Str
deriving Repr, DecidableEq

/-- `cfg_get_token`; `none` is the return value `-1`, which leaves `*objpath` alone. The token is
copied to `char token[CFG_MAX_TYPE_NAME]`, and only a token that a dot follows is measured first. -/
def cfgGetToken (objpath : Str) : Except Fault (Option Token) :=
  match objpath with
  | [] => .ok none
  | '.' :: _ => .ok none
  | start =>
    let token := start.takeWhile (· != '.')
    match start.dropWhile (· != '.') with
    | _ :: rest =>
      if cfgMaxTypeName ≤ token.length then .ok none
      else .ok (some { ret := 1, token := token, rest := rest })
    | [] =>
      -- `strcpy(token, start)`
      if cfgMaxTypeName ≤ token.length then .error .overrun
      else .ok (some { ret := 0, token := token, rest := [] })

/-- The variable `digit` of both loops: the instance number in a token, `0` for a name. -/
def tokenDigit : Str → Nat
  | [] => 0
  | c :: s => if '1' ≤ c ∧ c ≤ '9' then (atoi (c :: s)).toNat else 0

/-! ## Types by name -/

/-- `cfg_str_to_lower`. -/
def cfgStrToLower (s : Str) : Str := s.map toLower

/-- Whether `cfg_type_compare` returns `0`: equal up to case in the first 31 characters. -/
def cfgTypeCompare (s1 s2 : Str) : Bool :=
  cfgStrToLower (s1.take (cfgMaxTypeName - 1)) == cfgStrToLower (s2.take (cfgMaxTypeName - 1))

/-- `cfg_type_query_child`; without a parent type only the root type can match. -/
def cfgTypeQueryChild (tt : TypeTree) (type : Option CfgTypePtr) (child : Str) :
    Option CfgTypePtr :=
  match type with
  | none =>
    if cfgTypeCompare (cfgTypeGetRoot tt).1.name child then some (cfgTypeGetRoot tt) else none
  | some t => t.2.findSib fun s => cfgTypeCompare s.name child

/-- The end of `cfg_type_query`, after its loop. -/
def cfgTypeQueryDone (tmp : Str) (node : Option CfgTypePtr) (level : Nat) : Option CfgTypePtr :=
  if tmp ≠ [] ∨ level = cfgMaxNodeLevel then none else node

/-- The loop of `cfg_type_query`; `level` counts tokens. -/
def cfgTypeQueryLoop (tt : TypeTree) :
    Nat → Str → Option CfgTypePtr → Bool → Nat → Except Fault (Option CfgTypePtr)
  | 0, _, _, _, _ => .ok none
  | fuel + 1, tmp, node, needAlpha, level =>
    match cfgGetToken tmp with
    | .error e => .error e
    | .ok none => .ok (cfgTypeQueryDone tmp node level)
    | .ok (some t) =>
      if level < cfgMaxNodeLevel then
        let digit := tokenDigit t.token
        if needAlpha ∧ digit ≠ 0 then .ok none
        else if digit ≠ 0 then cfgTypeQueryLoop tt fuel t.rest node true (level + 1)
        else
          match cfgTypeQueryChild tt node t.token with
          | none => .ok none
          | some n => cfgTypeQueryLoop tt fuel t.rest (some n) false (level + 1)
      else .ok (cfgTypeQueryDone t.rest node level)

/-- `cfg_type_query`. -/
def cfgTypeQuery (tt : TypeTree) (path : Str) : Except Fault (Option CfgTypePtr) :=
  cfgTypeQueryLoop tt (path.length + 1) path none true 0

/-! ## Object ids -/

/-- The end of `cfg_path_to_oid_array`, after its loop; `none` is the return value `-1`. -/
def cfgPathToOidArrayDone (tmp : Str) (objid : List Nat) (tid oid : Nat) : Option (List Nat) :=
  if tmp ≠ [] ∨ objid.length = cfgMaxNodeLevel then none else some (objid ++ [mkOid tid oid])

/-- The loop of `cfg_path_to_oid_array`; `level` is the length of `objid`, so it counts the types
whose instance is settled. -/
def cfgPathToOidArrayLoop (tt : TypeTree) :
    Nat → Str → List Nat → Option CfgTypePtr → Nat → Nat → Bool → Except Fault (Option (List Nat))
  | 0, _, _, _, _, _, _ => .ok none
  | fuel + 1, tmp, objid, node, tid, oid, needAlpha =>
    match cfgGetToken tmp with
    | .error e => .error e
    | .ok none => .ok (cfgPathToOidArrayDone tmp objid tid oid)
    | .ok (some t) =>
      if objid.length < cfgMaxNodeLevel then
        let digit := tokenDigit t.token
        if needAlpha ∧ digit ≠ 0 then .ok none
        else if digit ≠ 0 then
          -- the check against `1 << CFG_TYPE_SHIFT` is commented out in the source
          cfgPathToOidArrayLoop tt fuel t.rest objid node tid digit true
        else
          let objid := if oid ≠ 0 ∧ tid ≠ 0 then objid ++ [mkOid tid oid] else objid
          match cfgTypeQueryChild tt node t.token with
          | none => .ok none
          | some n => cfgPathToOidArrayLoop tt fuel t.rest objid (some n) n.1.id 1 false
      else .ok (cfgPathToOidArrayDone t.rest objid tid oid)

/-- `cfg_path_to_oid_array`: the ids written to `id`, one per level. -/
def cfgPathToOidArray (tt : TypeTree) (objpath : Str) : Except Fault (Option (List Nat)) :=
  cfgPathToOidArrayLoop tt (objpath.length + 1) objpath [] none 0 0 true

/-- The scan from index `len` down to a separator; `0` when none is found above index `0`. -/
def scanDot (s : Str) : Nat → Nat
  | 0 => 0
  | len + 1 => if s[len + 1]? = some '.' then len + 1 else scanDot s len

/-- `cfg_path_to_oid`; `0` is failure. Without an instance number the lower half is `0`. -/
def cfgPathToOid (tt : TypeTree) (objpath : Str) : Except Fault Nat :=
  let tmp := scanDot objpath objpath.length
  let isid : Bool := tmp ≠ 0 ∧ 0 < atoi (objpath.drop (tmp + 1))
  match cfgPathToOidArray tt objpath with
  | .error e => .error e
  | .ok none => .ok 0
  | .ok (some objid) =>
    if cfgMaxNodeLevel ≤ objid.length then .ok 0
    else if isid then .ok (objid.getLastD 0)
    else .ok (objid.getLastD 0 &&& 0xffff0000)

/-- `cfg_get_parent_path`; `none` is `-1`. `parent` has room for `CFG_MAX_PATH_NAME` bytes. -/
def cfgGetParentPath (objpath : Str) : Except Fault (Option Str) :=
  if cfgMaxPathName ≤ objpath.length then .error .overrun
  else
    let len := scanDot objpath objpath.length
    if len = 0 then .ok none
    else if objpath[len + 1]?.any isDigit then
      -- `first`: what follows the separator is taken for an instance number, go one further
      let len := scanDot objpath (len - 1)
      if len = 0 then .ok none else .ok (some (objpath.take len))
    else .ok (some (objpath.take len))

end OnuFirmware.Cfg
