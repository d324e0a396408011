import OnuFirmware.Cfg.Path

/-!
# The object tree (`cfg_obj.c`)

An object has an id (type id and instance number), a parent link, a child list and a list of
attributes, which the source keeps in an mxml node. All objects live in one shared memory pool; here
each has an address, the number of the allocation that made it, and the parent link is an address.
`ObjState.pool n` says whether allocation `n` succeeds.

The functions return what the C functions return, with the new state where they change it. A
function that follows a path returns `Except Fault`, because reading a path may overrun a buffer.
-/

namespace OnuFirmware.Cfg

open Lib Clib

/-! ## Objects and states -/

/-- The fields of a `cfg_node_obj`; `priv` are the attributes of the mxml node. -/
structure ObjInfo where
  addr : Nat
  id : Nat
  parent : Option Nat
  priv : List (Str × Str)
deriving Repr, DecidableEq

/-- `struct cfg_node_obj` with all that is reached through `child` and `brother`. -/
abbrev CfgNodeObj := Lcrs ObjInfo

/-- A pointer to an object: its fields and its child list. -/
abbrev CfgObjPtr := ObjInfo × CfgNodeObj

/-- `cfg_obj_root` and the shared memory pool. -/
structure ObjState where
  tree : CfgNodeObj
  next : Nat
  pool : Nat → Bool

/-- `cfg_xml_set_attr`: replaces the value of an attribute or adds the attribute at the end. -/
def cfgXmlSetAttr (attrs : List (Str × Str)) (name val : Str) : List (Str × Str) :=
  match attrs with
  | [] => [(name, val)]
  | a :: rest => if a.1 = name then (name, val) :: rest else a :: cfgXmlSetAttr rest name val

/-- `cfg_xml_get_attr`. -/
def cfgXmlGetAttr (attrs : List (Str × Str)) (name : Str) : Option Str :=
  (attrs.find? fun a => a.1 = name).map Prod.snd

theorem cfgXmlGetAttr_set_self (attrs : List (Str × Str)) (name val : Str) :
    cfgXmlGetAttr (cfgXmlSetAttr attrs name val) name = some val := by
  induction attrs with
  | nil => simp [cfgXmlSetAttr, cfgXmlGetAttr]
  | cons a rest ih =>
    rw [cfgXmlSetAttr]
    split
    · simp [cfgXmlGetAttr]
    · next h => rw [← ih]; simp [cfgXmlGetAttr, h]

theorem cfgXmlGetAttr_set_of_ne (attrs : List (Str × Str)) {name other : Str} (val : Str)
    (hne : other ≠ name) :
    cfgXmlGetAttr (cfgXmlSetAttr attrs name val) other = cfgXmlGetAttr attrs other := by
  induction attrs with
  | nil => simp [cfgXmlSetAttr, cfgXmlGetAttr, hne.symm]
  | cons a rest ih =>
    rw [cfgXmlSetAttr]
    split
    · next h => simp [cfgXmlGetAttr, h, hne.symm]
    · simp only [cfgXmlGetAttr, List.find?_cons] at ih ⊢
      split
      · rfl
      · exact ih

/-! ## Finding objects -/

/-- `cfg_obj_get_child`. -/
def cfgObjGetChild (parent : CfgObjPtr) (oid : Nat) : Option CfgObjPtr :=
  parent.2.findSib fun o => o.id == oid

/-- The loop of `cfg_obj_get_obj` down from `parent`. -/
def cfgObjGetObjLoop : CfgObjPtr → List Nat → Option CfgObjPtr
  | parent, [] => some parent
  | parent, id :: ids =>
    match cfgObjGetChild parent id with
    | none => none
    | some child => cfgObjGetObjLoop child ids

/-- `cfg_obj_get_obj`; the first id of the array is not looked at. -/
def cfgObjGetObj (tt : TypeTree) (st : ObjState) (objpath : Str) :
    Except Fault (Option CfgObjPtr) :=
  match st.tree with
  | .nil => .ok none
  | .node root child _ =>
    match cfgPathToOidArray tt objpath with
    | .error e => .error e
    | .ok none => .ok none
    | .ok (some id) => .ok (cfgObjGetObjLoop (root, child) id.tail)

/-- `cfg_obj_get_child_oid`: the instance numbers of the children of one type. -/
def cfgObjGetChildOid (node : CfgObjPtr) (type : Nat) : List Nat :=
  (node.2.sibs.filter fun c => cfgOidToTid c.id == type).map fun c => cfgOidToId c.id

/-- `cfg_obj_query_object`: the return value and the numbers written to `id`. -/
def cfgObjQueryObject (tt : TypeTree) (st : ObjState) (objpath : Str) (subtype : Option Str) :
    Except Fault (Int × List Nat) := do
  match subtype with
  | none =>
    match ← cfgObjGetObj tt st objpath with
    | none => .ok (-1, [])
    | some node => .ok (1, [cfgOidToId node.1.id])
  | some sub =>
    match ← cfgTypeQuery tt objpath with
    | none => .ok (-1, [])
    | some type =>
      match cfgTypeQueryChild tt (some type) sub with
      | none => .ok (-1, [])
      | some type =>
        match ← cfgObjGetObj tt st objpath with
        | none => .ok (-1, [])
        | some node =>
          let ids := cfgObjGetChildOid node type.1.id
          .ok (ids.length, ids)

/-! ## Creating objects -/

/-- `cfg_obj_create_from_type`: one object for each type of the chain and, below it, for each
subtype. Stops where the pool is exhausted. -/
def cfgObjCreateFromType (pool : Nat → Bool) :
    Option Nat → CfgNodeType → Nat → CfgNodeObj × Nat
  | _, .nil, next => (.nil, next)
  | parent, .node t sub bro, next =>
    if pool next then
      let child := cfgObjCreateFromType pool (some next) sub (next + 1)
      let brother := cfgObjCreateFromType pool parent bro child.2
      (.node { addr := next, id := t.id <<< cfgTypeShift + 1, parent := parent, priv := [] }
        child.1 brother.1, brother.2)
    else (.nil, next + 1)

/-- `cfg_obj_del_from_type`: unlinks the objects of dynamic types, which are made on request. -/
def cfgObjDelFromType (tt : TypeTree) (node : CfgNodeObj) : CfgNodeObj :=
  node.prune fun o => cfgTypeIsDynamicType tt (cfgOidToTid o.id)

/-- `cfg_obj_load_from_type`, taken for the root of all later calls. -/
def cfgObjLoadFromType (tt : TypeTree) (pool : Nat → Bool) : ObjState :=
  let r := cfgObjCreateFromType pool none tt.types 0
  { tree := cfgObjDelFromType tt r.1, next := r.2, pool := pool }

/-- The scan of `cfg_obj_first_unused_oid`. It does not go back to the first child when it takes the
next number: `goto again` leaves `child` where it is. -/
def firstUnusedScan : Nat → List ObjInfo → Nat
  | first, [] => first
  | first, child :: rest =>
    if child.id = first then firstUnusedScan (first + 1) rest else firstUnusedScan first rest

/-- `cfg_obj_first_unused_oid`. -/
def cfgObjFirstUnusedOid (obj : CfgObjPtr) (oid : Nat) : Nat :=
  firstUnusedScan ((oid &&& 0xffff0000) + 1) obj.2.sibs

/-- The scan of `cfg_obj_auto_oid`: the greatest id among the children with type half `type`, at
least `maxid`. -/
def maxOid (type : Nat) : Nat → List ObjInfo → Nat
  | maxid, [] => maxid
  | maxid, child :: rest =>
    if child.id &&& 0xffff0000 = type ∧ maxid < child.id then maxOid type child.id rest
    else maxOid type maxid rest

/-- `cfg_obj_auto_oid`. -/
def cfgObjAutoOid (obj : CfgObjPtr) (oid : Nat) : Nat :=
  let type := oid &&& 0xffff0000
  let maxid := maxOid type type obj.2.sibs
  if maxid &&& 0xffff = 0xffff then cfgObjFirstUnusedOid obj oid else maxid + 1

/-- `cfg_obj_create_sub_obj`. -/
def cfgObjCreateSubObj (tt : TypeTree) (st : ObjState) (obj : CfgObjPtr) (oid : Nat) :
    Int × ObjState :=
  if (cfgObjGetChild obj oid).isSome then (-1, st)
  else
    match cfgTypeFindById tt (cfgOidToTid oid) with
    | none => (-1, st)
    | some type =>
      if st.pool st.next then
        let id := if cfgOidToId oid ≠ 0 then oid else cfgObjAutoOid obj oid
        let child := cfgObjCreateFromType st.pool (some st.next) type.2 (st.next + 1)
        let node : CfgNodeObj :=
          .node { addr := st.next, id := id, parent := some obj.1.addr, priv := [] }
            (cfgObjDelFromType tt child.1) .nil
        (id, { st with
          tree := st.tree.mapChild (fun o => o.addr == obj.1.addr) (·.append node),
          next := child.2 })
      else (-1, { st with next := st.next + 1 })

/-- The second half of `cfg_obj_create_object`, from `cfg_path_to_oid` on. -/
def cfgObjAddObject (tt : TypeTree) (st : ObjState) (objpath parent : Str) :
    Except Fault (Int × ObjState) :=
  match cfgPathToOid tt objpath with
  | .error e => .error e
  | .ok oid =>
    if oid = 0 then .ok (-1, st)
    else
      match cfgObjGetObj tt st parent with
      | .error e => .error e
      | .ok none => .ok (0, st)
      | .ok (some node) => .ok (cfgObjCreateSubObj tt st node oid)

/-- The recursion of `cfg_obj_create_object`. A missing parent of a dynamic type is created first;
the parent path is shorter than the path, so the length of the path bounds the recursion. -/
def cfgObjCreateObjectRec (tt : TypeTree) :
    Nat → ObjState → Str → Except Fault (Int × ObjState)
  | 0, st, _ => .ok (-1, st)
  | fuel + 1, st, objpath =>
    match cfgGetParentPath objpath with
    | .error e => .error e
    | .ok none => .ok (-1, st)
    | .ok (some parent) =>
      match cfgObjQueryObject tt st parent none with
      | .error e => .error e
      | .ok exist =>
        if exist.1 ≤ 0 then
          match cfgTypeQuery tt parent with
          | .error e => .error e
          | .ok none => .ok (-1, st)
          | .ok (some type) =>
            if cfgTypeIsDynamicType tt type.1.id then
              match cfgObjCreateObjectRec tt fuel st parent with
              | .error e => .error e
              | .ok made =>
                if made.1 ≤ 0 then .ok (-1, made.2)
                else cfgObjAddObject tt made.2 objpath parent
            else .ok (-1, st)
        else cfgObjAddObject tt st objpath parent

/-- `cfg_obj_create_object`. -/
def cfgObjCreateObject (tt : TypeTree) (st : ObjState) (objpath : Str) :
    Except Fault (Int × ObjState) :=
  cfgObjCreateObjectRec tt (objpath.length + 1) st objpath

/-! ## Deleting objects -/

/-- `cfg_obj_del_object`: unlinks an object through its parent link and frees it with all that is
below it. The root object is not unlinked from `cfg_obj_root`, and an object that its parent does
not list stays linked, so both leave a pointer to freed memory behind. -/
def cfgObjDelObject (st : ObjState) (obj : CfgObjPtr) : Except Fault (Int × ObjState) :=
  match obj.1.parent with
  | none => .error .dangling
  | some p =>
    if (st.tree.entries.find? fun e => e.1.addr == p).any
        fun e => e.2.sibs.any fun o => o.addr == obj.1.addr then
      .ok (obj.1.id, { st with
        tree := st.tree.mapChild (fun o => o.addr == p)
          (·.eraseSib fun o => o.addr == obj.1.addr) })
    else .error .dangling

/-- `cfg_obj_delete_object`. -/
def cfgObjDeleteObject (tt : TypeTree) (st : ObjState) (objpath : Str) :
    Except Fault (Int × ObjState) := do
  match ← cfgObjGetObj tt st objpath with
  | none => .ok (-1, st)
  | some node => cfgObjDelObject st node

/-! ## Attributes -/

/-- Rewrites the attributes of the object at an address. -/
def ObjState.setPriv (st : ObjState) (addr : Nat) (f : List (Str × Str) → List (Str × Str)) :
    ObjState :=
  { st with tree := st.tree.mapVal (fun o => o.addr == addr) fun o => { o with priv := f o.priv } }

/-- `cfg_obj_get_object_attr`: the return value and what is copied to `val`, which has room for
`size` bytes. -/
def cfgObjGetObjectAttr (tt : TypeTree) (st : ObjState) (path attr : Str) (size : Nat) :
    Except Fault (Int × Str) := do
  if size = 0 then .ok (-1, [])
  else
    match ← cfgObjGetObj tt st path with
    | none => .ok (-1, [])
    | some node =>
      match cfgXmlGetAttr node.1.priv attr with
      | none => .ok (-2, [])
      | some tmp => .ok ((tmp.take (size - 1)).length, tmp.take (size - 1))

/-- `cfg_obj_set_object_attr`. -/
def cfgObjSetObjectAttr (tt : TypeTree) (st : ObjState) (path attr val : Str) :
    Except Fault (Int × ObjState) := do
  if attr = [] then .ok (-1, st)
  else
    match ← cfgObjGetObj tt st path with
    | none => .ok (-1, st)
    | some node => .ok (0, st.setPriv node.1.addr fun attrs => cfgXmlSetAttr attrs attr val)

/-- `cfg_obj_copy_private`: the attributes of `src` are set one by one on a new mxml node, which
replaces the one of `dst`. -/
def cfgObjCopyPrivate (tt : TypeTree) (st : ObjState) (dst src : Str) :
    Except Fault (Int × ObjState) := do
  match ← cfgObjGetObj tt st dst with
  | none => .ok (-1, st)
  | some dstobj =>
    match ← cfgObjGetObj tt st src with
    | none => .ok (-1, st)
    | some srcobj =>
      if st.pool st.next then
        let node := srcobj.1.priv.foldl (fun acc a => cfgXmlSetAttr acc a.1 a.2) []
        .ok (0, { st with next := st.next + 1 }.setPriv dstobj.1.addr fun _ => node)
      else .ok (-1, { st with next := st.next + 1 })

end OnuFirmware.Cfg
