import OnuFirmware.Lib.Lcrs
import OnuFirmware.Clib.Str

/-!
# The tree of node types (`cfg_type.c`)

The types of the configuration nodes form a static tree: each type has a name, flags, an optional
`create` operation (types that have one are *dynamic*: their objects are made on request) and a
NULL-terminated array of subtypes. `cfg_type_alloc_id` walks the tree once at start-up, numbers the
types from `CFG_TYPE_BASE_VAL` in the order node, children, brothers, and enters each in
`cfg_type_cache`, so that a type is found from its id by one array access.

A `TypeTree` is the declared tree; the ids are those the walk allots.
-/

namespace OnuFirmware.Cfg

open Lib Clib

/-! ## Constants of `cfg_type.h` and `cfg_api.h` -/

def cfgTypeBaseVal : Nat := 100
def cfgTypeMaxNum : Nat := 1000
def cfgTypeFlagMultiple : Nat := 0x100
def cfgTypeFlagMemory : Nat := 0x200

def cfgMaxTypeName : Nat := 32
def cfgMaxPathName : Nat := 512
def cfgMaxNodeLevel : Nat := 8
def cfgTypeShift : Nat := 16

/-- `CFG_OID_TO_TID`: the type half of an object id. -/
def cfgOidToTid (oid : Nat) : Nat := (oid >>> 16) &&& 0xffff

/-- `CFG_OID_TO_ID`: the instance half of an object id. -/
def cfgOidToId (oid : Nat) : Nat := oid &&& 0xffff

/-! ## Types -/

/-- The fields of a `cfg_node_type` that the object code reads; `create` says whether
`ops->create` is set. -/
structure TypeInfo where
  id : Nat := 0
  name : Str
  flag : Nat := 0
  create : Bool := false
deriving Repr, DecidableEq

/-- `struct cfg_node_type` with its subtypes and the types that follow it in its parent's array. -/
abbrev CfgNodeType := Lcrs TypeInfo

/-- A pointer to a type: its fields and its subtypes. -/
abbrev CfgTypePtr := TypeInfo × CfgNodeType

/-- `cfg_type_alloc_id`, with `cfg_type_total_cnt` before and after. -/
def cfgTypeAllocId : CfgNodeType → Nat → CfgNodeType × Nat
  | .nil, cnt => (.nil, cnt)
  | .node t c s, cnt =>
    let child := cfgTypeAllocId c (cnt + 1)
    let brother := cfgTypeAllocId s child.2
    (.node { t with id := cfgTypeBaseVal + cnt } child.1 brother.1, brother.2)

/-- A declared type tree that the start-up walk can number: the types fit into the cache, and the
root object, which nothing can create again, is not dynamic. -/
structure TypeTree where
  decl : TypeInfo
  subtype : CfgNodeType
  fits : subtype.size + 1 ≤ cfgTypeMaxNum
  static : decl.create = false

/-- A type that is declared with a name only is not dynamic. -/
theorem create_named (name : Str) : ({ name := name } : TypeInfo).create = false := rfl

theorem create_root : ({ name := "root".toList } : TypeInfo).create = false := create_named _

/-- `cfg_type_root` after `cfg_type_init`. -/
def TypeTree.types (tt : TypeTree) : CfgNodeType :=
  (cfgTypeAllocId (.node tt.decl tt.subtype .nil) 0).1

/-- `cfg_type_get_root`. -/
def cfgTypeGetRoot (tt : TypeTree) : CfgTypePtr :=
  ({ tt.decl with id := cfgTypeBaseVal }, (cfgTypeAllocId tt.subtype 1).1)

/-- `cfg_type_find_by_id`: ids below the base wrap around and miss the cache too. -/
def cfgTypeFindById (tt : TypeTree) (id : Nat) : Option CfgTypePtr :=
  if id < cfgTypeBaseVal then none else tt.types.entries[id - cfgTypeBaseVal]?

/-- `cfg_type_is_dynamic_type`. -/
def cfgTypeIsDynamicType (tt : TypeTree) (id : Nat) : Bool :=
  match cfgTypeFindById tt id with
  | some t => t.1.create
  | none => false

/-- The type with id `child` is one of the subtypes of the type with id `parent`. -/
def IsSubtype (tt : TypeTree) (parent child : Nat) : Prop :=
  ∃ t, cfgTypeFindById tt parent = some t ∧ ∃ s ∈ t.2.sibs, s.id = child

/-! ## The ids that `cfg_type_alloc_id` allots -/

theorem size_cfgTypeAllocId : ∀ (f : CfgNodeType) (cnt : Nat),
    (cfgTypeAllocId f cnt).1.size = f.size ∧ (cfgTypeAllocId f cnt).2 = cnt + f.size
  | .nil, _ => ⟨rfl, rfl⟩
  | .node t c s, cnt => by
    have hc := size_cfgTypeAllocId c (cnt + 1)
    have hs := size_cfgTypeAllocId s (cfgTypeAllocId c (cnt + 1)).2
    simp only [cfgTypeAllocId, Lcrs.size]
    omega

/-- The ids run upwards without a gap, in the order of the cache. -/
theorem ids_cfgTypeAllocId : ∀ (f : CfgNodeType) (cnt : Nat),
    (cfgTypeAllocId f cnt).1.values.map TypeInfo.id = List.range' (cfgTypeBaseVal + cnt) f.size
  | .nil, _ => rfl
  | .node t c s, cnt => by
    simp only [cfgTypeAllocId, Lcrs.values, Lcrs.size, List.map_cons, List.map_append,
      ids_cfgTypeAllocId c, ids_cfgTypeAllocId s, (size_cfgTypeAllocId c (cnt + 1)).2]
    rw [show c.size + s.size + 1 = (c.size + s.size).succ from rfl, List.range'_succ,
      ← List.range'_append_1]
    congr 2
    congr 1
    omega

theorem TypeTree.types_eq (tt : TypeTree) :
    tt.types = .node (cfgTypeGetRoot tt).1 (cfgTypeGetRoot tt).2 .nil := rfl

theorem TypeTree.size_types (tt : TypeTree) : tt.types.size = tt.subtype.size + 1 := by
  rw [TypeTree.types, (size_cfgTypeAllocId _ _).1]
  simp [Lcrs.size]

theorem TypeTree.ids_types (tt : TypeTree) :
    tt.types.values.map TypeInfo.id = List.range' cfgTypeBaseVal (tt.subtype.size + 1) := by
  rw [TypeTree.types, ids_cfgTypeAllocId]
  simp [Lcrs.size]

theorem TypeTree.nodup_ids (tt : TypeTree) : (tt.types.values.map TypeInfo.id).Nodup := by
  rw [tt.ids_types]
  exact List.nodup_range'

theorem cfgTypeGetRoot_mem (tt : TypeTree) : cfgTypeGetRoot tt ∈ tt.types.entries :=
  List.mem_cons_self

@[simp] theorem cfgTypeGetRoot_id (tt : TypeTree) : (cfgTypeGetRoot tt).1.id = cfgTypeBaseVal := rfl

/-- What `cfg_type_find_by_id` returns is a type of the tree, with the id asked for. -/
theorem cfgTypeFindById_some {tt : TypeTree} {id : Nat} {t : CfgTypePtr}
    (h : cfgTypeFindById tt id = some t) : t ∈ tt.types.entries ∧ t.1.id = id := by
  rw [cfgTypeFindById] at h
  split at h
  · exact absurd h (by simp)
  · next hid =>
    refine ⟨List.mem_of_getElem? h, ?_⟩
    have hids : (tt.types.entries.map fun e => e.1.id)[id - cfgTypeBaseVal]? = some t.1.id := by
      rw [List.getElem?_map, h, Option.map_some]
    have heq : (tt.types.entries.map fun e => e.1.id)
        = List.range' cfgTypeBaseVal (tt.subtype.size + 1) := by
      rw [← tt.ids_types, ← Lcrs.map_fst_entries, List.map_map]
      rfl
    rw [heq, List.getElem?_range'] at hids
    · simp only [Option.some.injEq] at hids
      omega
    · have hlt := (List.getElem?_eq_some_iff.mp h).1
      rw [Lcrs.length_entries, tt.size_types] at hlt
      exact hlt

/-- Every type of the tree is found by its id. -/
theorem cfgTypeFindById_of_mem {tt : TypeTree} {t : CfgTypePtr} (h : t ∈ tt.types.entries) :
    cfgTypeFindById tt t.1.id = some t := by
  have hid : t.1.id ∈ List.range' cfgTypeBaseVal (tt.subtype.size + 1) := by
    rw [← tt.ids_types]
    exact List.mem_map_of_mem (Lcrs.mem_values_of_mem_entries h)
  rw [List.mem_range'_1] at hid
  have hlt : t.1.id - cfgTypeBaseVal < tt.types.entries.length := by
    rw [Lcrs.length_entries, tt.size_types]
    omega
  have hfind : cfgTypeFindById tt t.1.id = some tt.types.entries[t.1.id - cfgTypeBaseVal] := by
    rw [cfgTypeFindById, if_neg (by omega), List.getElem?_eq_getElem hlt]
  obtain ⟨hm, he⟩ := cfgTypeFindById_some hfind
  rw [hfind, Lcrs.entry_unique tt.nodup_ids hm h he]

/-- Type ids fit into the upper half of an object id. -/
theorem typeId_lt {tt : TypeTree} {t : CfgTypePtr} (h : t ∈ tt.types.entries) :
    100 ≤ t.1.id ∧ t.1.id < 1100 := by
  have hid : t.1.id ∈ List.range' cfgTypeBaseVal (tt.subtype.size + 1) := by
    rw [← tt.ids_types]
    exact List.mem_map_of_mem (Lcrs.mem_values_of_mem_entries h)
  rw [List.mem_range'_1] at hid
  have := tt.fits
  simp only [cfgTypeBaseVal, cfgTypeMaxNum] at *
  omega

/-- A subtype of a type of the tree is a type of the tree. -/
theorem mem_types_of_subtype {tt : TypeTree} {t s : CfgTypePtr} (ht : t ∈ tt.types.entries)
    (hs : s ∈ t.2.entries) : s ∈ tt.types.entries :=
  Lcrs.entries_trans ht hs

theorem isSubtype_of_mem {tt : TypeTree} {t : CfgTypePtr} {s : TypeInfo}
    (ht : t ∈ tt.types.entries) (hs : s ∈ t.2.sibs) : IsSubtype tt t.1.id s.id :=
  ⟨t, cfgTypeFindById_of_mem ht, s, hs, rfl⟩

/-! ## Splitting object ids -/

/-- The id of instance `n` of the type with id `tid`. -/
def mkOid (tid n : Nat) : Nat := (tid <<< cfgTypeShift) ||| n

theorem mkOid_eq_add {tid n : Nat} (hn : n < 65536) : mkOid tid n = tid * 65536 + n := by
  rw [mkOid, cfgTypeShift, ← Nat.shiftLeft_add_eq_or_of_lt (by simpa using hn), Nat.shiftLeft_eq]

theorem cfgOidToId_mkOid {tid n : Nat} : cfgOidToId (mkOid tid n) = n % 65536 := by
  rw [cfgOidToId, show (0xffff : Nat) = 2 ^ 16 - 1 from rfl, Nat.and_two_pow_sub_one_eq_mod, mkOid,
    Nat.or_mod_two_pow, cfgTypeShift, Nat.shiftLeft_eq, Nat.mul_mod_left, Nat.zero_or]

/-- The upper half of an object id is the type id, with the excess bits of the instance number
or-ed in. -/
theorem cfgOidToTid_mkOid {tid n : Nat} :
    cfgOidToTid (mkOid tid n) = (tid ||| n >>> 16) % 65536 := by
  rw [cfgOidToTid, show (0xffff : Nat) = 2 ^ 16 - 1 from rfl, Nat.and_two_pow_sub_one_eq_mod, mkOid,
    cfgTypeShift, Nat.shiftRight_or_distrib, Nat.shiftLeft_shiftRight]

/-- **An id built from halves that fit splits back into them.** -/
theorem split_mkOid (tid n : Nat) (ht : tid < 65536) (hn : n < 65536) :
    cfgOidToTid (mkOid tid n) = tid ∧ cfgOidToId (mkOid tid n) = n := by
  constructor
  · rw [cfgOidToTid_mkOid, Nat.shiftRight_eq_zero n 16 hn, Nat.or_zero, Nat.mod_eq_of_lt ht]
  · rw [cfgOidToId_mkOid, Nat.mod_eq_of_lt hn]

end OnuFirmware.Cfg
