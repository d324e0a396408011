import OnuFirmware.Clib.Num
import OnuFirmware.Cfg.Content
import OnuFirmware.Cfg.Run

/-!
# Factory reset of the tree (`cfg_delete_node`)

Before a configuration is read, `cfg_delete_node` deletes the object of every child type of the root
by its path and creates it again. The path has no instance number, so the deletion means instance
`1`, and the creation chooses the number: it is `1` again where no other instance is left. Then the
new objects stand behind the old ones, and when all old ones are gone the order is that of the
types.
-/

namespace OnuFirmware.Cfg

open Lib Clib

/-- The loop of `cfg_delete_node` over the subtypes of the root. -/
def deleteNodeLoop (tt : TypeTree) : CfgNodeType → ObjState → Except Fault ObjState
  | .nil, st => .ok st
  | .node type _ next, st => do
    let nodepath := snprintf 64 ("root.".toList ++ type.name)
    let deleted ← cfgObjDeleteObject tt st nodepath
    let created ← cfgObjCreateObject tt deleted.2 nodepath
    deleteNodeLoop tt next created.2

/-- `cfg_delete_node`. -/
def cfgDeleteNode (tt : TypeTree) (st : ObjState) : Except Fault ObjState :=
  deleteNodeLoop tt (cfgTypeGetRoot tt).2 st

/-! ## Shapes -/

/-- A tree without addresses and parent links: ids and attributes. -/
def shape (tree : CfgNodeObj) : Lcrs (Nat × List (Str × Str)) := tree.map fun o => (o.id, o.priv)

/-- The shape of the objects that are made for a chain of types. -/
def freshShape : CfgNodeType → Lcrs (Nat × List (Str × Str))
  | .nil => .nil
  | .node t sub bro =>
    if t.create then freshShape bro else .node (mkOid t.id 1, []) (freshShape sub) (freshShape bro)

/-- **New objects have the shape that their types say**, wherever they are made. -/
theorem shape_cfgObjCreateFromType {tt : TypeTree}
    {pool : Nat → Bool} (hpool : ∀ n, pool n = true) :
    ∀ (f : CfgNodeType) (parent : Option Nat) (next : Nat),
    (∀ e ∈ f.entries, e ∈ tt.types.entries) →
    shape (cfgObjDelFromType tt (cfgObjCreateFromType pool parent f next).1) = freshShape f
  | .nil, _, _, _ => rfl
  | .node t sub bro, parent, next, hf => by
    have hdyn := cfgTypeIsDynamicType_mkOid (hf _ List.mem_cons_self)
    have hsub := shape_cfgObjCreateFromType hpool sub (some next) (next + 1) fun e he =>
      hf e (List.mem_cons_of_mem _ (List.mem_append_left _ he))
    have hbro := shape_cfgObjCreateFromType hpool bro parent
      (cfgObjCreateFromType pool (some next) sub (next + 1)).2 fun e he =>
        hf e (List.mem_cons_of_mem _ (List.mem_append_right _ he))
    simp only [shape, cfgObjDelFromType] at hsub hbro
    simp only [shape, cfgObjDelFromType, cfgObjCreateFromType, hpool next, if_true, Lcrs.prune,
      shiftLeft_add_one, hdyn, freshShape]
    split
    · exact hbro
    · rw [Lcrs.map, hsub, hbro]

theorem shape_cfgObjLoadFromType {tt : TypeTree} {pool : Nat → Bool} (hpool : ∀ n, pool n = true) :
    shape (cfgObjLoadFromType tt pool).tree =
      .node (rootOid, []) (freshShape (cfgTypeGetRoot tt).2) .nil := by
  have hstat : (cfgTypeGetRoot tt).1.create = false := tt.static
  rw [cfgObjLoadFromType]
  dsimp only
  rw [shape_cfgObjCreateFromType hpool tt.types none 0 fun _ he => he, tt.types_eq, freshShape,
    hstat, if_neg (by decide), freshShape]
  rfl

/-! ## The names of the child types -/

/-- The path `root.` and a name means the child type of the root with that name. -/
structure TopNames (tt : TypeTree) : Prop where
  root : cfgTypeCompare (cfgTypeGetRoot tt).1.name "root".toList = true
  token : ∀ t ∈ (cfgTypeGetRoot tt).2.sibs, IsToken t.name
  head : ∀ t ∈ (cfgTypeGetRoot tt).2.sibs, t.name.head?.any isDigit = false
  distinct : ((cfgTypeGetRoot tt).2.sibs.map fun t => cfgStrToLower t.name).Nodup

/-- No child type of the root is dynamic. -/
def StaticTop (tt : TypeTree) : Prop := ∀ t ∈ (cfgTypeGetRoot tt).2.sibs, t.create = false

section Names

variable {tt : TypeTree} {pre bro sub : CfgNodeType} {t : TypeInfo}

theorem isToken_root : IsToken "root".toList := ⟨by decide, by decide, by decide⟩

theorem mem_sibs_of_split (h : (cfgTypeGetRoot tt).2 = pre.append (.node t sub bro)) :
    t ∈ (cfgTypeGetRoot tt).2.sibs := by
  rw [h, Lcrs.sibs_append]
  exact List.mem_append_right _ List.mem_cons_self

/-- The name of a child type of the root is found as the type itself. -/
theorem TopNames.query (hn : TopNames tt)
    (h : (cfgTypeGetRoot tt).2 = pre.append (.node t sub bro)) :
    cfgTypeQueryChild tt (some (cfgTypeGetRoot tt)) t.name = some (t, sub) := by
  have ht := hn.token t (mem_sibs_of_split h)
  have hnone : (pre.findSib fun s => cfgTypeCompare s.name t.name) = none := by
    refine Lcrs.findSib_eq_none.mpr fun s hs => ?_
    have hd := hn.distinct
    rw [h, Lcrs.sibs_append, List.map_append, List.nodup_append] at hd
    have hs' : s ∈ (cfgTypeGetRoot tt).2.sibs := by
      rw [h, Lcrs.sibs_append]
      exact List.mem_append_left _ hs
    refine Bool.eq_false_iff.mpr fun hc => ?_
    rw [cfgTypeCompare_token ht, take_of_isToken (hn.token s hs')] at hc
    exact hd.2.2 _ (List.mem_map_of_mem (f := fun s => cfgStrToLower s.name) hs) _
      List.mem_cons_self hc
  have hself : cfgTypeCompare t.name t.name = true := by
    rw [cfgTypeCompare, beq_self_eq_true]
  rw [cfgTypeQueryChild, h, Lcrs.findSib_append, hnone, Option.none_or, Lcrs.findSib, if_pos hself]

/-- The path of a child type of the root. -/
theorem TopNames.path_eq (hn : TopNames tt)
    (h : (cfgTypeGetRoot tt).2 = pre.append (.node t sub bro)) :
    snprintf 64 ("root.".toList ++ t.name) = joinDots ["root".toList, t.name] := by
  have hshort := (hn.token t (mem_sibs_of_split h)).short
  rw [snprintf, List.take_of_length_le]
  · rfl
  · rw [List.length_append]
    simp only [cfgMaxTypeName] at hshort
    show 5 + t.name.length ≤ 63
    omega

theorem TopNames.tokenDigit_eq (hn : TopNames tt) (ht : t ∈ (cfgTypeGetRoot tt).2.sibs) :
    tokenDigit t.name = 0 := by
  by_contra hd
  have hhead := hn.head t ht
  cases hname : t.name with
  | nil => exact (hn.token t ht).ne_nil hname
  | cons c s =>
    rw [hname] at hd hhead
    simp [isDigit_of_number hd] at hhead

/-- The ids that the path of a child type leads to. -/
theorem TopNames.toOidArray (hn : TopNames tt)
    (h : (cfgTypeGetRoot tt).2 = pre.append (.node t sub bro)) :
    cfgPathToOidArray tt (joinDots ["root".toList, t.name]) =
      .ok (some [rootOid, mkOid t.id 1]) := by
  have ht := mem_sibs_of_split h
  have htok : ∀ x ∈ ["root".toList, t.name], IsToken x := by
    simpa using ⟨isToken_root, hn.token t ht⟩
  have hroot : cfgTypeQueryChild tt none "root".toList = some (cfgTypeGetRoot tt) := by
    rw [cfgTypeQueryChild, if_pos hn.root]
  refine cfgPathToOidArray_eq_some.mpr (.inr ⟨[(cfgTypeGetRoot tt, 1), ((t, sub), 1)], ?_, by simp,
    by simp [cfgMaxNodeLevel], rfl⟩)
  rw [pathChain_joinDots htok, parseChain, if_neg (by decide),
    if_neg (by simp [hn.tokenDigit_eq ht]), parseChain, if_neg (by simp [hn.tokenDigit_eq ht]),
    Option.map_some, Option.bind_some, resolveChain, hroot]
  dsimp only
  rw [resolveChain, hn.query h]
  rfl

theorem TopNames.rootOidArray (hn : TopNames tt) :
    cfgPathToOidArray tt "root".toList = .ok (some [rootOid]) := by
  have hroot : cfgTypeQueryChild tt none "root".toList = some (cfgTypeGetRoot tt) := by
    rw [cfgTypeQueryChild, if_pos hn.root]
  refine cfgPathToOidArray_eq_some.mpr (.inr ⟨[(cfgTypeGetRoot tt, 1)], ?_, by simp,
    by simp [cfgMaxNodeLevel], rfl⟩)
  rw [show "root".toList = joinDots ["root".toList] from rfl,
    pathChain_joinDots (by simpa using isToken_root), parseChain, if_neg (by decide),
    Option.bind_some, resolveChain, hroot]
  rfl

/-- The id that a new object of a child type is asked for: its type, with number `1` or none. -/
theorem TopNames.toOid (hn : TopNames tt)
    (h : (cfgTypeGetRoot tt).2 = pre.append (.node t sub bro)) :
    ∃ oid, cfgPathToOid tt (joinDots ["root".toList, t.name]) = .ok oid ∧
      (oid = mkOid t.id 1 ∨ oid = mkOid t.id 1 &&& 0xffff0000) := by
  rw [cfgPathToOid, hn.toOidArray h]
  dsimp only
  rw [if_neg (by simp [cfgMaxNodeLevel])]
  split
  · exact ⟨_, rfl, .inl rfl⟩
  · exact ⟨_, rfl, .inr rfl⟩

theorem TopNames.parent (hn : TopNames tt)
    (h : (cfgTypeGetRoot tt).2 = pre.append (.node t sub bro)) :
    cfgGetParentPath (joinDots ["root".toList, t.name]) = .ok (some "root".toList) := by
  have ht := mem_sibs_of_split h
  have hshort := (hn.token t ht).short
  refine @cfgGetParentPath_name ["root".toList] t.name (by simp)
    (by simpa using ⟨isToken_root, hn.token t ht⟩) (hn.head t ht) ?_
  simp only [List.singleton_append, joinDots, List.length_append, List.length_cons, cfgMaxPathName,
    cfgMaxTypeName] at hshort ⊢
  show 4 + (t.name.length + 1) < 512
  omega

/-- The type half of the id of the first instance of a child type. -/
theorem tid_top (ht : t ∈ (cfgTypeGetRoot tt).2.sibs) :
    cfgOidToTid (mkOid t.id 1) = t.id ∧ 100 ≤ t.id ∧ t.id < 65536 := by
  obtain ⟨e, he⟩ := Lcrs.mem_sibs_iff_entry ht
  have hlt := typeId_lt (mem_types_of_subtype (cfgTypeGetRoot_mem tt) he)
  simp only at hlt
  exact ⟨(split_mkOid _ _ (by omega) (by decide)).1, hlt.1, by omega⟩

/-- The first instances of the other child types have another type half. -/
theorem tid_ne_top (h : (cfgTypeGetRoot tt).2 = pre.append (.node t sub bro)) {s : TypeInfo}
    (hs : s ∈ pre.sibs ∨ s ∈ bro.sibs) : cfgOidToTid (mkOid s.id 1) ≠ t.id := by
  have hids := nodup_sibs_subtype (cfgTypeGetRoot_mem tt)
  have hsibs : (cfgTypeGetRoot tt).2.sibs = pre.sibs ++ t :: bro.sibs := by
    rw [h, Lcrs.sibs_append, Lcrs.sibs]
  have hs' : s ∈ (cfgTypeGetRoot tt).2.sibs := by
    rw [hsibs]
    rcases hs with hs | hs
    · exact List.mem_append_left _ hs
    · exact List.mem_append_right _ (List.mem_cons_of_mem _ hs)
  rw [(tid_top hs').1]
  intro he
  rw [hsibs, List.map_append, List.map_cons, List.nodup_append, List.nodup_cons] at hids
  rcases hs with hs | hs
  · exact hids.2.2 s.id (List.mem_map_of_mem hs) t.id List.mem_cons_self he
  · exact hids.2.1.1 (he ▸ List.mem_map_of_mem hs)

/-! ## Deleting and creating one object below the root -/

variable {st : ObjState} {r : ObjInfo} {c : CfgNodeObj}

/-- The path of the root object. -/
theorem TopNames.getRoot (hn : TopNames tt) (htree : st.tree = .node r c .nil) :
    cfgObjGetObj tt st "root".toList = .ok (some (r, c)) := by
  rw [cfgObjGetObj, htree]
  dsimp only
  rw [hn.rootOidArray]
  rfl

/-- The path of a child type finds the child with instance number `1`. -/
theorem TopNames.getObj (hn : TopNames tt)
    (h : (cfgTypeGetRoot tt).2 = pre.append (.node t sub bro)) (htree : st.tree = .node r c .nil) :
    cfgObjGetObj tt st (joinDots ["root".toList, t.name]) =
      .ok (cfgObjGetChild (r, c) (mkOid t.id 1)) := by
  rw [cfgObjGetObj, htree]
  dsimp only
  rw [hn.toOidArray h]
  dsimp only [List.tail_cons]
  rw [cfgObjGetObjLoop]
  cases cfgObjGetChild (r, c) (mkOid t.id 1) <;> rfl

/-- Deleting by the path of a child type unlinks the child with instance number `1`, if any. -/
theorem TopNames.delete (hn : TopNames tt)
    (h : (cfgTypeGetRoot tt).2 = pre.append (.node t sub bro)) (hinv : StateInv tt st)
    (htree : st.tree = .node r c .nil) :
    ∃ n st', cfgObjDeleteObject tt st (joinDots ["root".toList, t.name]) = .ok (n, st') ∧
      StateInv tt st' ∧ st'.pool = st.pool ∧
      st'.tree = .node r (c.eraseSib fun o => o.id == mkOid t.id 1) .nil := by
  rw [cfgObjDeleteObject, hn.getObj h htree]
  dsimp only [Except.bind, bind]
  cases hget : cfgObjGetChild (r, c) (mkOid t.id 1) with
  | none =>
    refine ⟨-1, st, rfl, hinv, rfl, ?_⟩
    rw [Lcrs.eraseSib_eq_self (Lcrs.findSib_eq_none.mp hget), htree]
  | some o =>
    obtain ⟨-, ho, hid⟩ := Lcrs.findSib_some hget
    have hr : (r, c) ∈ st.tree.entries := by rw [htree]; exact List.mem_cons_self
    obtain ⟨st', hdel, hinv'⟩ := cfgObjDelObject_ok hinv hr ho
    obtain ⟨p, hp, hpool, htree'⟩ := cfgObjDelObject_eq_ok hdel
    refine ⟨_, st', hdel, hinv', hpool, ?_⟩
    obtain rfl : r.addr = p :=
      Option.some.inj (((hinv.tree.children.entry hr).parentLink o.1 ho).symm.trans hp)
    rw [beq_iff_eq] at hid
    rw [htree', htree]
    simp only [Lcrs.mapChild, beq_self_eq_true, if_true]
    rw [Lcrs.eraseSib_congr fun a ha => hinv.addr_beq hr ho ha, hid]

/-- Creating by the path of a child type asks the root object for a child of that type, with number
`1` or with none. -/
theorem TopNames.createObject (hn : TopNames tt)
    (h : (cfgTypeGetRoot tt).2 = pre.append (.node t sub bro)) (htree : st.tree = .node r c .nil) :
    ∃ oid, cfgOidToTid oid = t.id ∧ (cfgOidToId oid ≠ 0 → oid = mkOid t.id 1) ∧
      cfgObjCreateObject tt st (joinDots ["root".toList, t.name]) =
        .ok (cfgObjCreateSubObj tt st (r, c) oid) := by
  obtain ⟨htid, hbase, hlt⟩ := tid_top (mem_sibs_of_split h)
  obtain ⟨oid, hoid, hcase⟩ := hn.toOid h
  have hotid : cfgOidToTid oid = t.id := by
    rcases hcase with rfl | rfl
    · exact htid
    · rw [typeMask_eq, htid, cfgOidToTid_eq]
      omega
  have hnum : cfgOidToId oid ≠ 0 → oid = mkOid t.id 1 := by
    intro hz
    rcases hcase with rfl | rfl
    · rfl
    · rw [typeMask_eq, cfgOidToId_eq] at hz
      omega
  have hne : oid ≠ 0 := by
    rintro rfl
    rw [cfgOidToTid_eq] at hotid
    omega
  refine ⟨oid, hotid, hnum, ?_⟩
  rw [cfgObjCreateObject, cfgObjCreateObjectRec, hn.parent h]
  dsimp only
  rw [cfgObjQueryObject]
  simp only [hn.getRoot htree, bind, Except.bind]
  rw [if_neg (by decide), cfgObjAddObject, hoid]
  dsimp only
  rw [if_neg hne, hn.getRoot htree]

/-- Where there is no child of the type, the new object is instance `1` and stands behind the other
children. -/
theorem TopNames.create (hn : TopNames tt)
    (h : (cfgTypeGetRoot tt).2 = pre.append (.node t sub bro)) (hinv : StateInv tt st)
    (htree : st.tree = .node r c .nil) (hpool : ∀ n, st.pool n = true)
    (hfree : ∀ o ∈ c.sibs, cfgOidToTid o.id ≠ t.id) :
    ∃ n st' new, cfgObjCreateObject tt st (joinDots ["root".toList, t.name]) = .ok (n, st') ∧
      StateInv tt st' ∧ st'.pool = st.pool ∧ st'.tree = .node r (c.append new) .nil ∧
      shape new = .node (mkOid t.id 1, []) (freshShape sub) .nil := by
  obtain ⟨oid, hotid, hnum, hcreate⟩ := hn.createObject h htree
  have hroot : (r, c) ∈ st.tree.entries := by rw [htree]; exact List.mem_cons_self
  have hrid : r.id = rootOid := (hinv.tree.root r c .nil htree).1
  have htt : (t, sub) ∈ tt.types.entries :=
    mem_types_of_subtype (cfgTypeGetRoot_mem tt) (Lcrs.findSib_some (hn.query h)).1
  have hinv' := @stateInv_cfgObjCreateSubObj _ _ hinv _ hroot oid
    (by rw [hrid, cfgOidToTid_rootOid, hotid]
        exact isSubtype_of_mem (cfgTypeGetRoot_mem tt) (mem_sibs_of_split h))
    fun _ => List.all_eq_true.mpr fun x hx => by simp [hotid, hfree x hx]
  have hget : cfgObjGetChild (r, c) oid = none := by
    refine Lcrs.findSib_eq_none.mpr fun x hx => ?_
    simp only [beq_eq_false_iff_ne]
    rintro rfl
    exact hfree x hx hotid
  have hid : (if cfgOidToId oid ≠ 0 then oid else cfgObjAutoOid (r, c) oid) = mkOid t.id 1 := by
    split
    · next hz => exact hnum hz
    · rw [cfgObjAutoOid_first (by rwa [hotid]), hotid]
  have hfind : cfgTypeFindById tt t.id = some (t, sub) := cfgTypeFindById_of_mem htt
  rw [cfgObjCreateSubObj] at hcreate hinv'
  simp only [hget, hotid, hfind, hpool st.next, hid, Option.isSome_none, Bool.false_eq_true,
    if_false, if_true] at hcreate hinv'
  refine ⟨_, _, .node { addr := st.next, id := mkOid t.id 1, parent := some r.addr, priv := [] }
    (cfgObjDelFromType tt (cfgObjCreateFromType st.pool (some st.next) sub (st.next + 1)).1) .nil,
    hcreate, hinv', rfl, ?_, ?_⟩
  · simp only [htree, Lcrs.mapChild, beq_self_eq_true, if_true]
  · have hshape := shape_cfgObjCreateFromType hpool sub (some st.next) (st.next + 1) fun e he =>
      mem_types_of_subtype htt he
    rw [shape] at hshape
    rw [shape, Lcrs.map, Lcrs.map, hshape]

end Names

/-! ## The whole loop -/

/-- What the loop has done when the types `f` are left: the children of the root are `old`, objects
of the types that are left, all with instance number `1`, and then `new`, objects of the others. -/
structure Resetting (tt : TypeTree) (pre f : CfgNodeType) (st : ObjState) (r : ObjInfo)
    (old new : CfgNodeObj) : Prop where
  inv : StateInv tt st
  pool : ∀ n, st.pool n = true
  tree : st.tree = .node r (old.append new) .nil
  old : ∀ o ∈ old.sibs, ∃ t ∈ f.sibs, o.id = mkOid t.id 1
  new : ∀ o ∈ new.sibs, ∃ t ∈ pre.sibs, o.id = mkOid t.id 1

/-- One turn: the object of the type leaves the old ones, and a new one comes behind the new
ones. -/
theorem Resetting.turn {tt : TypeTree} {pre sub bro : CfgNodeType} {t : TypeInfo} {st : ObjState}
    {r : ObjInfo} {old new : CfgNodeObj} (hn : TopNames tt)
    (h : (cfgTypeGetRoot tt).2 = pre.append (.node t sub bro))
    (hr : Resetting tt pre (.node t sub bro) st r old new) :
    ∃ n st₁ m st₂ node, cfgObjDeleteObject tt st (joinDots ["root".toList, t.name]) = .ok (n, st₁) ∧
      cfgObjCreateObject tt st₁ (joinDots ["root".toList, t.name]) = .ok (m, st₂) ∧
      shape node = .node (mkOid t.id 1, []) (freshShape sub) .nil ∧
      Resetting tt (pre.append (.node t sub .nil)) bro st₂ r
        (old.eraseSib fun o => o.id == mkOid t.id 1) (new.append node) := by
  have hsibs : (Lcrs.node t sub bro).sibs = t :: bro.sibs := rfl
  have htid := (tid_top (mem_sibs_of_split h)).1
  have hroot : (r, old.append new) ∈ st.tree.entries := by rw [hr.tree]; exact List.mem_cons_self
  have hdist := (hr.inv.tree.children.entry hroot).distinct
  rw [Lcrs.sibs_append, List.map_append, List.nodup_append] at hdist
  -- the new objects are of other types, and so are the old ones when that of the type is gone
  have hnew : ∀ o ∈ new.sibs, cfgOidToTid o.id ≠ t.id := by
    intro o ho
    obtain ⟨s, hs, hos⟩ := hr.new o ho
    rw [hos]
    exact tid_ne_top h (.inl hs)
  have hold : ∀ o ∈ (old.eraseSib fun o => o.id == mkOid t.id 1).sibs,
      ∃ s ∈ bro.sibs, o.id = mkOid s.id 1 := by
    intro o ho
    obtain ⟨s, hs, hos⟩ := hr.old o ((Lcrs.sibs_eraseSib_sublist _ _).subset ho)
    rw [hsibs, List.mem_cons] at hs
    rcases hs with rfl | hs
    · exact absurd hos (Lcrs.ne_key_of_mem_eraseSib hdist.1 o ho)
    · exact ⟨s, hs, hos⟩
  obtain ⟨n, st₁, hdel, hinv₁, hpool₁, htree₁⟩ := hn.delete h hr.inv hr.tree
  rw [Lcrs.eraseSib_append (by
    intro o ho
    simp only [beq_eq_false_iff_ne]
    intro he
    exact hnew o ho (he ▸ htid))] at htree₁
  have hfree : ∀ o ∈ ((old.eraseSib fun o => o.id == mkOid t.id 1).append new).sibs,
      cfgOidToTid o.id ≠ t.id := by
    intro o ho
    rw [Lcrs.sibs_append, List.mem_append] at ho
    rcases ho with ho | ho
    · obtain ⟨s, hs, hos⟩ := hold o ho
      rw [hos]
      exact tid_ne_top h (.inr hs)
    · exact hnew o ho
  obtain ⟨m, st₂, node, hcreate, hinv₂, hpool₂, htree₂, hshape⟩ :=
    hn.create h hinv₁ htree₁ (by rw [hpool₁]; exact hr.pool) hfree
  refine ⟨n, st₁, m, st₂, node, hdel, hcreate, hshape, hinv₂, ?_, ?_, hold, ?_⟩
  · rw [hpool₂, hpool₁]
    exact hr.pool
  · rw [htree₂, Lcrs.append_assoc]
  · intro o ho
    rw [Lcrs.sibs_append, List.mem_append] at ho
    rw [Lcrs.sibs_append]
    rcases ho with ho | ho
    · obtain ⟨s, hs, hos⟩ := hr.new o ho
      exact ⟨s, List.mem_append_left _ hs, hos⟩
    · have hmem : (o.id, o.priv) ∈ (shape node).sibs := by
        rw [shape, Lcrs.sibs_map]
        exact List.mem_map_of_mem (f := fun o : ObjInfo => (o.id, o.priv)) ho
      rw [hshape, Lcrs.sibs, Lcrs.sibs, List.mem_singleton] at hmem
      exact ⟨t, List.mem_append_right _ List.mem_cons_self, (Prod.mk.inj hmem).1⟩

/-- The loop ends with no old object left and with a new object for each type, in the order of the
types. -/
theorem Resetting.loop {tt : TypeTree} (hn : TopNames tt) (hstatic : StaticTop tt) {r : ObjInfo} :
    ∀ (f pre : CfgNodeType) (st : ObjState) (old new : CfgNodeObj),
    (cfgTypeGetRoot tt).2 = pre.append f → Resetting tt pre f st r old new →
    ∃ st' c, deleteNodeLoop tt f st = .ok st' ∧ StateInv tt st' ∧ st'.tree = .node r c .nil ∧
      shape c = (shape new).append (freshShape f)
  | .nil, pre, st, old, new, _, hr => by
    have hold : old = .nil := by
      cases old with
      | nil => rfl
      | node o c s =>
        obtain ⟨t, ht, -⟩ := hr.old o List.mem_cons_self
        exact absurd ht List.not_mem_nil
    have htree := hr.tree
    rw [hold] at htree
    exact ⟨st, new, rfl, hr.inv, htree, by rw [freshShape, Lcrs.append_nil]⟩
  | .node t sub bro, pre, st, old, new, h, hr => by
    obtain ⟨n, st₁, m, st₂, node, hdel, hcreate, hshape, hr'⟩ := hr.turn hn h
    have h' : (cfgTypeGetRoot tt).2 = (pre.append (.node t sub .nil)).append bro := by
      rw [h, Lcrs.append_assoc]
      rfl
    obtain ⟨st', c, hloop, hinv, htree, hc⟩ := Resetting.loop hn hstatic bro _ st₂ _ _ h' hr'
    refine ⟨st', c, ?_, hinv, htree, ?_⟩
    · rw [deleteNodeLoop, hn.path_eq h, hdel]
      simp only [bind, Except.bind, hcreate, hloop]
    · have hnode : (shape node).append (freshShape bro) = freshShape (.node t sub bro) := by
        rw [hshape, freshShape, hstatic t (mem_sibs_of_split h)]
        rfl
      rw [hc, shape, Lcrs.map_append, Lcrs.append_assoc, ← hnode]
      rfl

/-- The root object and what is below it. -/
def splitRoot : CfgNodeObj → Option CfgObjPtr
  | .nil => none
  | .node r c _ => some (r, c)

/-- The root object is untouched, and below it are the objects of a new tree. -/
structure ResetTo (tt : TypeTree) (st st' : ObjState) : Prop where
  root : (splitRoot st'.tree).map Prod.fst = (splitRoot st.tree).map Prod.fst
  below : (splitRoot st'.tree).map (fun e => shape e.2) =
    (splitRoot (cfgObjLoadFromType tt fun _ => true).tree).map fun e => shape e.2

instance (tt : TypeTree) (st st' : ObjState) : Decidable (ResetTo tt st st') :=
  decidable_of_iff
    ((splitRoot st'.tree).map Prod.fst = (splitRoot st.tree).map Prod.fst ∧
      (splitRoot st'.tree).map (fun e => shape e.2) =
        (splitRoot (cfgObjLoadFromType tt fun _ => true).tree).map fun e => shape e.2)
    ⟨fun h => ⟨h.1, h.2⟩, fun h => ⟨h.root, h.below⟩⟩

/-- The call succeeds and resets the tree. -/
def ResetOk (tt : TypeTree) (st : ObjState) : Prop :=
  match cfgDeleteNode tt st with
  | .error _ => False
  | .ok st' => ResetTo tt st st'

instance (tt : TypeTree) (st : ObjState) : Decidable (ResetOk tt st) :=
  match h : cfgDeleteNode tt st with
  | .error _ => .isFalse (by rw [ResetOk, h]; exact id)
  | .ok st' => decidable_of_iff (ResetTo tt st st') (by rw [ResetOk, h])

/-- Every child of the root object is the first instance of its type. -/
def FirstInstances (st : ObjState) : Prop :=
  ∀ e ∈ splitRoot st.tree, ∀ o ∈ e.2.sibs, o.id = mkOid (cfgOidToTid o.id) 1

/-- **`cfg_delete_node` makes the tree below the root new, if the paths mean the child types, all
children of the root have instance number `1` and the pool has room.** -/
theorem cfgDeleteNode_reset {tt : TypeTree} {st : ObjState} (hn : TopNames tt)
    (hstatic : StaticTop tt) (hinv : StateInv tt st) (hpool : ∀ n, st.pool n = true)
    (hroot : st.tree ≠ .nil) (hone : FirstInstances st) : ResetOk tt st := by
  cases htree : st.tree with
  | nil => exact absurd htree hroot
  | node r c s =>
    obtain ⟨hid, rfl⟩ := hinv.tree.root r c s htree
    have hmem : (r, c) ∈ st.tree.entries := by rw [htree]; exact List.mem_cons_self
    have hold : ∀ o ∈ c.sibs, ∃ t ∈ (cfgTypeGetRoot tt).2.sibs, o.id = mkOid t.id 1 := by
      intro o ho
      obtain ⟨t, ht, s, hs, hso⟩ := (hinv.tree.children.entry hmem).subtype o ho
      rw [hid, cfgOidToTid_rootOid] at ht
      have hr := cfgTypeFindById_of_mem (cfgTypeGetRoot_mem tt)
      rw [cfgTypeGetRoot_id, ht] at hr
      obtain rfl := Option.some.inj hr
      exact ⟨s, hs, by rw [hso]; exact hone (r, c) (by rw [htree]; rfl) o ho⟩
    have hr : Resetting tt .nil (cfgTypeGetRoot tt).2 st r c .nil :=
      { inv := hinv, pool := hpool, old := hold, tree := by rw [htree, Lcrs.append_nil],
        new := fun o ho => absurd ho List.not_mem_nil }
    obtain ⟨st', c', hloop, -, htree', hc'⟩ := Resetting.loop hn hstatic _ _ _ _ _ rfl hr
    have hfresh := @shape_cfgObjLoadFromType tt (fun _ => true) fun _ => rfl
    rw [ResetOk, cfgDeleteNode, hloop]
    refine ⟨?_, ?_⟩
    · rw [htree', htree]
      rfl
    · rw [htree']
      cases hload : (cfgObjLoadFromType tt fun _ => true).tree with
      | nil =>
        rw [hload] at hfresh
        cases hfresh
      | node r₀ c₀ s₀ =>
        rw [hload, shape, Lcrs.map] at hfresh
        obtain ⟨-, hc₀, -⟩ := Lcrs.node.inj hfresh
        show some (shape c') = some (shape c₀)
        rw [hc', shape, shape, hc₀]
        rfl

/-! ## Trees that are and trees that are not reset -/

theorem size_topTypes (names : List Str) :
    (names.foldr (fun name next => Lcrs.node { name := name }
      (.node { name := "s".toList } .nil
        (.node { name := "entry".toList, create := true, flag := cfgTypeFlagMultiple } .nil .nil))
      next) (.nil : CfgNodeType)).size = 3 * names.length := by
  induction names with
  | nil => rfl
  | cons a names ih =>
    simp only [List.foldr_cons, Lcrs.size, ih, List.length_cons]
    omega

theorem topTypes_fits (names : List Str) (h : 3 * names.length < cfgTypeMaxNum) :
    (names.foldr (fun name next => Lcrs.node { name := name }
      (.node { name := "s".toList } .nil
        (.node { name := "entry".toList, create := true, flag := cfgTypeFlagMultiple } .nil .nil))
      next) (.nil : CfgNodeType)).size + 1 ≤ cfgTypeMaxNum := by
  rw [size_topTypes]
  exact h

/-- A type tree with a child type of the root for each of `names`, which has a static subtype and a
dynamic one. -/
def topTypes (root : Str) (names : List Str) (h : 3 * names.length < cfgTypeMaxNum) : TypeTree where
  decl := { name := root }
  subtype := names.foldr (fun name next => .node { name := name }
    (.node { name := "s".toList } .nil
      (.node { name := "entry".toList, create := true, flag := cfgTypeFlagMultiple } .nil .nil))
    next) .nil
  fits := topTypes_fits names h
  static := create_named root

/-- The types `wan` and `lan` below `root`. -/
def resetTypes : TypeTree :=
  topTypes "root".toList ["wan".toList, "lan".toList] (by decide)

theorem topNames_resetTypes : TopNames resetTypes where
  root := by decide
  token := by
    intro t ht
    have ht : t.name ∈ ["wan".toList, "lan".toList] := List.mem_map_of_mem (f := TypeInfo.name) ht
    rcases List.mem_cons.mp ht with h | h
    · rw [h]
      exact ⟨by decide, by decide, by decide⟩
    · rw [List.mem_singleton.mp h]
      exact ⟨by decide, by decide, by decide⟩
  head := by decide
  distinct := by decide

theorem staticTop_resetTypes : StaticTop resetTypes := by
  rw [StaticTop]
  decide

/-- A new tree where the root object and the first child have an attribute each. -/
def tagged (tt : TypeTree) : ObjState :=
  ((cfgObjLoadFromType tt fun _ => true).setPriv 0 fun _ => [("k".toList, "v".toList)]).setPriv 1
    fun _ => [("k".toList, "v".toList)]

theorem stateInv_tagged (tt : TypeTree) : StateInv tt (tagged tt) :=
  stateInv_setPriv (stateInv_setPriv (stateInv_cfgObjLoadFromType tt _) _ _) _ _

theorem cfgDeleteNode_reset_sample : ResetOk resetTypes (tagged resetTypes) :=
  cfgDeleteNode_reset topNames_resetTypes staticTop_resetTypes (stateInv_tagged _) (fun _ => rfl)
    (by decide +kernel) (by rw [FirstInstances]; decide +kernel)

/-- A new tree with a second instance of the first child type. -/
def leftover : ObjState :=
  let st := cfgObjLoadFromType resetTypes fun _ => true
  (cfgObjCreateSubObj resetTypes st (st.tree.entries.headD (⟨0, 0, none, []⟩, .nil))
    (mkOid 101 2)).2

/-- Type trees where the path of a child type is not understood: two names that differ in case only,
names with a digit in front, with a dot, of 32 bytes or empty, and a root of another name. -/
def misnamed : List TypeTree :=
  [topTypes "root".toList ["wan".toList, "WAN".toList] (by decide),
    topTypes "root".toList ["1wan".toList] (by decide),
    topTypes "root".toList ["wan.s".toList] (by decide),
    topTypes "root".toList [List.replicate 32 'w'] (by decide),
    topTypes "root".toList [[]] (by decide),
    topTypes "romfile".toList ["wan".toList] (by decide)]

/-- Another instance of a child type stays, an exhausted pool leaves objects out, and a name that
the path does not spell keeps its object. -/
theorem not_cfgDeleteNode_reset :
    (¬ ∀ (tt : TypeTree) (st : ObjState), TopNames tt → StaticTop tt → StateInv tt st →
      (∀ n, st.pool n = true) → st.tree ≠ .nil → ResetOk tt st) ∧
    (¬ ∀ (tt : TypeTree) (st : ObjState), TopNames tt → StaticTop tt → StateInv tt st →
      st.tree ≠ .nil → FirstInstances st → ResetOk tt st) ∧
    ∀ tt ∈ misnamed, StaticTop tt ∧ StateInv tt (tagged tt) ∧
      (∀ n, (tagged tt).pool n = true) ∧ (tagged tt).tree ≠ .nil ∧ FirstInstances (tagged tt) ∧
      ¬ ResetOk tt (tagged tt) := by
  refine ⟨fun h => ?_, fun h => ?_, ?_⟩
  · have hinv : StateInv resetTypes leftover :=
      stateInv_cfgObjCreateSubObj (stateInv_cfgObjLoadFromType _ _) (by decide +kernel)
        ⟨cfgTypeGetRoot resetTypes, by decide +kernel, by decide +kernel⟩ (by decide +kernel)
    exact absurd (h resetTypes leftover topNames_resetTypes staticTop_resetTypes hinv
      (fun _ => rfl) (by decide +kernel)) (by decide +kernel)
  · have hinv := stateInv_cfgObjLoadFromType resetTypes fun _ => true
    exact absurd (h resetTypes
      { cfgObjLoadFromType resetTypes fun _ => true with pool := fun n => decide (n < 7) }
      topNames_resetTypes staticTop_resetTypes ⟨hinv.tree, hinv.addrs, hinv.fresh⟩
      (by decide +kernel) (by rw [FirstInstances]; decide +kernel)) (by decide +kernel)
  · intro tt htt
    refine ⟨?_, stateInv_tagged tt, fun _ => rfl, ?_, ?_, ?_⟩
    · revert tt
      simp only [StaticTop]
      decide +kernel
    · revert tt
      decide +kernel
    · revert tt
      simp only [FirstInstances]
      decide +kernel
    · revert tt
      decide +kernel

end OnuFirmware.Cfg
