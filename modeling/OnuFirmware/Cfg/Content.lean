import OnuFirmware.Lib.Walk
import OnuFirmware.Cfg.Tree

/-!
# The content of an object tree

Under the invariant of the tree an object is determined by the ids on the way to it. `attrsAt` is
the tree as a map from such ids to attributes; addresses and parent links are gone. This module says
what the map is for a new tree (the *default* objects, those of static types below static types) and
how setting an attribute and creating an object change it.
-/

namespace OnuFirmware.Cfg

open Lib Clib

/-- The attributes of the object that the ids lead to, from the root object downwards. -/
def attrsAt (tree : CfgNodeObj) (ids : List Nat) : Option (List (Str × Str)) :=
  match tree with
  | .nil => none
  | .node r c _ => (cfgObjGetObjLoop (r, c) ids).map fun o => o.1.priv

/-- A state to load into: the invariant holds, there is a root object and the pool has room. -/
structure Ready (tt : TypeTree) (st : ObjState) : Prop where
  inv : StateInv tt st
  root : st.tree ≠ .nil
  pool : ∀ n, st.pool n = true

theorem cfgObjGetObjLoop_eq_walk : ∀ (ids : List Nat) (p : CfgObjPtr),
    cfgObjGetObjLoop p ids = Lcrs.walk ObjInfo.id p ids
  | [], _ => rfl
  | id :: ids, p => by
    rw [cfgObjGetObjLoop, Lcrs.walk, cfgObjGetChild]
    cases p.2.findSib fun o => o.id == id with
    | none => rfl
    | some c => exact cfgObjGetObjLoop_eq_walk ids c

theorem attrsAt_node (r : ObjInfo) (c s : CfgNodeObj) (ids : List Nat) :
    attrsAt (.node r c s) ids = ((Lcrs.walk ObjInfo.id (r, c) ids).map Prod.fst).map
      ObjInfo.priv := by
  rw [attrsAt, cfgObjGetObjLoop_eq_walk, Option.map_map]
  rfl

theorem Ready.tree_eq {tt : TypeTree} {st : ObjState} (h : Ready tt st) :
    ∃ r c, st.tree = .node r c .nil ∧ r.id = rootOid := by
  cases htree : st.tree with
  | nil => exact absurd htree h.root
  | node r c s =>
    obtain ⟨hid, rfl⟩ := h.inv.tree.root r c s htree
    exact ⟨r, c, rfl, hid⟩

/-- No two objects below the root object have the same address. -/
theorem countP_addr_le_one {tt : TypeTree} {st : ObjState} (h : StateInv tt st) {r : ObjInfo}
    {c : CfgNodeObj} (htree : st.tree = .node r c .nil) {o : CfgObjPtr}
    (ho : o ∈ st.tree.entries) :
    (Lcrs.fields (r, c)).countP (fun x => x.addr == o.1.addr) ≤ 1 := by
  have := countP_addr_eq_one h.addrs ho
  rw [htree, Lcrs.values_single] at this
  exact Nat.le_of_eq this

theorem mem_entries_of_getObjLoop {tree : CfgNodeObj} {r : ObjInfo} {c s : CfgNodeObj}
    (htree : tree = .node r c s) {ids : List Nat} {o : CfgObjPtr}
    (h : cfgObjGetObjLoop (r, c) ids = some o) : o ∈ tree.entries := by
  have hr : (r, c) ∈ tree.entries := by rw [htree]; exact List.mem_cons_self
  cases ids with
  | nil =>
    obtain rfl := Option.some.inj h
    exact hr
  | cons id ids =>
    obtain ⟨e, he, -, ho, -⟩ := cfgObjGetObjLoop_listed hr h
    exact Lcrs.entries_trans he ho

/-! ## Setting attributes -/

/-- **Setting attributes of an object changes the content at the ids of that object only.** -/
theorem attrsAt_setPriv {tt : TypeTree} {st : ObjState} (h : StateInv tt st) {r : ObjInfo}
    {c : CfgNodeObj} (htree : st.tree = .node r c .nil) {path : List Nat} {o : CfgObjPtr}
    (ho : cfgObjGetObjLoop (r, c) path = some o) (f : List (Str × Str) → List (Str × Str))
    (ids : List Nat) : attrsAt (st.setPriv o.1.addr f).tree ids =
      if ids = path then some (f o.1.priv) else attrsAt st.tree ids := by
  have hone := countP_addr_le_one h htree (mem_entries_of_getObjLoop htree ho)
  rw [cfgObjGetObjLoop_eq_walk] at ho
  have hwalk := Lcrs.walk_mapVal (u := fun o : ObjInfo => { o with priv := f o.priv })
    (fun _ => rfl) hone ho (by simp) ids
  simp only [ObjState.setPriv, htree, Lcrs.mapVal, attrsAt_node, hwalk]
  split <;> rfl

theorem ready_setPriv {tt : TypeTree} {st : ObjState} (h : Ready tt st) (a : Nat)
    (f : List (Str × Str) → List (Str × Str)) : Ready tt (st.setPriv a f) where
  inv := stateInv_setPriv h.inv a f
  root := by
    obtain ⟨r, c, htree, -⟩ := h.tree_eq
    simp [ObjState.setPriv, htree, Lcrs.mapVal]
  pool := h.pool

/-! ## Default objects -/

/-- The ids lead along static types with instance number `1`, from an object whose type has the
subtypes `sub`. -/
def defaultAt : CfgNodeType → List Nat → Bool
  | _, [] => true
  | sub, k :: ks =>
    match sub.findSib fun t => !t.create && mkOid t.id 1 == k with
    | none => false
    | some t => defaultAt t.2 ks

/-- The content below an object that was just made. -/
def defaultAttrs (sub : CfgNodeType) (ids : List Nat) : Option (List (Str × Str)) :=
  if defaultAt sub ids then some [] else none

section Defaults

variable {tt : TypeTree} {pool : Nat → Bool}

theorem cfgTypeIsDynamicType_mkOid {t : CfgTypePtr} (ht : t ∈ tt.types.entries) :
    cfgTypeIsDynamicType tt (cfgOidToTid (mkOid t.1.id 1)) = t.1.create := by
  have hlt := (typeId_lt ht).2
  rw [(split_mkOid t.1.id 1 (by omega) (by decide)).1, cfgTypeIsDynamicType,
    cfgTypeFindById_of_mem ht]

/-- The objects that are made from a chain of types and stay are those of the static types. -/
theorem findSib_fresh (hpool : ∀ n, pool n = true) (k : Nat) : ∀ (f : CfgNodeType)
    (parent : Option Nat) (next : Nat), (∀ e ∈ f.entries, e ∈ tt.types.entries) →
    match f.findSib fun t => !t.create && mkOid t.id 1 == k with
    | none => ((cfgObjDelFromType tt (cfgObjCreateFromType pool parent f next).1).findSib
        fun o => o.id == k) = none
    | some t => ∃ o a n, o.priv = [] ∧
        ((cfgObjDelFromType tt (cfgObjCreateFromType pool parent f next).1).findSib
          fun o => o.id == k) =
          some (o, cfgObjDelFromType tt (cfgObjCreateFromType pool (some a) t.2 n).1)
  | .nil, _, _, _ => rfl
  | .node t sub bro, parent, next, hf => by
    have ht : (t, sub) ∈ tt.types.entries := hf _ List.mem_cons_self
    have hdyn := cfgTypeIsDynamicType_mkOid ht
    have ih := findSib_fresh hpool k bro parent
      (cfgObjCreateFromType pool (some next) sub (next + 1)).2 fun e he =>
        hf e (List.mem_cons_of_mem _ (List.mem_append_right _ he))
    simp only [cfgObjDelFromType, cfgObjCreateFromType, hpool next, if_true, Lcrs.prune,
      shiftLeft_add_one, hdyn, Lcrs.findSib] at ih ⊢
    by_cases hc : t.create = true
    · simpa only [hc, Bool.not_true, Bool.false_and, Bool.false_eq_true, if_false, if_true] using ih
    · by_cases hk : (mkOid t.id 1 == k) = true
      · simp only [hc, hk, Lcrs.findSib, Bool.not_false, Bool.and_self, Bool.false_eq_true,
          if_false, if_true]
        exact ⟨_, next, next + 1, rfl, rfl⟩
      · simpa only [hc, hk, Lcrs.findSib, Bool.and_false, Bool.false_eq_true, if_false] using ih

/-- The content below an object whose children were just made. -/
theorem walk_fresh (hpool : ∀ n, pool n = true) : ∀ (ids : List Nat) (sub : CfgNodeType)
    (o : ObjInfo) (parent : Option Nat) (next : Nat), o.priv = [] →
    (∀ e ∈ sub.entries, e ∈ tt.types.entries) →
    ((Lcrs.walk ObjInfo.id (o, cfgObjDelFromType tt (cfgObjCreateFromType pool parent sub next).1)
      ids).map Prod.fst).map ObjInfo.priv = defaultAttrs sub ids
  | [], _, o, _, _, ho, _ => by simp [Lcrs.walk, defaultAttrs, defaultAt, ho]
  | k :: ks, sub, o, parent, next, ho, hsub => by
    have hfind := @findSib_fresh tt _ hpool k sub parent next hsub
    rw [Lcrs.walk_cons, defaultAttrs, defaultAt]
    split at hfind
    · next hnone =>
      rw [hfind]
      rfl
    · next t ht =>
      obtain ⟨o', a, n, ho', hsome⟩ := hfind
      rw [hsome, Option.bind_some, walk_fresh hpool ks t.2 o' (some a) n ho' fun e he =>
        hsub e (Lcrs.entries_trans (Lcrs.findSib_some ht).1 he)]
      rfl

/-- **A new tree holds the default objects, without attributes.** -/
theorem attrsAt_cfgObjLoadFromType (hpool : ∀ n, pool n = true) (ids : List Nat) :
    attrsAt (cfgObjLoadFromType tt pool).tree ids = defaultAttrs (cfgTypeGetRoot tt).2 ids := by
  have hdyn := cfgTypeIsDynamicType_mkOid (cfgTypeGetRoot_mem tt)
  have hstat : (cfgTypeGetRoot tt).1.create = false := tt.static
  simp only [cfgObjLoadFromType, cfgObjDelFromType, tt.types_eq, cfgObjCreateFromType, hpool 0,
    if_true, Lcrs.prune, shiftLeft_add_one, hdyn, hstat, Bool.false_eq_true, if_false,
    attrsAt_node]
  exact walk_fresh hpool ids _ _ _ _ rfl fun e he => mem_types_of_subtype (cfgTypeGetRoot_mem tt) he

theorem ready_cfgObjLoadFromType (hpool : ∀ n, pool n = true) :
    Ready tt (cfgObjLoadFromType tt pool) where
  inv := stateInv_cfgObjLoadFromType tt pool
  root := by
    intro hnil
    have h := @attrsAt_cfgObjLoadFromType tt _ hpool []
    rw [hnil] at h
    simp [attrsAt, defaultAttrs, defaultAt] at h
  pool := hpool

end Defaults

/-! ## Creating an object -/

/-- Without a child of the type the automatic number is `1`. -/
theorem cfgObjAutoOid_first {obj : CfgObjPtr} {oid : Nat}
    (h : ∀ c ∈ obj.2.sibs, cfgOidToTid c.id ≠ cfgOidToTid oid) :
    cfgObjAutoOid obj oid = mkOid (cfgOidToTid oid) 1 := by
  obtain ⟨-, h2, -⟩ := maxOid_spec (oid &&& 0xffff0000) obj.2.sibs (oid &&& 0xffff0000)
  have hmax : maxOid (oid &&& 0xffff0000) (oid &&& 0xffff0000) obj.2.sibs = oid &&& 0xffff0000 := by
    rcases h2 with h2 | ⟨c, hc, hct, -⟩
    · exact h2
    · rw [typeMask_eq, typeMask_eq] at hct
      exact absurd (by omega) (h c hc)
  have hlow : ¬ ((oid &&& 0xffff0000) &&& 0xffff = 0xffff) := by
    have := cfgOidToId_eq (oid &&& 0xffff0000)
    rw [cfgOidToId, typeMask_eq] at this
    rw [typeMask_eq]
    omega
  rw [cfgObjAutoOid]
  simp only [hmax]
  rw [if_neg hlow, typeMask_eq, mkOid_eq_add (by decide)]

/-- The number in `oid`, or the first one if `oid` has none and the object no child of the type. -/
def NewOid (obj : CfgObjPtr) (oid k : Nat) : Prop :=
  (cfgOidToId oid ≠ 0 ∧ k = oid) ∨
    (cfgOidToId oid = 0 ∧ k = mkOid (cfgOidToTid oid) 1 ∧
      ∀ c ∈ obj.2.sibs, cfgOidToTid c.id ≠ cfgOidToTid oid)

/-- **A new object comes with the default objects below it and changes nothing else.** -/
theorem cfgObjCreateSubObj_content {tt : TypeTree} {st : ObjState} (h : Ready tt st) {r : ObjInfo}
    {c : CfgNodeObj} (htree : st.tree = .node r c .nil) {path : List Nat} {obj : CfgObjPtr}
    (hobj : cfgObjGetObjLoop (r, c) path = some obj) {oid k : Nat} {t : CfgTypePtr}
    (ht : cfgTypeFindById tt (cfgOidToTid oid) = some t)
    (hsub : IsSubtype tt (cfgOidToTid obj.1.id) (cfgOidToTid oid)) (hk : NewOid obj oid k)
    (hnone : cfgObjGetChild obj k = none) :
    ∃ st', cfgObjCreateSubObj tt st obj oid = ((k : Int), st') ∧ Ready tt st' ∧
      ∀ ids, attrsAt st'.tree ids =
        if path ++ [k] <+: ids then defaultAttrs t.2 (ids.drop (path.length + 1))
        else attrsAt st.tree ids := by
  have hmem := mem_entries_of_getObjLoop htree hobj
  have hget : cfgObjGetChild obj oid = none := by
    rcases hk with ⟨-, rfl⟩ | ⟨-, -, hc⟩
    · exact hnone
    · refine Lcrs.findSib_eq_none.mpr fun x hx => ?_
      have := hc x hx
      simp only [beq_eq_false_iff_ne]
      rintro rfl
      exact this rfl
  have hid : (if cfgOidToId oid ≠ 0 then oid else cfgObjAutoOid obj oid) = k := by
    rcases hk with ⟨hne, rfl⟩ | ⟨hz, rfl, hc⟩
    · rw [if_pos hne]
    · rw [if_neg (by simp [hz]), cfgObjAutoOid_first hc]
  have hinv := stateInv_cfgObjCreateSubObj h.inv hmem hsub fun hz => by
    rcases hk with ⟨hne, -⟩ | ⟨-, -, hc⟩
    · exact absurd hz hne
    · refine List.all_eq_true.mpr fun x hx => ?_
      simp [hc x hx]
  have hone := countP_addr_le_one h.inv htree hmem
  rw [cfgObjGetObjLoop_eq_walk] at hobj
  rw [cfgObjCreateSubObj] at hinv ⊢
  simp only [hget, Option.isSome_none, Bool.false_eq_true, if_false, ht, h.pool st.next, if_true,
    hid] at hinv ⊢
  refine ⟨_, rfl, ⟨hinv, ?_, h.pool⟩, fun ids => ?_⟩
  · simp [htree, Lcrs.mapChild]
  · have hwalk := @Lcrs.walk_mapChild_append _ _ _ ObjInfo.id _
      { addr := st.next, id := k, parent := some obj.1.addr, priv := [] }
      (cfgObjDelFromType tt
        (cfgObjCreateFromType st.pool (some st.next) t.2 (st.next + 1)).1)
      _ _ _ hone hobj (by simp) hnone ids
    simp only [htree, Lcrs.mapChild, attrsAt_node, hwalk]
    split
    · exact walk_fresh h.pool _ _ _ _ _ rfl fun e he =>
        mem_types_of_subtype (cfgTypeFindById_some ht).1 he
    · rfl

end OnuFirmware.Cfg
