import OnuFirmware.Cfg.Obj
import OnuFirmware.Cfg.Parent

/-!
# The invariant of the object tree

`TreeInv` says of every object that its children have pairwise distinct ids, that their types are
subtypes of its type, and that their parent links lead back to it. `StateInv` adds what keeps the
address of an object unique. This module shows which of the operations on one object keep it, and
under what; `Cfg/Run.lean` puts them together for whole calls and runs.
-/

namespace OnuFirmware.Cfg

open Lib Clib

/-! ## Statement -/

/-- The id of the root object. -/
def rootOid : Nat := mkOid cfgTypeBaseVal 1

/-- What holds between an object and its child list. -/
structure ChildrenOk (tt : TypeTree) (o : ObjInfo) (children : List ObjInfo) : Prop where
  distinct : (children.map ObjInfo.id).Nodup
  subtype : ∀ c ∈ children, IsSubtype tt (cfgOidToTid o.id) (cfgOidToTid c.id)
  parentLink : ∀ c ∈ children, c.parent = some o.addr

/-- **The invariant of the object tree.** -/
structure TreeInv (tt : TypeTree) (tree : CfgNodeObj) : Prop where
  root : ∀ r c s, tree = .node r c s → r.id = rootOid ∧ s = .nil
  children : tree.Everywhere (ChildrenOk tt)

/-- The invariant of a state: that of its tree, and addresses that no two objects share and no later
allocation returns again. -/
structure StateInv (tt : TypeTree) (st : ObjState) : Prop where
  tree : TreeInv tt st.tree
  addrs : (st.tree.values.map ObjInfo.addr).Nodup
  fresh : ∀ o ∈ st.tree.values, o.addr < st.next

/-! ## Ids as numbers -/

theorem cfgOidToTid_eq (x : Nat) : cfgOidToTid x = x / 65536 % 65536 := by
  rw [cfgOidToTid, show (0xffff : Nat) = 2 ^ 16 - 1 from rfl, Nat.and_two_pow_sub_one_eq_mod,
    Nat.shiftRight_eq_div_pow]

theorem cfgOidToId_eq (x : Nat) : cfgOidToId x = x % 65536 := by
  rw [cfgOidToId, show (0xffff : Nat) = 2 ^ 16 - 1 from rfl, Nat.and_two_pow_sub_one_eq_mod]

/-- `x & CFG_TYPE_MASK`. -/
theorem typeMask_eq (x : Nat) : x &&& 0xffff0000 = cfgOidToTid x * 65536 := by
  rw [cfgOidToTid, show (65536 : Nat) = 2 ^ 16 from rfl, ← Nat.shiftLeft_eq,
    show (0xffff0000 : Nat) = 0xffff <<< 16 from rfl]
  apply Nat.eq_of_testBit_eq
  intro i
  simp only [Nat.testBit_and, Nat.testBit_shiftLeft, Nat.testBit_shiftRight]
  by_cases hi : 16 ≤ i
  · simp [hi, show 16 + (i - 16) = i by omega]
  · simp [hi]

theorem shiftLeft_add_one (tid : Nat) : tid <<< cfgTypeShift + 1 = mkOid tid 1 := by
  rw [mkOid_eq_add (by decide), cfgTypeShift, Nat.shiftLeft_eq]

theorem cfgOidToTid_rootOid : cfgOidToTid rootOid = cfgTypeBaseVal := by decide

/-! ## Objects that a path leads to -/

/-- An object below `p` is listed by some object of the tree. -/
theorem cfgObjGetObjLoop_listed {f : CfgNodeObj} : ∀ {ids : List Nat} {p o : CfgObjPtr} {id : Nat},
    p ∈ f.entries → cfgObjGetObjLoop p (id :: ids) = some o →
    ∃ e ∈ f.entries, o.1 ∈ e.2.sibs ∧ o ∈ e.2.entries ∧ (id :: ids).getLast? = some o.1.id
  | [], p, o, id, hp, h => by
    rw [cfgObjGetObjLoop] at h
    split at h
    · exact absurd h (by simp)
    · next c hc =>
      obtain rfl := Option.some.inj h
      obtain ⟨h1, h2, h3⟩ := Lcrs.findSib_some hc
      rw [beq_iff_eq] at h3
      exact ⟨p, hp, h2, h1, by rw [h3]; rfl⟩
  | id' :: ids, p, o, id, hp, h => by
    rw [cfgObjGetObjLoop] at h
    split at h
    · exact absurd h (by simp)
    · next c hc =>
      have hc' : c ∈ f.entries := Lcrs.entries_trans hp (Lcrs.findSib_some hc).1
      obtain ⟨e, he, h1, h2, h3⟩ := cfgObjGetObjLoop_listed hc' h
      exact ⟨e, he, h1, h2, by rw [List.getLast?_cons_cons, h3]⟩

theorem cfgObjGetObj_some {tt : TypeTree} {st : ObjState} {path : Str} {o : CfgObjPtr}
    (h : cfgObjGetObj tt st path = .ok (some o)) :
    ∃ r c s ids, st.tree = .node r c s ∧ cfgPathToOidArray tt path = .ok (some ids) ∧
      cfgObjGetObjLoop (r, c) ids.tail = some o := by
  rw [cfgObjGetObj] at h
  split at h
  · simp at h
  · next r c s htree =>
    split at h
    · simp at h
    · simp at h
    · next ids hids =>
      exact ⟨r, c, s, ids, htree, hids, by simpa using h⟩

theorem cfgObjGetObj_mem {tt : TypeTree} {st : ObjState} {path : Str} {o : CfgObjPtr}
    (h : cfgObjGetObj tt st path = .ok (some o)) : o ∈ st.tree.entries := by
  obtain ⟨r, c, s, ids, htree, -, hloop⟩ := cfgObjGetObj_some h
  have hr : (r, c) ∈ st.tree.entries := by rw [htree]; exact List.mem_cons_self
  cases hids : ids.tail with
  | nil =>
    rw [hids] at hloop
    obtain rfl := Option.some.inj hloop
    exact hr
  | cons id ids' =>
    rw [hids] at hloop
    obtain ⟨e, he, -, ho, -⟩ := cfgObjGetObjLoop_listed hr hloop
    exact Lcrs.entries_trans he ho

/-! ## Rewriting attributes -/

theorem childrenOk_setPriv {tt : TypeTree} {a : Nat} {f : List (Str × Str) → List (Str × Str)}
    (o : ObjInfo) (l : List ObjInfo) (h : ChildrenOk tt o l) :
    ChildrenOk tt (if o.addr == a then { o with priv := f o.priv } else o)
      (l.map fun b => if b.addr == a then { b with priv := f b.priv } else b) := by
  have key : ∀ b : ObjInfo, (if b.addr == a then { b with priv := f b.priv } else b).id = b.id ∧
      (if b.addr == a then { b with priv := f b.priv } else b).parent = b.parent ∧
      (if b.addr == a then { b with priv := f b.priv } else b).addr = b.addr := by
    intro b
    split <;> simp
  refine ⟨?_, ?_, ?_⟩
  · rw [List.map_map]
    have : (ObjInfo.id ∘ fun b : ObjInfo => if b.addr == a then { b with priv := f b.priv } else b)
        = ObjInfo.id := funext fun b => (key b).1
    rw [this]
    exact h.distinct
  · intro c hc
    obtain ⟨b, hb, rfl⟩ := List.mem_map.mp hc
    rw [(key o).1, (key b).1]
    exact h.subtype b hb
  · intro c hc
    obtain ⟨b, hb, rfl⟩ := List.mem_map.mp hc
    rw [(key o).2.2, (key b).2.1]
    exact h.parentLink b hb

theorem addrs_setPriv (st : ObjState) (a : Nat) (f : List (Str × Str) → List (Str × Str)) :
    (st.setPriv a f).tree.values.map ObjInfo.addr = st.tree.values.map ObjInfo.addr := by
  rw [ObjState.setPriv, Lcrs.values_mapVal, List.map_map]
  refine List.map_congr_left fun b _ => ?_
  simp only [Function.comp_apply]
  split <;> rfl

theorem stateInv_setPriv {tt : TypeTree} {st : ObjState} (h : StateInv tt st) (a : Nat)
    (f : List (Str × Str) → List (Str × Str)) : StateInv tt (st.setPriv a f) := by
  have haddr := addrs_setPriv st a f
  refine ⟨⟨?_, h.tree.children.mapVal childrenOk_setPriv⟩, ?_, ?_⟩
  · intro r c s hnode
    cases htree : st.tree with
    | nil => simp [ObjState.setPriv, htree, Lcrs.mapVal] at hnode
    | node r' c' s' =>
      obtain ⟨hid, rfl⟩ := h.tree.root r' c' s' htree
      simp only [ObjState.setPriv, htree, Lcrs.mapVal, Lcrs.node.injEq] at hnode
      obtain ⟨rfl, -, rfl⟩ := hnode
      refine ⟨?_, rfl⟩
      split <;> exact hid
  · rw [haddr]
    exact h.addrs
  · intro o ho
    have : o.addr ∈ st.tree.values.map ObjInfo.addr := by
      rw [← haddr]
      exact List.mem_map_of_mem ho
    obtain ⟨b, hb, hba⟩ := List.mem_map.mp this
    rw [← hba]
    exact h.fresh b hb

/-! ## Unlinking an object -/

theorem childrenOk_sublist {tt : TypeTree} (o : ObjInfo) (l l' : List ObjInfo)
    (hsub : l'.Sublist l) (h : ChildrenOk tt o l) : ChildrenOk tt o l' where
  distinct := h.distinct.sublist (hsub.map _)
  subtype := fun c hc => h.subtype c (hsub.subset hc)
  parentLink := fun c hc => h.parentLink c (hsub.subset hc)

/-- An object that is listed below another can be deleted, and the invariant stays. -/
theorem cfgObjDelObject_ok {tt : TypeTree} {st : ObjState} (h : StateInv tt st)
    {e o : CfgObjPtr} (he : e ∈ st.tree.entries) (ho : o.1 ∈ e.2.sibs) :
    ∃ st', cfgObjDelObject st o = .ok (o.1.id, st') ∧ StateInv tt st' := by
  have hpar : o.1.parent = some e.1.addr := (h.tree.children.entry he).parentLink o.1 ho
  have hfind : st.tree.entries.find? (fun x => x.1.addr == e.1.addr) = some e := by
    obtain ⟨x, hx⟩ : ∃ x, st.tree.entries.find? (fun x => x.1.addr == e.1.addr) = some x := by
      rw [← Option.isSome_iff_exists, List.find?_isSome]
      exact ⟨e, he, by simp⟩
    have hxa : x.1.addr = e.1.addr := by simpa using List.find?_some hx
    rw [hx, Lcrs.entry_unique h.addrs (List.mem_of_find?_eq_some hx) he hxa]
  rw [cfgObjDelObject, hpar]
  simp only [hfind, Option.any_some]
  rw [if_pos (List.any_eq_true.mpr ⟨o.1, ho, by simp⟩)]
  refine ⟨_, rfl, ⟨?_, ?_⟩, ?_, ?_⟩
  · intro r c s hnode
    cases htree : st.tree with
    | nil => simp [htree, Lcrs.mapChild] at hnode
    | node r' c' s' =>
      obtain ⟨hid, rfl⟩ := h.tree.root r' c' s' htree
      simp only [htree, Lcrs.mapChild, Lcrs.node.injEq] at hnode
      obtain ⟨rfl, -, rfl⟩ := hnode
      exact ⟨hid, rfl⟩
  · refine h.tree.children.mapChild fun x hx hxa => ⟨?_, (h.tree.children.below hx).eraseSib⟩
    exact childrenOk_sublist _ _ _ (Lcrs.sibs_eraseSib_sublist _ _) (h.tree.children.entry hx)
  · exact h.addrs.sublist ((Lcrs.values_mapChild_sublist (Lcrs.values_eraseSib_sublist _) _).map _)
  · intro x hx
    exact h.fresh x ((Lcrs.values_mapChild_sublist (Lcrs.values_eraseSib_sublist _) _).subset hx)

/-- What a deletion that returns has done. -/
theorem cfgObjDelObject_eq_ok {st st' : ObjState} {o : CfgObjPtr} {n : Int}
    (h : cfgObjDelObject st o = .ok (n, st')) : ∃ p, o.1.parent = some p ∧ st'.pool = st.pool ∧
      st'.tree = st.tree.mapChild (fun a => a.addr == p)
        (·.eraseSib fun a => a.addr == o.1.addr) := by
  rw [cfgObjDelObject] at h
  split at h
  · simp at h
  next p hp =>
  split at h
  swap
  · simp at h
  obtain ⟨-, rfl⟩ := Prod.mk.inj (Except.ok.inj h)
  exact ⟨p, hp, rfl, rfl⟩

/-- Among the children of an object an address and an id pick the same one. -/
theorem StateInv.addr_beq {tt : TypeTree} {st : ObjState} (h : StateInv tt st) {e : CfgObjPtr}
    (he : e ∈ st.tree.entries) {o a : ObjInfo} (ho : o ∈ e.2.sibs) (ha : a ∈ e.2.sibs) :
    (a.addr == o.addr) = (a.id == o.id) := by
  have haddr : (e.2.sibs.map ObjInfo.addr).Nodup :=
    h.addrs.sublist (((Lcrs.sibs_sublist_values e.2).trans
      (Lcrs.values_sublist_of_mem he)).map _)
  rw [Bool.eq_iff_iff, beq_iff_eq, beq_iff_eq]
  constructor
  · intro hao
    rw [List.inj_on_of_nodup_map haddr ha ho hao]
  · intro hao
    rw [List.inj_on_of_nodup_map (h.tree.children.entry he).distinct ha ho hao]

/-! ## Objects made from types -/

section FromType

variable {pool : Nat → Bool}

theorem le_cfgObjCreateFromType (pool : Nat → Bool) : ∀ (f : CfgNodeType)
    (parent : Option Nat) (next : Nat),
    next ≤ (cfgObjCreateFromType pool parent f next).2
  | .nil, _, next => Nat.le_refl next
  | .node t sub bro, parent, next => by
    rw [cfgObjCreateFromType]
    split
    · have h1 := le_cfgObjCreateFromType pool sub (some next) (next + 1)
      have h2 := le_cfgObjCreateFromType pool bro parent
        (cfgObjCreateFromType pool (some next) sub (next + 1)).2
      simp only
      omega
    · exact Nat.le_succ next

/-- The new objects get the addresses in between, each once. -/
theorem addrs_cfgObjCreateFromType (pool : Nat → Bool) : ∀ (f : CfgNodeType)
    (parent : Option Nat) (next : Nat),
    (∀ o ∈ (cfgObjCreateFromType pool parent f next).1.values,
      next ≤ o.addr ∧ o.addr < (cfgObjCreateFromType pool parent f next).2) ∧
    ((cfgObjCreateFromType pool parent f next).1.values.map ObjInfo.addr).Nodup
  | .nil, _, _ => by simp [cfgObjCreateFromType, Lcrs.values]
  | .node t sub bro, parent, next => by
    rw [cfgObjCreateFromType]
    split
    swap
    · simp [Lcrs.values]
    obtain ⟨hc, hcn⟩ := addrs_cfgObjCreateFromType pool sub (some next) (next + 1)
    obtain ⟨hb, hbn⟩ := addrs_cfgObjCreateFromType pool bro parent
      (cfgObjCreateFromType pool (some next) sub (next + 1)).2
    have hle := le_cfgObjCreateFromType pool sub (some next) (next + 1)
    have hle' := le_cfgObjCreateFromType pool bro parent
      (cfgObjCreateFromType pool (some next) sub (next + 1)).2
    dsimp only
    generalize cfgObjCreateFromType pool (some next) sub (next + 1) = child at *
    generalize cfgObjCreateFromType pool parent bro child.2 = brother at *
    simp only [Lcrs.values, List.map_cons, List.map_append, List.nodup_cons, List.mem_cons,
      List.mem_append, List.nodup_append]
    refine ⟨?_, ?_, hcn, hbn, ?_⟩
    · rintro o (rfl | ho | ho)
      · exact ⟨Nat.le_refl _, by simp only; omega⟩
      · have := hc o ho
        omega
      · have := hb o ho
        omega
    · simp only [List.mem_map, not_or, not_exists, not_and]
      refine ⟨fun o ho he => ?_, fun o ho he => ?_⟩
      · have := hc o ho
        omega
      · have := hb o ho
        omega
    · intro a ha b hb' hab
      obtain ⟨o, ho, rfl⟩ := List.mem_map.mp ha
      obtain ⟨o', ho', rfl⟩ := List.mem_map.mp hb'
      have h1 := hc o ho
      have h2 := hb o' ho'
      omega

/-- One object for each type of the chain, as far as the pool goes, with instance number `1`. -/
theorem sibs_cfgObjCreateFromType (pool : Nat → Bool) : ∀ (f : CfgNodeType)
    (parent : Option Nat) (next : Nat),
    ((cfgObjCreateFromType pool parent f next).1.sibs.map ObjInfo.id).Sublist
        (f.sibs.map fun t => mkOid t.id 1) ∧
      ∀ o ∈ (cfgObjCreateFromType pool parent f next).1.sibs, o.parent = parent
  | .nil, _, _ => by simp [cfgObjCreateFromType, Lcrs.sibs]
  | .node t sub bro, parent, next => by
    rw [cfgObjCreateFromType]
    split
    swap
    · simp [Lcrs.sibs]
    obtain ⟨h1, h2⟩ := sibs_cfgObjCreateFromType pool bro parent
      (cfgObjCreateFromType pool (some next) sub (next + 1)).2
    simp only [Lcrs.sibs, List.map_cons, shiftLeft_add_one, List.forall_mem_cons, true_and]
    exact ⟨h1.cons_cons _, h2⟩

theorem nodup_mkOid {tt : TypeTree} {f : CfgNodeType} (hf : ∀ e ∈ f.entries, e ∈ tt.types.entries)
    (hn : (f.sibs.map TypeInfo.id).Nodup) : (f.sibs.map fun t => mkOid t.id 1).Nodup := by
  rw [List.Nodup, List.pairwise_map] at hn ⊢
  refine hn.imp_of_mem fun {a b} ha hb hab heq => hab ?_
  obtain ⟨ca, hca⟩ := Lcrs.mem_sibs_iff_entry ha
  obtain ⟨cb, hcb⟩ := Lcrs.mem_sibs_iff_entry hb
  have h1 := (typeId_lt (hf _ hca)).2
  have h2 := (typeId_lt (hf _ hcb)).2
  have e1 := (split_mkOid a.id 1 (by simp only at h1; omega) (by decide)).1
  have e2 := (split_mkOid b.id 1 (by simp only at h2; omega) (by decide)).1
  rw [← e1, ← e2, heq]

theorem nodup_sibs_subtype {tt : TypeTree} {t : CfgTypePtr} (ht : t ∈ tt.types.entries) :
    (t.2.sibs.map TypeInfo.id).Nodup := by
  refine tt.nodup_ids.sublist (List.Sublist.map _ ?_)
  exact (Lcrs.sibs_sublist_values t.2).trans (Lcrs.values_sublist_of_mem ht)

/-- The objects made for the subtypes of a type fit below an object of that type. -/
theorem childrenOk_cfgObjCreateFromType {tt : TypeTree} {t : CfgTypePtr} {o : ObjInfo}
    (ht : t ∈ tt.types.entries) (ho : cfgOidToTid o.id = t.1.id) (next : Nat) :
    ChildrenOk tt o (cfgObjCreateFromType pool (some o.addr) t.2 next).1.sibs := by
  obtain ⟨hids, hpar⟩ := sibs_cfgObjCreateFromType pool t.2 (some o.addr) next
  have hsub : ∀ e ∈ t.2.entries, e ∈ tt.types.entries := fun e he => mem_types_of_subtype ht he
  refine ⟨(nodup_mkOid hsub (nodup_sibs_subtype ht)).sublist hids, fun c hc => ?_, hpar⟩
  obtain ⟨s, hs, hcs⟩ := List.mem_map.mp (hids.subset (List.mem_map_of_mem hc))
  obtain ⟨cs, hcs'⟩ := Lcrs.mem_sibs_iff_entry hs
  have hlt := (typeId_lt (hsub _ hcs')).2
  rw [← hcs, (split_mkOid _ _ (by simp only at hlt; omega) (by decide)).1, ho]
  exact isSubtype_of_mem ht hs

/-- A tree made from types satisfies the invariant throughout. -/
theorem everywhere_cfgObjCreateFromType {tt : TypeTree} : ∀ (f : CfgNodeType)
    (parent : Option Nat) (next : Nat), (∀ e ∈ f.entries, e ∈ tt.types.entries) →
    (cfgObjCreateFromType pool parent f next).1.Everywhere (ChildrenOk tt)
  | .nil, _, _, _ => trivial
  | .node t sub bro, parent, next, hf => by
    rw [cfgObjCreateFromType]
    split
    swap
    · trivial
    have ht : (t, sub) ∈ tt.types.entries := hf _ List.mem_cons_self
    have hlt := (typeId_lt ht).2
    refine ⟨?_, ?_, ?_⟩
    · refine childrenOk_cfgObjCreateFromType (t := (t, sub)) ht ?_ (next + 1)
      rw [shiftLeft_add_one]
      exact (split_mkOid _ _ (by simp only at hlt; omega) (by decide)).1
    · exact everywhere_cfgObjCreateFromType sub _ _ fun e he =>
        hf e (List.mem_cons_of_mem _ (List.mem_append_left _ he))
    · exact everywhere_cfgObjCreateFromType bro _ _ fun e he =>
        hf e (List.mem_cons_of_mem _ (List.mem_append_right _ he))

end FromType

theorem everywhere_cfgObjDelFromType {tt : TypeTree} {f : CfgNodeObj}
    (h : f.Everywhere (ChildrenOk tt)) : (cfgObjDelFromType tt f).Everywhere (ChildrenOk tt) :=
  h.prune childrenOk_sublist

/-- **The tree that the object library starts with satisfies the invariant.** -/
theorem stateInv_cfgObjLoadFromType (tt : TypeTree) (pool : Nat → Bool) :
    StateInv tt (cfgObjLoadFromType tt pool) := by
  have hadd := addrs_cfgObjCreateFromType pool tt.types none 0
  have hsub := Lcrs.values_prune_sublist
    (fun o : ObjInfo => cfgTypeIsDynamicType tt (cfgOidToTid o.id))
    (cfgObjCreateFromType pool none tt.types 0).1
  refine ⟨⟨?_, ?_⟩, ?_, ?_⟩
  · intro r c s hnode
    rw [cfgObjLoadFromType, cfgObjDelFromType, tt.types_eq, cfgObjCreateFromType] at hnode
    split at hnode
    · rw [Lcrs.prune] at hnode
      split at hnode
      · simp [cfgObjCreateFromType, Lcrs.prune] at hnode
      · simp only [cfgObjCreateFromType, Lcrs.prune, Lcrs.node.injEq] at hnode
        obtain ⟨rfl, -, rfl⟩ := hnode
        exact ⟨by rw [shiftLeft_add_one]; rfl, rfl⟩
    · simp [Lcrs.prune] at hnode
  · exact everywhere_cfgObjDelFromType (everywhere_cfgObjCreateFromType _ _ _ fun _ he => he)
  · exact hadd.2.sublist (hsub.map _)
  · exact fun o ho => (hadd.1 o (hsub.subset ho)).2

/-! ## Automatic instance numbers -/

/-- `maxOid` returns the start value or the id of a child of the type, and no child of the type has
a greater id. -/
theorem maxOid_spec (type : Nat) : ∀ (l : List ObjInfo) (maxid : Nat),
    maxid ≤ maxOid type maxid l ∧
    (maxOid type maxid l = maxid ∨
      ∃ c ∈ l, c.id &&& 0xffff0000 = type ∧ maxOid type maxid l = c.id) ∧
    ∀ c ∈ l, c.id &&& 0xffff0000 = type → c.id ≤ maxOid type maxid l
  | [], maxid => by simp [maxOid]
  | o :: l, maxid => by
    rw [maxOid]
    split
    · next h =>
      obtain ⟨h1, h2, h3⟩ := maxOid_spec type l o.id
      refine ⟨by omega, Or.inr ?_, ?_⟩
      · rcases h2 with h2 | ⟨c, hc, hct, h2⟩
        · exact ⟨o, List.mem_cons_self, h.1, h2⟩
        · exact ⟨c, List.mem_cons_of_mem o hc, hct, h2⟩
      · intro c hc hct
        rcases List.mem_cons.mp hc with rfl | hc
        · exact h1
        · exact h3 c hc hct
    · next h =>
      obtain ⟨h1, h2, h3⟩ := maxOid_spec type l maxid
      refine ⟨h1, ?_, ?_⟩
      · rcases h2 with h2 | ⟨c, hc, hct, h2⟩
        · exact Or.inl h2
        · exact Or.inr ⟨c, List.mem_cons_of_mem o hc, hct, h2⟩
      · intro c hc hct
        rcases List.mem_cons.mp hc with rfl | hc
        · have : ¬ maxid < c.id := fun hlt => h ⟨hct, hlt⟩
          omega
        · exact h3 c hc hct

/-- No child of the type of `oid` has the greatest instance number. -/
def topFree (obj : CfgObjPtr) (oid : Nat) : Bool :=
  obj.2.sibs.all fun c => cfgOidToTid c.id != cfgOidToTid oid || cfgOidToId c.id != 0xffff

/-- While the greatest number is free, the automatic id is new and of the right type. -/
theorem cfgObjAutoOid_spec {obj : CfgObjPtr} {oid : Nat} (h : topFree obj oid = true) :
    cfgOidToTid (cfgObjAutoOid obj oid) = cfgOidToTid oid ∧
      cfgObjAutoOid obj oid ∉ obj.2.sibs.map ObjInfo.id := by
  have htop : ∀ c ∈ obj.2.sibs, c.id / 65536 % 65536 = oid / 65536 % 65536 →
      c.id % 65536 ≠ 65535 := by
    intro c hc htid
    have := List.all_eq_true.mp h c hc
    rw [cfgOidToTid_eq, cfgOidToTid_eq, cfgOidToId_eq] at this
    simpa [htid] using this
  obtain ⟨-, h2, h3⟩ := maxOid_spec (oid &&& 0xffff0000) obj.2.sibs (oid &&& 0xffff0000)
  rw [cfgObjAutoOid]
  generalize hm : maxOid (oid &&& 0xffff0000) (oid &&& 0xffff0000) obj.2.sibs = m at h2 h3
  have hcid : ∀ c ∈ obj.2.sibs, c.id &&& 0xffff0000 = oid &&& 0xffff0000 ↔
      c.id / 65536 % 65536 = oid / 65536 % 65536 := by
    intro c _
    rw [typeMask_eq, typeMask_eq, cfgOidToTid_eq, cfgOidToTid_eq]
    omega
  rw [typeMask_eq oid, cfgOidToTid_eq] at h2
  have hm1 : m / 65536 % 65536 = oid / 65536 % 65536 ∧ m % 65536 ≠ 65535 := by
    rcases h2 with h2 | ⟨c, hc, hct, rfl⟩
    · omega
    · rw [← cfgOidToTid_eq oid, ← typeMask_eq] at hct
      exact ⟨(hcid c hc).mp hct, htop c hc ((hcid c hc).mp hct)⟩
  have hlow : ¬ (m &&& 0xffff = 0xffff) := by
    have := cfgOidToId_eq m
    rw [cfgOidToId] at this
    omega
  simp only [if_neg hlow]
  rw [cfgOidToTid_eq, cfgOidToTid_eq]
  refine ⟨by omega, ?_⟩
  intro hmem
  obtain ⟨c, hc, hce⟩ := List.mem_map.mp hmem
  have := h3 c hc ((hcid c hc).mpr (by omega))
  omega

/-! ## Linking a new object -/

theorem childrenOk_concat {tt : TypeTree} {o c : ObjInfo} {l : List ObjInfo}
    (h : ChildrenOk tt o l) (hid : c.id ∉ l.map ObjInfo.id)
    (hsub : IsSubtype tt (cfgOidToTid o.id) (cfgOidToTid c.id)) (hpar : c.parent = some o.addr) :
    ChildrenOk tt o (l ++ [c]) where
  distinct := by
    rw [List.map_append, List.map_singleton]
    exact h.distinct.append (List.nodup_singleton _) (by simpa using hid)
  subtype := by
    simpa [or_imp, forall_and] using ⟨h.subtype, hsub⟩
  parentLink := by
    simpa [or_imp, forall_and] using ⟨h.parentLink, hpar⟩

theorem countP_addr_eq_one {f : CfgNodeObj} (hn : (f.values.map ObjInfo.addr).Nodup) {o : CfgObjPtr}
    (ho : o ∈ f.entries) : f.values.countP (fun x => x.addr == o.1.addr) = 1 := by
  have hmem : o.1.addr ∈ f.values.map ObjInfo.addr :=
    List.mem_map_of_mem (Lcrs.mem_values_of_mem_entries ho)
  have := List.count_eq_one_of_mem hn hmem
  rwa [List.count, List.countP_map] at this

/-- Linking a chain of new addresses below an object keeps all addresses different and below the
next one. -/
theorem addrs_link {st : ObjState} (haddrs : (st.tree.values.map ObjInfo.addr).Nodup)
    (hfresh : ∀ o ∈ st.tree.values, o.addr < st.next) {obj : CfgObjPtr}
    (hobj : obj ∈ st.tree.entries) {t : CfgNodeObj} {next : Nat} (hle : st.next ≤ next)
    (haddr : ∀ o ∈ t.values, st.next ≤ o.addr ∧ o.addr < next)
    (hnodup : (t.values.map ObjInfo.addr).Nodup) :
    let tree := st.tree.mapChild (fun o => o.addr == obj.1.addr) (·.append t)
    (tree.values.map ObjInfo.addr).Nodup ∧ ∀ o ∈ tree.values, o.addr < next := by
  intro tree
  have hperm : tree.values.Perm (st.tree.values ++ t.values) :=
    Lcrs.values_mapChild_append_perm (countP_addr_eq_one haddrs hobj)
  constructor
  · refine ((hperm.map ObjInfo.addr).nodup_iff).mpr ?_
    rw [List.map_append]
    refine haddrs.append hnodup fun a ha hb => ?_
    obtain ⟨o, ho, rfl⟩ := List.mem_map.mp ha
    obtain ⟨o', ho', heq⟩ := List.mem_map.mp hb
    have h1 := hfresh o ho
    have h2 := haddr o' ho'
    omega
  · intro o ho
    rcases List.mem_append.mp (hperm.mem_iff.mp ho) with ho | ho
    · exact Nat.lt_of_lt_of_le (hfresh o ho) hle
    · exact (haddr o ho).2

/-- Linking a new subtree behind the children of an object keeps the invariant, if the subtree and
its place are right. -/
theorem stateInv_link {tt : TypeTree} {st : ObjState} (h : StateInv tt st) {obj : CfgObjPtr}
    (hobj : obj ∈ st.tree.entries) {new : ObjInfo} {sub : CfgNodeObj} {next : Nat}
    (hid : new.id ∉ obj.2.sibs.map ObjInfo.id)
    (htype : IsSubtype tt (cfgOidToTid obj.1.id) (cfgOidToTid new.id))
    (hpar : new.parent = some obj.1.addr)
    (hnew : (Lcrs.node new sub .nil).Everywhere (ChildrenOk tt))
    (haddr : ∀ o ∈ (Lcrs.node new sub .nil).values, st.next ≤ o.addr ∧ o.addr < next)
    (hnodup : ((Lcrs.node new sub .nil).values.map ObjInfo.addr).Nodup) :
    StateInv tt { st with
      tree := st.tree.mapChild (fun o => o.addr == obj.1.addr) (·.append (.node new sub .nil)),
      next := next } := by
  have hle : st.next ≤ next := by
    have := haddr new List.mem_cons_self
    omega
  obtain ⟨haddrs, hfresh⟩ := addrs_link h.addrs h.fresh hobj hle haddr hnodup
  refine ⟨⟨?_, ?_⟩, haddrs, hfresh⟩
  · intro r c s hnode
    cases htree : st.tree with
    | nil => simp [htree, Lcrs.mapChild] at hnode
    | node r' c' s' =>
      obtain ⟨hr, rfl⟩ := h.tree.root r' c' s' htree
      simp only [htree, Lcrs.mapChild, Lcrs.node.injEq] at hnode
      obtain ⟨rfl, -, rfl⟩ := hnode
      exact ⟨hr, rfl⟩
  · refine h.tree.children.mapChild fun e he hea => ?_
    obtain rfl : e = obj := Lcrs.entry_unique h.addrs he hobj (by simpa using hea)
    refine ⟨?_, (h.tree.children.below he).append hnew⟩
    rw [Lcrs.sibs_append]
    exact childrenOk_concat (h.tree.children.entry he) hid htype hpar

theorem stateInv_next {tt : TypeTree} {st : ObjState} (h : StateInv tt st) :
    StateInv tt { st with next := st.next + 1 } :=
  ⟨h.tree, h.addrs, fun o ho => Nat.lt_succ_of_lt (h.fresh o ho)⟩

/-- The addresses of a new object and of what is made below it. -/
theorem addrs_newObject {tt : TypeTree} {pool : Nat → Bool} {new : ObjInfo} {next : Nat}
    (hnew : new.addr = next) (f : CfgNodeType) :
    let made := cfgObjCreateFromType pool (some next) f (next + 1)
    let node := Lcrs.node new (cfgObjDelFromType tt made.1) .nil
    (∀ o ∈ node.values, next ≤ o.addr ∧ o.addr < made.2) ∧
      (node.values.map ObjInfo.addr).Nodup := by
  intro made node
  obtain ⟨hadd, hnod⟩ := addrs_cfgObjCreateFromType pool f (some next) (next + 1)
  have hle := le_cfgObjCreateFromType pool f (some next) (next + 1)
  have hsubl := Lcrs.values_prune_sublist
    (fun o : ObjInfo => cfgTypeIsDynamicType tt (cfgOidToTid o.id)) made.1
  have hvalues : node.values = new :: (cfgObjDelFromType tt made.1).values :=
    Lcrs.values_single new _
  rw [hvalues]
  constructor
  · intro o ho
    rcases List.mem_cons.mp ho with rfl | ho
    · exact ⟨Nat.le_of_eq hnew.symm, by rw [hnew]; exact hle⟩
    · have := hadd o (hsubl.subset ho)
      exact ⟨Nat.le_of_succ_le this.1, this.2⟩
  · rw [List.map_cons, List.nodup_cons]
    refine ⟨fun hmem => ?_, hnod.sublist (hsubl.map _)⟩
    obtain ⟨o, ho, hoa⟩ := List.mem_map.mp hmem
    have := hadd o (hsubl.subset ho)
    omega

/-- **`cfg_obj_create_sub_obj` keeps the invariant when the type in `oid` is a subtype of the type
of the object and, if it has to choose the number, the greatest one is free.** -/
theorem stateInv_cfgObjCreateSubObj {tt : TypeTree} {st : ObjState} (h : StateInv tt st)
    {obj : CfgObjPtr} (hobj : obj ∈ st.tree.entries) {oid : Nat}
    (hsub : IsSubtype tt (cfgOidToTid obj.1.id) (cfgOidToTid oid))
    (htop : cfgOidToId oid = 0 → topFree obj oid = true) :
    StateInv tt (cfgObjCreateSubObj tt st obj oid).2 := by
  rw [cfgObjCreateSubObj]
  split
  · exact h
  next hnone =>
  split
  · exact h
  next t ht =>
  split
  swap
  · exact stateInv_next h
  obtain ⟨htm, htid⟩ := cfgTypeFindById_some ht
  -- the id the new object gets
  have hid : ∀ id, id = (if cfgOidToId oid ≠ 0 then oid else cfgObjAutoOid obj oid) →
      cfgOidToTid id = cfgOidToTid oid ∧ id ∉ obj.2.sibs.map ObjInfo.id := by
    rintro id rfl
    split
    · refine ⟨rfl, fun hmem => ?_⟩
      obtain ⟨c, hc, hce⟩ := List.mem_map.mp hmem
      have hget : cfgObjGetChild obj oid = none := by simpa using hnone
      have := Lcrs.findSib_eq_none.mp hget c hc
      simp [hce] at this
    · next hz => exact cfgObjAutoOid_spec (htop (by simpa using hz))
  obtain ⟨hidt, hidn⟩ := hid _ rfl
  have hadd := fun new hnew => @addrs_newObject tt st.pool new st.next hnew t.2
  refine stateInv_link h hobj hidn (by rw [hidt]; exact hsub) rfl ⟨?_, ?_, trivial⟩
    (hadd _ rfl).1 (hadd _ rfl).2
  · refine childrenOk_sublist _ _ _ (Lcrs.sibs_prune_sublist _ _) ?_
    exact childrenOk_cfgObjCreateFromType
      (o := { addr := st.next, id := _, parent := _, priv := _ })
      htm (by rw [htid]; exact hidt) (st.next + 1)
  · exact everywhere_cfgObjDelFromType (everywhere_cfgObjCreateFromType _ _ _ fun e he =>
      mem_types_of_subtype htm he)

end OnuFirmware.Cfg
