import OnuFirmware.Cfg.Run
import OnuFirmware.Lib.Guard

/-!
# The pointers of the object tree

Whatever the ids in a tree are, its pointers fit together: every object points to the object that
lists it, no two objects have one address, and no later allocation returns an address in use. Unlike
the invariant of the ids this holds after every call, without a condition on the call.
-/

namespace OnuFirmware.Cfg

open Lib Clib

/-- The objects that `o` lists point back to it. -/
def PointBack (o : ObjInfo) (children : List ObjInfo) : Prop :=
  ∀ c ∈ children, c.parent = some o.addr

/-- **The pointers of a state fit together.** -/
structure LinkInv (st : ObjState) : Prop where
  parentLink : st.tree.Everywhere PointBack
  addrs : (st.tree.values.map ObjInfo.addr).Nodup
  fresh : ∀ o ∈ st.tree.values, o.addr < st.next

variable {tt : TypeTree} {st : ObjState}

theorem StateInv.links (h : StateInv tt st) : LinkInv st where
  parentLink := Lcrs.everywhere_iff_entries.mpr fun _ he => (h.tree.children.entry he).parentLink
  addrs := h.addrs
  fresh := h.fresh

theorem pointBack_sublist (o : ObjInfo) (l l' : List ObjInfo) (hsub : l'.Sublist l)
    (h : PointBack o l) : PointBack o l' := fun c hc => h c (hsub.subset hc)

theorem pointBack_cfgObjCreateFromType {pool : Nat → Bool} : ∀ (f : CfgNodeType)
    (parent : Option Nat) (next : Nat),
    (cfgObjCreateFromType pool parent f next).1.Everywhere PointBack
  | .nil, _, _ => trivial
  | .node t sub bro, parent, next => by
    unfold cfgObjCreateFromType
    split
    · exact ⟨(sibs_cfgObjCreateFromType pool sub (some next) (next + 1)).2,
        pointBack_cfgObjCreateFromType sub _ _, pointBack_cfgObjCreateFromType bro _ _⟩
    · trivial

theorem LinkInv.entry (h : LinkInv st) {e o : CfgObjPtr} (he : e ∈ st.tree.entries)
    (ho : o.1 ∈ e.2.sibs) : o.1.parent = some e.1.addr :=
  h.parentLink.entry he o.1 ho

theorem LinkInv.unique (h : LinkInv st) {e o : CfgObjPtr} (he : e ∈ st.tree.entries)
    (ho : o ∈ st.tree.entries) (haddr : e.1.addr = o.1.addr) : e = o :=
  Lcrs.entry_unique h.addrs he ho haddr

/-- Linking a new subtree behind the children of an object keeps the pointers right. -/
theorem linkInv_link (h : LinkInv st) {obj : CfgObjPtr} (hobj : obj ∈ st.tree.entries)
    {new : ObjInfo} {sub : CfgNodeObj} {next : Nat} (hpar : new.parent = some obj.1.addr)
    (hnew : (Lcrs.node new sub .nil).Everywhere PointBack)
    (haddr : ∀ o ∈ (Lcrs.node new sub .nil).values, st.next ≤ o.addr ∧ o.addr < next)
    (hnodup : ((Lcrs.node new sub .nil).values.map ObjInfo.addr).Nodup) :
    LinkInv { st with
      tree := st.tree.mapChild (fun o => o.addr == obj.1.addr) (·.append (.node new sub .nil)),
      next := next } := by
  have hle : st.next ≤ next := by
    have := haddr new List.mem_cons_self
    omega
  obtain ⟨haddrs, hfresh⟩ := addrs_link h.addrs h.fresh hobj hle haddr hnodup
  refine ⟨h.parentLink.mapChild fun e he hea => ?_, haddrs, hfresh⟩
  obtain rfl : e = obj := h.unique he hobj (by simpa using hea)
  refine ⟨?_, (h.parentLink.below he).append hnew⟩
  rw [Lcrs.sibs_append]
  intro c hc
  rcases List.mem_append.mp hc with hc | hc
  · exact h.parentLink.entry he c hc
  · obtain rfl := List.mem_singleton.mp hc
    exact hpar

theorem linkInv_next (h : LinkInv st) : LinkInv { st with next := st.next + 1 } :=
  ⟨h.parentLink, h.addrs, fun o ho => Nat.lt_succ_of_lt (h.fresh o ho)⟩

/-- `cfg_obj_create_sub_obj` keeps the pointers right. -/
theorem linkInv_cfgObjCreateSubObj (h : LinkInv st) {obj : CfgObjPtr} (hobj : obj ∈ st.tree.entries)
    (oid : Nat) : LinkInv (cfgObjCreateSubObj tt st obj oid).2 := by
  unfold cfgObjCreateSubObj
  split
  · exact h
  split
  · exact h
  next t ht =>
  split
  swap
  · exact linkInv_next h
  have hadd := fun new hnew => @addrs_newObject tt st.pool new st.next hnew t.2
  refine linkInv_link h hobj rfl ⟨?_, ?_, trivial⟩ (hadd _ rfl).1 (hadd _ rfl).2
  · refine pointBack_sublist _ _ _ (Lcrs.sibs_prune_sublist _ _) ?_
    exact (sibs_cfgObjCreateFromType st.pool t.2 (some st.next) (st.next + 1)).2
  · exact (pointBack_cfgObjCreateFromType _ _ _).prune pointBack_sublist

theorem linkInv_cfgObjAddObject (h : LinkInv st) {path parent : Str} {r : Int × ObjState}
    (hr : cfgObjAddObject tt st path parent = .ok r) : LinkInv r.2 := by
  unfold cfgObjAddObject at hr
  split at hr
  · exact absurd hr (by simp)
  split at hr
  · obtain rfl := Except.ok.inj hr
    exact h
  split at hr
  · exact absurd hr (by simp)
  · obtain rfl := Except.ok.inj hr
    exact h
  · next node hnode =>
    obtain rfl := Except.ok.inj hr
    exact linkInv_cfgObjCreateSubObj h (cfgObjGetObj_mem hnode) _

/-- **`cfg_obj_create_object` keeps the pointers right**, whatever it returns. -/
theorem linkInv_cfgObjCreateObjectRec : ∀ {fuel : Nat} {st : ObjState} {path : Str}
    {r : Int × ObjState}, LinkInv st → cfgObjCreateObjectRec tt fuel st path = .ok r → LinkInv r.2
  | 0, st, path, r, h, hr => by
    obtain rfl := Except.ok.inj hr
    exact h
  | fuel + 1, st, path, r, h, hr => by
    unfold cfgObjCreateObjectRec at hr
    split at hr
    · exact absurd hr (by simp)
    · obtain rfl := Except.ok.inj hr
      exact h
    split at hr
    · exact absurd hr (by simp)
    split at hr
    swap
    · exact linkInv_cfgObjAddObject h hr
    -- the parent is missing
    split at hr
    · exact absurd hr (by simp)
    · obtain rfl := Except.ok.inj hr
      exact h
    split at hr
    swap
    · obtain rfl := Except.ok.inj hr
      exact h
    split at hr
    · exact absurd hr (by simp)
    next made hmade =>
    have hinv := linkInv_cfgObjCreateObjectRec h hmade
    split at hr
    · obtain rfl := Except.ok.inj hr
      exact hinv
    · exact linkInv_cfgObjAddObject hinv hr

/-- Deleting an object keeps them right too. -/
theorem linkInv_cfgObjDelObject (h : LinkInv st) {o : CfgObjPtr} {r : Int × ObjState}
    (hr : cfgObjDelObject st o = .ok r) : LinkInv r.2 := by
  unfold cfgObjDelObject at hr
  split at hr
  · exact absurd hr (by simp)
  split at hr
  swap
  · exact absurd hr (by simp)
  obtain rfl := Except.ok.inj hr
  have hsub := Lcrs.values_mapChild_sublist (p := fun x : ObjInfo => x.addr == ‹Nat›)
    (fun c => Lcrs.values_eraseSib_sublist (fun x : ObjInfo => x.addr == o.1.addr) c) st.tree
  refine ⟨h.parentLink.mapChild fun e he _ => ⟨?_, (h.parentLink.below he).eraseSib⟩,
    h.addrs.sublist (hsub.map _), fun x hx => h.fresh x (hsub.subset hx)⟩
  exact pointBack_sublist _ _ _ (Lcrs.sibs_eraseSib_sublist _ _) (h.parentLink.entry he)

/-- The tree that the object library starts with. -/
theorem linkInv_cfgObjLoadFromType (tt : TypeTree) (pool : Nat → Bool) :
    LinkInv (cfgObjLoadFromType tt pool) :=
  (stateInv_cfgObjLoadFromType tt pool).links

/-! ## Calls and runs -/

/-- Attributes have no pointers. -/
theorem linkInv_setPriv (h : LinkInv st) (a : Nat) (f : List (Str × Str) → List (Str × Str)) :
    LinkInv (st.setPriv a f) := by
  have hkeep : ∀ b : ObjInfo,
      (if b.addr == a then { b with priv := f b.priv } else b).parent = b.parent ∧
      (if b.addr == a then { b with priv := f b.priv } else b).addr = b.addr := by
    intro b
    split <;> exact ⟨rfl, rfl⟩
  have haddr : (st.setPriv a f).tree.values.map ObjInfo.addr = st.tree.values.map ObjInfo.addr := by
    unfold ObjState.setPriv
    rw [Lcrs.values_mapVal, List.map_map]
    exact List.map_congr_left fun b _ => (hkeep b).2
  refine ⟨h.parentLink.mapVal fun o l hl c hc => ?_, by rw [haddr]; exact h.addrs, fun o ho => ?_⟩
  · obtain ⟨b, hb, rfl⟩ := List.mem_map.mp hc
    rw [(hkeep b).1, (hkeep o).2]
    exact hl b hb
  · have hmem : o.addr ∈ st.tree.values.map ObjInfo.addr := haddr ▸ List.mem_map_of_mem ho
    obtain ⟨b, hb, hba⟩ := List.mem_map.mp hmem
    rw [← hba]
    exact h.fresh b hb

theorem linkInv_cfgObjSetObjectAttr (h : LinkInv st) {path attr val : Str} {r : Int × ObjState}
    (hr : cfgObjSetObjectAttr tt st path attr val = .ok r) : LinkInv r.2 := by
  unfold cfgObjSetObjectAttr at hr
  split at hr
  · obtain rfl := Except.ok.inj hr
    exact h
  obtain ⟨o, -, hr⟩ := bind_eq_ok.mp hr
  cases o with
  | none =>
    obtain rfl := Except.ok.inj hr
    exact h
  | some node =>
    obtain rfl := Except.ok.inj hr
    exact linkInv_setPriv h node.1.addr fun attrs => cfgXmlSetAttr attrs attr val

theorem linkInv_cfgObjCopyPrivate (h : LinkInv st) {dst src : Str} {r : Int × ObjState}
    (hr : cfgObjCopyPrivate tt st dst src = .ok r) : LinkInv r.2 := by
  unfold cfgObjCopyPrivate at hr
  obtain ⟨d, -, hr⟩ := bind_eq_ok.mp hr
  cases d with
  | none =>
    obtain rfl := Except.ok.inj hr
    exact h
  | some d =>
    obtain ⟨s, -, hr⟩ := bind_eq_ok.mp hr
    cases s with
    | none =>
      obtain rfl := Except.ok.inj hr
      exact h
    | some s =>
      simp only at hr
      split at hr
      · obtain rfl := Except.ok.inj hr
        dsimp only
        exact linkInv_setPriv (linkInv_next h) _ _
      · obtain rfl := Except.ok.inj hr
        exact linkInv_next h

theorem linkInv_cfgObjDeleteObject (h : LinkInv st) {path : Str} {r : Int × ObjState}
    (hr : cfgObjDeleteObject tt st path = .ok r) : LinkInv r.2 := by
  unfold cfgObjDeleteObject at hr
  obtain ⟨o, -, hr⟩ := bind_eq_ok.mp hr
  cases o with
  | none =>
    obtain rfl := Except.ok.inj hr
    exact h
  | some node => exact linkInv_cfgObjDelObject h hr

theorem linkInv_cfgLoadEnter (h : LinkInv st) {path : Str} {r : Bool × ObjState}
    (hr : cfgLoadEnter tt st path = .ok r) : LinkInv r.2 := by
  unfold cfgLoadEnter at hr
  obtain ⟨exist, -, hr⟩ := bind_eq_ok.mp hr
  split at hr
  swap
  · obtain rfl := Except.ok.inj hr
    exact h
  obtain ⟨type, -, hr⟩ := bind_eq_ok.mp hr
  cases type with
  | none =>
    obtain rfl := Except.ok.inj hr
    exact h
  | some type =>
    simp only at hr
    split at hr
    · obtain ⟨made, hmade, hr⟩ := bind_eq_ok.mp hr
      obtain rfl := Except.ok.inj hr
      exact linkInv_cfgObjCreateObjectRec h hmade
    · obtain rfl := Except.ok.inj hr
      exact h

theorem linkInv_cfgLoadAttrs {path : Str} : ∀ {attrs : List (Str × Str)} {st st' : ObjState},
    LinkInv st → cfgLoadAttrs tt path st attrs = .ok st' → LinkInv st'
  | [], st, st', h, hr => by
    obtain rfl := Except.ok.inj hr
    exact h
  | a :: attrs, st, st', h, hr => by
    obtain ⟨r, hset, hr⟩ := bind_eq_ok.mp hr
    exact linkInv_cfgLoadAttrs (linkInv_cfgObjSetObjectAttr h hset) hr

theorem linkInv_cfgLoadFromXml : ∀ {xml : MxmlNode} {anc : List Str} {st st' : ObjState},
    LinkInv st → cfgLoadFromXml tt xml anc st = .ok st' → LinkInv st'
  | .nil, _, st, st', h, hr => by
    obtain rfl := Except.ok.inj hr
    exact h
  | .node e child next, anc, st, st', h, hr => by
    unfold cfgLoadFromXml at hr
    obtain ⟨path, -, hr⟩ := bind_eq_ok.mp hr
    obtain ⟨enter, henter, hr⟩ := bind_eq_ok.mp hr
    have hinv := linkInv_cfgLoadEnter h henter
    split at hr
    · obtain ⟨st1, hattrs, hr⟩ := bind_eq_ok.mp hr
      obtain ⟨st2, hchild, hr⟩ := bind_eq_ok.mp hr
      exact linkInv_cfgLoadFromXml (linkInv_cfgLoadFromXml (linkInv_cfgLoadAttrs hinv hattrs) hchild) hr
    · exact linkInv_cfgLoadFromXml hinv hr

/-- One call that returns keeps the pointers right. -/
theorem linkInv_step (h : LinkInv st) (op : Op) {st' : ObjState} (hst : op.step tt st = .ok st') :
    LinkInv st' := by
  have lift : ∀ {x : Except Fault (Int × ObjState)}, (∀ {r}, x = .ok r → LinkInv r.2) →
      x.map Prod.snd = .ok st' → LinkInv st' := by
    intro x hx hmap
    cases x with
    | error e => cases hmap
    | ok r =>
      obtain rfl := Except.ok.inj hmap
      exact hx rfl
  cases op with
  | create path => exact lift (linkInv_cfgObjCreateObjectRec h) hst
  | delete path => exact lift (linkInv_cfgObjDeleteObject h) hst
  | setAttr path attr val => exact lift (linkInv_cfgObjSetObjectAttr h) hst
  | copyPrivate dst src => exact lift (linkInv_cfgObjCopyPrivate h) hst
  | load xml => exact linkInv_cfgLoadFromXml h hst

/-- **In every state that calls without a fault lead to the pointers fit together.** -/
theorem linkInv_run : ∀ {ops : List Op} {st st' : ObjState}, LinkInv st → run tt st ops = .ok st' →
    LinkInv st'
  | [], st, st', h, hr => by
    obtain rfl := Except.ok.inj hr
    exact h
  | op :: ops, st, st', h, hr => by
    unfold run at hr
    split at hr
    · cases hr
    · next st1 hst => exact linkInv_run (linkInv_step h op hst) hr

end OnuFirmware.Cfg
