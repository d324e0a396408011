import OnuFirmware.Cfg.Load
import OnuFirmware.Cfg.Tree

/-!
# Runs of the object library

A run is a sequence of calls on the tree that `cfg_obj_load_from_type` made. Each call is given a
condition on the state it starts in (`Op.safe`), and a run in which every call meets its condition
neither leaves defined behaviour nor breaks the invariant of the tree (`treeInv_of_runSafe`).

## What the conditions exclude

* a path that overruns a buffer, or the deletion of the root object
* a new object whose path ends in a separator or in a component that starts with `0`: the parent
  path is then not that of the parent
* a new object with an instance number of 65536 or more in its path
* a new object without an instance number while its parent has a child of the same type with number
  65535: this is where `cfg_obj_first_unused_oid` is called

Creating an object may create its missing parents, and loading creates and sets objects; the
conditions are on each of these calls, in the state it is made in.
-/

namespace OnuFirmware.Cfg

open Lib Clib

/-! ## Conditions -/

/-- A path that can be followed without overrunning a buffer. -/
def pathSafe (tt : TypeTree) (path : Str) : Bool :=
  match cfgPathToOidArray tt path with
  | .error _ => false
  | .ok _ => true

/-- The object `objpath` can be added below the object `parent`. -/
def addSafe (tt : TypeTree) (st : ObjState) (objpath parent : Str) : Bool :=
  match cfgPathToOid tt objpath with
  | .error _ => false
  | .ok oid =>
    oid == 0 ||
      ((instances objpath).all (· < 65536) && (lastHead objpath).any (· != '0') &&
        (cfgOidToId oid != 0 ||
          match cfgObjGetObj tt st parent with
          | .ok (some obj) => topFree obj oid
          | _ => true))

/-- The condition of `cfg_obj_create_object`, along its recursion. -/
def createSafeRec (tt : TypeTree) : Nat → ObjState → Str → Bool
  | 0, _, _ => true
  | fuel + 1, st, objpath =>
    match cfgGetParentPath objpath with
    | .error _ => false
    | .ok none => true
    | .ok (some parent) =>
      pathSafe tt parent &&
        match cfgObjGetObj tt st parent with
        | .ok (some _) => addSafe tt st objpath parent
        | _ =>
          match cfgTypeQuery tt parent with
          | .error _ => false
          | .ok none => true
          | .ok (some type) =>
            !cfgTypeIsDynamicType tt type.1.id ||
              (createSafeRec tt fuel st parent &&
                match cfgObjCreateObjectRec tt fuel st parent with
                | .error _ => false
                | .ok made => decide (made.1 ≤ 0) || addSafe tt made.2 objpath parent)

/-- The condition of `cfg_obj_create_object`. -/
def createSafe (tt : TypeTree) (st : ObjState) (objpath : Str) : Bool :=
  createSafeRec tt (objpath.length + 1) st objpath

/-- The condition of `cfg_obj_delete_object`: the path is not one of the root object. -/
def deleteSafe (tt : TypeTree) (path : Str) : Bool :=
  match cfgPathToOidArray tt path with
  | .error _ => false
  | .ok none => true
  | .ok (some ids) => decide (2 ≤ ids.length)

/-- The condition of the part of `cfg_load_from_xml` that makes sure that an object exists. -/
def enterSafe (tt : TypeTree) (st : ObjState) (path : Str) : Bool :=
  pathSafe tt path &&
    match cfgObjGetObj tt st path with
    | .ok (some _) => true
    | _ =>
      match cfgTypeQuery tt path with
      | .error _ => false
      | .ok none => true
      | .ok (some type) => !cfgTypeIsDynamicType tt type.1.id || createSafe tt st path

/-- The condition of `cfg_load_from_xml`, along its recursion. -/
def loadSafe (tt : TypeTree) : MxmlNode → List Str → ObjState → Bool
  | .nil, _, _ => true
  | .node e child next, anc, st =>
    match cfgXmlNodeToPath tt (e.name :: anc) with
    | .error _ => false
    | .ok path =>
      enterSafe tt st path &&
        match cfgLoadEnter tt st path with
        | .error _ => false
        | .ok (false, st) => loadSafe tt next anc st
        | .ok (true, st) =>
          match cfgLoadAttrs tt path st e.attrs with
          | .error _ => false
          | .ok st =>
            loadSafe tt child (e.name :: anc) st &&
              match cfgLoadFromXml tt child (e.name :: anc) st with
              | .error _ => false
              | .ok st => loadSafe tt next anc st

/-! ## Runs -/

/-- The calls that change the object tree. -/
inductive Op
  | create (path : Str)
  | delete (path : Str)
  | setAttr (path attr val : Str)
  | copyPrivate (dst src : Str)
  | load (xml : MxmlNode)

/-- The state after a call. -/
def Op.step (tt : TypeTree) (st : ObjState) : Op → Except Fault ObjState
  | .create path => (cfgObjCreateObject tt st path).map Prod.snd
  | .delete path => (cfgObjDeleteObject tt st path).map Prod.snd
  | .setAttr path attr val => (cfgObjSetObjectAttr tt st path attr val).map Prod.snd
  | .copyPrivate dst src => (cfgObjCopyPrivate tt st dst src).map Prod.snd
  | .load xml => cfgLoadFromXml tt xml [] st

/-- The condition of a call. -/
def Op.safe (tt : TypeTree) (st : ObjState) : Op → Bool
  | .create path => createSafe tt st path
  | .delete path => deleteSafe tt path
  | .setAttr path _ _ => pathSafe tt path
  | .copyPrivate dst src => pathSafe tt dst && pathSafe tt src
  | .load xml => loadSafe tt xml [] st

/-- The state after a sequence of calls. -/
def run (tt : TypeTree) : ObjState → List Op → Except Fault ObjState
  | st, [] => .ok st
  | st, op :: ops =>
    match op.step tt st with
    | .error e => .error e
    | .ok st' => run tt st' ops

/-- Every call of a sequence meets its condition in the state it is made in. -/
def runSafe (tt : TypeTree) : ObjState → List Op → Bool
  | _, [] => true
  | st, op :: ops =>
    op.safe tt st &&
      match op.step tt st with
      | .error _ => false
      | .ok st' => runSafe tt st' ops

/-! ## Creating -/

theorem cfgPathToOid_spec {tt : TypeTree} {path : Str} {oid : Nat}
    (h : cfgPathToOid tt path = .ok oid) (h0 : oid ≠ 0) :
    ∃ ids, cfgPathToOidArray tt path = .ok (some ids) ∧
      (oid = ids.getLastD 0 ∨ oid = ids.getLastD 0 &&& 0xffff0000) := by
  rw [cfgPathToOid] at h
  split at h
  · simp at h
  · simp only [Except.ok.injEq] at h
    exact absurd h.symm h0
  · next ids hids =>
    refine ⟨ids, hids, ?_⟩
    split at h
    · simp only [Except.ok.injEq] at h
      exact absurd h.symm h0
    · split at h
      · exact Or.inl (Except.ok.inj h).symm
      · exact Or.inr (Except.ok.inj h).symm

theorem cfgOidToTid_typeMask (x : Nat) : cfgOidToTid (x &&& 0xffff0000) = cfgOidToTid x := by
  rw [typeMask_eq, cfgOidToTid_eq, cfgOidToTid_eq]
  omega

/-- **Under the condition, the type of a new object is a subtype of the type of the object that is
found for the parent path.** -/
theorem isSubtype_of_addSafe {tt : TypeTree} {st : ObjState} (hinv : StateInv tt st)
    {path parent : Str} {oid : Nat} {obj : CfgObjPtr}
    (hpar : cfgGetParentPath path = .ok (some parent)) (hoid : cfgPathToOid tt path = .ok oid)
    (h0 : oid ≠ 0) (hnum : ∀ n ∈ instances path, n < 65536)
    (hhead : (lastHead path).any (· != '0') = true)
    (hobj : cfgObjGetObj tt st parent = .ok (some obj)) :
    IsSubtype tt (cfgOidToTid obj.1.id) (cfgOidToTid oid) := by
  obtain ⟨ids, hids, hlast⟩ := cfgPathToOid_spec hoid h0
  rcases cfgPathToOidArray_eq_some.mp hids with ⟨rfl, rfl⟩ | ⟨ch, hch, -, -, rfl⟩
  · exact absurd hpar (cfgGetParentPath_single (by simp))
  obtain ⟨ch', t, n, l, rfl, hpch, ht, hl, hsub⟩ := pathChain_parent hch hpar hhead
  rw [instances_eq hch] at hnum
  have htl := (typeId_lt ht).2
  have hll := (typeId_lt hl).2
  -- the type half of the new id is the type of the last link
  have hnew : cfgOidToTid oid = l.1.1.id := by
    have hsplit := (split_mkOid l.1.1.id l.2 (by omega) (hnum l.2 (by simp))).1
    have hgl : (List.map linkOid (ch' ++ [(t, n), l])).getLastD 0 = mkOid l.1.1.id l.2 := by
      simp [linkOid]
    rw [hgl] at hlast
    rcases hlast with rfl | rfl
    · exact hsplit
    · rw [cfgOidToTid_typeMask, hsplit]
  -- the type half of the id of the parent object is the type of the link before it
  have hold : cfgOidToTid obj.1.id = t.1.id := by
    obtain ⟨r, c, s, ids', htree, hids', hloop⟩ := cfgObjGetObj_some hobj
    rcases cfgPathToOidArray_eq_some.mp hids' with ⟨rfl, -⟩ | ⟨chp, hchp, -, -, rfl⟩
    · rw [show pathChain tt [] = some [] from rfl] at hpch
      simp at hpch
    obtain rfl := Option.some.inj (hpch.symm.trans hchp)
    cases ch' with
    | nil =>
      simp only [List.nil_append, List.map_cons, List.map_nil, List.tail_cons,
        cfgObjGetObjLoop] at hloop
      obtain rfl := Option.some.inj hloop
      rw [(hinv.tree.root r c s htree).1, cfgOidToTid_rootOid]
      obtain ⟨-, g, -, hres, -, -⟩ := pathChain_some hpch
      exact (resolveChain_root hres).symm
    | cons k ch' =>
      have hr : (r, c) ∈ st.tree.entries := by rw [htree]; exact List.mem_cons_self
      rw [List.cons_append, List.map_cons, List.tail_cons, List.map_append] at hloop
      obtain ⟨id, ids, hcons⟩ := List.exists_cons_of_ne_nil
        (show ch'.map linkOid ++ [(t, n)].map linkOid ≠ [] by simp)
      rw [hcons] at hloop
      obtain ⟨e, -, -, -, hlast'⟩ := cfgObjGetObjLoop_listed hr hloop
      rw [← hcons] at hlast'
      have : obj.1.id = mkOid t.1.id n := by simpa [linkOid, eq_comm] using hlast'
      rw [this]
      exact (split_mkOid _ _ (by omega) (hnum n (by simp))).1
  rw [hnew, hold]
  exact isSubtype_of_mem ht hsub

theorem cfgObjGetObj_of_pathSafe {tt : TypeTree} (st : ObjState) {path : Str}
    (h : pathSafe tt path = true) : ∃ o, cfgObjGetObj tt st path = .ok o := by
  rw [pathSafe] at h
  split at h
  · simp at h
  · next ids hids =>
    rw [cfgObjGetObj]
    split
    · exact ⟨_, rfl⟩
    · cases ids <;> simp [hids]

theorem cfgObjAddObject_ok {tt : TypeTree} {st : ObjState}
    (hinv : StateInv tt st) {path parent : Str}
    (hpar : cfgGetParentPath path = .ok (some parent)) (hget : pathSafe tt parent = true)
    (h : addSafe tt st path parent = true) :
    ∃ r, cfgObjAddObject tt st path parent = .ok r ∧ StateInv tt r.2 := by
  rw [addSafe] at h
  split at h
  · simp at h
  next oid hoid =>
  simp only [cfgObjAddObject, hoid]
  by_cases h0 : oid = 0
  · rw [if_pos h0]
    exact ⟨_, rfl, hinv⟩
  rw [if_neg h0]
  obtain ⟨o, ho⟩ := cfgObjGetObj_of_pathSafe st hget
  rw [ho]
  cases o with
  | none => exact ⟨_, rfl, hinv⟩
  | some obj =>
    refine ⟨_, rfl, ?_⟩
    simp only [ho, beq_iff_eq, h0, Bool.or_eq_true, Bool.and_eq_true, bne_iff_ne, false_or] at h
    obtain ⟨⟨hnum, hhead⟩, htop⟩ := h
    have hnum' : ∀ n ∈ instances path, n < 65536 := by simpa using hnum
    exact stateInv_cfgObjCreateSubObj hinv (cfgObjGetObj_mem ho)
      (isSubtype_of_addSafe hinv hpar hoid h0 hnum' hhead ho)
      fun hz => htop.resolve_left fun hn => hn hz

theorem cfgObjQueryObject_none {tt : TypeTree} {st : ObjState} {path : Str} {o : Option CfgObjPtr}
    (ho : cfgObjGetObj tt st path = .ok o) : cfgObjQueryObject tt st path none =
      .ok (o.elim (-1, []) fun node => (1, [cfgOidToId node.1.id])) := by
  cases o <;> simp [cfgObjQueryObject, ho, bind, Except.bind]

/-- **Under its condition `cfg_obj_create_object` returns and keeps the invariant.** -/
theorem cfgObjCreateObjectRec_ok {tt : TypeTree} : ∀ (fuel : Nat) {st : ObjState} {path : Str},
    StateInv tt st → createSafeRec tt fuel st path = true →
    ∃ r, cfgObjCreateObjectRec tt fuel st path = .ok r ∧ StateInv tt r.2
  | 0, st, path, hinv, _ => ⟨_, rfl, hinv⟩
  | fuel + 1, st, path, hinv, h => by
    rw [createSafeRec] at h
    rw [cfgObjCreateObjectRec]
    rcases hpar : cfgGetParentPath path with e | _ | parent
    · simp [hpar] at h
    · exact ⟨_, rfl, hinv⟩
    simp only [hpar] at h
    obtain ⟨hsafe, h⟩ := Bool.and_eq_true_iff.mp h
    obtain ⟨o, ho⟩ := cfgObjGetObj_of_pathSafe st hsafe
    rw [ho] at h
    simp only [cfgObjQueryObject_none ho]
    cases o with
    | some obj => exact cfgObjAddObject_ok hinv hpar hsafe h
    | none =>
      rw [if_pos (by decide)]
      simp only at h
      rcases hq : cfgTypeQuery tt parent with e | _ | type
      · simp [hq] at h
      · exact ⟨_, rfl, hinv⟩
      simp only [hq] at h ⊢
      by_cases hd : cfgTypeIsDynamicType tt type.1.id = true
      swap
      · rw [if_neg hd]
        exact ⟨_, rfl, hinv⟩
      rw [if_pos hd]
      rw [hd, Bool.not_true, Bool.false_or, Bool.and_eq_true] at h
      obtain ⟨hrec, h⟩ := h
      obtain ⟨made, hmade, hinv'⟩ := cfgObjCreateObjectRec_ok fuel hinv hrec
      simp only [hmade, Bool.or_eq_true, decide_eq_true_eq] at h ⊢
      by_cases hret : made.1 ≤ 0
      · rw [if_pos hret]
        exact ⟨_, rfl, hinv'⟩
      · rw [if_neg hret]
        exact cfgObjAddObject_ok hinv' hpar hsafe (h.resolve_left hret)

theorem cfgObjCreateObject_ok {tt : TypeTree} {st : ObjState} {path : Str} (hinv : StateInv tt st)
    (h : createSafe tt st path = true) :
    ∃ r, cfgObjCreateObject tt st path = .ok r ∧ StateInv tt r.2 :=
  cfgObjCreateObjectRec_ok _ hinv h

/-! ## Deleting and setting -/

theorem cfgObjDeleteObject_ok {tt : TypeTree} {st : ObjState} {path : Str} (hinv : StateInv tt st)
    (h : deleteSafe tt path = true) :
    ∃ r, cfgObjDeleteObject tt st path = .ok r ∧ StateInv tt r.2 := by
  have hsafe : pathSafe tt path = true := by
    rw [deleteSafe] at h
    rw [pathSafe]
    rcases hids : cfgPathToOidArray tt path with e | ids
    · simp [hids] at h
    · rfl
  obtain ⟨o, ho⟩ := cfgObjGetObj_of_pathSafe st hsafe
  simp only [cfgObjDeleteObject, ho, bind, Except.bind]
  cases o with
  | none => exact ⟨_, rfl, hinv⟩
  | some obj =>
    -- the path has a second id, so the object is listed below another
    obtain ⟨r, c, s, ids, htree, hids, hloop⟩ := cfgObjGetObj_some ho
    simp only [deleteSafe, hids, decide_eq_true_eq] at h
    obtain ⟨id, ids', htail⟩ : ∃ id ids', ids.tail = id :: ids' :=
      List.exists_cons_of_ne_nil fun hn => by
        have := congrArg List.length hn
        rw [List.length_tail, List.length_nil] at this
        omega
    rw [htail] at hloop
    have hr : (r, c) ∈ st.tree.entries := by rw [htree]; exact List.mem_cons_self
    obtain ⟨e, he, hlist, -, -⟩ := cfgObjGetObjLoop_listed hr hloop
    obtain ⟨st', hst, hinv'⟩ := cfgObjDelObject_ok hinv he hlist
    exact ⟨_, hst, hinv'⟩

theorem cfgObjSetObjectAttr_ok {tt : TypeTree} {st : ObjState} {path : Str} (hinv : StateInv tt st)
    (h : pathSafe tt path = true) (attr val : Str) :
    ∃ r, cfgObjSetObjectAttr tt st path attr val = .ok r ∧ StateInv tt r.2 := by
  obtain ⟨o, ho⟩ := cfgObjGetObj_of_pathSafe st h
  simp only [cfgObjSetObjectAttr, ho, bind, Except.bind]
  split
  · exact ⟨_, rfl, hinv⟩
  · cases o with
    | none => exact ⟨_, rfl, hinv⟩
    | some node =>
      refine ⟨_, rfl, ?_⟩
      dsimp only
      exact stateInv_setPriv hinv _ _

theorem cfgObjCopyPrivate_ok {tt : TypeTree} {st : ObjState} {dst src : Str}
    (hinv : StateInv tt st) (hd : pathSafe tt dst = true) (hs : pathSafe tt src = true) :
    ∃ r, cfgObjCopyPrivate tt st dst src = .ok r ∧ StateInv tt r.2 := by
  obtain ⟨od, hod⟩ := cfgObjGetObj_of_pathSafe st hd
  obtain ⟨os, hos⟩ := cfgObjGetObj_of_pathSafe st hs
  simp only [cfgObjCopyPrivate, hod, hos, bind, Except.bind]
  cases od with
  | none => exact ⟨_, rfl, hinv⟩
  | some d =>
    cases os with
    | none => exact ⟨_, rfl, hinv⟩
    | some s =>
      simp only
      split
      · refine ⟨_, rfl, ?_⟩
        dsimp only
        exact stateInv_setPriv (stateInv_next hinv) _ _
      · exact ⟨_, rfl, stateInv_next hinv⟩

/-! ## Loading -/

theorem cfgLoadEnter_ok {tt : TypeTree} {st : ObjState} {path : Str} (hinv : StateInv tt st)
    (h : enterSafe tt st path = true) :
    ∃ r, cfgLoadEnter tt st path = .ok r ∧ StateInv tt r.2 := by
  obtain ⟨hsafe, h⟩ := Bool.and_eq_true_iff.mp h
  obtain ⟨o, ho⟩ := cfgObjGetObj_of_pathSafe st hsafe
  rw [ho] at h
  simp only [cfgLoadEnter, cfgObjQueryObject_none ho, bind, Except.bind]
  cases o with
  | some obj => exact ⟨_, rfl, hinv⟩
  | none =>
    rw [if_pos (by decide)]
    simp only at h
    split at h
    · simp at h
    · next hq =>
      rw [hq]
      exact ⟨_, rfl, hinv⟩
    next type hq =>
    simp only [hq]
    by_cases hd : cfgTypeIsDynamicType tt type.1.id = true
    swap
    · rw [if_neg hd]
      exact ⟨_, rfl, hinv⟩
    rw [hd, Bool.not_true, Bool.false_or] at h
    obtain ⟨r, hr, hinv'⟩ := cfgObjCreateObject_ok hinv h
    rw [if_pos hd, hr]
    exact ⟨_, rfl, hinv'⟩

theorem pathSafe_of_enterSafe {tt : TypeTree} {st : ObjState} {path : Str}
    (h : enterSafe tt st path = true) : pathSafe tt path = true :=
  (Bool.and_eq_true_iff.mp h).1

theorem cfgLoadAttrs_ok {tt : TypeTree} {path : Str} (h : pathSafe tt path = true) :
    ∀ (attrs : List (Str × Str)) {st : ObjState}, StateInv tt st →
    ∃ st', cfgLoadAttrs tt path st attrs = .ok st' ∧ StateInv tt st'
  | [], st, hinv => ⟨st, rfl, hinv⟩
  | a :: attrs, st, hinv => by
    obtain ⟨r, hr, hinv'⟩ := cfgObjSetObjectAttr_ok hinv h a.1 a.2
    simp only [cfgLoadAttrs, hr, bind, Except.bind]
    exact cfgLoadAttrs_ok h attrs hinv'

/-- **Under its condition `cfg_load_from_xml` returns and keeps the invariant.** -/
theorem cfgLoadFromXml_ok {tt : TypeTree} : ∀ (xml : MxmlNode) {anc : List Str} {st : ObjState},
    StateInv tt st → loadSafe tt xml anc st = true →
    ∃ st', cfgLoadFromXml tt xml anc st = .ok st' ∧ StateInv tt st'
  | .nil, _, st, hinv, _ => ⟨st, rfl, hinv⟩
  | .node e child next, anc, st, hinv, h => by
    rw [loadSafe] at h
    split at h
    · simp at h
    next path hpath =>
    obtain ⟨henter, h⟩ := Bool.and_eq_true_iff.mp h
    obtain ⟨⟨ok, st1⟩, hst1, hinv1⟩ := cfgLoadEnter_ok hinv henter
    simp only [cfgLoadFromXml, hpath, hst1, bind, Except.bind]
    rw [hst1] at h
    cases ok with
    | false => exact cfgLoadFromXml_ok next hinv1 h
    | true =>
      obtain ⟨st2, hst2, hinv2⟩ := cfgLoadAttrs_ok (pathSafe_of_enterSafe henter) e.attrs hinv1
      simp only [hst2, Bool.and_eq_true] at h
      obtain ⟨hchild, h⟩ := h
      obtain ⟨st3, hst3, hinv3⟩ := cfgLoadFromXml_ok child hinv2 hchild
      rw [hst3] at h
      simp only [if_true, hst2, hst3]
      exact cfgLoadFromXml_ok next hinv3 h

/-! ## Steps and runs -/

/-- One call that meets its condition returns and keeps the invariant. -/
theorem step_ok {tt : TypeTree} {st : ObjState} (hinv : StateInv tt st) (op : Op)
    (h : op.safe tt st = true) : ∃ st', op.step tt st = .ok st' ∧ StateInv tt st' := by
  have lift : ∀ {x : Except Fault (Int × ObjState)}, (∃ r, x = .ok r ∧ StateInv tt r.2) →
      ∃ st', x.map Prod.snd = .ok st' ∧ StateInv tt st' := by
    rintro _ ⟨r, rfl, hr⟩
    exact ⟨r.2, rfl, hr⟩
  cases op with
  | create path => exact lift (cfgObjCreateObject_ok hinv h)
  | delete path => exact lift (cfgObjDeleteObject_ok hinv h)
  | setAttr path attr val => exact lift (cfgObjSetObjectAttr_ok hinv h attr val)
  | copyPrivate dst src =>
    obtain ⟨hd, hs⟩ := Bool.and_eq_true_iff.mp h
    exact lift (cfgObjCopyPrivate_ok hinv hd hs)
  | load xml => exact cfgLoadFromXml_ok xml hinv h

theorem run_ok {tt : TypeTree} : ∀ (ops : List Op) {st : ObjState}, StateInv tt st →
    runSafe tt st ops = true → ∃ st', run tt st ops = .ok st' ∧ StateInv tt st'
  | [], st, hinv, _ => ⟨st, rfl, hinv⟩
  | op :: ops, st, hinv, h => by
    obtain ⟨hop, h⟩ := Bool.and_eq_true_iff.mp h
    obtain ⟨st1, hst1, hinv1⟩ := step_ok hinv op hop
    rw [hst1] at h
    rw [run, hst1]
    exact run_ok ops hinv1 h

/-- **Every run whose calls meet their conditions ends in a state whose tree satisfies the
invariant.** -/
theorem treeInv_of_runSafe (tt : TypeTree) (pool : Nat → Bool) (ops : List Op)
    (h : runSafe tt (cfgObjLoadFromType tt pool) ops = true) :
    ∃ st, run tt (cfgObjLoadFromType tt pool) ops = .ok st ∧ TreeInv tt st.tree := by
  obtain ⟨st, hst, hinv⟩ := run_ok ops (stateInv_cfgObjLoadFromType tt pool) h
  exact ⟨st, hst, hinv.tree⟩

/-- A run that creates an object with its missing parent, sets, copies, loads and deletes. -/
theorem treeInv_sample_run : ∃ st,
    run sampleTypes (cfgObjLoadFromType sampleTypes fun _ => true)
      [.create "root.a.x".toList, .setAttr "root.a".toList "k".toList "v".toList,
        .copyPrivate "root.a.x".toList "root.a".toList,
        .load (.node ⟨"ROMFILE".toList, []⟩ (.node ⟨"a".toList, []⟩ .nil .nil) .nil),
        .delete "root.a".toList] = .ok st ∧ TreeInv sampleTypes st.tree :=
  treeInv_of_runSafe _ _ _ (by decide +kernel)

/-- The ids of the children of the root object. -/
def rootChildIds (st : ObjState) : List Nat :=
  match st.tree with
  | .nil => []
  | .node _ child _ => child.sibs.map ObjInfo.id

theorem nodup_rootChildIds {tt : TypeTree} {st : ObjState} (h : TreeInv tt st.tree) :
    (rootChildIds st).Nodup := by
  rw [rootChildIds]
  split
  · exact List.nodup_nil
  · next r c s htree =>
    have hch := h.children
    rw [htree] at hch
    exact hch.1.distinct

/-- The objects `root.a.2`, `root.a.1` and `root.a.65535` are created in this order, then `root.a`
without a number: the scan for an unused number passes over `2` while it looks for `1`, and the new
object gets number `2` again. -/
theorem not_treeInv_of_run : ¬ ∀ (tt : TypeTree) (pool : Nat → Bool) (ops : List Op)
    (st : ObjState), run tt (cfgObjLoadFromType tt pool) ops = .ok st → TreeInv tt st.tree := by
  intro h
  have hrun : (run sampleTypes (cfgObjLoadFromType sampleTypes fun _ => true)
      [.create "root.a.2".toList, .create "root.a.1".toList, .create "root.a.65535".toList,
        .create "root.a".toList]).map rootChildIds
      = .ok [mkOid 101 2, mkOid 101 1, mkOid 101 65535, mkOid 101 2] := by decide +kernel
  have hst := h sampleTypes (fun _ => true) [.create "root.a.2".toList, .create "root.a.1".toList,
    .create "root.a.65535".toList, .create "root.a".toList]
  generalize run sampleTypes (cfgObjLoadFromType sampleTypes fun _ => true) _ = r at hrun hst
  cases r with
  | error e => simp [Except.map] at hrun
  | ok st =>
    have hids : rootChildIds st = _ := Except.ok.inj hrun
    have hnodup := nodup_rootChildIds (hst st rfl)
    rw [hids] at hnodup
    exact absurd hnodup (by decide)

end OnuFirmware.Cfg
