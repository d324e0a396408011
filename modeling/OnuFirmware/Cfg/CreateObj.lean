import OnuFirmware.Cfg.Links
import Mathlib.Logic.Relation

/-!
# What a failed `cfg_obj_create_object` leaves

`cfg_obj_create_object` first creates a missing parent and only then looks at the path itself, and
nothing takes the parent back when the second half fails. A call that fails therefore leaves the
tree as it was, or with one of the missing ancestors of the path, made as a call for that ancestor
alone makes it. No object that was there before is touched.
-/

namespace OnuFirmware.Cfg

open Lib Clib

variable {tt : TypeTree} {st : ObjState} {path : Str}

/-! ## Statement -/

/-- `q` comes from `path` by taking the parent path once or more. -/
def IsAncestorPath (path q : Str) : Prop :=
  Relation.TransGen (fun p q => cfgGetParentPath p = .ok (some q)) path q

/-- An ancestor that `cfg_obj_create_object` has to make first: no object is there, and its type is
one whose objects are made on request. -/
structure MissingAncestor (tt : TypeTree) (st : ObjState) (path q : Str) : Prop where
  ancestor : IsAncestorPath path q
  missing : ∃ exist, cfgObjQueryObject tt st q none = .ok exist ∧ exist.1 ≤ 0
  dynamic : ∃ type, cfgTypeQuery tt q = .ok (some type) ∧
    cfgTypeIsDynamicType tt type.1.id = true

/-- The tree `t` is what the successful creation of a missing ancestor of `path` leaves. -/
def LeftByAncestor (tt : TypeTree) (st : ObjState) (path : Str) (t : CfgNodeObj) : Prop :=
  ∃ q made, MissingAncestor tt st path q ∧ cfgObjCreateObject tt st q = .ok made ∧ 0 < made.1 ∧
    t = made.2.tree

theorem MissingAncestor.of_parent {parent q : Str}
    (hparent : cfgGetParentPath path = .ok (some parent)) (h : MissingAncestor tt st parent q) :
    MissingAncestor tt st path q :=
  ⟨.head hparent h.ancestor, h.missing, h.dynamic⟩

theorem LeftByAncestor.of_parent {parent : Str} {t : CfgNodeObj}
    (hparent : cfgGetParentPath path = .ok (some parent)) (h : LeftByAncestor tt st parent t) :
    LeftByAncestor tt st path t := by
  obtain ⟨q, made, hq, hmade⟩ := h
  exact ⟨q, made, hq.of_parent hparent, hmade⟩

/-! ## The length of the path bounds the recursion -/

theorem scanDot_le (s : Str) : ∀ len, scanDot s len ≤ len
  | 0 => Nat.le_refl 0
  | len + 1 => by
    unfold scanDot
    split
    · exact Nat.le_refl _
    · exact Nat.le_succ_of_le (scanDot_le s len)

/-- Where the scan stops above index `0` stands a separator. -/
theorem scanDot_lt_length (s : Str) : ∀ {len}, scanDot s len ≠ 0 → scanDot s len < s.length
  | 0, h => absurd rfl h
  | len + 1, h => by
    unfold scanDot at h ⊢
    split at h
    · next hdot =>
      rw [if_pos hdot]
      exact (List.getElem?_eq_some_iff.mp hdot).1
    · next hdot =>
      rw [if_neg hdot]
      exact scanDot_lt_length s h

/-- The parent path is shorter than the path. -/
theorem length_parent_lt {parent : Str} (h : cfgGetParentPath path = .ok (some parent)) :
    parent.length < path.length := by
  unfold cfgGetParentPath at h
  split at h
  · cases h
  dsimp only at h
  split at h
  · cases h
  next hne =>
  have hlt := scanDot_lt_length path hne
  split at h
  · split at h
    · cases h
    obtain rfl := Option.some.inj (Except.ok.inj h)
    have hle := scanDot_le path (scanDot path path.length - 1)
    rw [List.length_take]
    omega
  · obtain rfl := Option.some.inj (Except.ok.inj h)
    rw [List.length_take]
    omega

/-- Any bound above the length of the path gives the same result. -/
theorem cfgObjCreateObjectRec_bound : ∀ {fuel fuel' : Nat} {path : Str}, path.length < fuel →
    path.length < fuel' →
    cfgObjCreateObjectRec tt fuel st path = cfgObjCreateObjectRec tt fuel' st path
  | 0, _, _, h, _ => absurd h (Nat.not_lt_zero _)
  | _, 0, _, _, h => absurd h (Nat.not_lt_zero _)
  | fuel + 1, fuel' + 1, path, h, h' => by
    unfold cfgObjCreateObjectRec
    cases hparent : cfgGetParentPath path with
    | error e => rfl
    | ok parent? =>
      cases parent? with
      | none => rfl
      | some parent =>
        have hlt := length_parent_lt hparent
        have ih := @cfgObjCreateObjectRec_bound fuel fuel' parent (by omega) (by omega)
        simp only [ih]

/-! ## The second half -/

theorem le_firstUnusedScan : ∀ (l : List ObjInfo) (first : Nat), first ≤ firstUnusedScan first l
  | [], first => Nat.le_refl first
  | child :: rest, first => by
    unfold firstUnusedScan
    split
    · exact Nat.le_of_succ_le (le_firstUnusedScan rest (first + 1))
    · exact le_firstUnusedScan rest first

theorem cfgObjAutoOid_pos (obj : CfgObjPtr) (oid : Nat) : 0 < cfgObjAutoOid obj oid := by
  unfold cfgObjAutoOid
  dsimp only
  split
  · exact Nat.lt_of_lt_of_le (Nat.succ_pos _) (le_firstUnusedScan _ _)
  · exact Nat.succ_pos _

/-- `cfg_obj_create_sub_obj` makes an object with a positive id and puts it behind the children of
`obj`, or fails and leaves the tree alone. -/
theorem cfgObjCreateSubObj_cases {obj : CfgObjPtr} {oid : Nat} (hoid : oid ≠ 0)
    {r : Int × ObjState} (hr : cfgObjCreateSubObj tt st obj oid = r) :
    (r.1 = -1 ∧ r.2.tree = st.tree) ∨
    (0 < r.1 ∧ ∃ node : CfgNodeObj,
      r.2.tree = st.tree.mapChild (fun o => o.addr == obj.1.addr) (·.append node)) := by
  unfold cfgObjCreateSubObj at hr
  split at hr
  · subst hr
    exact .inl ⟨rfl, rfl⟩
  split at hr
  · subst hr
    exact .inl ⟨rfl, rfl⟩
  split at hr
  swap
  · subst hr
    exact .inl ⟨rfl, rfl⟩
  subst hr
  refine .inr ⟨?_, _, rfl⟩
  dsimp only
  split
  · exact Int.natCast_pos.mpr (Nat.pos_of_ne_zero hoid)
  · exact Int.natCast_pos.mpr (cfgObjAutoOid_pos obj oid)

/-- The second half makes an object, or fails and leaves the tree alone. -/
theorem cfgObjAddObject_cases {parent : Str} {r : Int × ObjState}
    (hr : cfgObjAddObject tt st path parent = .ok r) :
    (r.1 ≤ 0 ∧ r.2.tree = st.tree) ∨ (0 < r.1 ∧ st.tree.Grows r.2.tree) := by
  unfold cfgObjAddObject at hr
  split at hr
  · cases hr
  split at hr
  · obtain rfl := Except.ok.inj hr
    exact .inl ⟨show (-1 : Int) ≤ 0 by decide, rfl⟩
  next hoid =>
  split at hr
  · cases hr
  · obtain rfl := Except.ok.inj hr
    exact .inl ⟨Int.le_refl 0, rfl⟩
  · rcases cfgObjCreateSubObj_cases hoid (Except.ok.inj hr) with ⟨hid, htree⟩ | ⟨hpos, node, htree⟩
    · exact .inl ⟨by rw [hid]; decide, htree⟩
    · refine .inr ⟨hpos, ?_⟩
      rw [htree]
      exact Lcrs.grows_mapChild (fun c => Lcrs.grows_append node c) _

/-! ## The whole call -/

/-- One level of `cfg_obj_create_object`: it fails at once, or it goes on to the second half where
the parent exists, or the parent is made first. -/
theorem cfgObjCreateObjectRec_cases {fuel : Nat} {r : Int × ObjState}
    (hr : cfgObjCreateObjectRec tt (fuel + 1) st path = .ok r) :
    (r = (-1, st)) ∨
    (∃ parent, cfgObjAddObject tt st path parent = .ok r) ∨
    ∃ parent made, cfgGetParentPath path = .ok (some parent) ∧
      MissingAncestor tt st path parent ∧ cfgObjCreateObjectRec tt fuel st parent = .ok made ∧
      ((made.1 ≤ 0 ∧ r = (-1, made.2)) ∨
        (0 < made.1 ∧ cfgObjAddObject tt made.2 path parent = .ok r)) := by
  unfold cfgObjCreateObjectRec at hr
  split at hr
  · cases hr
  · exact .inl (Except.ok.inj hr).symm
  next parent hparent =>
  split at hr
  · cases hr
  next exist hexist =>
  split at hr
  swap
  · exact .inr (.inl ⟨parent, hr⟩)
  next hle =>
  split at hr
  · cases hr
  · exact .inl (Except.ok.inj hr).symm
  next type htype =>
  split at hr
  swap
  · exact .inl (Except.ok.inj hr).symm
  next hdyn =>
  split at hr
  · cases hr
  next made hmade =>
  refine .inr (.inr ⟨parent, made, hparent, ⟨.single hparent, ⟨exist, hexist, hle⟩,
    ⟨type, htype, hdyn⟩⟩, hmade, ?_⟩)
  split at hr
  · next hneg => exact .inl ⟨hneg, (Except.ok.inj hr).symm⟩
  · next hpos => exact .inr ⟨Int.not_le.mp hpos, hr⟩

/-- No object that was there is touched, whatever the call returns. -/
theorem grows_cfgObjCreateObjectRec : ∀ {fuel : Nat} {path : Str} {r : Int × ObjState},
    cfgObjCreateObjectRec tt fuel st path = .ok r → st.tree.Grows r.2.tree
  | 0, path, r, hr => by
    obtain rfl := Except.ok.inj hr
    exact Lcrs.Grows.refl _
  | fuel + 1, path, r, hr => by
    have hadd : ∀ {st' : ObjState} {parent : Str}, cfgObjAddObject tt st' path parent = .ok r →
        st'.tree.Grows r.2.tree := by
      intro st' parent h
      rcases cfgObjAddObject_cases h with ⟨-, htree⟩ | ⟨-, hgrows⟩
      · rw [htree]
        exact Lcrs.Grows.refl _
      · exact hgrows
    rcases cfgObjCreateObjectRec_cases hr with
      rfl | ⟨parent, h⟩ | ⟨parent, made, -, -, hmade, hrest⟩
    · exact Lcrs.Grows.refl _
    · exact hadd h
    -- the parent was made first
    have ih := grows_cfgObjCreateObjectRec hmade
    rcases hrest with ⟨-, rfl⟩ | ⟨-, h⟩
    · exact ih
    · exact ih.trans (hadd h)

theorem cfgObjGetObjLoop_grows : ∀ {ids : List Nat} {p o : CfgObjPtr} {child : CfgNodeObj},
    p.2.Grows child → cfgObjGetObjLoop p ids = some o →
    ∃ c, cfgObjGetObjLoop (p.1, child) ids = some (o.1, c) ∧ o.2.Grows c
  | [], p, o, child, hg, ho => by
    obtain rfl := Option.some.inj ho
    exact ⟨child, rfl, hg⟩
  | id :: ids, p, o, child, hg, ho => by
    unfold cfgObjGetObjLoop at ho ⊢
    split at ho
    · cases ho
    next q hq =>
    obtain ⟨c, hc, hqc⟩ := hg.findSib hq
    obtain ⟨c', hloop, hoc⟩ := cfgObjGetObjLoop_grows hqc ho
    refine ⟨c', ?_, hoc⟩
    rw [show cfgObjGetChild (p.1, child) id = some (q.1, c) from hc]
    exact hloop

/-- **Every path that led to an object still leads to it**, and its children are still there. -/
theorem cfgObjGetObj_cfgObjCreateObject {p : Str} {o : CfgObjPtr} {r : Int × ObjState}
    (hr : cfgObjCreateObject tt st path = .ok r) (ho : cfgObjGetObj tt st p = .ok (some o)) :
    ∃ c, cfgObjGetObj tt r.2 p = .ok (some (o.1, c)) ∧ o.2.Grows c := by
  obtain ⟨root, child, s, ids, htree, hids, hloop⟩ := cfgObjGetObj_some ho
  have hgrows := grows_cfgObjCreateObjectRec hr
  rw [htree] at hgrows
  cases htree' : r.2.tree with
  | nil => rw [htree'] at hgrows; cases hgrows
  | node root' child' s' =>
    rw [htree'] at hgrows
    cases hgrows with
    | node _ hchild _ =>
      obtain ⟨c, hc, hoc⟩ := cfgObjGetObjLoop_grows (p := (root, child)) hchild hloop
      refine ⟨c, ?_, hoc⟩
      unfold cfgObjGetObj
      rw [htree']
      simp only [hids, hc]

/-- A call that fails leaves the tree as it was or as a missing ancestor alone leaves it. -/
theorem tree_cfgObjCreateObjectRec : ∀ {fuel : Nat} {path : Str} {r : Int × ObjState},
    path.length < fuel → cfgObjCreateObjectRec tt fuel st path = .ok r → r.1 ≤ 0 →
    r.2.tree = st.tree ∨ LeftByAncestor tt st path r.2.tree
  | 0, _, _, hlen, _, _ => absurd hlen (Nat.not_lt_zero _)
  | fuel + 1, path, r, hlen, hr, hfail => by
    have hadd : ∀ {st' : ObjState} {parent : Str}, cfgObjAddObject tt st' path parent = .ok r →
        r.2.tree = st'.tree := by
      intro st' parent h
      rcases cfgObjAddObject_cases h with ⟨-, htree⟩ | ⟨hpos, -⟩
      · exact htree
      · omega
    rcases cfgObjCreateObjectRec_cases hr with
      rfl | ⟨parent, h⟩ | ⟨parent, made, hparent, hmiss, hmade, hrest⟩
    · exact .inl rfl
    · exact .inl (hadd h)
    have hlt := length_parent_lt hparent
    have hbound : parent.length < fuel := by omega
    rcases hrest with ⟨hneg, rfl⟩ | ⟨hpos, h⟩
    · -- the parent was not made
      rcases tree_cfgObjCreateObjectRec hbound hmade hneg with htree | hleft
      · exact .inl htree
      · exact .inr (hleft.of_parent hparent)
    · -- it was, and the second half fails
      refine .inr ⟨parent, made, hmiss, ?_, hpos, hadd h⟩
      rw [← hmade]
      exact cfgObjCreateObjectRec_bound (Nat.lt_succ_self _) hbound

/-- **A failed `cfg_obj_create_object` touches no object that was there, and it leaves the tree as
it was or exactly as the successful creation of a missing ancestor of the path leaves it.** -/
theorem cfgObjCreateObject_failed {r : Int × ObjState} (hr : cfgObjCreateObject tt st path = .ok r)
    (hfail : r.1 ≤ 0) : st.tree.Grows r.2.tree ∧
      (r.2.tree = st.tree ∨ LeftByAncestor tt st path r.2.tree) :=
  ⟨grows_cfgObjCreateObjectRec hr, tree_cfgObjCreateObjectRec (Nat.lt_succ_self _) hr hfail⟩

/-- A type tree with a dynamic type that has a subtype. -/
def entryTypes : TypeTree where
  decl := { name := "root".toList }
  subtype := .node { name := "lan".toList }
    (.node { name := "entry".toList, create := true }
      (.node { name := "port".toList } .nil .nil) .nil)
    .nil
  fits := by decide
  static := create_root

/-- The tree that is made for it. -/
def entryState : ObjState := cfgObjLoadFromType entryTypes fun _ => true

/-- Below an instance that is missing and a name that is no type, the instance is made, the call
fails, and the instance stays. -/
theorem cfgObjCreateObject_unknown : ∃ r,
    cfgObjCreateObject entryTypes entryState "root.lan.entry.2.foo".toList = .ok r ∧ r.1 = -1 ∧
      r.2.tree ≠ entryState.tree := by
  have hrun : (cfgObjCreateObject entryTypes entryState "root.lan.entry.2.foo".toList).toOption.map
      (fun r => (r.1, decide (r.2.tree = entryState.tree))) = some (-1, false) := by
    decide +kernel
  obtain ⟨r, hr, heq⟩ := Option.map_eq_some_iff.mp hrun
  obtain ⟨hret, htree⟩ := Prod.mk.inj heq
  refine ⟨r, ?_, hret, of_decide_eq_false htree⟩
  cases hcall : cfgObjCreateObject entryTypes entryState "root.lan.entry.2.foo".toList with
  | error e => rw [hcall] at hr; cases hr
  | ok r' => rw [hcall] at hr; exact congrArg _ (Option.some.inj hr)

/-- There the tree that is left is the one that the creation of the instance leaves. -/
theorem cfgObjCreateObject_failed_sample : ∃ r,
    cfgObjCreateObject entryTypes entryState "root.lan.entry.2.foo".toList = .ok r ∧
      LeftByAncestor entryTypes entryState "root.lan.entry.2.foo".toList r.2.tree := by
  obtain ⟨r, hr, hret, hne⟩ := cfgObjCreateObject_unknown
  refine ⟨r, hr, ?_⟩
  exact (cfgObjCreateObject_failed hr (by rw [hret]; decide)).2.resolve_left hne

/-- So a failed call is not always without effect. -/
theorem not_cfgObjCreateObject_atomic : ¬ ∀ (tt : TypeTree) (st : ObjState) (path : Str)
    (r : Int × ObjState), cfgObjCreateObject tt st path = .ok r → r.1 ≤ 0 →
    r.2.tree = st.tree := by
  intro h
  obtain ⟨r, hr, hret, hne⟩ := cfgObjCreateObject_unknown
  exact hne (h _ _ _ r hr (by rw [hret]; decide))

end OnuFirmware.Cfg
