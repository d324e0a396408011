import OnuFirmware.Cfg.Content
import OnuFirmware.Cfg.Named

/-!
# What calls by path do to the content

The operations on the object tree take paths. Where a path leads to the ids `ids` below the root
object, this module says what each call returns and how it changes the content `attrsAt`: reading
an attribute and asking for an object look at `ids`, setting an attribute changes the attributes
at `ids`, deleting removes all that has `ids` in front, and nothing else changes.
-/

namespace OnuFirmware.Cfg

open Lib Clib

/-- A state that satisfies the invariant and has a root object. -/
structure Rooted (tt : TypeTree) (st : ObjState) : Prop where
  inv : StateInv tt st
  root : st.tree ≠ .nil

/-- The path is accepted and leads to the ids below the root object. -/
def LeadsTo (tt : TypeTree) (path : Str) (ids : List Nat) : Prop :=
  ∃ k, cfgPathToOidArray tt path = .ok (some (k :: ids))

/-- `st'` has the attributes and objects that `content` says, in the same pool. -/
structure Becomes (tt : TypeTree)
    (st st' : ObjState) (content : List Nat → Option (List (Str × Str))) :
    Prop where
  rooted : Rooted tt st'
  pool : st'.pool = st.pool
  content : ∀ ks, attrsAt st'.tree ks = content ks

section Calls

variable {tt : TypeTree} {st : ObjState} {path : Str} {ids : List Nat}

theorem Rooted.tree_eq (h : Rooted tt st) : ∃ r c, st.tree = .node r c .nil ∧ r.id = rootOid := by
  cases htree : st.tree with
  | nil => exact absurd htree h.root
  | node r c s =>
    obtain ⟨hid, rfl⟩ := h.inv.tree.root r c s htree
    exact ⟨r, c, rfl, hid⟩

/-- A path of names and numbers leads to the ids behind that of the root. -/
theorem leadsTo_named {x : PathName} {l : List PathName} {t : CfgTypePtr} {u : List CfgTypePtr}
    (h : ∀ y ∈ x :: l, y.Ok) (hlen : l.length < cfgMaxNodeLevel)
    (hts : typeChain tt none ((x :: l).map Prod.fst) = some (t :: u)) :
    LeadsTo tt (namedPath (x :: l)) (namedIds u l) :=
  ⟨_, cfgPathToOidArray_named h (List.cons_ne_nil x l) hlen hts⟩

theorem leadsTo_nil : LeadsTo tt [] [] := ⟨0, rfl⟩

/-- The type query comes back for such a path, with or without a type. -/
theorem LeadsTo.typeQuery (h : LeadsTo tt path ids) : ∃ o, cfgTypeQuery tt path = .ok o := by
  obtain ⟨k, hk⟩ := h
  rw [cfgPathToOidArray_eq_walk] at hk
  obtain ⟨tmp, htmp⟩ := res_eq_ok_of_arrayWalk _ _ _ _ _ _ hk
  rw [cfgTypeQuery_eq_walk, htmp]
  exact queryWalk_ok _ _ _ _

theorem LeadsTo.unique {ids' : List Nat} (h : LeadsTo tt path ids) (h' : LeadsTo tt path ids') :
    ids = ids' := by
  obtain ⟨k, hk⟩ := h
  obtain ⟨k', hk'⟩ := h'
  rw [hk] at hk'
  exact (List.cons.inj (Option.some.inj (Except.ok.inj hk'))).2

/-- The object at the ids is the one the path is followed to. -/
theorem Rooted.getObj (h : Rooted tt st) (hp : LeadsTo tt path ids) :
    ∃ o, cfgObjGetObj tt st path = .ok o ∧ o.map (fun e => e.1.priv) = attrsAt st.tree ids ∧
      ∀ r c, st.tree = .node r c .nil → cfgObjGetObjLoop (r, c) ids = o := by
  obtain ⟨r, c, htree, -⟩ := h.tree_eq
  obtain ⟨k, hk⟩ := hp
  refine ⟨cfgObjGetObjLoop (r, c) ids, ?_, ?_, ?_⟩
  · rw [cfgObjGetObj, htree]
    dsimp only
    rw [hk]
    rfl
  · rw [htree, attrsAt]
  · intro r' c' htree'
    rw [htree] at htree'
    obtain ⟨rfl, rfl, -⟩ := Lcrs.node.inj htree'
    rfl

/-! ## Reading -/

/-- `cfg_obj_query_object` without a subtype: whether there is an object at the ids. -/
theorem Rooted.queryObject (h : Rooted tt st) (hp : LeadsTo tt path ids) :
    ∃ r, cfgObjQueryObject tt st path none = .ok r ∧
      r.1 = if (attrsAt st.tree ids).isSome then 1 else -1 := by
  obtain ⟨o, ho, hattrs, -⟩ := h.getObj hp
  simp only [cfgObjQueryObject, ho, bind, Except.bind, ← hattrs]
  cases o with
  | none => exact ⟨_, rfl, rfl⟩
  | some e => exact ⟨_, rfl, rfl⟩

/-- `cfg_obj_get_object_attr`. -/
theorem Rooted.getAttr (h : Rooted tt st) (hp : LeadsTo tt path ids) (attr : Str) {size : Nat}
    (hs : size ≠ 0) : cfgObjGetObjectAttr tt st path attr size =
      .ok (match attrsAt st.tree ids with
        | none => (-1, [])
        | some attrs =>
          match cfgXmlGetAttr attrs attr with
          | none => (-2, [])
          | some tmp => ((tmp.take (size - 1)).length, tmp.take (size - 1))) := by
  obtain ⟨o, ho, hattrs, -⟩ := h.getObj hp
  simp only [cfgObjGetObjectAttr, if_neg hs, ho, bind, Except.bind, ← hattrs]
  cases o with
  | none => rfl
  | some e =>
    simp only [Option.map_some]
    cases cfgXmlGetAttr e.1.priv attr <;> rfl

/-! ## Setting an attribute -/

/-- The content after an attribute of the object at `ids` was set. -/
def setAt (content : List Nat → Option (List (Str × Str))) (ids : List Nat) (attr val : Str)
    (ks : List Nat) : Option (List (Str × Str)) :=
  if ks = ids then (content ids).map fun attrs => cfgXmlSetAttr attrs attr val else content ks

/-- **`cfg_obj_set_object_attr` changes the attributes at the ids and nothing else.** -/
theorem Rooted.setAttr (h : Rooted tt st) (hp : LeadsTo tt path ids) (attr : Str)
    (hattr : attr ≠ []) (val : Str) :
    ∃ n st', cfgObjSetObjectAttr tt st path attr val = .ok (n, st') ∧
      Becomes tt st st' (setAt (attrsAt st.tree) ids attr val) := by
  obtain ⟨r, c, htree, -⟩ := h.tree_eq
  obtain ⟨o, ho, hattrs, hloop⟩ := h.getObj hp
  simp only [cfgObjSetObjectAttr, if_neg hattr, ho, bind, Except.bind]
  cases o with
  | none =>
    refine ⟨-1, st, rfl, h, rfl, fun ks => ?_⟩
    rw [setAt, ← hattrs]
    split
    · next hk =>
      rw [hk, ← hattrs]
      rfl
    · rfl
  | some e =>
    refine ⟨0, _, rfl, ⟨stateInv_setPriv h.inv _ _, ?_⟩, rfl, fun ks => ?_⟩
    · simp [ObjState.setPriv, htree, Lcrs.mapVal]
    · rw [attrsAt_setPriv h.inv htree (hloop r c htree), setAt, ← hattrs]
      rfl

/-! ## Deleting -/

/-- The content after the object at `ids` was deleted. -/
def removeAt (content : List Nat → Option (List (Str × Str))) (ids ks : List Nat) :
    Option (List (Str × Str)) :=
  if ids <+: ks then none else content ks

/-- Below ids without an object there is none. -/
theorem attrsAt_eq_none_below {tree : CfgNodeObj} {ids ks : List Nat}
    (h : attrsAt tree ids = none) (hpre : ids <+: ks) : attrsAt tree ks = none := by
  cases tree with
  | nil => rfl
  | node r c s =>
    obtain ⟨rest, rfl⟩ := hpre
    rw [attrsAt_node, Option.map_map, Option.map_eq_none_iff] at h ⊢
    rw [Lcrs.walk_append, h, Option.bind_none]

/-- **`cfg_obj_delete_object` removes the object at the ids with all that is below it, if it is not
the root object, and nothing else.** -/
theorem Rooted.deleteObject (h : Rooted tt st) (hp : LeadsTo tt path ids) (hne : ids ≠ []) :
    ∃ n st', cfgObjDeleteObject tt st path = .ok (n, st') ∧
      Becomes tt st st' (removeAt (attrsAt st.tree) ids) := by
  obtain ⟨r, c, htree, -⟩ := h.tree_eq
  obtain ⟨o, ho, hattrs, hloop⟩ := h.getObj hp
  simp only [cfgObjDeleteObject, ho, bind, Except.bind]
  cases o with
  | none =>
    refine ⟨-1, st, rfl, h, rfl, fun ks => ?_⟩
    rw [removeAt]
    split
    · next hpre => exact attrsAt_eq_none_below hattrs.symm hpre
    · rfl
  | some o =>
    obtain ⟨up, k, rfl⟩ := (List.eq_nil_or_concat' ids).resolve_left hne
    have hwalk := hloop r c htree
    rw [cfgObjGetObjLoop_eq_walk, Lcrs.walk_append] at hwalk
    obtain ⟨e, he, hchild⟩ := Option.bind_eq_some_iff.mp hwalk
    rw [Lcrs.walk_cons] at hchild
    obtain ⟨o', hfind, hwalk⟩ := Option.bind_eq_some_iff.mp hchild
    obtain rfl : o' = o := Option.some.inj hwalk
    obtain ⟨-, hmem, hid⟩ := Lcrs.findSib_some hfind
    rw [beq_iff_eq] at hid
    have hemem : e ∈ st.tree.entries :=
      mem_entries_of_getObjLoop htree (by rw [cfgObjGetObjLoop_eq_walk]; exact he)
    have hok := h.inv.tree.children.entry hemem
    obtain ⟨st', hdel, hinv'⟩ := cfgObjDelObject_ok h.inv hemem hmem
    obtain ⟨p, hpar, hpool, htree'⟩ := cfgObjDelObject_eq_ok hdel
    obtain rfl : e.1.addr = p :=
      Option.some.inj ((hok.parentLink o'.1 hmem).symm.trans hpar)
    refine ⟨_, st', hdel, ⟨hinv', ?_⟩, hpool, fun ks => ?_⟩
    · rw [htree', htree]
      simp [Lcrs.mapChild]
    · have hone := countP_addr_le_one h.inv htree hemem
      have hw := Lcrs.walk_mapChild_eraseSib (k := k) (p := fun a : ObjInfo => a.addr == e.1.addr)
        (g := (·.eraseSib fun a => a.addr == o'.1.addr)) hone he (by simp) hok.distinct
        (Lcrs.eraseSib_congr fun a ha => by
          rw [h.inv.addr_beq hemem hmem ha, hid]) ks
      rw [htree', htree]
      simp only [Lcrs.mapChild, attrsAt_node, removeAt]
      rw [hw]
      split <;> rfl

/-- **Deleting by the empty path frees the root object**, which no object lists. -/
theorem Rooted.deleteObject_empty (h : Rooted tt st) :
    cfgObjDeleteObject tt st [] = .error .dangling := by
  obtain ⟨r, c, htree, -⟩ := h.tree_eq
  obtain ⟨o, ho, -, hloop⟩ := h.getObj leadsTo_nil
  obtain rfl : some (r, c) = o := hloop r c htree
  simp only [cfgObjDeleteObject, ho, bind, Except.bind, cfgObjDelObject]
  cases r.parent with
  | none => rfl
  | some p =>
    have haddrs := h.inv.addrs
    rw [htree, Lcrs.values, Lcrs.values, List.append_nil, List.map_cons, List.nodup_cons] at haddrs
    have hlisted : ∀ e ∈ st.tree.entries, (e.2.sibs.any fun a => a.addr == r.addr) = false := by
      intro e he
      rw [List.any_eq_false]
      intro a ha
      have hsub : e.2.values.Sublist c.values := by
        rw [htree, Lcrs.entries, Lcrs.entries, List.append_nil, List.mem_cons] at he
        rcases he with rfl | he
        · exact List.Sublist.refl _
        · exact Lcrs.values_sublist_of_mem he
      have hmem := hsub.subset ((Lcrs.sibs_sublist_values e.2).subset ha)
      simp only [beq_iff_eq]
      intro hra
      exact haddrs.1 (hra ▸ List.mem_map_of_mem hmem)
    dsimp only
    rw [if_neg]
    rw [Option.any_eq_true]
    rintro ⟨e, he, hany⟩
    rw [hlisted e (List.mem_of_find?_eq_some he)] at hany
    exact absurd hany (by decide)

end Calls

/-! ## Removing objects -/

/-- `st'` is `st` without the objects that `gone` says; the attributes of the objects at `notes` may
have changed, those of all others have not. -/
structure Removes (tt : TypeTree) (notes : List (List Nat)) (gone : List Nat → Prop)
    (st st' : ObjState) : Prop where
  rooted : Rooted tt st'
  objects : ∀ ks, (attrsAt st'.tree ks).isSome ↔ (attrsAt st.tree ks).isSome ∧ ¬ gone ks
  attrs : ∀ ks ∉ notes, ¬ gone ks → attrsAt st'.tree ks = attrsAt st.tree ks

section Removes

variable {tt : TypeTree} {notes : List (List Nat)} {gone gone' : List Nat → Prop}
  {st st' st'' : ObjState}

theorem Removes.refl (h : Rooted tt st) : Removes tt notes (fun _ => False) st st :=
  ⟨h, fun ks => by simp, fun _ _ _ => rfl⟩

theorem Removes.trans (h : Removes tt notes gone st st') (h' : Removes tt notes gone' st' st'') :
    Removes tt notes (fun ks => gone ks ∨ gone' ks) st st'' where
  rooted := h'.rooted
  objects := fun ks => by rw [h'.objects, h.objects, not_or, and_assoc]
  attrs := fun ks hk hg => by
    rw [not_or] at hg
    rw [h'.attrs ks hk hg.2, h.attrs ks hk hg.1]

theorem Removes.congr (h : Removes tt notes gone st st') (hg : ∀ ks, gone ks ↔ gone' ks) :
    Removes tt notes gone' st st' := by
  obtain rfl : gone = gone' := funext fun ks => propext (hg ks)
  exact h

theorem Removes.mono {notes' : List (List Nat)} (h : Removes tt notes gone st st')
    (hn : notes ⊆ notes') : Removes tt notes' gone st st' :=
  ⟨h.rooted, h.objects, fun ks hk => h.attrs ks fun hks => hk (hn hks)⟩

/-- Notes in a step that removes nothing. -/
theorem Removes.of_setAt {ids : List Nat} {attr val : Str} (hids : ids ∈ notes)
    (h : Becomes tt st st' (setAt (attrsAt st.tree) ids attr val)) :
    Removes tt notes (fun _ => False) st st' where
  rooted := h.rooted
  objects := fun ks => by
    rw [h.content, setAt]
    split
    · next hk => simp [hk]
    · simp
  attrs := fun ks hk _ => by
    have hne : ks ≠ ids := fun he => hk (by rwa [he])
    rw [h.content, setAt, if_neg hne]

theorem Removes.of_removeAt {ids : List Nat}
    (h : Becomes tt st st' (removeAt (attrsAt st.tree) ids)) :
    Removes tt notes (ids <+: ·) st st' where
  rooted := h.rooted
  objects := fun ks => by
    rw [h.content, removeAt]
    split <;> simp_all
  attrs := fun ks _ hg => by rw [h.content, removeAt, if_neg hg]

/-- **What was removed is settled by the objects that were there.** -/
theorem Removes.iff (h : Removes tt notes gone st st') :
    Removes tt notes gone' st st' ↔
      ∀ ks, (attrsAt st.tree ks).isSome → (gone ks ↔ gone' ks) := by
  constructor
  · intro h' ks hks
    have h1 := h.objects ks
    rw [h'.objects] at h1
    simp only [hks, true_and] at h1
    exact (not_iff_not.mp h1).symm
  · intro heq
    refine ⟨h.rooted, fun ks => ?_, fun ks hk hg => ?_⟩
    · rw [h.objects]
      exact and_congr_right fun hks => not_congr (heq ks hks)
    · by_cases hks : (attrsAt st.tree ks).isSome
      · exact h.attrs ks hk (mt (heq ks hks).mp hg)
      · have hks' : ¬ (attrsAt st'.tree ks).isSome := fun hs => hks ((h.objects ks).mp hs).1
        rw [Option.not_isSome_iff_eq_none] at hks hks'
        rw [hks, hks']

theorem Removes.exists_iff {r : Except Fault (Int × ObjState)} {n : Int} (hr : r = .ok (n, st'))
    (h : Removes tt notes gone st st') :
    (∃ n st', r = .ok (n, st') ∧ Removes tt notes gone' st st') ↔
      ∀ ks, (attrsAt st.tree ks).isSome → (gone ks ↔ gone' ks) := by
  rw [← h.iff]
  constructor
  · rintro ⟨m, st₁, hr₁, h₁⟩
    rw [hr] at hr₁
    obtain ⟨-, rfl⟩ := Prod.mk.inj (Except.ok.inj hr₁)
    exact h₁
  · exact fun h₁ => ⟨n, st', hr, h₁⟩

/-- An object that is not removed stays. -/
theorem Removes.isSome (h : Removes tt notes gone st st') {ks : List Nat}
    (hks : (attrsAt st.tree ks).isSome) (hg : ¬ gone ks) : (attrsAt st'.tree ks).isSome :=
  (h.objects ks).mpr ⟨hks, hg⟩

end Removes

end OnuFirmware.Cfg
