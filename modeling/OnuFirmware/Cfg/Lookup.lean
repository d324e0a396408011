import OnuFirmware.Cfg.Run

/-!
# Type lookup against object lookup

The public calls first ask `cfg_type_query` for the type of a path and then act on the object that
`cfg_obj_get_obj` finds. The two count levels differently: `cfg_type_query` counts tokens,
`cfg_path_to_oid_array` counts types. They also differ on the empty path, which names the root
object but no type, and on instance numbers that spill into the type half of an id.

`lookupsAgree_iff` says for which paths they agree on every tree that satisfies the invariant.
-/

namespace OnuFirmware.Cfg

open Lib Clib

/-! ## Statement -/

/-- No access through `cfg_obj_*` succeeds on the path: get, set, delete, query. -/
structure NoAccess (tt : TypeTree) (st : ObjState) (path : Str) : Prop where
  get : ∀ attr size r, cfgObjGetObjectAttr tt st path attr size = .ok r → r.1 < 0
  set : ∀ attr val r, cfgObjSetObjectAttr tt st path attr val = .ok r → r.1 < 0
  delete : ∀ r, cfgObjDeleteObject tt st path = .ok r → r.1 < 0
  query : ∀ sub r, cfgObjQueryObject tt st path sub = .ok r → r.1 < 0

/-- Type lookup and object lookup agree on a path. -/
structure LookupsAgree (tt : TypeTree) (st : ObjState) (path : Str) : Prop where
  found : ∀ o, cfgObjGetObj tt st path = .ok (some o) →
    ∃ t, cfgTypeQuery tt path = .ok (some t) ∧ cfgOidToTid o.1.id = t.1.id
  missing : cfgTypeQuery tt path = .ok none → NoAccess tt st path

/-- Each id has the type half of a subtype of the type in the id before it. -/
def OidChain (tt : TypeTree) : Nat → List Nat → Prop
  | _, [] => True
  | p, o :: ids => IsSubtype tt (cfgOidToTid p) (cfgOidToTid o) ∧ OidChain tt o ids

/-- The condition for agreement. A path of the root object only has to be non-empty; any other path
whose ids can occur one below the other must have fewer than eight tokens, and its last id must
have the type half of the type it was built from. -/
structure LookupOk (tt : TypeTree) (path : Str) : Prop where
  ne_nil : path ≠ []
  deep : ∀ ch l, pathChain tt path = some (ch ++ [l]) → ch ≠ [] → ch.length < cfgMaxNodeLevel →
    OidChain tt rootOid ((ch ++ [l]).map linkOid).tail →
    (tokensOf path).1.length < cfgMaxNodeLevel ∧ cfgOidToTid (linkOid l) = l.1.1.id

/-! ## Access goes through the object -/

theorem noAccess_of_getObj_none {tt : TypeTree} {st : ObjState} {path : Str}
    (h : ∀ o, cfgObjGetObj tt st path ≠ .ok (some o)) : NoAccess tt st path := by
  have hneg : ∀ {α : Type} {b : α} {r : Int × α},
      (Except.ok (-1, b) : Except Fault _) = .ok r → r.1 < 0 := by
    rintro α b _ ⟨⟩
    show (-1 : Int) < 0
    decide
  rcases hg : cfgObjGetObj tt st path with e | (_ | o)
  · constructor
    · intro attr size r hr
      simp only [cfgObjGetObjectAttr, hg, bind, Except.bind] at hr
      split at hr
      · exact hneg hr
      · simp at hr
    · intro attr val r hr
      simp only [cfgObjSetObjectAttr, hg, bind, Except.bind] at hr
      split at hr
      · exact hneg hr
      · simp at hr
    · intro r hr
      simp [cfgObjDeleteObject, hg, bind, Except.bind] at hr
    · intro sub r hr
      simp only [cfgObjQueryObject, hg, bind, Except.bind] at hr
      repeat' split at hr
      all_goals first | exact hneg hr | simp at hr
  · constructor
    · intro attr size r hr
      simp only [cfgObjGetObjectAttr, hg, bind, Except.bind, ite_self] at hr
      exact hneg hr
    · intro attr val r hr
      simp only [cfgObjSetObjectAttr, hg, bind, Except.bind, ite_self] at hr
      exact hneg hr
    · intro r hr
      simp only [cfgObjDeleteObject, hg, bind, Except.bind] at hr
      exact hneg hr
    · intro sub r hr
      simp only [cfgObjQueryObject, hg, bind, Except.bind] at hr
      repeat' split at hr
      all_goals first | exact hneg hr | simp at hr
  · exact absurd hg (h o)

/-- Agreement is agreement on what is found: a path without an object gives no access. -/
theorem lookupsAgree_of_found {tt : TypeTree} {st : ObjState} {path : Str}
    (h : ∀ o, cfgObjGetObj tt st path = .ok (some o) →
      ∃ t, cfgTypeQuery tt path = .ok (some t) ∧ cfgOidToTid o.1.id = t.1.id) :
    LookupsAgree tt st path := by
  refine ⟨h, fun hq => noAccess_of_getObj_none fun o ho => ?_⟩
  obtain ⟨t, ht, -⟩ := h o ho
  rw [hq] at ht
  exact absurd ht (by simp)

/-! ## Chains that occur in a tree -/

/-- In a tree that satisfies the invariant the ids on the way to an object form a chain. -/
theorem oidChain_of_getObjLoop {tt : TypeTree} {f : CfgNodeObj}
    (hf : f.Everywhere (ChildrenOk tt)) : ∀ {ids : List Nat} {p o : CfgObjPtr}, p ∈ f.entries →
    cfgObjGetObjLoop p ids = some o → OidChain tt p.1.id ids
  | [], _, _, _, _ => trivial
  | id :: ids, p, o, hp, h => by
    rw [cfgObjGetObjLoop] at h
    split at h
    · exact absurd h (by simp)
    · next c hc =>
      obtain ⟨h1, h2, h3⟩ := Lcrs.findSib_some hc
      rw [beq_iff_eq] at h3
      subst h3
      exact ⟨(hf.entry hp).subtype c.1 h2,
        oidChain_of_getObjLoop hf (Lcrs.entries_trans hp h1) h⟩

/-- The tree whose only objects are those on the way along `ids`. -/
def chainTree : Nat → List Nat → CfgNodeObj
  | _, [] => .nil
  | addr, id :: ids =>
    .node { addr := addr + 1, id := id, parent := some addr, priv := [] }
      (chainTree (addr + 1) ids) .nil

/-- The state whose only objects are the root object and those on the way along `ids`. -/
def chainState (ids : List Nat) : ObjState where
  tree := .node { addr := 0, id := rootOid, parent := none, priv := [] } (chainTree 0 ids) .nil
  next := ids.length + 1
  pool := fun _ => true

theorem childrenOk_chainTree {tt : TypeTree} {o : ObjInfo} {ids : List Nat}
    (h : OidChain tt o.id ids) : ChildrenOk tt o (chainTree o.addr ids).sibs := by
  cases ids with
  | nil => exact ⟨List.nodup_nil, by simp [chainTree, Lcrs.sibs], by simp [chainTree, Lcrs.sibs]⟩
  | cons id ids =>
    refine ⟨List.nodup_singleton _, ?_, ?_⟩
    · simpa [chainTree, Lcrs.sibs] using h.1
    · simp [chainTree, Lcrs.sibs]

theorem everywhere_chainTree {tt : TypeTree} : ∀ {ids : List Nat} {addr id : Nat},
    OidChain tt id ids → (chainTree addr ids).Everywhere (ChildrenOk tt)
  | [], _, _, _ => trivial
  | _ :: _, _, _, h => ⟨childrenOk_chainTree h.2, everywhere_chainTree h.2, trivial⟩

theorem treeInv_chainState {tt : TypeTree} {ids : List Nat} (h : OidChain tt rootOid ids) :
    TreeInv tt (chainState ids).tree where
  root := by
    rintro r c s ⟨⟩
    exact ⟨rfl, rfl⟩
  children :=
    ⟨childrenOk_chainTree (o := { addr := 0, id := rootOid, parent := none, priv := [] }) h,
      everywhere_chainTree h, trivial⟩

theorem getObjLoop_chainTree : ∀ (ids : List Nat) (o : ObjInfo),
    ∃ x, cfgObjGetObjLoop (o, chainTree o.addr ids) ids = some x
  | [], o => ⟨_, rfl⟩
  | id :: ids, o => by
    rw [cfgObjGetObjLoop, cfgObjGetChild, chainTree, Lcrs.findSib, if_pos (by simp)]
    exact getObjLoop_chainTree ids { addr := o.addr + 1, id := id, parent := _, priv := _ }

/-! ## The condition is exact -/

theorem length_tokens_le : ∀ {ts : List Str} {g : List (Str × Nat)}, parseChain ts = some g →
    ts.length ≤ 2 * g.length
  | [], g, h => by simp
  | x :: ts, g, h => by
    by_cases hx : tokenDigit x = 0
    swap
    · rw [parseChain_cons_digit hx] at h
      exact absurd h (by simp)
    rw [parseChain_cons hx] at h
    obtain ⟨g', hg, rfl⟩ := Option.map_eq_some_iff.mp h
    have hle := length_nextNum_le ts
    have hone := length_le_nextNum ts
    have ih := length_tokens_le hg
    simp only [List.length_cons]
    omega
termination_by ts => ts.length
decreasing_by simp only [List.length_cons]; omega

/-- The last id on a path is the id of the object found. -/
theorem getObjLoop_last {f : CfgNodeObj} {p o : CfgObjPtr} {ch : List (CfgTypePtr × Nat)}
    {l : CfgTypePtr × Nat} (hp : p ∈ f.entries) (hne : ch ≠ [])
    (h : cfgObjGetObjLoop p ((ch ++ [l]).map linkOid).tail = some o) : o.1.id = linkOid l := by
  obtain ⟨k, ch, rfl⟩ := List.exists_cons_of_ne_nil hne
  rw [List.cons_append, List.map_cons, List.tail_cons] at h
  obtain ⟨id, ids, hcons⟩ := List.exists_cons_of_ne_nil
    (show (ch ++ [l]).map linkOid ≠ [] by simp)
  rw [hcons] at h
  obtain ⟨e, -, -, -, hlast⟩ := cfgObjGetObjLoop_listed hp h
  rw [← hcons, List.map_append] at hlast
  simpa [eq_comm] using hlast

/-- **Type lookup and object lookup agree on a path in every tree that satisfies the invariant
exactly when the path meets the condition.** -/
theorem lookupsAgree_iff (tt : TypeTree) (path : Str) :
    (∀ st, TreeInv tt st.tree → LookupsAgree tt st path) ↔ LookupOk tt path := by
  constructor
  · intro h
    refine ⟨?_, ?_⟩
    · rintro rfl
      obtain ⟨t, ht, -⟩ := (h (chainState []) (treeInv_chainState trivial)).found _ rfl
      exact absurd ht (by simp [cfgTypeQuery, cfgTypeQueryLoop, cfgGetToken, cfgTypeQueryDone])
    · intro ch l hch hne hlen hchain
      have hids : cfgPathToOidArray tt path = .ok (some ((ch ++ [l]).map linkOid)) :=
        cfgPathToOidArray_eq_some.mpr
          (Or.inr ⟨_, hch, by simp, by simpa [Nat.succ_le_iff] using hlen, rfl⟩)
      obtain ⟨x, hx⟩ := getObjLoop_chainTree ((ch ++ [l]).map linkOid).tail
        { addr := 0, id := rootOid, parent := none, priv := [] }
      have hget : cfgObjGetObj tt (chainState ((ch ++ [l]).map linkOid).tail) path
          = .ok (some x) := by
        simp only [cfgObjGetObj, chainState, hids, hx]
      obtain ⟨t, ht, htid⟩ := (h _ (treeInv_chainState hchain)).found x hget
      obtain ⟨hlt, ch', hch', hlast⟩ := cfgTypeQuery_eq_some.mp ht
      obtain rfl := Option.some.inj (hch.symm.trans hch')
      rw [lastNode_concat] at hlast
      obtain rfl := Option.some.inj hlast
      rw [← getObjLoop_last (f := (chainState _).tree) List.mem_cons_self hne hx]
      exact ⟨hlt, htid⟩
  · intro hok st hinv
    refine lookupsAgree_of_found fun o ho => ?_
    obtain ⟨r, c, s, ids, htree, hids, hloop⟩ := cfgObjGetObj_some ho
    have hr : (r, c) ∈ st.tree.entries := by rw [htree]; exact List.mem_cons_self
    have hroot := (hinv.root r c s htree).1
    rcases cfgPathToOidArray_eq_some.mp hids with ⟨rfl, -⟩ | ⟨ch, hch, hne, hlen, rfl⟩
    · exact absurd rfl hok.ne_nil
    obtain rfl | ⟨ch, l, rfl⟩ := List.eq_nil_or_concat' ch
    · exact absurd rfl hne
    have hlast : lastNode none (ch ++ [l]) = some l.1 := lastNode_concat ch l none
    by_cases hne' : ch = []
    · -- a path of the root object
      subst hne'
      obtain ⟨-, g, hg, hres, -, -⟩ := pathChain_some hch
      have htok := length_tokens_le hg
      have hglen := resolveChain_length hres
      refine ⟨l.1, cfgTypeQuery_eq_some.mpr ⟨?_, _, hch, hlast⟩, ?_⟩
      · simp only [List.nil_append, List.length_singleton, cfgMaxNodeLevel] at *
        omega
      · obtain rfl := Option.some.inj hloop
        rw [hroot, cfgOidToTid_rootOid, resolveChain_root hres]
    · have hchain := oidChain_of_getObjLoop hinv.children hr hloop
      rw [hroot] at hchain
      obtain ⟨hlt, htid⟩ := hok.deep ch l hch hne' (by simpa [Nat.succ_le_iff] using hlen) hchain
      refine ⟨l.1, cfgTypeQuery_eq_some.mpr ⟨hlt, _, hch, hlast⟩, ?_⟩
      rw [getObjLoop_last hr hne' hloop]
      exact htid

/-- The path `root.1.a.1.x.1.y.1` has eight tokens: `cfg_obj_get_obj` finds the object,
`cfg_type_query` returns NULL. -/
theorem not_lookupsAgree : ¬ ∀ (tt : TypeTree) (st : ObjState) (path : Str),
    TreeInv tt st.tree → LookupsAgree tt st path := by
  intro h
  have hchain : OidChain sampleTypes rootOid [mkOid 101 1, mkOid 102 1, mkOid 103 1] := by
    refine ⟨⟨_, rfl, ?_⟩, ⟨_, rfl, ?_⟩, ⟨_, rfl, ?_⟩, trivial⟩ <;> decide
  have hagree := h sampleTypes (chainState _) "root.1.a.1.x.1.y.1".toList
    (treeInv_chainState hchain)
  have hmissing : cfgTypeQuery sampleTypes "root.1.a.1.x.1.y.1".toList = .ok none := by
    decide +kernel
  have hquery := (hagree.missing hmissing).query none (1, [1]) (by decide +kernel)
  exact absurd hquery (by decide)

end OnuFirmware.Cfg
