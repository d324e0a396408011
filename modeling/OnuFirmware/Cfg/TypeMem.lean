import OnuFirmware.Cfg.Chain
import Mathlib.Algebra.Group.Nat.Defs
import Mathlib.Data.List.Induction

/-!
# The types in memory (`cfg_type.c`)

The types are static C structures: each points to its parent and to a NULL-terminated array of its
subtypes. There is no brother pointer; `cfg_type_get_brother` looks a type up in the array of its
parent. `Cfg/Type.lean` has the tree as a value, this module has the structures by address.

`cfg_type_alloc_id` numbers them once at start-up. `typeIds_ok` says that in a well-formed tree each
type gets one id, that `cfg_type_find_by_id` inverts the numbering, and that the path of an id leads
back to its type.
-/

namespace OnuFirmware.Cfg

open Lib Clib

/-! ## The structures and the functions on them -/

/-- The fields of a `struct cfg_node_type` that do not change; `subtype` is the array up to its
NULL. -/
structure TypeNode where
  name : Str
  parent : Option Nat
  subtype : Option (List Nat)
deriving Repr, DecidableEq

/-- The types by address. -/
abbrev TypeMem := Nat → TypeNode

/-- `cfg_type_get_child`. -/
def TypeMem.getChild (mem : TypeMem) (node : Nat) : Option Nat :=
  (mem node).subtype.bind List.head?

/-- What stands behind `node` in an array. -/
def behind (node : Nat) : List Nat → Option Nat
  | [] => none
  | child :: rest => if child = node then rest.head? else behind node rest

/-- `cfg_type_get_brother`. -/
def TypeMem.getBrother (mem : TypeMem) (node : Nat) : Option Nat :=
  match (mem node).parent with
  | none => none
  | some p => (mem p).subtype.bind (behind node)

/-- The ids of the types and `cfg_type_cache` up to `cfg_type_total_cnt`. -/
structure TypeIds where
  id : Nat → Nat
  cache : List Nat

/-- `cfg_type_alloc_id`, which returns at once for NULL. The calls are nested at most `fuel` deep; a
cache that is full and a recursion that does not end leave their objects. -/
def TypeMem.allocId (mem : TypeMem) : Nat → Option Nat → TypeIds → Except Fault TypeIds
  | _, none, st => .ok st
  | 0, some _, _ => .error .overrun
  | fuel + 1, some node, st =>
    if st.cache.length < cfgTypeMaxNum then
      let st : TypeIds := {
        id := Function.update st.id node (cfgTypeBaseVal + st.cache.length)
        cache := st.cache ++ [node] }
      match mem.allocId fuel (mem.getChild node) st with
      | .error e => .error e
      | .ok st => mem.allocId fuel (mem.getBrother node) st
    else .error .overrun

/-- `cfg_type_init`, with the ids that the structures had before. -/
def TypeMem.init (mem : TypeMem) (root : Nat) (id : Nat → Nat) : Except Fault TypeIds :=
  mem.allocId cfgTypeMaxNum (some root) { id := id, cache := [] }

/-- `cfg_type_find_by_id`; the argument is unsigned, so ids below the base wrap around. -/
def TypeIds.findById (st : TypeIds) (id : BitVec 32) : Option Nat :=
  st.cache[(id - BitVec.ofNat 32 cfgTypeBaseVal).toNat]?

/-- The first loop of `cfg_type_id_to_path`: the names from `type` upwards, with room for `n`. -/
def TypeMem.namesUp (mem : TypeMem) : Nat → Option Nat → Except Fault (List Str)
  | _, none => .ok []
  | 0, some _ => .error .overrun
  | n + 1, some type =>
    (mem.namesUp n (mem type).parent).map fun names =>
      (mem type).name.take (cfgMaxTypeName - 1) :: names

/-- `cfg_type_id_to_path`; `none` is the return value `-1`. The local array `path` has room for
`CFG_MAX_PATH_NAME` bytes. -/
def TypeMem.idToPath (mem : TypeMem) (st : TypeIds) (id : BitVec 32) (buflen : Nat) :
    Except Fault (Option Str) :=
  match st.findById id with
  | none => .ok none
  | some type =>
    match mem.namesUp cfgMaxNodeLevel (some type) with
    | .error e => .error e
    | .ok names =>
      let path := names.reverse.flatMap (· ++ ['.'])
      if cfgMaxPathName ≤ path.length ∨ buflen = 0 then .error .overrun
      -- the last separator is cut off
      else .ok (some (path.dropLast.take (buflen - 1)))

/-- The scan of `cfg_type_query_child` over brothers. -/
def TypeMem.scanBrothers (mem : TypeMem) (child : Str) : Nat → Option Nat → Option Nat
  | _, none => none
  | 0, some _ => none
  | fuel + 1, some subtype =>
    if cfgTypeCompare (mem subtype).name child then some subtype
    else mem.scanBrothers child fuel (mem.getBrother subtype)

/-- `cfg_type_query_child`. -/
def TypeMem.queryChild (mem : TypeMem) (root : Nat) (type : Option Nat) (child : Str) :
    Option Nat :=
  match type with
  | none => if cfgTypeCompare (mem root).name child then some root else none
  | some type => mem.scanBrothers child cfgTypeMaxNum (mem.getChild type)

/-- The loop of `cfg_type_query` for any way to look a subtype up. -/
def queryLoop {ν : Type} (queryChild : Option ν → Str → Option ν) :
    Nat → Str → Option ν → Bool → Nat → Except Fault (Option ν)
  | 0, _, _, _, _ => .ok none
  | fuel + 1, tmp, node, needAlpha, level =>
    match cfgGetToken tmp with
    | .error e => .error e
    | .ok none => .ok (if tmp ≠ [] ∨ level = cfgMaxNodeLevel then none else node)
    | .ok (some t) =>
      if level < cfgMaxNodeLevel then
        if needAlpha ∧ tokenDigit t.token ≠ 0 then .ok none
        else if tokenDigit t.token ≠ 0 then queryLoop queryChild fuel t.rest node true (level + 1)
        else
          match queryChild node t.token with
          | none => .ok none
          | some n => queryLoop queryChild fuel t.rest (some n) false (level + 1)
      else .ok (if t.rest ≠ [] ∨ level = cfgMaxNodeLevel then none else node)

/-- `cfg_type_query`. -/
def TypeMem.query (mem : TypeMem) (root : Nat) (path : Str) : Except Fault (Option Nat) :=
  queryLoop (mem.queryChild root) (path.length + 1) path none true 0

/-- The loop on the tree of types is the same one. -/
theorem cfgTypeQueryLoop_eq (tt : TypeTree) : ∀ (fuel : Nat) (tmp : Str) (node : Option CfgTypePtr)
    (needAlpha : Bool) (level : Nat), cfgTypeQueryLoop tt fuel tmp node needAlpha level =
      queryLoop (cfgTypeQueryChild tt) fuel tmp node needAlpha level
  | 0, _, _, _, _ => rfl
  | fuel + 1, tmp, node, needAlpha, level => by
    unfold cfgTypeQueryLoop queryLoop
    simp only [cfgTypeQueryLoop_eq tt fuel, cfgTypeQueryDone]
    rcases cfgGetToken tmp with e | _ | t
    · rfl
    · rfl
    · cases hq : cfgTypeQueryChild tt node t.token <;> simp only [hq]

/-! ## Well-formed trees -/

/-- The structures at the addresses of a tree are linked as the tree is: each points to its parent
`par` and to the array of its subtypes. -/
def Shaped (mem : TypeMem) : Option Nat → Lcrs Nat → Prop
  | _, .nil => True
  | par, .node a c s =>
    (mem a).parent = par ∧ (mem a).subtype.getD [] = c.sibs ∧
      Shaped mem (some a) c ∧ Shaped mem par s

/-- The number of levels. -/
def typeLevels : Lcrs Nat → Nat
  | .nil => 0
  | .node _ c s => max (typeLevels c + 1) (typeLevels s)

/-- The first 31 characters of a name, in lower case. -/
def nameKey (name : Str) : Str := cfgStrToLower (name.take (cfgMaxTypeName - 1))

/-- The part of a name that counts can be a component of a path: it is not empty, has no separator
and is not read as a number. -/
structure NameOk (name : Str) : Prop where
  token : IsToken (name.take (cfgMaxTypeName - 1))
  notNumber : tokenDigit (name.take (cfgMaxTypeName - 1)) = 0

/-- **A well-formed type tree**: the structures are linked as the tree of addresses `.node root c
.nil` is, there are no more than the cache holds and fewer levels than `CFG_MAX_NODE_LEVEL`, and the
names of siblings are components that differ. -/
structure TypesOk (mem : TypeMem) (root : Nat) (c : Lcrs Nat) : Prop where
  shaped : Shaped mem none (.node root c .nil)
  nodup : (root :: c.values).Nodup
  fits : c.size + 1 ≤ cfgTypeMaxNum
  levels : typeLevels c + 1 < cfgMaxNodeLevel
  names : ∀ a ∈ root :: c.values, NameOk (mem a).name
  distinct : ∀ a ∈ root :: c.values,
    (((mem a).subtype.getD []).map fun b => nameKey (mem b).name).Nodup

/-! ## Numbering -/

theorem behind_append {node : Nat} : ∀ {pre : List Nat} (rest : List Nat), node ∉ pre →
    behind node (pre ++ node :: rest) = rest.head?
  | [], rest, _ => if_pos rfl
  | b :: pre, rest, h => by
    rw [List.mem_cons, not_or] at h
    rw [List.cons_append, behind, if_neg (Ne.symm h.1)]
    exact behind_append rest h.2

variable {mem : TypeMem}

/-- The first subtype. -/
theorem getChild_eq {a : Nat} {c : Lcrs Nat} (h : (mem a).subtype.getD [] = c.sibs) :
    mem.getChild a = c.sibs.head? := by
  unfold TypeMem.getChild
  cases hs : (mem a).subtype with
  | none =>
    rw [hs] at h
    rw [← h]
    rfl
  | some l =>
    rw [hs] at h
    rw [← h]
    rfl

/-- The next brother of a type that its parent lists. -/
theorem getBrother_eq {a p : Nat} {pre rest : List Nat} (hpar : (mem a).parent = some p)
    (hsub : (mem p).subtype.getD [] = pre ++ a :: rest) (hpre : a ∉ pre) :
    mem.getBrother a = rest.head? := by
  unfold TypeMem.getBrother
  rw [hpar]
  show (mem p).subtype.bind (behind a) = rest.head?
  cases hs : (mem p).subtype with
  | none =>
    rw [hs] at hsub
    exact absurd hsub (by simp)
  | some l =>
    rw [hs] at hsub
    have hl : l = pre ++ a :: rest := hsub
    rw [Option.bind_some, hl, behind_append rest hpre]

/-- The root type has no brother. -/
theorem getBrother_root {a : Nat} (hpar : (mem a).parent = none) : mem.getBrother a = none := by
  unfold TypeMem.getBrother
  rw [hpar]

/-- What numbering the types `l` does: they are entered behind the others in the cache, and the id
of each is its place there. -/
structure Numbered (l : List Nat) (st st' : TypeIds) : Prop where
  cache : st'.cache = st.cache ++ l
  ids : ∀ k a, l[k]? = some a → st'.id a = cfgTypeBaseVal + (st.cache.length + k)
  others : ∀ a, a ∉ l → st'.id a = st.id a

theorem Numbered.append {l l' : List Nat} {st st1 st2 : TypeIds} (h : Numbered l st st1)
    (h' : Numbered l' st1 st2) (hdisj : ∀ a ∈ l, a ∉ l') : Numbered (l ++ l') st st2 where
  cache := by rw [h'.cache, h.cache, List.append_assoc]
  ids := by
    intro k a hk
    rw [List.getElem?_append] at hk
    split at hk
    · rw [h'.others a (hdisj a (List.mem_of_getElem? hk))]
      exact h.ids k a hk
    · have := h'.ids _ a hk
      rw [h.cache, List.length_append] at this
      omega
  others := by
    intro a ha
    rw [List.mem_append, not_or] at ha
    rw [h'.others a ha.2, h.others a ha.1]

/-- **`cfg_type_alloc_id` numbers a chain of brothers with all that is below them, in the order
type, subtypes, brothers.** -/
theorem allocId_spec : ∀ {t : Lcrs Nat} {par : Option Nat} {pre : List Nat}
    {fuel : Nat} {st : TypeIds}, Shaped mem par t →
    (∀ p, par = some p → (mem p).subtype.getD [] = pre ++ t.sibs) →
    (par = none → t.sibs.length ≤ 1) → (pre ++ t.values).Nodup → t.size ≤ fuel →
    st.cache.length + t.size ≤ cfgTypeMaxNum →
    ∃ st', mem.allocId fuel t.sibs.head? st = .ok st' ∧ Numbered t.values st st'
  | .nil, par, pre, fuel, st, _, _, _, _, _, _ => by
    refine ⟨st, ?_, by simp [Lcrs.values], by simp [Lcrs.values], fun a _ => rfl⟩
    cases fuel <;> rfl
  | .node a c s, par, pre, 0, st, _, _, _, _, hfuel, _ => absurd hfuel (by simp [Lcrs.size])
  | .node a c s, par, pre, fuel + 1, st, hshape, hlist, hroot, hnodup, hfuel, hfits => by
    obtain ⟨hpar, hsub, hc, hs⟩ := hshape
    have hsize : (Lcrs.node a c s).size = c.size + s.size + 1 := rfl
    have hvalues : (Lcrs.node a c s).values = a :: (c.values ++ s.values) := rfl
    rw [hsize] at hfuel hfits
    rw [hvalues] at hnodup ⊢
    obtain ⟨-, hnodup', hpre⟩ := List.nodup_append.mp hnodup
    obtain ⟨ha, hcs⟩ := List.nodup_cons.mp hnodup'
    obtain ⟨hcn, hsn, hdisj⟩ := List.nodup_append.mp hcs
    have hbro : mem.getBrother a = s.sibs.head? := by
      cases par with
      | none =>
        have hlen := hroot rfl
        cases s with
        | nil => exact getBrother_root hpar
        | node b _ _ => exact absurd hlen (by simp [Lcrs.sibs])
      | some p =>
        exact getBrother_eq hpar (hlist p rfl) fun hmem => hpre a hmem a List.mem_cons_self rfl
    -- the type itself
    have hself : Numbered [a] st
        { id := Function.update st.id a (cfgTypeBaseVal + st.cache.length),
          cache := st.cache ++ [a] } := by
      refine ⟨rfl, fun k b hk => ?_, fun b hb => ?_⟩
      · cases k with
        | zero =>
          obtain rfl := Option.some.inj hk
          exact Function.update_self _ _ _
        | succ k => exact absurd hk (by simp)
      · exact Function.update_of_ne (by simpa using hb) _ _
    obtain ⟨st1, hst1, hnum1⟩ := @allocId_spec c (some a) [] fuel {
        id := Function.update st.id a (cfgTypeBaseVal + st.cache.length), cache := st.cache ++ [a] }
      hc (fun p hp => by cases hp; exact hsub) (fun h => by cases h) hcn (by omega)
      (by rw [List.length_append, List.length_singleton]; omega)
    have hlen1 : st1.cache.length = st.cache.length + 1 + c.size := by
      rw [hnum1.cache, List.length_append, List.length_append, List.length_singleton,
        ← Lcrs.map_fst_entries, List.length_map, Lcrs.length_entries]
    have hnodups : (pre ++ [a] ++ s.values).Nodup := by
      refine hnodup.sublist ?_
      rw [List.append_assoc]
      exact (List.Sublist.refl pre).append
        (((List.sublist_append_right c.values s.values)).cons_cons a)
    obtain ⟨st2, hst2, hnum2⟩ := @allocId_spec s par (pre ++ [a]) fuel st1
      hs (fun p hp => by rw [hlist p hp, List.append_assoc]; rfl)
      (fun h => Nat.le_of_succ_le (hroot h)) hnodups (by omega) (by omega)
    refine ⟨st2, ?_, ?_⟩
    · show mem.allocId (fuel + 1) (some a) st = .ok st2
      unfold TypeMem.allocId
      rw [if_pos (by omega), getChild_eq hsub, hbro]
      simp only [hst1]
      exact hst2
    · refine (hself.append hnum1 fun b hb hbc => ?_).append hnum2 fun b hb hbs => ?_
      · obtain rfl := List.mem_singleton.mp hb
        exact ha (List.mem_append_left _ hbc)
      · rcases List.mem_cons.mp hb with rfl | hb
        · exact ha (List.mem_append_right _ hbs)
        · exact hdisj b hb b hbs rfl

/-- All types are numbered, in the order of the cache. -/
theorem init_spec {root : Nat} {c : Lcrs Nat} (h : TypesOk mem root c) (id : Nat → Nat) :
    ∃ st, mem.init root id = .ok st ∧ Numbered (root :: c.values) { id := id, cache := [] } st := by
  have hvalues := Lcrs.values_single root c
  obtain ⟨st, hst, hnum⟩ := @allocId_spec mem (.node root c .nil) none [] cfgTypeMaxNum
    { id := id, cache := [] } h.shaped (fun p hp => by cases hp) (fun _ => Nat.le_refl 1)
    (by rw [hvalues]; exact h.nodup) h.fits (by simpa [Lcrs.size] using h.fits)
  rw [hvalues] at hnum
  exact ⟨st, hst, hnum⟩

theorem findById_ofNat {st : TypeIds} {k : Nat} (hk : k < cfgTypeMaxNum) :
    st.findById (BitVec.ofNat 32 (cfgTypeBaseVal + k)) = st.cache[k]? := by
  have hsub :
      (BitVec.ofNat 32 (cfgTypeBaseVal + k) - BitVec.ofNat 32 cfgTypeBaseVal).toNat = k := by
    simp only [cfgTypeMaxNum, cfgTypeBaseVal] at *
    rw [BitVec.toNat_sub, BitVec.toNat_ofNat, BitVec.toNat_ofNat]
    omega
  unfold TypeIds.findById
  rw [hsub]

theorem length_types (root : Nat) (c : Lcrs Nat) : (root :: c.values).length = c.size + 1 := by
  rw [List.length_cons, ← Lcrs.map_fst_entries, List.length_map, Lcrs.length_entries]

/-- **`cfg_type_find_by_id` inverts the numbering**: an id that no type has gives NULL. -/
theorem findById_iff {root : Nat} {c : Lcrs Nat} {id : Nat → Nat} {st : TypeIds}
    (h : TypesOk mem root c) (hnum : Numbered (root :: c.values) { id := id, cache := [] } st)
    (k : BitVec 32) (a : Nat) :
    st.findById k = some a ↔ a ∈ root :: c.values ∧ st.id a = k.toNat := by
  have hcache : st.cache = root :: c.values := hnum.cache
  have hlen := length_types root c
  have hid : ∀ j b, (root :: c.values)[j]? = some b →
      st.id b = cfgTypeBaseVal + j := fun j b hj => by
    have := hnum.ids j b hj
    simpa using this
  have hfits := h.fits
  unfold TypeIds.findById
  rw [hcache]
  constructor
  · intro hk
    refine ⟨List.mem_of_getElem? hk, ?_⟩
    rw [hid _ a hk]
    obtain ⟨hlt, -⟩ := List.getElem?_eq_some_iff.mp hk
    have hk32 := k.isLt
    rw [BitVec.toNat_sub, BitVec.toNat_ofNat] at hlt ⊢
    simp only [cfgTypeMaxNum, cfgTypeBaseVal] at *
    omega
  · rintro ⟨hmem, hk⟩
    obtain ⟨j, hj⟩ := List.getElem?_of_mem hmem
    obtain ⟨hlt, -⟩ := List.getElem?_eq_some_iff.mp hj
    have hk' : k = BitVec.ofNat 32 (cfgTypeBaseVal + j) := by
      apply BitVec.eq_of_toNat_eq
      rw [← hk, hid j a hj, BitVec.toNat_ofNat]
      simp only [cfgTypeMaxNum, cfgTypeBaseVal] at *
      omega
    have hfind := @findById_ofNat st j (by omega)
    unfold TypeIds.findById at hfind
    rw [hk', ← hcache, hfind, hcache, hj]

/-! ## From a type up to the root -/

/-- Each type of the list is a subtype of the one before it, the first one of `par`. -/
def Descends (mem : TypeMem) : Option Nat → List Nat → Prop
  | _, [] => True
  | par, a :: l =>
    (mem a).parent = par ∧ (∀ p, par = some p → a ∈ (mem p).subtype.getD []) ∧
      Descends mem (some a) l

theorem Shaped.parent : ∀ {t : Lcrs Nat} {par : Option Nat}, Shaped mem par t →
    ∀ b ∈ t.sibs, (mem b).parent = par
  | .nil, _, _, _, hb => absurd hb List.not_mem_nil
  | .node a c s, par, ⟨hpar, _, _, hs⟩, b, hb => by
    rcases List.mem_cons.mp hb with rfl | hb
    · exact hpar
    · exact hs.parent b hb

theorem Shaped.entry : ∀ {t : Lcrs Nat} {par : Option Nat} {e : Nat × Lcrs Nat}, Shaped mem par t →
    e ∈ t.entries → (mem e.1).subtype.getD [] = e.2.sibs ∧ Shaped mem (some e.1) e.2
  | .nil, _, _, _, he => absurd he List.not_mem_nil
  | .node a c s, par, e, ⟨_, hsub, hc, hs⟩, he => by
    rcases List.mem_cons.mp he with rfl | he
    · exact ⟨hsub, hc⟩
    · rcases List.mem_append.mp he with he | he
      · exact hc.entry he
      · exact hs.entry he

/-- Every type of a tree is reached from above in no more steps than the tree has levels. -/
theorem exists_descends : ∀ {t : Lcrs Nat} {par : Option Nat} {a : Nat}, Shaped mem par t →
    (∀ p, par = some p → ∀ b ∈ t.sibs, b ∈ (mem p).subtype.getD []) → a ∈ t.values →
    ∃ l, Descends mem par (l ++ [a]) ∧ l.length + 1 ≤ typeLevels t ∧ (∀ b ∈ l, b ∈ t.values) ∧
      ∀ b ∈ (l ++ [a]).head?, b ∈ t.sibs
  | .nil, _, _, _, _, ha => absurd ha List.not_mem_nil
  | .node b c s, par, a, ⟨hpar, hsub, hc, hs⟩, hlist, ha => by
    have hlevels : typeLevels (.node b c s) = max (typeLevels c + 1) (typeLevels s) := rfl
    have hb : ∀ p, par = some p → b ∈ (mem p).subtype.getD [] := fun p hp =>
      hlist p hp b List.mem_cons_self
    rcases List.mem_cons.mp ha with rfl | ha
    · refine ⟨[], ⟨hpar, hb, trivial⟩, by rw [hlevels, List.length_nil]; omega, by simp, ?_⟩
      rintro _ ⟨rfl⟩
      exact List.mem_cons_self
    rcases List.mem_append.mp ha with ha | ha
    · -- below `b`
      obtain ⟨l, hl, hlen, hmem, -⟩ := exists_descends hc
        (fun p hp d hd => by cases hp; rwa [hsub]) ha
      refine ⟨b :: l, ⟨hpar, hb, hl⟩, ?_, ?_, ?_⟩
      · rw [hlevels, List.length_cons]
        have := Nat.le_max_left (typeLevels c + 1) (typeLevels s)
        omega
      · intro d hd
        rcases List.mem_cons.mp hd with rfl | hd
        · exact List.mem_cons_self
        · exact List.mem_cons_of_mem _ (List.mem_append_left _ (hmem d hd))
      · rintro _ ⟨rfl⟩
        exact List.mem_cons_self
    · -- behind `b`
      obtain ⟨l, hl, hlen, hmem, hhead⟩ := exists_descends hs
        (fun p hp d hd => hlist p hp d (List.mem_cons_of_mem b hd)) ha
      refine ⟨l, hl, ?_, fun d hd => List.mem_cons_of_mem _ (List.mem_append_right _ (hmem d hd)),
        fun d hd => List.mem_cons_of_mem b (hhead d hd)⟩
      rw [hlevels]
      exact Nat.le_trans hlen (Nat.le_max_right _ _)

theorem getLast?_cons_or {ν : Type} (b : ν) (l : List ν) (node : Option ν) :
    (b :: l).getLast?.or node = l.getLast?.or (some b) := by
  cases l with
  | nil => rfl
  | cons d l =>
    rw [List.getLast?_cons_cons]
    cases h : (d :: l).getLast? with
    | none => exact absurd (List.getLast?_eq_none_iff.mp h) (by simp)
    | some x => rfl

theorem descends_concat {a : Nat} : ∀ {l : List Nat} {par : Option Nat},
    Descends mem par (l ++ [a]) →
    Descends mem par l ∧ (mem a).parent = l.getLast?.or par
  | [], par, ⟨hpar, _, _⟩ => ⟨trivial, hpar⟩
  | b :: l, par, ⟨hpar, hb, hl⟩ => by
    obtain ⟨hl', ha⟩ := descends_concat hl
    exact ⟨⟨hpar, hb, hl'⟩, by rw [ha, getLast?_cons_or]⟩

/-- The first loop of `cfg_type_id_to_path` collects the names on the way up. -/
theorem namesUp_eq (n : Nat) : ∀ (l : List Nat), Descends mem none l → l.length ≤ n →
    mem.namesUp n l.getLast? =
      .ok ((l.map fun a => (mem a).name.take (cfgMaxTypeName - 1)).reverse) := by
  intro l
  induction l using List.reverseRecOn generalizing n with
  | nil =>
    intro _ _
    cases n <;> rfl
  | append_singleton l a ih =>
    intro hl hlen
    obtain ⟨hl', ha⟩ := descends_concat hl
    rw [List.length_append, List.length_singleton] at hlen
    obtain ⟨m, rfl⟩ : ∃ m, n = m + 1 := ⟨n - 1, by omega⟩
    rw [List.getLast?_concat]
    unfold TypeMem.namesUp
    rw [ha, Option.or_none, ih m hl' (by omega)]
    simp [Except.map]

/-! ## From the root down to a type -/

/-- The scan over brothers finds the first subtype with the name. -/
theorem scanBrothers_eq {p : Nat} (child : Str) : ∀ (l pre : List Nat) (fuel : Nat),
    (mem p).subtype.getD [] = pre ++ l → (∀ b ∈ l, (mem b).parent = some p) → (pre ++ l).Nodup →
    l.length ≤ fuel →
    mem.scanBrothers child fuel l.head? = l.find? fun b => cfgTypeCompare (mem b).name child
  | [], _, fuel, _, _, _, _ => by cases fuel <;> rfl
  | b :: l, _, 0, _, _, _, hfuel => absurd hfuel (by simp)
  | b :: l, pre, fuel + 1, hsub, hpar, hnodup, hfuel => by
    have hb : b ∉ pre := fun hmem =>
      (List.nodup_append.mp hnodup).2.2 b hmem b List.mem_cons_self rfl
    have happ : pre ++ b :: l = (pre ++ [b]) ++ l := by simp
    have ih := scanBrothers_eq child l (pre ++ [b]) fuel (by rw [hsub, happ])
      (fun d hd => hpar d (List.mem_cons_of_mem b hd)) (happ ▸ hnodup)
      (Nat.le_of_succ_le_succ hfuel)
    rw [List.head?_cons, List.find?_cons]
    unfold TypeMem.scanBrothers
    rw [getBrother_eq (hpar b List.mem_cons_self) hsub hb, ih]
    cases cfgTypeCompare (mem b).name child <;> rfl

theorem cfgTypeCompare_key (name own : Str) :
    cfgTypeCompare name (own.take (cfgMaxTypeName - 1)) = true ↔ nameKey name = nameKey own := by
  unfold cfgTypeCompare nameKey
  rw [List.take_take, Nat.min_self, beq_iff_eq]

variable {root : Nat} {c : Lcrs Nat}

theorem TypesOk.entry (h : TypesOk mem root c) {p : Nat} (hp : p ∈ root :: c.values) :
    ∃ cc : Lcrs Nat, (mem p).subtype.getD [] = cc.sibs ∧ Shaped mem (some p) cc ∧
      cc.values.Sublist (root :: c.values) ∧ cc.size < cfgTypeMaxNum := by
  have hvalues := Lcrs.values_single root c
  obtain ⟨cc, hcc⟩ := Lcrs.exists_entry_of_mem_values (hvalues ▸ hp)
  obtain ⟨hsub, hshape⟩ := h.shaped.entry hcc
  have hsize : cc.size < (Lcrs.node root c .nil).size := Lcrs.size_lt_of_mem_entries hcc
  have hfits := h.fits
  have hroot : (Lcrs.node root c .nil).size = c.size + 1 := rfl
  exact ⟨cc, hsub, hshape, hvalues ▸ Lcrs.values_sublist_of_mem hcc, by omega⟩

/-- A subtype is found below its parent by its own name, cut to 31 characters. -/
theorem TypesOk.queryChild (h : TypesOk mem root c) {p a : Nat} (hp : p ∈ root :: c.values)
    (ha : a ∈ (mem p).subtype.getD []) :
    mem.queryChild root (some p) ((mem a).name.take (cfgMaxTypeName - 1)) = some a := by
  obtain ⟨cc, hsub, hshape, hsubl, hsize⟩ := h.entry hp
  have hdist := h.distinct p hp
  have hnodup : cc.sibs.Nodup := h.nodup.sublist ((Lcrs.sibs_sublist_values cc).trans hsubl)
  have hlen : cc.sibs.length ≤ cfgTypeMaxNum := by
    have hle := (Lcrs.sibs_sublist_values cc).length_le
    rw [← Lcrs.map_fst_entries cc, List.length_map, Lcrs.length_entries] at hle
    omega
  show mem.scanBrothers _ cfgTypeMaxNum (mem.getChild p) = some a
  rw [getChild_eq hsub, scanBrothers_eq _ cc.sibs [] _ hsub hshape.parent hnodup hlen]
  rw [hsub] at hdist ha
  cases hfind : cc.sibs.find? fun b =>
      cfgTypeCompare (mem b).name ((mem a).name.take (cfgMaxTypeName - 1)) with
  | none =>
    have hno := List.find?_eq_none.mp hfind a ha
    exact absurd ((cfgTypeCompare_key _ _).mpr rfl) hno
  | some b =>
    have hcmp := List.find?_some hfind
    have hkey := (cfgTypeCompare_key _ _).mp hcmp
    have hb := List.mem_of_find?_eq_some hfind
    rw [List.inj_on_of_nodup_map hdist hb ha hkey]

/-- `cfg_type_query` follows names that are found one below the other. -/
theorem queryLoop_names {ν : Type} {queryChild : Option ν → Str → Option ν} {key : ν → Str} :
    ∀ (l : List ν) (node : Option ν) (needAlpha : Bool) (level fuel : Nat),
    (∀ b ∈ l, IsToken (key b) ∧ tokenDigit (key b) = 0) →
    (∀ pre b post, l = pre ++ b :: post → queryChild (pre.getLast?.or node) (key b) = some b) →
    level + l.length < cfgMaxNodeLevel → (joinDots (l.map key)).length < fuel →
    queryLoop queryChild fuel (joinDots (l.map key)) node needAlpha level = .ok (l.getLast?.or node)
  | _, _, _, _, 0, _, _, _, hfuel => absurd hfuel (Nat.not_lt_zero _)
  | [], node, needAlpha, level, fuel + 1, _, _, hlevel, _ => by
    have hne : level ≠ cfgMaxNodeLevel := by
      rw [List.length_nil] at hlevel
      omega
    show Except.ok (if ([] : Str) ≠ [] ∨ level = cfgMaxNodeLevel then none else node) = _
    rw [if_neg (by simp [hne])]
    rfl
  | b :: l, node, needAlpha, level, fuel + 1, htok, hfound, hlevel, hfuel => by
    obtain ⟨hb, hnum⟩ := htok b List.mem_cons_self
    rw [List.length_cons] at hlevel
    have hchild : queryChild node (key b) = some b := hfound [] b l rfl
    -- what follows the first name
    obtain ⟨ret, hget⟩ : ∃ ret, cfgGetToken (joinDots ((b :: l).map key)) =
        .ok (some { ret := ret, token := key b, rest := joinDots (l.map key) }) := by
      cases l with
      | nil => exact ⟨0, cfgGetToken_end hb⟩
      | cons d l => exact ⟨1, cfgGetToken_dot hb⟩
    have hrest := cfgGetToken_rest_lt hget
    have ih := queryLoop_names l (some b) false (level + 1) fuel
      (fun d hd => htok d (List.mem_cons_of_mem b hd))
      (fun pre d post hl => by
        have hd := hfound (b :: pre) d post (by rw [hl]; rfl)
        rwa [getLast?_cons_or] at hd)
      (by omega) (by simp only at hrest; omega)
    unfold queryLoop
    rw [hget]
    simp only
    rw [if_pos (by omega), if_neg (fun h => h.2 hnum), if_neg (not_not.mpr hnum), hchild]
    simp only
    rw [ih, ← getLast?_cons_or b l node]

/-- The text that the second loop of `cfg_type_id_to_path` writes, without its last separator. -/
theorem dropLast_flatMap_dots : ∀ {ts : List Str}, ts ≠ [] →
    (ts.flatMap (· ++ ['.'])).dropLast = joinDots ts ∧
      (ts.flatMap (· ++ ['.'])).length = (joinDots ts).length + 1
  | [], h => absurd rfl h
  | [t], _ => by simp [joinDots]
  | t :: u :: ts, _ => by
    obtain ⟨hdrop, hlen⟩ := @dropLast_flatMap_dots (u :: ts) (by simp)
    have hne : (u :: ts).flatMap (· ++ ['.']) ≠ [] := by
      intro h
      rw [h] at hlen
      exact absurd hlen (by simp)
    rw [List.flatMap_cons, List.dropLast_append_of_ne_nil hne, hdrop, joinDots]
    constructor
    · rw [List.append_assoc]
      rfl
    · rw [List.length_append, hlen]
      simp only [List.length_append, List.length_cons, List.length_nil]
      omega

/-- A chain of types from the root down. -/
theorem TypesOk.path (h : TypesOk mem root c) {a : Nat} (ha : a ∈ root :: c.values) :
    ∃ l, l.getLast? = some a ∧ Descends mem none l ∧ l.length < cfgMaxNodeLevel ∧
      (∀ b ∈ l, b ∈ root :: c.values) ∧ l.head? = some root := by
  have hvalues := Lcrs.values_single root c
  obtain ⟨l, hl, hlen, hmem, hhead⟩ := exists_descends h.shaped (fun p hp => by cases hp)
    (hvalues ▸ ha)
  have hlevels : typeLevels (.node root c .nil) = typeLevels c + 1 :=
    Nat.max_eq_left (Nat.zero_le _)
  have hmax := h.levels
  rw [hvalues] at hmem
  refine ⟨l ++ [a], List.getLast?_concat, hl, ?_, ?_, ?_⟩
  · rw [List.length_append, List.length_singleton]
    omega
  · intro b hb
    rcases List.mem_append.mp hb with hb | hb
    · exact hmem b hb
    · rwa [List.mem_singleton.mp hb]
  · cases hlist : (l ++ [a]).head? with
    | none => exact absurd (List.head?_eq_none_iff.mp hlist) (by simp)
    | some b =>
      have := hhead b hlist
      rw [show (Lcrs.node root c .nil).sibs = [root] from rfl, List.mem_singleton] at this
      rw [this]

theorem Descends.listed : ∀ {pre : List Nat} {par : Option Nat} {b : Nat} {post : List Nat},
    Descends mem par (pre ++ b :: post) → ∀ p, pre.getLast?.or par = some p →
    b ∈ (mem p).subtype.getD []
  | [], _, _, _, ⟨_, hb, _⟩, p, hp => hb p hp
  | d :: pre, par, b, post, ⟨_, _, hl⟩, p, hp => by
    rw [getLast?_cons_or] at hp
    exact hl.listed p hp

/-- The path of a type leads back to it, if the caller's buffer has room for it. -/
theorem TypesOk.roundTrip (h : TypesOk mem root c) {a : Nat} (ha : a ∈ root :: c.values)
    {st : TypeIds} {k : BitVec 32} (hk : st.findById k = some a) :
    ∃ path, (∀ buflen, path.length < buflen → mem.idToPath st k buflen = .ok (some path)) ∧
      mem.query root path = .ok (some a) := by
  obtain ⟨l, hlast, hdesc, hlen, hmem, hhead⟩ := h.path ha
  have hne : l ≠ [] := by
    rintro rfl
    cases hlast
  have hnames := namesUp_eq cfgMaxNodeLevel l hdesc (Nat.le_of_lt hlen)
  rw [hlast] at hnames
  generalize hkey : (fun a => (mem a).name.take (cfgMaxTypeName - 1)) = key at hnames
  have htok : ∀ b ∈ l, IsToken (key b) ∧ tokenDigit (key b) = 0 := by
    intro b hb
    rw [← hkey]
    exact ⟨(h.names b (hmem b hb)).token, (h.names b (hmem b hb)).notNumber⟩
  have hne' : l.map key ≠ [] := by simpa using hne
  obtain ⟨hdrop, hflat⟩ := dropLast_flatMap_dots hne'
  have hshort := @length_joinDots_lt (l.map key)
    (fun t ht => by
      obtain ⟨b, hb, rfl⟩ := List.mem_map.mp ht
      exact (htok b hb).1) hne'
  rw [List.length_map] at hshort
  have hsmall : (joinDots (l.map key)).length + 1 < cfgMaxPathName := by
    simp only [cfgMaxTypeName, cfgMaxPathName, cfgMaxNodeLevel] at *
    omega
  refine ⟨joinDots (l.map key), ?_, ?_⟩
  · intro buflen hbuf
    unfold TypeMem.idToPath
    rw [hk]
    simp only [hnames, List.reverse_reverse, hdrop, hflat]
    rw [if_neg (by omega), List.take_of_length_le (by omega)]
  · have hquery := @queryLoop_names _ (mem.queryChild root) _ l none true 0
      ((joinDots (l.map key)).length + 1) htok ?_ (by omega) (Nat.lt_succ_self _)
    · rw [hlast] at hquery
      exact hquery
    · intro pre b post hl
      rw [← hkey]
      cases hpre : pre.getLast? with
      | none =>
        -- the root type
        obtain rfl := List.getLast?_eq_none_iff.mp hpre
        rw [hl] at hhead
        obtain rfl : b = root := Option.some.inj hhead
        show (if cfgTypeCompare (mem b).name _ = true then some b else none) = some b
        rw [if_pos ((cfgTypeCompare_key _ _).mpr rfl)]
      | some p =>
        rw [hl] at hdesc hmem
        have hp : p ∈ root :: c.values :=
          hmem p (List.mem_append_left _ (List.mem_of_getLast? hpre))
        exact h.queryChild hp (hdesc.listed p (by rw [hpre]; rfl))

/-! ## The numbering -/

/-- **In a well-formed tree the types get the ids from `CFG_TYPE_BASE_VAL` on, one each,
`cfg_type_find_by_id` inverts this and gives NULL for all other ids, and the path of each id leads
back to its type.** -/
theorem typeIds_ok (h : TypesOk mem root c) (id : Nat → Nat) :
    ∃ st, mem.init root id = .ok st ∧
      (root :: c.values).map st.id = List.range' cfgTypeBaseVal (c.size + 1) ∧
      (∀ k a, st.findById k = some a ↔ a ∈ root :: c.values ∧ st.id a = k.toNat) ∧
      ∀ a ∈ root :: c.values, ∃ path,
        (∀ buflen, path.length < buflen →
          mem.idToPath st (BitVec.ofNat 32 (st.id a)) buflen = .ok (some path)) ∧
        mem.query root path = .ok (some a) := by
  obtain ⟨st, hst, hnum⟩ := init_spec h id
  have hlen := length_types root c
  have hmap : (root :: c.values).map st.id = List.range' cfgTypeBaseVal (c.size + 1) := by
    refine List.ext_getElem? fun k => ?_
    rw [List.getElem?_map]
    cases hk : (root :: c.values)[k]? with
    | none =>
      rw [List.getElem?_eq_none_iff] at hk
      rw [List.getElem?_eq_none (by rw [List.length_range']; omega)]
      rfl
    | some a =>
      obtain ⟨hlt, -⟩ := List.getElem?_eq_some_iff.mp hk
      rw [List.getElem?_range' (by omega), Option.map_some, hnum.ids k a hk]
      simp
  have hfind := findById_iff h hnum
  refine ⟨st, hst, hmap, hfind, fun a ha => h.roundTrip ha ((hfind _ a).mpr ⟨ha, ?_⟩)⟩
  have hrange : st.id a ∈ List.range' cfgTypeBaseVal (c.size + 1) := hmap ▸ List.mem_map_of_mem ha
  rw [List.mem_range'_1] at hrange
  have hfits := h.fits
  rw [BitVec.toNat_ofNat]
  simp only [cfgTypeBaseVal, cfgTypeMaxNum] at *
  omega

/-- A root type with one subtype. -/
def twoTypes : TypeMem := fun a =>
  if a = 0 then ⟨"root".toList, none, some [1]⟩ else ⟨"lan".toList, some 0, none⟩

theorem typesOk_twoTypes : TypesOk twoTypes 0 (.node 1 .nil .nil) where
  shaped := ⟨rfl, rfl, ⟨rfl, rfl, trivial, trivial⟩, trivial⟩
  nodup := by decide
  fits := by decide
  levels := by decide
  names := by
    intro a ha
    have hcases : a = 0 ∨ a = 1 := by simpa [Lcrs.values] using ha
    rcases hcases with rfl | rfl
    · exact ⟨⟨by decide, by decide, by decide⟩, by decide⟩
    · exact ⟨⟨by decide, by decide, by decide⟩, by decide⟩
  distinct := by decide

theorem typeIds_twoTypes : ∃ st, twoTypes.init 0 (fun _ => 0) = .ok st ∧
    [0, 1].map st.id = [100, 101] :=
  (typeIds_ok typesOk_twoTypes fun _ => 0).imp fun _ h => ⟨h.1, h.2.1⟩

/-! ## The tree of types -/

theorem map_name_allocId : ∀ (f : CfgNodeType) (cnt : Nat),
    (cfgTypeAllocId f cnt).1.map TypeInfo.name = f.map TypeInfo.name
  | .nil, _ => rfl
  | .node t c s, cnt => by
    simp only [cfgTypeAllocId, Lcrs.map, map_name_allocId c, map_name_allocId s]

/-- **The numbered tree of `Cfg/Type.lean` is what the structures in memory stand for**: with the
same names at the same places, both find a type of the same name for each id. -/
theorem findById_names (h : TypesOk mem root c) {id : Nat → Nat} {st : TypeIds}
    (hst : mem.init root id = .ok st) {tt : TypeTree}
    (hnames : (Lcrs.node tt.decl tt.subtype .nil).map TypeInfo.name =
      (Lcrs.node root c .nil).map fun a => (mem a).name) {k : Nat} (hk : k < 2 ^ 32) :
    (cfgTypeFindById tt k).map (fun t => t.1.name) =
      (st.findById (BitVec.ofNat 32 k)).map fun a => (mem a).name := by
  obtain ⟨st', hst', hnum⟩ := init_spec h id
  obtain rfl := Except.ok.inj (hst.symm.trans hst')
  have hcache : st.cache = root :: c.values := hnum.cache
  have hlen := length_types root c
  have hfits := h.fits
  -- both tables list the same names
  have htable : tt.types.entries.map (fun t => t.1.name) =
      (root :: c.values).map fun a => (mem a).name := by
    have hvalues := congrArg Lcrs.values hnames
    rw [← map_name_allocId _ 0, Lcrs.values_map, Lcrs.values_map] at hvalues
    change tt.types.values.map TypeInfo.name = (root :: (c.values ++ [])).map _ at hvalues
    rw [List.append_nil, ← Lcrs.map_fst_entries, List.map_map] at hvalues
    exact hvalues
  unfold cfgTypeFindById
  by_cases hlow : k < cfgTypeBaseVal
  · -- below the base the index wraps around
    have hnone : st.findById (BitVec.ofNat 32 k) = none := by
      unfold TypeIds.findById
      rw [hcache, List.getElem?_eq_none]
      rw [hlen, BitVec.toNat_sub, BitVec.toNat_ofNat, BitVec.toNat_ofNat]
      simp only [cfgTypeBaseVal, cfgTypeMaxNum] at *
      omega
    rw [if_pos hlow, hnone]
    rfl
  · have hindex : st.findById (BitVec.ofNat 32 k) = (root :: c.values)[k - cfgTypeBaseVal]? := by
      unfold TypeIds.findById
      rw [hcache]
      congr 1
      rw [BitVec.toNat_sub, BitVec.toNat_ofNat, BitVec.toNat_ofNat]
      simp only [cfgTypeBaseVal] at *
      omega
    rw [if_neg hlow, hindex, ← List.getElem?_map, ← List.getElem?_map, htable]

end OnuFirmware.Cfg
