import OnuFirmware.Cfg.Named
import OnuFirmware.Cfg.Run
import OnuFirmware.Lib.Guard

/-!
# Queries into fixed arrays (`cfg_obj_query_object` and its callers)

A query writes the instance numbers of all children of one type to an array whose length it does not
know. `get_all_wan_index` and `svc_wan_start_all_wan_entry` hand over arrays for eight numbers, and
the command `cfg query` one for sixteen.

The declared flags of a type end in the greatest number of its instances, but creating an object
does not look at them. `runRoom` is the condition on a run that nothing is created below an object
that has as many children of the type as the callers have room for.
-/

namespace OnuFirmware.Cfg

open Lib Clib

/-! ## The callers -/

/-- `PVC_NUM`, and `SVC_WAN_MAX_PVC_NUM` without `TCSUPPORT_CMCC`. -/
def pvcNum : Nat := 8

/-- `MAX_WAN_ENTRY_NUMBER` and `SVC_WAN_MAX_ENTRY_NUM`. -/
def maxWanEntryNumber : Nat := 8

/-- `WAN_NODE`. -/
def wanNode : Str := "root.wan".toList

/-- `WAN_COMMON_NODE`. -/
def wanCommonNode : Str := "root.wan.common".toList

/-- `WAN_PVC_NODE`, printed into 32 bytes. -/
def wanPvcNode (n : Nat) : Str := snprintf 32 ("root.wan.pvc.".toList ++ fmtNat n)

/-- `WAN_PVC_ENTRY_NODE`, printed into 32 bytes. -/
def wanPvcEntryNode (n m : Nat) : Str :=
  snprintf 32 ("root.wan.pvc.".toList ++ fmtNat n ++ ".entry.".toList ++ fmtNat m)

/-- A query that writes to an array of `slots` numbers. -/
def queryInto (tt : TypeTree) (st : ObjState) (objpath : Str) (subtype : Option Str)
    (slots : Nat) : Except Fault (Int × List Nat) := do
  let r ← cfgObjQueryObject tt st objpath subtype
  if slots < r.2.length then .error .overrun else .ok r

/-- `do_query`: the return value of the query and the numbers that are printed. -/
def doQuery (tt : TypeTree) (st : ObjState) (objpath : Str) (subtype : Option Str) :
    Except Fault (Int × List Nat) :=
  queryInto tt st objpath subtype 16

/-- The inner loop of `get_all_wan_index`, with the indices stored so far. -/
def addEntryIndices (curpvc len : Nat) (buf entry : List Nat) : List Nat :=
  entry.foldl (fun buf e =>
    let curentry := e &&& 0xff
    if 0 < curentry ∧ buf.length < len then
      buf ++ [(curpvc - 1) * maxWanEntryNumber + curentry - 1]
    else buf) buf

/-- The outer loop of `get_all_wan_index`. -/
def addPvcIndices (tt : TypeTree) (st : ObjState) (len : Nat) :
    List Nat → List Nat → Except Fault (List Nat)
  | [], buf => .ok buf
  | p :: pvc, buf =>
    let curpvc := p &&& 0xff
    if curpvc = 0 then addPvcIndices tt st len pvc buf
    else do
      let entry ← queryInto tt st (wanPvcNode curpvc) (some "entry".toList) maxWanEntryNumber
      addPvcIndices tt st len pvc (addEntryIndices curpvc len buf entry.2)

/-- `get_all_wan_index`: the indices written to `buf`, which has room for `len`. -/
def getAllWanIndex (tt : TypeTree) (st : ObjState) (len : Nat) : Except Fault (List Nat) := do
  let pvc ← queryInto tt st wanNode (some "pvc".toList) pvcNum
  addPvcIndices tt st len pvc.2 []

/-- The inner loop of `svc_wan_start_all_wan_entry`: the text in `tmp`, and the entries that are
started. -/
def startEntries (tt : TypeTree) (st : ObjState) (internetnotfirst : Int) (isInternet : Bool)
    (pvc : Nat) : List Nat → Str × List Str → Except Fault (Str × List Str)
  | [], s => .ok s
  | entry :: rest, (tmp, started) =>
    let node := wanPvcEntryNode pvc entry
    if internetnotfirst ≠ 0 then
      startEntries tt st internetnotfirst isInternet pvc rest (tmp, started ++ [node])
    else
      -- the buffer is not cleared in between, so a failed read leaves the text of the last entry
      match cfgObjGetObjectAttr tt st node "ServiceList".toList 64 with
      | .error e => .error e
      | .ok r =>
        let tmp := if r.1 < 0 then tmp else r.2
        startEntries tt st internetnotfirst isInternet pvc rest
          (tmp, if hasStr tmp "INTERNET".toList = isInternet then started ++ [node] else started)

/-- The outer loop of `svc_wan_start_all_wan_entry`. -/
def startPvcs (tt : TypeTree) (st : ObjState) (internetnotfirst : Int) (isInternet : Bool) :
    List Nat → Str × List Str → Except Fault (Str × List Str)
  | [], s => .ok s
  | p :: pvc, s => do
    let entry ← queryInto tt st (wanPvcNode p) (some "entry".toList) maxWanEntryNumber
    let s ← startEntries tt st internetnotfirst isInternet p entry.2 s
    startPvcs tt st internetnotfirst isInternet pvc s

/-- `svc_wan_start_all_wan_entry`: the entries for which `EVT_CFG_WAN_ENTRY_UPDATE` is handled. -/
def svcWanStartAllWanEntry (tt : TypeTree) (st : ObjState) (isInternet : Bool) :
    Except Fault (List Str) := do
  let r ← cfgObjGetObjectAttr tt st wanCommonNode "InternetNotFirst".toList 12
  let internetnotfirst := if 0 < r.1 then atoi r.2 else 0
  if internetnotfirst ≠ 0 ∧ ¬ isInternet then .ok []
  else do
    let pvc ← queryInto tt st wanNode (some "pvc".toList) pvcNum
    let s ← startPvcs tt st internetnotfirst isInternet pvc.2 ([], [])
    .ok s.2

/-! ## Room for one more child -/

/-- The id of the type that a query asks for. -/
def queryTid (tt : TypeTree) (objpath sub : Str) : Option Nat :=
  match cfgTypeQuery tt objpath with
  | .ok (some type) => (cfgTypeQueryChild tt (some type) sub).map (·.1.id)
  | _ => none

/-- For how many children of a type below one object all callers have room. A number that is not `0`
makes no difference to the type of a path. -/
def callerSlots (tt : TypeTree) (tid : Nat) : Nat :=
  if queryTid tt wanNode "pvc".toList = some tid ∨
      queryTid tt (wanPvcNode 0) "entry".toList = some tid ∨
      queryTid tt (wanPvcNode 1) "entry".toList = some tid then 8
  else 16

/-- The number of the children of a type. -/
def typeCount (tid : Nat) (children : List ObjInfo) : Nat :=
  children.countP fun c => cfgOidToTid c.id == tid

/-- Where `cfg_obj_create_sub_obj` adds a child, there is room for it. -/
def subObjRoom (tt : TypeTree) (st : ObjState) (obj : CfgObjPtr) (oid : Nat) : Bool :=
  let tid := cfgOidToTid (if cfgOidToId oid ≠ 0 then oid else cfgObjAutoOid obj oid)
  (cfgObjGetChild obj oid).isSome || (cfgTypeFindById tt (cfgOidToTid oid)).isNone ||
    !st.pool st.next || decide (typeCount tid obj.2.sibs < callerSlots tt tid)

/-- The same for the second half of `cfg_obj_create_object`. -/
def addRoom (tt : TypeTree) (st : ObjState) (objpath parent : Str) : Bool :=
  match cfgPathToOid tt objpath, cfgObjGetObj tt st parent with
  | .ok oid, .ok (some obj) => oid == 0 || subObjRoom tt st obj oid
  | _, _ => true

/-- The same for `cfg_obj_create_object`, along its recursion. -/
def createRoomRec (tt : TypeTree) : Nat → ObjState → Str → Bool
  | 0, _, _ => true
  | fuel + 1, st, objpath =>
    match cfgGetParentPath objpath with
    | .ok (some parent) =>
      match cfgObjQueryObject tt st parent none with
      | .ok exist =>
        if exist.1 ≤ 0 then
          match cfgTypeQuery tt parent with
          | .ok (some type) =>
            !cfgTypeIsDynamicType tt type.1.id ||
              (createRoomRec tt fuel st parent &&
                match cfgObjCreateObjectRec tt fuel st parent with
                | .ok made => decide (made.1 ≤ 0) || addRoom tt made.2 objpath parent
                | .error _ => true)
          | _ => true
        else addRoom tt st objpath parent
      | .error _ => true
    | _ => true

/-- The same for a path that `cfg_load_from_xml` makes sure of. -/
def enterRoom (tt : TypeTree) (st : ObjState) (path : Str) : Bool :=
  match cfgObjQueryObject tt st path none, cfgTypeQuery tt path with
  | .ok exist, .ok (some type) =>
    decide (0 < exist.1) || !cfgTypeIsDynamicType tt type.1.id ||
      createRoomRec tt (path.length + 1) st path
  | _, _ => true

/-- The same for `cfg_load_from_xml`, along its recursion. -/
def loadRoom (tt : TypeTree) : MxmlNode → List Str → ObjState → Bool
  | .nil, _, _ => true
  | .node e child next, anc, st =>
    match cfgXmlNodeToPath tt (e.name :: anc) with
    | .error _ => true
    | .ok path =>
      enterRoom tt st path &&
        match cfgLoadEnter tt st path with
        | .error _ => true
        | .ok (false, st) => loadRoom tt next anc st
        | .ok (true, st) =>
          match cfgLoadAttrs tt path st e.attrs with
          | .error _ => true
          | .ok st =>
            loadRoom tt child (e.name :: anc) st &&
              match cfgLoadFromXml tt child (e.name :: anc) st with
              | .error _ => true
              | .ok st => loadRoom tt next anc st

/-- The same for a call. -/
def Op.room (tt : TypeTree) (st : ObjState) : Op → Bool
  | .create path => createRoomRec tt (path.length + 1) st path
  | .load xml => loadRoom tt xml [] st
  | _ => true

/-- Every call of a run creates objects only where there is room, in the state it is made in. -/
def runRoom (tt : TypeTree) : ObjState → List Op → Bool
  | _, [] => true
  | st, op :: ops =>
    op.room tt st &&
      match op.step tt st with
      | .error _ => true
      | .ok st' => runRoom tt st' ops

/-! ## The invariant -/

/-- No object has more children of a type than the callers have room for. -/
def Bounded (tt : TypeTree) (_ : ObjInfo) (children : List ObjInfo) : Prop :=
  ∀ tid, typeCount tid children ≤ callerSlots tt tid

/-- What a run with room keeps: bounded children, and addresses that no two objects share and no
later allocation returns again. -/
structure RoomInv (tt : TypeTree) (st : ObjState) : Prop where
  bounded : st.tree.Everywhere (Bounded tt)
  addrs : (st.tree.values.map ObjInfo.addr).Nodup
  fresh : ∀ o ∈ st.tree.values, o.addr < st.next

theorem one_le_callerSlots (tt : TypeTree) (tid : Nat) : 1 ≤ callerSlots tt tid := by
  rw [callerSlots]
  split <;> decide

theorem callerSlots_le (tt : TypeTree) (tid : Nat) : callerSlots tt tid ≤ 16 := by
  rw [callerSlots]
  split <;> decide

theorem bounded_sublist {tt : TypeTree} (o : ObjInfo) (l l' : List ObjInfo) (hsub : l'.Sublist l)
    (h : Bounded tt o l) : Bounded tt o l' := fun tid =>
  (List.Sublist.countP_le hsub).trans (h tid)

/-- Children of different types are few enough. -/
theorem bounded_of_nodup {tt : TypeTree} {o : ObjInfo} {l : List ObjInfo}
    (h : (l.map fun c => cfgOidToTid c.id).Nodup) : Bounded tt o l := by
  intro tid
  have hone := List.nodup_iff_count_le_one.mp h tid
  rw [List.count, List.countP_map] at hone
  exact le_trans hone (one_le_callerSlots tt tid)

theorem RoomInv.next {tt : TypeTree} {st : ObjState} (h : RoomInv tt st) :
    RoomInv tt { st with next := st.next + 1 } :=
  ⟨h.bounded, h.addrs, fun o ho => Nat.lt_succ_of_lt (h.fresh o ho)⟩

theorem RoomInv.setPriv {tt : TypeTree} {st : ObjState} (h : RoomInv tt st) (a : Nat)
    (f : List (Str × Str) → List (Str × Str)) : RoomInv tt (st.setPriv a f) := by
  have haddr := addrs_setPriv st a f
  refine ⟨h.bounded.mapVal fun o l hl tid => ?_, by rw [haddr]; exact h.addrs, fun o ho => ?_⟩
  · have hcount : typeCount tid (l.map fun b =>
        if b.addr == a then { b with priv := f b.priv } else b) = typeCount tid l := by
      rw [typeCount, List.countP_map]
      refine List.countP_congr fun b _ => ?_
      simp only [Function.comp_apply]
      split <;> rfl
    rw [hcount]
    exact hl tid
  · have hmem : o.addr ∈ st.tree.values.map ObjInfo.addr := by
      rw [← haddr]
      exact List.mem_map_of_mem ho
    obtain ⟨b, hb, hba⟩ := List.mem_map.mp hmem
    rw [← hba]
    exact h.fresh b hb

/-- Objects made for the subtypes of one type have different types. -/
theorem nodup_tids_created {tt : TypeTree} {t : CfgTypePtr} (ht : t ∈ tt.types.entries)
    (pool : Nat → Bool) (parent : Option Nat) (next : Nat) :
    ((cfgObjCreateFromType pool parent t.2 next).1.sibs.map fun c => cfgOidToTid c.id).Nodup := by
  have hids := (sibs_cfgObjCreateFromType pool t.2 parent next).1.map cfgOidToTid
  have htids : (t.2.sibs.map fun s => mkOid s.id 1).map cfgOidToTid = t.2.sibs.map TypeInfo.id := by
    rw [List.map_map]
    refine List.map_congr_left fun s hs => ?_
    obtain ⟨c, hc⟩ := Lcrs.mem_sibs_iff_entry hs
    have hlt := (typeId_lt (mem_types_of_subtype ht hc)).2
    exact (split_mkOid s.id 1 (by simp only at hlt; omega) (by decide)).1
  rw [htids, List.map_map] at hids
  exact (nodup_sibs_subtype ht).sublist hids

theorem bounded_created {tt : TypeTree} {pool : Nat → Bool} : ∀ (f : CfgNodeType)
    (parent : Option Nat) (next : Nat), (∀ e ∈ f.entries, e ∈ tt.types.entries) →
    (cfgObjCreateFromType pool parent f next).1.Everywhere (Bounded tt)
  | .nil, _, _, _ => trivial
  | .node t sub bro, parent, next, hf => by
    rw [cfgObjCreateFromType]
    split
    swap
    · trivial
    refine ⟨bounded_of_nodup ?_, ?_, ?_⟩
    · exact nodup_tids_created (t := (t, sub)) (hf _ List.mem_cons_self) pool _ _
    · exact bounded_created sub _ _ fun e he =>
        hf e (List.mem_cons_of_mem _ (List.mem_append_left _ he))
    · exact bounded_created bro _ _ fun e he =>
        hf e (List.mem_cons_of_mem _ (List.mem_append_right _ he))

theorem roomInv_load (tt : TypeTree) (pool : Nat → Bool) :
    RoomInv tt (cfgObjLoadFromType tt pool) :=
  ⟨(bounded_created _ _ _ fun _ he => he).prune bounded_sublist,
    (stateInv_cfgObjLoadFromType tt pool).addrs, (stateInv_cfgObjLoadFromType tt pool).fresh⟩

/-! ## Creating -/

theorem typeCount_append (tid : Nat) (l m : List ObjInfo) :
    typeCount tid (l ++ m) = typeCount tid l + typeCount tid m := List.countP_append

/-- **A child is added only where there is room.** -/
theorem roomInv_createSubObj {tt : TypeTree} {st : ObjState} (h : RoomInv tt st) {obj : CfgObjPtr}
    (hobj : obj ∈ st.tree.entries) {oid : Nat} (hroom : subObjRoom tt st obj oid = true) :
    RoomInv tt (cfgObjCreateSubObj tt st obj oid).2 := by
  rw [cfgObjCreateSubObj]
  split
  · exact h
  next hnone =>
  split
  · exact h
  next t ht =>
  split
  swap
  · exact h.next
  next hpool =>
  obtain ⟨htm, -⟩ := cfgTypeFindById_some ht
  simp only [subObjRoom, hnone, ht, hpool, Option.isNone_some, Bool.not_true, Bool.or_false,
    Bool.false_or, decide_eq_true_eq] at hroom
  generalize (if cfgOidToId oid ≠ 0 then oid else cfgObjAutoOid obj oid) = id at hroom
  obtain ⟨haddr, hnodup⟩ := @addrs_newObject tt st.pool
    { addr := st.next, id := id, parent := some obj.1.addr, priv := [] } st.next rfl t.2
  have hle := le_cfgObjCreateFromType st.pool t.2 (some st.next) (st.next + 1)
  obtain ⟨haddrs, hfresh⟩ := addrs_link h.addrs h.fresh hobj (by omega) haddr hnodup
  refine ⟨h.bounded.mapChild fun e he hea => ?_, haddrs, hfresh⟩
  obtain rfl : e = obj := Lcrs.entry_unique h.addrs he hobj (by simpa using hea)
  refine ⟨fun tid => ?_, (h.bounded.below he).append ⟨?_, ?_, trivial⟩⟩
  · rw [Lcrs.sibs_append, typeCount_append]
    by_cases htid : cfgOidToTid id = tid
    · subst htid
      have hone : typeCount (cfgOidToTid id)
          [{ addr := st.next, id := id, parent := some e.1.addr, priv := [] }] = 1 := by
        simp [typeCount]
      show typeCount (cfgOidToTid id) e.2.sibs + typeCount (cfgOidToTid id) [_] ≤ _
      omega
    · simpa [typeCount, Lcrs.sibs, htid] using h.bounded.entry he tid
  · refine bounded_sublist _ _ _ (Lcrs.sibs_prune_sublist _ _) (bounded_of_nodup ?_)
    exact nodup_tids_created htm _ _ _
  · exact (bounded_created _ _ _ fun e he => mem_types_of_subtype htm he).prune bounded_sublist

theorem roomInv_addObject {tt : TypeTree} {st : ObjState} (h : RoomInv tt st) {path parent : Str}
    {r : Int × ObjState} (hr : cfgObjAddObject tt st path parent = .ok r)
    (hroom : addRoom tt st path parent = true) : RoomInv tt r.2 := by
  rw [cfgObjAddObject] at hr
  rw [addRoom] at hroom
  split at hr
  · simp at hr
  next oid hoid =>
  rw [hoid] at hroom
  split at hr
  · obtain rfl := Except.ok.inj hr
    exact h
  next h0 =>
  split at hr
  · simp at hr
  · obtain rfl := Except.ok.inj hr
    exact h
  · next obj hobj =>
    obtain rfl := Except.ok.inj hr
    rw [hobj] at hroom
    exact roomInv_createSubObj h (cfgObjGetObj_mem hobj) (by simpa [h0] using hroom)

theorem roomInv_createRec {tt : TypeTree} : ∀ (fuel : Nat) {st : ObjState} {path : Str}
    {r : Int × ObjState}, RoomInv tt st → cfgObjCreateObjectRec tt fuel st path = .ok r →
    createRoomRec tt fuel st path = true → RoomInv tt r.2
  | 0, _, _, _, h, hr, _ => by
    obtain rfl := Except.ok.inj hr
    exact h
  | fuel + 1, st, path, r, h, hr, hroom => by
    rw [cfgObjCreateObjectRec] at hr
    rw [createRoomRec] at hroom
    split at hr
    · simp at hr
    · obtain rfl := Except.ok.inj hr
      exact h
    next parent hpar =>
    simp only [hpar] at hroom
    split at hr
    · simp at hr
    next exist hexist =>
    simp only [hexist] at hroom
    by_cases hle : exist.1 ≤ 0
    swap
    · rw [if_neg hle] at hr hroom
      exact roomInv_addObject h hr hroom
    rw [if_pos hle] at hr hroom
    split at hr
    · simp at hr
    · obtain rfl := Except.ok.inj hr
      exact h
    next type htype =>
    simp only [htype] at hroom
    by_cases hdyn : cfgTypeIsDynamicType tt type.1.id = true
    swap
    · rw [if_neg hdyn] at hr
      obtain rfl := Except.ok.inj hr
      exact h
    rw [if_pos hdyn] at hr
    rw [hdyn, Bool.not_true, Bool.false_or, Bool.and_eq_true] at hroom
    obtain ⟨hrec, hroom⟩ := hroom
    split at hr
    · simp at hr
    next made hmade =>
    have hmid := roomInv_createRec fuel h hmade hrec
    simp only [hmade, Bool.or_eq_true, decide_eq_true_eq] at hroom
    by_cases hret : made.1 ≤ 0
    · rw [if_pos hret] at hr
      obtain rfl := Except.ok.inj hr
      exact hmid
    · rw [if_neg hret] at hr
      exact roomInv_addObject hmid hr (hroom.resolve_left hret)

/-! ## Deleting, setting and loading -/

theorem roomInv_deleteObject {tt : TypeTree} {st : ObjState} (h : RoomInv tt st) {path : Str}
    {r : Int × ObjState} (hr : cfgObjDeleteObject tt st path = .ok r) : RoomInv tt r.2 := by
  obtain ⟨o, -, hr⟩ := bind_eq_ok.mp hr
  cases o with
  | none =>
    obtain rfl := Except.ok.inj hr
    exact h
  | some obj =>
    simp only [cfgObjDelObject] at hr
    split at hr
    · simp at hr
    split at hr
    swap
    · simp at hr
    obtain rfl := Except.ok.inj hr
    refine ⟨h.bounded.mapChild fun x hx _ => ⟨?_, (h.bounded.below hx).eraseSib⟩, ?_, ?_⟩
    · exact bounded_sublist _ _ _ (Lcrs.sibs_eraseSib_sublist _ _) (h.bounded.entry hx)
    · exact h.addrs.sublist
        ((Lcrs.values_mapChild_sublist (Lcrs.values_eraseSib_sublist _) _).map _)
    · intro x hx
      exact h.fresh x
        ((Lcrs.values_mapChild_sublist (Lcrs.values_eraseSib_sublist _) _).subset hx)

theorem roomInv_setObjectAttr {tt : TypeTree} {st : ObjState} (h : RoomInv tt st)
    {path attr val : Str} {r : Int × ObjState}
    (hr : cfgObjSetObjectAttr tt st path attr val = .ok r) : RoomInv tt r.2 := by
  simp only [cfgObjSetObjectAttr] at hr
  split at hr
  · obtain rfl := Except.ok.inj hr
    exact h
  obtain ⟨o, -, hr⟩ := bind_eq_ok.mp hr
  cases o with
  | none =>
    obtain rfl := Except.ok.inj hr
    exact h
  | some obj =>
    obtain rfl := Except.ok.inj hr
    dsimp only
    exact h.setPriv _ _

theorem roomInv_copyPrivate {tt : TypeTree} {st : ObjState} (h : RoomInv tt st) {dst src : Str}
    {r : Int × ObjState} (hr : cfgObjCopyPrivate tt st dst src = .ok r) : RoomInv tt r.2 := by
  obtain ⟨d, -, hr⟩ := bind_eq_ok.mp hr
  cases d with
  | none =>
    obtain rfl := Except.ok.inj hr
    exact h
  | some d =>
    obtain ⟨s, -, hr⟩ := bind_eq_ok.mp hr
    cases s with
    | none =>
      obtain rfl := Except.ok.inj hr
      exact h
    | some s =>
      simp only at hr
      split at hr
      · obtain rfl := Except.ok.inj hr
        dsimp only
        exact h.next.setPriv _ _
      · obtain rfl := Except.ok.inj hr
        exact h.next

theorem roomInv_loadEnter {tt : TypeTree} {st : ObjState} (h : RoomInv tt st) {path : Str}
    {r : Bool × ObjState} (hr : cfgLoadEnter tt st path = .ok r)
    (hroom : enterRoom tt st path = true) : RoomInv tt r.2 := by
  obtain ⟨exist, hexist, hr⟩ := bind_eq_ok.mp hr
  by_cases hle : exist.1 ≤ 0
  swap
  · rw [if_neg hle] at hr
    obtain rfl := Except.ok.inj hr
    exact h
  rw [if_pos hle] at hr
  obtain ⟨t, ht, hr⟩ := bind_eq_ok.mp hr
  cases t with
  | none =>
    obtain rfl := Except.ok.inj hr
    exact h
  | some type =>
    by_cases hdyn : cfgTypeIsDynamicType tt type.1.id = true
    swap
    · simp only [if_neg hdyn] at hr
      obtain rfl := Except.ok.inj hr
      exact h
    simp only [if_pos hdyn] at hr
    obtain ⟨made, hmade, hr⟩ := bind_eq_ok.mp hr
    obtain rfl := Except.ok.inj hr
    simp only [enterRoom, hexist, ht, hdyn, Bool.not_true, Bool.or_false, Bool.or_eq_true,
      decide_eq_true_eq] at hroom
    exact roomInv_createRec _ h hmade (hroom.resolve_left (by omega))

theorem roomInv_loadAttrs {tt : TypeTree} {path : Str} : ∀ (attrs : List (Str × Str))
    {st st' : ObjState}, RoomInv tt st → cfgLoadAttrs tt path st attrs = .ok st' → RoomInv tt st'
  | [], _, _, h, hr => by
    obtain rfl := Except.ok.inj hr
    exact h
  | a :: attrs, st, st', h, hr => by
    obtain ⟨r, hset, hr⟩ := bind_eq_ok.mp hr
    exact roomInv_loadAttrs attrs (roomInv_setObjectAttr h hset) hr

theorem roomInv_loadFromXml {tt : TypeTree} : ∀ (xml : MxmlNode) {anc : List Str}
    {st st' : ObjState}, RoomInv tt st → cfgLoadFromXml tt xml anc st = .ok st' →
    loadRoom tt xml anc st = true → RoomInv tt st'
  | .nil, _, _, _, h, hr, _ => by
    obtain rfl := Except.ok.inj hr
    exact h
  | .node e child next, anc, st, st', h, hr, hroom => by
    obtain ⟨path, hpath, hr⟩ := bind_eq_ok.mp hr
    obtain ⟨⟨ok, st1⟩, henter, hr⟩ := bind_eq_ok.mp hr
    rw [loadRoom] at hroom
    simp only [hpath, henter, Bool.and_eq_true] at hroom
    obtain ⟨hin, hroom⟩ := hroom
    have h1 := roomInv_loadEnter h henter hin
    cases ok with
    | false => exact roomInv_loadFromXml next h1 hr hroom
    | true =>
      obtain ⟨st2, hattrs, hr⟩ := bind_eq_ok.mp hr
      obtain ⟨st3, hchild, hr⟩ := bind_eq_ok.mp hr
      simp only [hattrs, hchild, Bool.and_eq_true] at hroom
      have h2 := roomInv_loadAttrs e.attrs h1 hattrs
      exact roomInv_loadFromXml next (roomInv_loadFromXml child h2 hchild hroom.1) hr hroom.2

/-! ## Runs -/

theorem roomInv_step {tt : TypeTree} {st st' : ObjState} (h : RoomInv tt st) (op : Op)
    (hstep : op.step tt st = .ok st') (hroom : op.room tt st = true) : RoomInv tt st' := by
  cases op with
  | create path =>
    obtain ⟨r, hr, rfl⟩ := map_eq_ok.mp hstep
    exact roomInv_createRec _ h hr hroom
  | delete path =>
    obtain ⟨r, hr, rfl⟩ := map_eq_ok.mp hstep
    exact roomInv_deleteObject h hr
  | setAttr path attr val =>
    obtain ⟨r, hr, rfl⟩ := map_eq_ok.mp hstep
    exact roomInv_setObjectAttr h hr
  | copyPrivate dst src =>
    obtain ⟨r, hr, rfl⟩ := map_eq_ok.mp hstep
    exact roomInv_copyPrivate h hr
  | load xml => exact roomInv_loadFromXml xml h hstep hroom

theorem roomInv_run {tt : TypeTree} : ∀ (ops : List Op) {st st' : ObjState}, RoomInv tt st →
    run tt st ops = .ok st' → runRoom tt st ops = true → RoomInv tt st'
  | [], _, _, h, hr, _ => by
    obtain rfl := Except.ok.inj hr
    exact h
  | op :: ops, st, st', h, hr, hroom => by
    rw [run] at hr
    obtain ⟨hop, hroom⟩ := Bool.and_eq_true_iff.mp hroom
    split at hr
    · simp at hr
    next st1 hst1 =>
    rw [hst1] at hroom
    exact roomInv_run ops (roomInv_step h op hst1 hop) hr hroom

/-! ## What a query writes -/

/-- **A query writes exactly as many numbers as it returns**, none if it fails. -/
theorem cfgObjQueryObject_count {tt : TypeTree} {st : ObjState} {path : Str} {sub : Option Str}
    {r : Int × List Nat} (h : cfgObjQueryObject tt st path sub = .ok r) :
    r = (-1, []) ∨ r.1 = r.2.length := by
  cases sub with
  | none =>
    obtain ⟨o, -, h⟩ := bind_eq_ok.mp h
    cases o <;> obtain rfl := Except.ok.inj h
    · exact .inl rfl
    · exact .inr rfl
  | some sub =>
    obtain ⟨t, -, h⟩ := bind_eq_ok.mp h
    cases t with
    | none =>
      obtain rfl := Except.ok.inj h
      exact .inl rfl
    | some t =>
      simp only at h
      split at h
      · obtain rfl := Except.ok.inj h
        exact .inl rfl
      · obtain ⟨o, -, h⟩ := bind_eq_ok.mp h
        cases o <;> obtain rfl := Except.ok.inj h
        · exact .inl rfl
        · exact .inr rfl

/-- The numbers are those of the children of the type that is asked for. -/
theorem query_length_le {tt : TypeTree} {st : ObjState} (h : RoomInv tt st) {path sub : Str}
    {r : Int × List Nat} (hr : cfgObjQueryObject tt st path (some sub) = .ok r) :
    r.2 = [] ∨ ∃ tid, queryTid tt path sub = some tid ∧ r.2.length ≤ callerSlots tt tid := by
  obtain ⟨t, ht, hr⟩ := bind_eq_ok.mp hr
  cases t with
  | none =>
    obtain rfl := Except.ok.inj hr
    exact .inl rfl
  | some t =>
    simp only at hr
    split at hr
    · obtain rfl := Except.ok.inj hr
      exact .inl rfl
    next c hc =>
    obtain ⟨o, ho, hr⟩ := bind_eq_ok.mp hr
    cases o with
    | none =>
      obtain rfl := Except.ok.inj hr
      exact .inl rfl
    | some obj =>
      obtain rfl := Except.ok.inj hr
      have hcount := h.bounded.entry (cfgObjGetObj_mem ho) c.1.id
      rw [typeCount, List.countP_eq_length_filter] at hcount
      refine .inr ⟨c.1.id, by simp [queryTid, ht, hc], ?_⟩
      simpa [cfgObjGetChildOid] using hcount

theorem query_length_le_sixteen {tt : TypeTree} {st : ObjState} (h : RoomInv tt st) {path : Str}
    {sub : Option Str} {r : Int × List Nat} (hr : cfgObjQueryObject tt st path sub = .ok r) :
    r.2.length ≤ 16 := by
  cases sub with
  | none =>
    obtain ⟨o, -, hr⟩ := bind_eq_ok.mp hr
    cases o <;> obtain rfl := Except.ok.inj hr <;> simp
  | some sub =>
    rcases query_length_le h hr with hnil | ⟨tid, -, hle⟩
    · rw [hnil]
      exact Nat.zero_le _
    · exact hle.trans (callerSlots_le tt tid)

/-- What a query for a type with eight slots writes. -/
theorem query_length_le_eight {tt : TypeTree} {st : ObjState} (h : RoomInv tt st) {path sub : Str}
    (height : ∀ tid, queryTid tt path sub = some tid → callerSlots tt tid = 8)
    {r : Int × List Nat} (hr : cfgObjQueryObject tt st path (some sub) = .ok r) :
    r.2.length ≤ 8 := by
  rcases query_length_le h hr with hnil | ⟨tid, htid, hle⟩
  · rw [hnil]
    exact Nat.zero_le _
  · rwa [height tid htid] at hle

theorem query_lt {tt : TypeTree} {st : ObjState} {path sub : Str} {r : Int × List Nat}
    (hr : cfgObjQueryObject tt st path (some sub) = .ok r) : ∀ n ∈ r.2, n < 65536 := by
  obtain ⟨t, -, hr⟩ := bind_eq_ok.mp hr
  cases t with
  | none =>
    obtain rfl := Except.ok.inj hr
    simp
  | some t =>
    simp only at hr
    split at hr
    · obtain rfl := Except.ok.inj hr
      simp
    · obtain ⟨o, -, hr⟩ := bind_eq_ok.mp hr
      cases o <;> obtain rfl := Except.ok.inj hr
      · simp
      · intro n hn
        obtain ⟨c, -, rfl⟩ := List.mem_map.mp hn
        rw [cfgOidToId_eq]
        exact Nat.mod_lt _ (by decide)

/-! ## Paths that are read without a fault -/

theorem arrayWalk_ok {tt : TypeTree} {tmp : Str} : ∀ (ts : List Str) (objid : List Nat)
    (node : Option CfgTypePtr) (tid oid : Nat) (na : Bool),
    ∃ o, arrayWalk tt (.ok tmp) ts objid node tid oid na = .ok o
  | [], _, _, _, _, _ => ⟨_, rfl⟩
  | t :: ts, objid, node, tid, oid, na => by
    rw [arrayWalk]
    split
    · split
      · exact ⟨_, rfl⟩
      · split
        · exact arrayWalk_ok ts _ _ _ _ _
        · split
          · exact ⟨_, rfl⟩
          · exact arrayWalk_ok ts _ _ _ _ _
    · exact ⟨_, rfl⟩

theorem tokensOf_joinDots {ts : List Str} (h : ∀ t ∈ ts, IsToken t) :
    tokensOf (joinDots ts) = (ts, .ok []) :=
  pathTokens_joinDots ts _ h (Nat.lt_succ_self _)

theorem getObj_joinDots (tt : TypeTree) (st : ObjState) {ts : List Str} (h : ∀ t ∈ ts, IsToken t) :
    ∃ o, cfgObjGetObj tt st (joinDots ts) = .ok o := by
  obtain ⟨ids, hids⟩ := @arrayWalk_ok tt [] ts [] none 0 0 true
  refine cfgObjGetObj_of_pathSafe st ?_
  rw [pathSafe, cfgPathToOidArray_eq_walk, tokensOf_joinDots h, hids]

theorem query_joinDots (tt : TypeTree) (st : ObjState) {ts : List Str} (h : ∀ t ∈ ts, IsToken t)
    (sub : Str) : ∃ r, cfgObjQueryObject tt st (joinDots ts) (some sub) = .ok r := by
  obtain ⟨t, ht⟩ := @queryWalk_ok tt [] ts none true 0
  have htype : cfgTypeQuery tt (joinDots ts) = .ok t := by
    rw [cfgTypeQuery_eq_walk, tokensOf_joinDots h, ht]
  obtain ⟨o, ho⟩ := getObj_joinDots tt st h
  simp only [cfgObjQueryObject, htype, ho, bind, Except.bind]
  cases t with
  | none => exact ⟨_, rfl⟩
  | some t =>
    simp only
    split
    · exact ⟨_, rfl⟩
    · cases o <;> exact ⟨_, rfl⟩

theorem getAttr_joinDots (tt : TypeTree) (st : ObjState) {ts : List Str} (h : ∀ t ∈ ts, IsToken t)
    (attr : Str) (size : Nat) : ∃ r, cfgObjGetObjectAttr tt st (joinDots ts) attr size = .ok r := by
  obtain ⟨o, ho⟩ := getObj_joinDots tt st h
  simp only [cfgObjGetObjectAttr, ho, bind, Except.bind]
  split
  · exact ⟨_, rfl⟩
  · cases o with
    | none => exact ⟨_, rfl⟩
    | some o =>
      simp only
      split <;> exact ⟨_, rfl⟩

/-! ## The paths of the callers -/

/-- The tokens of `WAN_PVC_NODE`. -/
def pvcTokens (n : Nat) : List Str := ["root".toList, "wan".toList, "pvc".toList, fmtNat n]

/-- The tokens of `WAN_PVC_ENTRY_NODE`. -/
def pvcEntryTokens (n m : Nat) : List Str := pvcTokens n ++ ["entry".toList, fmtNat m]

theorem isToken_of_pathNames {l : List Str} (h : l.all isPathName = true) :
    ∀ t ∈ l, IsToken t := fun t ht =>
  (isToken_of_isPathName (List.all_eq_true.mp h t ht)).1

theorem isToken_pvcTokens {n : Nat} (hn : n < 65536) : ∀ t ∈ pvcTokens n, IsToken t := by
  have hnum : IsToken (fmtNat n) := isToken_fmtNat (by rw [intMax]; omega)
  have hnames := @isToken_of_pathNames ["root".toList, "wan".toList, "pvc".toList] (by decide)
  intro t ht
  rcases List.mem_append.mp (show t ∈ ["root".toList, "wan".toList, "pvc".toList] ++ [fmtNat n]
    from ht) with ht | ht
  · exact hnames t ht
  · rwa [List.mem_singleton.mp ht]

theorem isToken_pvcEntryTokens {n m : Nat} (hn : n < 65536) (hm : m < 65536) :
    ∀ t ∈ pvcEntryTokens n m, IsToken t := by
  intro t ht
  rcases List.mem_append.mp ht with ht | ht
  · exact isToken_pvcTokens hn t ht
  · rcases List.mem_cons.mp ht with rfl | ht
    · exact @isToken_of_pathNames ["entry".toList] (by decide) _ List.mem_cons_self
    · rw [List.mem_singleton.mp ht]
      exact isToken_fmtNat (by rw [intMax]; omega)

theorem length_fmtNat_five {n : Nat} (hn : n < 65536) : (fmtNat n).length ≤ 5 :=
  (length_fmtNat_le (by decide)).mpr (by omega)

theorem wanPvcNode_eq {n : Nat} (hn : n < 65536) : wanPvcNode n = joinDots (pvcTokens n) := by
  have hlen := length_fmtNat_five hn
  rw [wanPvcNode, snprintf_eq]
  · rfl
  · rw [List.length_append]
    have hhead : "root.wan.pvc.".toList.length = 13 := by decide
    omega

theorem wanPvcEntryNode_eq {n m : Nat} (hn : n < 65536) (hm : m < 65536) :
    wanPvcEntryNode n m = joinDots (pvcEntryTokens n m) := by
  have hn := length_fmtNat_five hn
  have hm := length_fmtNat_five hm
  rw [wanPvcEntryNode, snprintf_eq]
  · simp only [pvcEntryTokens, pvcTokens, joinDots, List.cons_append, List.nil_append,
      List.append_assoc]
    rfl
  · simp only [List.length_append]
    have hhead : "root.wan.pvc.".toList.length = 13 := by decide
    have hmid : ".entry.".toList.length = 7 := by decide
    omega

/-- Numbers other than `0` behind a name lead to the same type. -/
theorem queryWalk_number {tt : TypeTree} {res : Except Fault Str} {d d' : Str}
    (hd : tokenDigit d ≠ 0) (hd' : tokenDigit d' ≠ 0) : ∀ (ts : List Str)
    (node : Option CfgTypePtr) (na : Bool) (level : Nat),
    queryWalk tt res (ts ++ [d]) node na level = queryWalk tt res (ts ++ [d']) node na level
  | [], _, _, _ => by
    simp [queryWalk, hd, hd']
  | t :: ts, node, na, level => by
    rw [List.cons_append, List.cons_append, queryWalk, queryWalk]
    simp only [queryWalk_number hd hd' ts]

theorem queryTid_pvcNode (tt : TypeTree) {n : Nat} (hn : 0 < n) (hlt : n < 65536) (sub : Str) :
    queryTid tt (wanPvcNode n) sub = queryTid tt (wanPvcNode 1) sub := by
  have hdigit (k : Nat) (hk : 0 < k) (hk' : k < 65536) : tokenDigit (fmtNat k) ≠ 0 := by
    rw [tokenDigit_fmtNat hk (by rw [intMax]; omega)]
    omega
  have htype : cfgTypeQuery tt (wanPvcNode n) = cfgTypeQuery tt (wanPvcNode 1) := by
    rw [wanPvcNode_eq hlt, wanPvcNode_eq (by decide), cfgTypeQuery_eq_walk, cfgTypeQuery_eq_walk,
      tokensOf_joinDots (isToken_pvcTokens hlt), tokensOf_joinDots (isToken_pvcTokens (by decide))]
    exact queryWalk_number (hdigit n hn hlt) (hdigit 1 (by decide) (by decide))
      ["root".toList, "wan".toList, "pvc".toList] none true 0
  rw [queryTid, queryTid, htype]

theorem callerSlots_pvc {tt : TypeTree} {tid : Nat}
    (h : queryTid tt wanNode "pvc".toList = some tid) : callerSlots tt tid = 8 := by
  rw [callerSlots, if_pos (.inl h)]

theorem callerSlots_entry {tt : TypeTree} {n tid : Nat} (hlt : n < 65536)
    (h : queryTid tt (wanPvcNode n) "entry".toList = some tid) : callerSlots tt tid = 8 := by
  rcases Nat.eq_zero_or_pos n with rfl | hpos
  · rw [callerSlots, if_pos (.inr (.inl h))]
  · rw [queryTid_pvcNode tt hpos hlt] at h
    rw [callerSlots, if_pos (.inr (.inr h))]

/-! ## The callers return -/

theorem queryInto_ok {tt : TypeTree} {st : ObjState} {path : Str} {sub : Option Str} {slots : Nat}
    {r : Int × List Nat} (hr : cfgObjQueryObject tt st path sub = .ok r)
    (hle : r.2.length ≤ slots) : queryInto tt st path sub slots = .ok r := by
  simp only [queryInto, hr, bind, Except.bind]
  rw [if_neg (by omega)]

theorem queryPvc_ok {tt : TypeTree} {st : ObjState} (h : RoomInv tt st) : ∃ r,
    queryInto tt st wanNode (some "pvc".toList) pvcNum = .ok r ∧ ∀ n ∈ r.2, n < 65536 := by
  have htok := @isToken_of_pathNames ["root".toList, "wan".toList] (by decide)
  obtain ⟨r, hr⟩ := query_joinDots tt st htok "pvc".toList
  have hr : cfgObjQueryObject tt st wanNode (some "pvc".toList) = .ok r := hr
  exact ⟨r, queryInto_ok hr (query_length_le_eight h (fun _ => callerSlots_pvc) hr), query_lt hr⟩

theorem queryEntry_ok {tt : TypeTree} {st : ObjState} (h : RoomInv tt st) {n : Nat}
    (hn : n < 65536) : ∃ r,
    queryInto tt st (wanPvcNode n) (some "entry".toList) maxWanEntryNumber = .ok r ∧
      ∀ m ∈ r.2, m < 65536 := by
  obtain ⟨r, hr⟩ := query_joinDots tt st (isToken_pvcTokens hn) "entry".toList
  rw [← wanPvcNode_eq hn] at hr
  exact ⟨r, queryInto_ok hr (query_length_le_eight h (fun _ => callerSlots_entry hn) hr),
    query_lt hr⟩

theorem addPvcIndices_ok {tt : TypeTree} {st : ObjState} (h : RoomInv tt st) (len : Nat) :
    ∀ (pvc : List Nat), ∀ buf, ∃ idx, addPvcIndices tt st len pvc buf = .ok idx
  | [], buf => ⟨buf, rfl⟩
  | p :: pvc, buf => by
    rw [addPvcIndices]
    split
    · exact addPvcIndices_ok h len pvc buf
    · have hlt : p &&& 0xff < 65536 := by
        rw [show (0xff : Nat) = 2 ^ 8 - 1 from rfl, Nat.and_two_pow_sub_one_eq_mod]
        omega
      obtain ⟨r, hr, -⟩ := queryEntry_ok h hlt
      rw [hr]
      exact addPvcIndices_ok h len pvc _

theorem startEntries_ok {tt : TypeTree} {st : ObjState} {nf : Int} {inet : Bool} {p : Nat}
    (hp : p < 65536) : ∀ (entry : List Nat) (s : Str × List Str), (∀ m ∈ entry, m < 65536) →
    ∃ s', startEntries tt st nf inet p entry s = .ok s'
  | [], s, _ => ⟨s, rfl⟩
  | m :: entry, (tmp, started), hm => by
    have hrest : ∀ k ∈ entry, k < 65536 := fun k hk => hm k (List.mem_cons_of_mem m hk)
    have htok := isToken_pvcEntryTokens hp (hm m List.mem_cons_self)
    obtain ⟨r, hr⟩ := getAttr_joinDots tt st htok "ServiceList".toList 64
    rw [← wanPvcEntryNode_eq hp (hm m List.mem_cons_self)] at hr
    simp only [startEntries, hr]
    split
    · exact startEntries_ok hp entry _ hrest
    · exact startEntries_ok hp entry _ hrest

theorem startPvcs_ok {tt : TypeTree} {st : ObjState} (h : RoomInv tt st) {nf : Int} {inet : Bool} :
    ∀ (pvc : List Nat) (s : Str × List Str), (∀ p ∈ pvc, p < 65536) →
    ∃ s', startPvcs tt st nf inet pvc s = .ok s'
  | [], s, _ => ⟨s, rfl⟩
  | p :: pvc, s, hp => by
    have hlt := hp p List.mem_cons_self
    obtain ⟨r, hr, hm⟩ := queryEntry_ok h hlt
    obtain ⟨s1, hs1⟩ := @startEntries_ok tt st nf inet p hlt r.2 s hm
    simp only [startPvcs, hr, hs1, bind, Except.bind]
    exact startPvcs_ok h pvc s1 fun k hk => hp k (List.mem_cons_of_mem p hk)

/-! ## The result -/

/-- A query writes as many numbers as it returns, and no caller gets more than its array holds: the
command passes on what the query gave, and the other two run to their end. -/
structure QueriesRight (tt : TypeTree) (st : ObjState) : Prop where
  count : ∀ path sub r, cfgObjQueryObject tt st path sub = .ok r →
    r = (-1, []) ∨ r.1 = r.2.length
  command : ∀ path sub r, cfgObjQueryObject tt st path sub = .ok r → doQuery tt st path sub = .ok r
  index : ∀ len, ∃ idx, getAllWanIndex tt st len = .ok idx
  start : ∀ isInternet, ∃ nodes, svcWanStartAllWanEntry tt st isInternet = .ok nodes

theorem queriesRight_of_roomInv {tt : TypeTree} {st : ObjState} (h : RoomInv tt st) :
    QueriesRight tt st where
  count := fun _ _ _ => cfgObjQueryObject_count
  command := fun _ _ _ hr => queryInto_ok hr (query_length_le_sixteen h hr)
  index := fun len => by
    obtain ⟨r, hr, -⟩ := queryPvc_ok h
    obtain ⟨idx, hidx⟩ := addPvcIndices_ok h len r.2 []
    exact ⟨idx, by simp only [getAllWanIndex, hr, hidx, bind, Except.bind]⟩
  start := fun isInternet => by
    have htok := @isToken_of_pathNames ["root".toList, "wan".toList, "common".toList] (by decide)
    obtain ⟨a, ha⟩ := getAttr_joinDots tt st htok "InternetNotFirst".toList 12
    have ha : cfgObjGetObjectAttr tt st wanCommonNode "InternetNotFirst".toList 12 = .ok a := ha
    obtain ⟨r, hr, hp⟩ := queryPvc_ok h
    simp only [svcWanStartAllWanEntry, ha, hr, bind, Except.bind]
    generalize (if 0 < a.1 then atoi a.2 else 0) = internetnotfirst
    split
    · exact ⟨_, rfl⟩
    · obtain ⟨s, hs⟩ := @startPvcs_ok tt st h internetnotfirst isInternet r.2 ([], []) hp
      rw [hs]
      exact ⟨_, rfl⟩

/-- **In every run that creates objects only where there is room, no caller is overrun in the state
reached.** -/
theorem queriesRight_run (tt : TypeTree) (pool : Nat → Bool) (ops : List Op) (st : ObjState)
    (hrun : run tt (cfgObjLoadFromType tt pool) ops = .ok st)
    (hroom : runRoom tt (cfgObjLoadFromType tt pool) ops = true) : QueriesRight tt st :=
  queriesRight_of_roomInv (roomInv_run ops (roomInv_load tt pool) hrun hroom)

/-! ## An example -/

/-- The types of the WAN entries. -/
def wanTypes : TypeTree where
  decl := { name := "root".toList }
  subtype :=
    .node { name := "wan".toList, flag := 1 }
      (.node { name := "pvc".toList, flag := cfgTypeFlagMultiple + 8, create := true }
        (.node { name := "entry".toList, flag := cfgTypeFlagMultiple + 8, create := true }
          .nil .nil) .nil) .nil
  fits := by decide
  static := create_root

theorem queriesRight_run_two : ∃ st,
    run wanTypes (cfgObjLoadFromType wanTypes fun _ => true)
      [.create "root.wan.pvc.1.entry.1".toList, .create "root.wan.pvc.1.entry.2".toList] = .ok st ∧
    QueriesRight wanTypes st := by
  have hok : (run wanTypes (cfgObjLoadFromType wanTypes fun _ => true)
      [.create "root.wan.pvc.1.entry.1".toList, .create "root.wan.pvc.1.entry.2".toList]).map
        (fun _ => ()) = .ok () := by decide +kernel
  obtain ⟨st, hrun, -⟩ := map_eq_ok.mp hok
  exact ⟨st, hrun, queriesRight_run wanTypes (fun _ => true) _ st hrun (by decide +kernel)⟩

/-- The ninth `pvc` is created like the others, and `get_all_wan_index` has no room for it. -/
theorem queriesRight_wrong : ∃ st,
    run wanTypes (cfgObjLoadFromType wanTypes fun _ => true)
      (List.replicate 9 (.create "root.wan.pvc".toList)) = .ok st ∧ ¬ QueriesRight wanTypes st := by
  have hover : (run wanTypes (cfgObjLoadFromType wanTypes fun _ => true)
      (List.replicate 9 (.create "root.wan.pvc".toList))).map
        (fun st => getAllWanIndex wanTypes st 64) = .ok (.error .overrun) := by decide +kernel
  obtain ⟨st, hrun, hidx⟩ := map_eq_ok.mp hover
  refine ⟨st, hrun, fun h => ?_⟩
  obtain ⟨idx, hok⟩ := h.index 64
  rw [hidx] at hok
  simp at hok

end OnuFirmware.Cfg
