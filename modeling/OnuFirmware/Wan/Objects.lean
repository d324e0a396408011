import OnuFirmware.Wan.Frame
import OnuFirmware.Lib.Run

/-!
# The list of WAN objects

An object is found by the text of its path, and gets its number and device from the ids that the
path resolves to. Many texts resolve to one entry (other case, omitted instance numbers), so the
list holds one object for each entry only while every event spells the path of an entry as the
update did that made its object, and the path fits the 31 characters that the object stores.
-/

namespace OnuFirmware.Wan

open Clib Cfg Lib

/-! ## What updates and stops keep of an object -/

/-- What identifies an object: everything but its flags and its configuration. -/
def WanEntryObj.ident (o : WanEntryObj) : WanEntryObj :=
  { o with started := false, upv4 := false, upv6 := false, cfg := {} }

/-- No object has come, gone or changed its identity, and no freed object was read. -/
structure SameObjs (st st' : WanState) : Prop where
  idents : st'.objs.map WanEntryObj.ident = st.objs.map WanEntryObj.ident
  next : st'.next = st.next
  freedRead : st'.freedRead = st.freedRead

theorem SameObjs.refl (st : WanState) : SameObjs st st := ⟨rfl, rfl, rfl⟩

theorem SameObjs.trans {a b c : WanState} (h : SameObjs a b) (h' : SameObjs b c) : SameObjs a c :=
  ⟨h'.idents.trans h.idents, h'.next.trans h.next, h'.freedRead.trans h.freedRead⟩

theorem Frame.sameObjs {st st' : WanState} (h : Frame st st') : SameObjs st st' :=
  ⟨h.map fun _ => rfl, h.next, h.freedRead⟩

theorem SameObjs.map {β : Type*} {st st' : WanState} (h : SameObjs st st') {π : WanEntryObj → β}
    (hπ : ∀ o : WanEntryObj, π o.ident = π o) : st'.objs.map π = st.objs.map π := by
  have hmap := fun s : WanState => show (s.objs.map WanEntryObj.ident).map π = s.objs.map π by
    rw [List.map_map]
    exact List.map_congr_left fun o _ => hπ o
  rw [← hmap, h.idents, hmap]

theorem SameObjs.valid {st st' : WanState} (h : SameObjs st st') {a : Nat} (ha : st.Valid a) :
    st'.Valid a := by
  rw [WanState.Valid, h.map fun _ => rfl]
  exact ha

/-- A pointer reads the same identity before and after. -/
theorem SameObjs.obj? {st st' : WanState} (h : SameObjs st st') {a : Nat} {o : WanEntryObj}
    (ho : st.obj? a = some o) : ∃ o', st'.obj? a = some o' ∧ o'.ident = o.ident := by
  have hmap := fun s : WanState => show (s.obj? a).map WanEntryObj.ident =
      (s.objs.map WanEntryObj.ident).find? fun o => o.addr == a by
    rw [WanState.obj?, List.find?_map]
    rfl
  have hst := hmap st'
  rw [h.idents, ← hmap st, ho, Option.map_some] at hst
  exact Option.map_eq_some_iff.mp hst

theorem sameObjs_modify (st : WanState) (a : Nat) {f : WanEntryObj → WanEntryObj}
    (hf : ∀ o, (f o).ident = o.ident) : SameObjs st (st.modify a f) where
  idents := by
    rw [WanState.modify, List.map_map]
    refine List.map_congr_left fun o _ => ?_
    simp only [Function.comp_apply]
    split
    · exact hf o
    · rfl
  next := rfl
  freedRead := rfl

theorem sameObjs_svcWanStopIntf (w : Outside) {st : WanState} {a : Nat} (h : st.Valid a) :
    SameObjs st (svcWanStopIntf w st a) := by
  obtain ⟨o, ho⟩ := WanState.obj?_of_valid h
  rw [svcWanStopIntf, WanState.withObj_of_some ho]
  split
  · exact .refl st
  · have hframe := (svcWanDoStopIntf_frame w ho).sameObjs
    exact SameObjs.trans ⟨hframe.idents, hframe.next, hframe.freedRead⟩
      (sameObjs_modify _ a fun _ => rfl)

theorem sameObjs_svcWanStartIntf (w : Outside) {st : WanState} {a : Nat} (h : st.Valid a) :
    SameObjs st (svcWanStartIntf w st a) := by
  obtain ⟨o, ho⟩ := WanState.obj?_of_valid h
  rw [svcWanStartIntf, WanState.withObj_of_some ho]
  split_ifs
  · exact .refl st
  · exact .refl st
  · have hframe := (svcWanDoStartIntf_frame w ho).sameObjs
    exact SameObjs.trans ⟨hframe.idents, hframe.next, hframe.freedRead⟩
      (sameObjs_modify _ a fun _ => rfl)

theorem sameObjs_storeCfg (st : WanState) (a : Nat) (tmp : WanEntryCfg) :
    SameObjs st (st.storeCfg a tmp) := sameObjs_modify st a fun _ => rfl

theorem sameObjs_stopIf (effect : Bool) (w : Outside) {st : WanState} {a : Nat} (h : st.Valid a) :
    SameObjs st (stopIf effect w st a) := by
  rw [stopIf]
  split
  · exact sameObjs_svcWanStopIntf w h
  · exact .refl st

theorem sameObjs_startIf (effect : Bool) (w : Outside) {st : WanState} {a : Nat} (h : st.Valid a) :
    SameObjs st (startIf effect w st a) := by
  rw [startIf]
  split
  · exact sameObjs_svcWanStartIntf w h
  · exact .refl st

/-- **An update keeps the list**, whatever it stops, stores and starts. -/
theorem sameObjs_svcWanUpdateObject (u : UpdateEvt) {st : WanState} {a : Nat} (h : st.Valid a) :
    SameObjs st (svcWanUpdateObject u st a) := by
  obtain ⟨o, ho⟩ := WanState.obj?_of_valid h
  rw [svcWanUpdateObject, WanState.withObj_of_some ho]
  cases u.loaded with
  | none => exact .refl st
  | some tmp =>
    have hstored := (sameObjs_stopIf (u.effect o) u.outside h).trans
      (sameObjs_storeCfg _ a tmp)
    dsimp only
    split_ifs
    · have hst := sameObjs_storeCfg st a tmp
      exact hst.trans (sameObjs_startIf _ _ (hst.valid h))
    · exact hstored
    · exact hstored.trans (sameObjs_startIf _ _ (hstored.valid h))
    · exact .refl st

/-! ## The invariant -/

/-- The number of the entry that a path resolves to. -/
def entryNumber (tt : TypeTree) (maxPvc : Nat) (path : Str) : Option Nat :=
  (entryOfPath tt maxPvc path).map fun e => e.1 * 8 + e.2

/-- The device of an entry. -/
def devOfNumber (n : Nat) : Str := snprintf 16 (nasName (n / 8) (n % 8))

/-- The list has one object for each entry, with the path, number and device of the entry. -/
structure ObjsInv (tt : TypeTree) (maxPvc : Nat) (st : WanState) : Prop where
  addrs : (st.objs.map WanEntryObj.addr).Nodup
  fresh : ∀ a ∈ st.objs.map WanEntryObj.addr, a < st.next
  idxs : (st.objs.map WanEntryObj.idx).Nodup
  paths : (st.objs.map WanEntryObj.path).Nodup
  named : ∀ e ∈ st.objs.map fun o => (o.path, o.idx, o.dev),
    entryNumber tt maxPvc e.1 = some e.2.1 ∧ e.2.2 = devOfNumber e.2.1
  freedRead : st.freedRead = false

theorem objsInv_boot (tt : TypeTree) (maxPvc : Nat) : ObjsInv tt maxPvc .boot where
  addrs := List.nodup_nil
  fresh := by simp [WanState.boot]
  idxs := List.nodup_nil
  paths := List.nodup_nil
  named := by simp [WanState.boot]
  freedRead := rfl

theorem ObjsInv.same {tt : TypeTree} {maxPvc : Nat} {st st' : WanState}
    (hinv : ObjsInv tt maxPvc st) (h : SameObjs st st') : ObjsInv tt maxPvc st' where
  addrs := by rw [h.map fun _ => rfl]; exact hinv.addrs
  fresh := by rw [h.map fun _ => rfl, h.next]; exact hinv.fresh
  idxs := by rw [h.map fun _ => rfl]; exact hinv.idxs
  paths := by rw [h.map fun _ => rfl]; exact hinv.paths
  named := by rw [h.map fun _ => rfl]; exact hinv.named
  freedRead := h.freedRead.trans hinv.freedRead

theorem ObjsInv.number {tt : TypeTree} {maxPvc : Nat} {st : WanState} (hinv : ObjsInv tt maxPvc st)
    {o : WanEntryObj} (ho : o ∈ st.objs) : entryNumber tt maxPvc o.path = some o.idx :=
  (hinv.named _ (List.mem_map_of_mem ho)).1

theorem instanceIndex_lt_of_entryOfPath {tt : TypeTree} {maxPvc : Nat} {path : Str} {e : Nat × Nat}
    (h : entryOfPath tt maxPvc path = some e) : e.1 < maxPvc ∧ e.2 < 8 := by
  rw [entryOfPath] at h
  split at h
  · dsimp only at h
    split at h
    · exact absurd h (by simp)
    · next hr =>
      obtain rfl := Option.some.inj h
      omega
  · exact absurd h (by simp)

theorem findObject_none {st : WanState} {path : Str} (h : svcWanFindObject st path = none) :
    ∀ o ∈ st.objs, o.path ≠ path := by
  intro o ho
  have hn := List.find?_eq_none.mp h o ho
  simpa using hn

theorem findObject_some {st : WanState} {path : Str} {o : WanEntryObj}
    (h : svcWanFindObject st path = some o) : o ∈ st.objs ∧ o.path = path :=
  ⟨List.mem_of_find?_eq_some h, by simpa using List.find?_some h⟩

/-- A new object keeps the invariant if its path is stored whole and the entry has no object yet. -/
theorem ObjsInv.create {tt : TypeTree} {maxPvc : Nat} {st : WanState} (hinv : ObjsInv tt maxPvc st)
    {path : Str} {pvc entry : Nat} (hent : entryOfPath tt maxPvc path = some (pvc, entry))
    (hlen : path.length ≤ 31) (hnew : ∀ o ∈ st.objs, o.idx ≠ pvc * 8 + entry)
    (hpath : ∀ o ∈ st.objs, o.path ≠ path) :
    ObjsInv tt maxPvc { st with
      objs := st.objs ++ [newWanObj st.next path pvc entry], next := st.next + 1 } := by
  have hlt := (instanceIndex_lt_of_entryOfPath hent).2
  have htake : path.take 31 = path := List.take_of_length_le hlen
  constructor
  · simp only [List.map_append, List.map_cons, List.map_nil, newWanObj]
    refine List.nodup_append.mpr ⟨hinv.addrs, by simp, fun a ha b hb => ?_⟩
    have := hinv.fresh a ha
    rw [List.mem_singleton] at hb
    omega
  · intro a ha
    simp only [List.map_append, List.map_cons, List.map_nil, newWanObj, List.mem_append,
      List.mem_singleton] at ha
    rcases ha with ha | rfl
    · exact Nat.lt_succ_of_lt (hinv.fresh a ha)
    · exact Nat.lt_succ_self _
  · simp only [List.map_append, List.map_cons, List.map_nil, newWanObj]
    refine List.nodup_append.mpr ⟨hinv.idxs, by simp, fun i hi j hj => ?_⟩
    obtain ⟨o, ho, rfl⟩ := List.mem_map.mp hi
    rw [List.mem_singleton.mp hj]
    exact hnew o ho
  · simp only [List.map_append, List.map_cons, List.map_nil, newWanObj, htake]
    refine List.nodup_append.mpr ⟨hinv.paths, by simp, fun p hp q hq => ?_⟩
    obtain ⟨o, ho, rfl⟩ := List.mem_map.mp hp
    rw [List.mem_singleton.mp hq]
    exact hpath o ho
  · intro e he
    simp only [List.map_append, List.map_cons, List.map_nil, newWanObj, htake, List.mem_append,
      List.mem_singleton] at he
    rcases he with he | rfl
    · exact hinv.named e he
    · refine ⟨by rw [entryNumber, hent]; rfl, ?_⟩
      simp only [devOfNumber]
      rw [show (pvc * 8 + entry) / 8 = pvc by omega, show (pvc * 8 + entry) % 8 = entry by omega]
  · exact hinv.freedRead

/-- Removing objects keeps the invariant. -/
theorem ObjsInv.sublist {tt : TypeTree} {maxPvc : Nat} {st : WanState} (hinv : ObjsInv tt maxPvc st)
    {l : List WanEntryObj} (hsub : l.Sublist st.objs) : ObjsInv tt maxPvc { st with objs := l } :=
  ⟨(hsub.map _).nodup hinv.addrs, fun a ha => hinv.fresh a ((hsub.map _).subset ha),
    (hsub.map _).nodup hinv.idxs, (hsub.map _).nodup hinv.paths,
    fun e he => hinv.named e ((hsub.map _).subset he), hinv.freedRead⟩

/-! ## The handlers -/

theorem svcWanDelFromList_of_valid {st : WanState} {a : Nat} {o : WanEntryObj}
    (ho : st.obj? a = some o) :
    svcWanDelFromList st a = { st with objs := st.objs.eraseP fun x => x.path == o.path } := by
  rw [svcWanDelFromList, WanState.withObj_of_some ho]

/-- **Deleting an object reads it up to the call that frees it, and not afterwards.** -/
theorem svcWanDeleteObject_eq (w : Outside) {st : WanState} {a : Nat} (h : st.Valid a) :
    ∃ o, (svcWanStopIntf w st a).obj? a = some o ∧ svcWanDeleteObject w st a =
      { svcWanStopIntf w st a with
        objs := (svcWanStopIntf w st a).objs.eraseP fun x => x.path == o.path } := by
  obtain ⟨o, ho⟩ := WanState.obj?_of_valid ((sameObjs_svcWanStopIntf w h).valid h)
  refine ⟨o, ho, ?_⟩
  rw [svcWanDeleteObject]
  dsimp only
  rw [WanState.withObj_of_some ho, svcWanDelFromList_of_valid ho, svcWanVlanbindExecute, if_pos rfl]

theorem eraseP_of_find? {α : Type*} {p : α → Bool} {a : α} : ∀ {l : List α},
    l.find? p = some a → ∃ l₁ l₂, l = l₁ ++ a :: l₂ ∧ l.eraseP p = l₁ ++ l₂
  | [], h => absurd h (by simp)
  | b :: l, h => by
    by_cases hb : p b
    · rw [List.find?_cons_of_pos hb] at h
      obtain rfl := Option.some.inj h
      exact ⟨[], l, rfl, List.eraseP_cons_of_pos hb⟩
    · rw [List.find?_cons_of_neg hb] at h
      obtain ⟨l₁, l₂, rfl, he⟩ := eraseP_of_find? h
      exact ⟨b :: l₁, l₂, rfl, by rw [List.eraseP_cons_of_neg hb, he]; rfl⟩

/-- **The object that a deletion by path removes is the one that was found by the path.** -/
theorem svcWanHandleEventDelete_eq (w : Outside) {st : WanState} {path : Str} {o : WanEntryObj}
    (haddrs : (st.objs.map WanEntryObj.addr).Nodup) (h : svcWanFindObject st path = some o) :
    ∃ o' l₁ l₂, (svcWanStopIntf w st o.addr).obj? o.addr = some o' ∧
      (svcWanStopIntf w st o.addr).objs = l₁ ++ o' :: l₂ ∧
      svcWanHandleEventDelete w st path = { svcWanStopIntf w st o.addr with objs := l₁ ++ l₂ } := by
  obtain ⟨hmem, rfl⟩ := findObject_some h
  have hvalid := WanState.valid_of_mem hmem
  have hsame := sameObjs_svcWanStopIntf w hvalid
  obtain ⟨o', ho', heq⟩ := svcWanDeleteObject_eq w hvalid
  -- the first object with the path, before and after the stop
  have hfirst : ((svcWanStopIntf w st o.addr).objs.find? fun x => x.path == o.path).map
      WanEntryObj.ident = some o.ident := by
    have hmap := fun s : WanState => show (s.objs.find? fun x => x.path == o.path).map
        WanEntryObj.ident = (s.objs.map WanEntryObj.ident).find? fun x => x.path == o.path by
      rw [List.find?_map]
      rfl
    rw [hmap, hsame.idents, ← hmap]
    exact congrArg (Option.map WanEntryObj.ident) h
  obtain ⟨x, hx, hid⟩ := Option.map_eq_some_iff.mp hfirst
  have haddr : x.addr = o.addr := show x.ident.addr = o.ident.addr by rw [hid]
  have hpath : x.path = o.path := show x.ident.path = o.ident.path by rw [hid]
  have haddrs' : ((svcWanStopIntf w st o.addr).objs.map WanEntryObj.addr).Nodup := by
    rw [hsame.map fun _ => rfl]
    exact haddrs
  obtain ⟨ho'mem, ho'addr⟩ := WanState.mem_of_obj? ho'
  obtain rfl : o' = x := List.inj_on_of_nodup_map haddrs' ho'mem (List.mem_of_find?_eq_some hx)
    (ho'addr.trans haddr.symm)
  rw [← hpath] at hx
  obtain ⟨l₁, l₂, hl, he⟩ := eraseP_of_find? hx
  refine ⟨o', l₁, l₂, ho', hl, ?_⟩
  rw [svcWanHandleEventDelete, h]
  dsimp only
  rw [heq, he]

/-- An object at the head of the list is still there when it has been stopped. -/
theorem stopIntf_head (w : Outside) {st : WanState} {a : Nat} {as : List Nat} {o : WanEntryObj}
    (h : st.objs.map WanEntryObj.addr = a :: as) (ho : (svcWanStopIntf w st a).obj? a = some o) :
    ∃ os, (svcWanStopIntf w st a).objs = o :: os ∧ os.map WanEntryObj.addr = as := by
  have hvalid : st.Valid a := by
    rw [WanState.Valid, h]
    exact List.mem_cons_self
  have haddrs : (svcWanStopIntf w st a).objs.map WanEntryObj.addr = a :: as := by
    rw [(sameObjs_svcWanStopIntf w hvalid).map fun _ => rfl, h]
  rcases hobjs : (svcWanStopIntf w st a).objs with _ | ⟨x, os⟩
  · rw [hobjs] at haddrs
    exact absurd haddrs (by simp)
  · rw [hobjs, List.map_cons] at haddrs
    obtain ⟨rfl, htail⟩ := List.cons.inj haddrs
    rw [WanState.obj?, hobjs, List.find?_cons, beq_self_eq_true] at ho
    obtain rfl := Option.some.inj ho
    exact ⟨os, rfl, htail⟩

/-- The loop over all objects finds each of them at the head of what is left of the list. -/
theorem stopAllLoop_freedRead (w : Outside) : ∀ (as : List Nat) {st : WanState},
    st.objs.map WanEntryObj.addr = as → (stopAllLoop w as st).freedRead = st.freedRead
  | [], _, _ => rfl
  | a :: as, st, h => by
    have hvalid : st.Valid a := by
      rw [WanState.Valid, h]
      exact List.mem_cons_self
    have hsame := sameObjs_svcWanStopIntf w hvalid
    obtain ⟨o, ho⟩ := WanState.obj?_of_valid (hsame.valid hvalid)
    obtain ⟨os, hobjs, htail⟩ := stopIntf_head w h ho
    have hdel := svcWanDelFromList_of_valid ho
    rw [hobjs, List.eraseP_cons_of_pos (by simp)] at hdel
    rw [stopAllLoop, hdel, stopAllLoop_freedRead w as htail]
    exact hsame.freedRead

/-! ## Spelling -/

/-- The path of an update is spelled as the one of the object of its entry, if there is one, and
fits the buffer of an object. -/
def PathOk (tt : TypeTree) (maxPvc : Nat) (st : WanState) (u : UpdateEvt) : Prop :=
  u.present = true → ∀ n ∈ entryNumber tt maxPvc u.path,
    u.path.length ≤ 31 ∧ ∀ o ∈ st.objs, o.idx = n → o.path = u.path

/-- The condition on an event; where the optical link comes up, on each update in its turn. -/
def SpellingOk (tt : TypeTree) (maxPvc : Nat) (st : WanState) : WanEvt → Prop
  | .update u => PathOk tt maxPvc st u
  | .delete _ path =>
    ∀ n ∈ entryNumber tt maxPvc path, ∀ o ∈ st.objs, o.idx = n → o.path = path
  | .conn .. => True
  | .xponUp entries => st.preEvt ≠ some .up →
    RunOk (svcWanHandleEventUpdate tt maxPvc) (PathOk tt maxPvc) st (entries.map startAllUpdate)
  | .xponDown _ => True

instance (tt : TypeTree) (maxPvc : Nat) (st : WanState) (u : UpdateEvt) :
    Decidable (PathOk tt maxPvc st u) := inferInstanceAs (Decidable (_ → _))

instance (tt : TypeTree) (maxPvc : Nat) (st : WanState) :
    ∀ ev, Decidable (SpellingOk tt maxPvc st ev)
  | .update u => inferInstanceAs (Decidable (PathOk tt maxPvc st u))
  | .delete _ path => inferInstanceAs (Decidable (∀ n ∈ entryNumber tt maxPvc path,
      ∀ o ∈ st.objs, o.idx = n → o.path = path))
  | .conn .. => isTrue trivial
  | .xponUp entries => inferInstanceAs (Decidable (st.preEvt ≠ some .up →
      RunOk (svcWanHandleEventUpdate tt maxPvc) (PathOk tt maxPvc) st (entries.map startAllUpdate)))
  | .xponDown _ => isTrue trivial

theorem objsInv_update {tt : TypeTree} {maxPvc : Nat} {st : WanState} {u : UpdateEvt}
    (hinv : ObjsInv tt maxPvc st) (h : PathOk tt maxPvc st u) :
    ObjsInv tt maxPvc (svcWanHandleEventUpdate tt maxPvc st u) := by
  rw [svcWanHandleEventUpdate]
  split
  · exact hinv
  · next hpres =>
    cases hfind : svcWanFindObject st u.path with
    | some o =>
      exact hinv.same (sameObjs_svcWanUpdateObject u
        (WanState.valid_of_mem (findObject_some hfind).1))
    | none =>
      cases hent : entryOfPath tt maxPvc u.path with
      | none => exact hinv
      | some e =>
        dsimp only
        split
        · exact hinv
        · have hnum : entryNumber tt maxPvc u.path = some (e.1 * 8 + e.2) := by
            rw [entryNumber, hent]
            rfl
          obtain ⟨hlen, hspell⟩ := h (by simpa using hpres) _ hnum
          have hpath := findObject_none hfind
          have hnew := hinv.create hent hlen (fun o ho hi => hpath o ho (hspell o ho hi)) hpath
          refine hnew.same (sameObjs_svcWanUpdateObject u ?_)
          simp [WanState.Valid, newWanObj]

/-- **One event keeps the invariant.** -/
theorem objsInv_step {tt : TypeTree} {maxPvc : Nat} {st : WanState} {ev : WanEvt}
    (hinv : ObjsInv tt maxPvc st) (h : SpellingOk tt maxPvc st ev) :
    ObjsInv tt maxPvc (svcWanMgrHandleEvent tt maxPvc st ev) := by
  cases ev with
  | update u => exact objsInv_update hinv h
  | delete w path =>
    rw [svcWanMgrHandleEvent, svcWanHandleEventDelete]
    split
    · exact hinv
    · next o ho =>
      have hvalid := WanState.valid_of_mem (findObject_some ho).1
      obtain ⟨o', -, heq⟩ := svcWanDeleteObject_eq w hvalid
      rw [heq]
      exact (hinv.same (sameObjs_svcWanStopIntf w hvalid)).sublist List.eraseP_sublist
  | conn w evt dev =>
    cases evt with
    | get f => exact hinv.same (frame_svcWanHandleEventConnGet w st f dev).sameObjs
    | lost f => exact hinv.same (frame_svcWanHandleEventConnLost w st f dev).sameObjs
  | xponUp entries =>
    rw [svcWanMgrHandleEvent]
    split
    · exact hinv
    · next hpre =>
      have hall := RunOk.inv (fun _ _ hs hc => objsInv_update hs hc) (h hpre) hinv
      exact ⟨hall.addrs, hall.fresh, hall.idxs, hall.paths, hall.named, hall.freedRead⟩
  | xponDown w =>
    rw [svcWanMgrHandleEvent]
    split
    · exact hinv
    · have hfreed := stopAllLoop_freedRead w (st.objs.map WanEntryObj.addr) rfl
      exact ⟨List.nodup_nil, by simp [svcWanStopAllWanEntry], List.nodup_nil, List.nodup_nil,
        by simp [svcWanStopAllWanEntry], hfreed.trans hinv.freedRead⟩

/-! ## Runs -/

/-- No two objects have one number or one device, and no freed object was read. -/
structure ListOk (st : WanState) : Prop where
  idxs : (st.objs.map WanEntryObj.idx).Nodup
  devs : (st.objs.map WanEntryObj.dev).Nodup
  freedRead : st.freedRead = false

/-- The object that is found by the path is the one of the entry that the path resolves to; where
none is found, that entry has no object. -/
def ActsOn (tt : TypeTree) (maxPvc : Nat) (st : WanState) (path : Str) : Prop :=
  ∀ n, entryNumber tt maxPvc path = some n →
    (∃ o, svcWanFindObject st path = some o ∧ o.idx = n) ∨
      (svcWanFindObject st path = none ∧ ∀ o ∈ st.objs, o.idx ≠ n)

/-- An update or a deletion acts on the object of its entry. -/
def Acts (tt : TypeTree) (maxPvc : Nat) (st : WanState) : WanEvt → Prop
  | .update u => u.present = true → ActsOn tt maxPvc st u.path
  | .delete _ path => ActsOn tt maxPvc st path
  | _ => True

theorem getWanindexByName_devOfNumber : ∀ n < 64, getWanindexByName (devOfNumber n) = some n := by
  have hfin : ∀ n : Fin 64, getWanindexByName (devOfNumber n) = some n.val := by decide
  exact fun n hn => hfin ⟨n, hn⟩

theorem ObjsInv.idx_lt {tt : TypeTree} {maxPvc : Nat} {st : WanState} (hmax : maxPvc ≤ 8)
    (hinv : ObjsInv tt maxPvc st) {o : WanEntryObj} (ho : o ∈ st.objs) : o.idx < 64 := by
  obtain ⟨e, he, hidx⟩ := Option.map_eq_some_iff.mp (hinv.number ho)
  have := instanceIndex_lt_of_entryOfPath he
  omega

theorem ObjsInv.listOk {tt : TypeTree} {maxPvc : Nat} {st : WanState} (hmax : maxPvc ≤ 8)
    (hinv : ObjsInv tt maxPvc st) : ListOk st where
  idxs := hinv.idxs
  devs := by
    -- the device names its number, so two objects with one device have one number
    refine List.Nodup.of_map getWanindexByName ?_
    have hmap : (st.objs.map WanEntryObj.dev).map getWanindexByName =
        (st.objs.map WanEntryObj.idx).map some := by
      rw [List.map_map, List.map_map]
      refine List.map_congr_left fun o ho => ?_
      have hdev : o.dev = devOfNumber o.idx := (hinv.named _ (List.mem_map_of_mem ho)).2
      rw [Function.comp_apply, Function.comp_apply, hdev,
        getWanindexByName_devOfNumber _ (hinv.idx_lt hmax ho)]
    rw [hmap]
    exact hinv.idxs.map (Option.some_injective Nat)
  freedRead := hinv.freedRead

theorem ObjsInv.actsOn {tt : TypeTree} {maxPvc : Nat} {st : WanState} (hinv : ObjsInv tt maxPvc st)
    {path : Str} (h : ∀ n ∈ entryNumber tt maxPvc path, ∀ o ∈ st.objs, o.idx = n → o.path = path) :
    ActsOn tt maxPvc st path := by
  intro n hn
  cases hfind : svcWanFindObject st path with
  | some o =>
    obtain ⟨ho, rfl⟩ := findObject_some hfind
    rw [hinv.number ho] at hn
    exact .inl ⟨o, rfl, Option.some.inj hn⟩
  | none =>
    refine .inr ⟨rfl, fun o ho hidx => ?_⟩
    exact findObject_none hfind o ho (h n hn o ho hidx)

/-- **In a run whose events spell the paths of the entries as their objects do, the list has one
object for each entry in every state, every event acts on the object of its entry, and no object is
read after it was freed.** -/
theorem runWan_objects {tt : TypeTree} {maxPvc : Nat} (hmax : maxPvc = 1 ∨ maxPvc = 8)
    {evts : List WanEvt}
    (h : RunOk (svcWanMgrHandleEvent tt maxPvc) (SpellingOk tt maxPvc) .boot evts) :
    ∀ pre, pre <+: evts → ListOk (runWan tt maxPvc .boot pre) ∧
      ∀ ev, pre ++ [ev] <+: evts → Acts tt maxPvc (runWan tt maxPvc .boot pre) ev := by
  intro pre hpre
  have hinv : ObjsInv tt maxPvc (runWan tt maxPvc .boot pre) :=
    RunOk.inv_prefix (fun _ _ hs hc => objsInv_step hs hc) h (objsInv_boot tt maxPvc) hpre
  refine ⟨hinv.listOk (by omega), fun ev hev => ?_⟩
  have hcond := h.at_prefix hev
  cases ev with
  | update u => exact fun hp => hinv.actsOn fun n hn => (hcond hp n hn).2
  | delete w path => exact hinv.actsOn hcond
  | conn w evt dev => trivial
  | xponUp entries => trivial
  | xponDown w => trivial

/-- The part of the type tree that the manager uses. -/
def wanTypes : TypeTree where
  decl := { name := "root".toList }
  subtype :=
    .node { name := "Wan".toList }
      (.node { name := "PVC".toList, create := true, flag := cfgTypeFlagMultiple }
        (.node { name := "Entry".toList, create := true, flag := cfgTypeFlagMultiple } .nil .nil)
        .nil) .nil
  fits := by decide
  static := create_root

/-- Nothing is reported from outside. -/
def quiet : Outside :=
  { gateway := fun _ _ => [], ipv6Ready := false, protocolVersion := 3, deviceOk := true }

/-- An update that loads `cfg`. -/
def plainUpdate (path : String) (cfg : WanEntryCfg) : UpdateEvt :=
  { path := path.toList, present := true, alloc := true, loaded := some cfg, tr069 := false,
    outside := quiet }

theorem runWan_objects_sample : ListOk (runWan wanTypes 8 .boot
    [.update (plainUpdate "root.wan.pvc.1.entry.1" {}),
      .update (plainUpdate "root.wan.pvc.1.entry.2" {}),
      .delete quiet "root.wan.pvc.1.entry.1".toList]) :=
  (runWan_objects (.inr rfl) (by decide +kernel) _ (List.prefix_refl _)).1

/-- Two spellings of one entry make two objects with its number, and a third one is not found. -/
theorem runWan_objects_fail :
    (¬ ListOk (runWan wanTypes 8 .boot
      [.update (plainUpdate "root.wan.pvc.1.entry.1" {}),
        .update (plainUpdate "root.Wan.pvc.1.entry.1" {})])) ∧
    ¬ Acts wanTypes 8 (runWan wanTypes 8 .boot
      [.update (plainUpdate "root.wan.pvc.1.entry.1" {})])
      (.delete quiet "root.wan.pvc.entry".toList) := by
  refine ⟨fun h => absurd h.idxs (by decide +kernel), fun h => ?_⟩
  rcases h 0 (by decide +kernel) with ⟨o, ho, -⟩ | ⟨-, hall⟩
  · have hnone : (svcWanFindObject (runWan wanTypes 8 .boot
        [.update (plainUpdate "root.wan.pvc.1.entry.1" {})]) "root.wan.pvc.entry".toList).isNone :=
      by decide +kernel
    rw [ho] at hnone
    exact absurd hnone (by simp)
  · exact absurd hall (by decide +kernel)

end OnuFirmware.Wan
