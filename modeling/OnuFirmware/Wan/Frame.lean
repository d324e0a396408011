import OnuFirmware.Wan.Manager

/-!
# What the WAN handlers leave alone

Handling a got or lost address writes only the two up flags of an object, the default route and the
record of it. So the rest of every object, its `core`, survives all the events that are handled
while an interface is started or stopped, and these change the cores only by the flag `started`.
-/

namespace OnuFirmware.Wan

open Clib Cfg

/-- An object without its up flags. -/
def WanEntryObj.core (o : WanEntryObj) : WanEntryObj := { o with upv4 := false, upv6 := false }

@[simp] theorem WanEntryObj.core_addr (o : WanEntryObj) : o.core.addr = o.addr := rfl
@[simp] theorem WanEntryObj.core_idx (o : WanEntryObj) : o.core.idx = o.idx := rfl
@[simp] theorem WanEntryObj.core_started (o : WanEntryObj) : o.core.started = o.started := rfl
@[simp] theorem WanEntryObj.core_cfg (o : WanEntryObj) : o.core.cfg = o.cfg := rfl

/-- An up flag is no part of the core. -/
@[simp] theorem WanEntryObj.core_setUp (o : WanEntryObj) (f : Family) (b : Bool) :
    (o.setUp f b).core = o.core := by
  cases f <;> rfl

/-- The objects of the list without their up flags. -/
def WanState.cores (st : WanState) : List WanEntryObj := st.objs.map WanEntryObj.core

/-- What is read of the core only can be read off the list of cores. -/
theorem WanState.map_cores {β : Type*} (st : WanState) {π : WanEntryObj → β}
    (h : ∀ o : WanEntryObj, π o.core = π o) : st.cores.map π = st.objs.map π := by
  rw [cores, List.map_map]
  exact List.map_congr_left fun o _ => h o

/-- The pointer is valid: its object is in the list. -/
def WanState.Valid (st : WanState) (a : Nat) : Prop := a ∈ st.objs.map WanEntryObj.addr

/-- Nothing has changed but up flags, the default route and the records of connections. -/
structure Frame (st st' : WanState) : Prop where
  cores : st'.cores = st.cores
  next : st'.next = st.next
  intfLog : st'.intfLog = st.intfLog
  freedRead : st'.freedRead = st.freedRead
  preEvt : st'.preEvt = st.preEvt

theorem Frame.refl (st : WanState) : Frame st st := ⟨rfl, rfl, rfl, rfl, rfl⟩

theorem Frame.trans {a b c : WanState} (h : Frame a b) (h' : Frame b c) : Frame a c :=
  ⟨h'.cores.trans h.cores, h'.next.trans h.next, h'.intfLog.trans h.intfLog,
    h'.freedRead.trans h.freedRead, h'.preEvt.trans h.preEvt⟩

/-- A function of the cores is kept by a frame. -/
theorem Frame.map {β : Type*} {st st' : WanState} (h : Frame st st') {π : WanEntryObj → β}
    (hπ : ∀ o : WanEntryObj, π o.core = π o) : st'.objs.map π = st.objs.map π := by
  rw [← st'.map_cores hπ, h.cores, st.map_cores hπ]

/-- Pointers stay valid. -/
theorem Frame.valid {st st' : WanState} (h : Frame st st') {a : Nat} (ha : st.Valid a) :
    st'.Valid a := by
  rw [WanState.Valid, h.map fun _ => rfl]
  exact ha

/-! ## Pointers -/

/-- A valid pointer can be read. -/
theorem WanState.obj?_of_valid {st : WanState} {a : Nat} (h : st.Valid a) :
    ∃ o, st.obj? a = some o := by
  obtain ⟨o, ho, rfl⟩ := List.mem_map.mp h
  rw [← Option.isSome_iff_exists, obj?, List.find?_isSome]
  exact ⟨o, ho, by simp⟩

/-- What is read is the object with that address. -/
theorem WanState.mem_of_obj? {st : WanState} {a : Nat} {o : WanEntryObj} (h : st.obj? a = some o) :
    o ∈ st.objs ∧ o.addr = a :=
  ⟨List.mem_of_find?_eq_some h, by simpa using List.find?_some h⟩

theorem WanState.valid_of_mem {st : WanState} {o : WanEntryObj} (h : o ∈ st.objs) :
    st.Valid o.addr := List.mem_map_of_mem h

/-- The code behind a pointer that can be read. -/
theorem WanState.withObj_of_some {st : WanState} {a : Nat} {o : WanEntryObj}
    (h : st.obj? a = some o) (k : WanEntryObj → WanState) : st.withObj a k = k o := by
  rw [withObj, h]

/-- The object that a pointer reads behind a write through it. -/
theorem WanState.obj?_modify {st : WanState} {a : Nat} {o : WanEntryObj} (h : st.obj? a = some o)
    {f : WanEntryObj → WanEntryObj} (hf : ∀ o, (f o).addr = o.addr) :
    (st.modify a f).obj? a = some (f o) := by
  have hcomp : ((fun o : WanEntryObj => o.addr == a) ∘ fun o => if o.addr == a then f o else o) =
      fun o => o.addr == a := by
    funext x
    rw [Function.comp_apply]
    split
    · rw [hf]
    · rfl
  rw [obj?, modify, List.find?_map, hcomp]
  rw [obj?] at h
  rw [h, Option.map_some, if_pos (by simpa using List.find?_some h)]

/-- The core that a pointer reads depends on the cores only. -/
theorem WanState.obj?_core (st : WanState) (a : Nat) :
    (st.obj? a).map WanEntryObj.core = st.cores.find? fun o => o.addr == a := by
  rw [obj?, cores, List.find?_map]
  rfl

/-- The pointer reads the same core afterwards. -/
theorem Frame.obj? {st st' : WanState} (h : Frame st st') {a : Nat} {o : WanEntryObj}
    (ho : st.obj? a = some o) : ∃ o', st'.obj? a = some o' ∧ o'.core = o.core := by
  have hmap := st'.obj?_core a
  rw [h.cores, ← st.obj?_core a, ho, Option.map_some] at hmap
  obtain ⟨o', ho', hc⟩ := Option.map_eq_some_iff.mp hmap
  exact ⟨o', ho', hc⟩

/-- Writing the up flags of one object. -/
theorem frame_modify (st : WanState) (a : Nat) {f : WanEntryObj → WanEntryObj}
    (hf : ∀ o, (f o).core = o.core) : Frame st (st.modify a f) where
  cores := by
    rw [WanState.cores, WanState.modify, List.map_map]
    refine List.map_congr_left fun o _ => ?_
    simp only [Function.comp_apply]
    split
    · exact hf o
    · rfl
  next := rfl
  intfLog := rfl
  freedRead := rfl
  preEvt := rfl

/-! ## The default route and connections -/

/-- Updating the default route writes nothing but the two indices. -/
theorem updateDefaultRoute_eq (w : Outside) (st : WanState) (path : Str) (evt : ConnEvt) :
    ∃ d, updateDefaultRoute w st path evt = { st with defRoute := d } := by
  rw [updateDefaultRoute]
  split
  · exact ⟨_, rfl⟩
  · split <;> dsimp only <;> split_ifs <;> exact ⟨_, rfl⟩

/-- A connection event changes no object at all. -/
theorem svcWanHandleConnEvt_objs (w : Outside) (old st : WanState) (obj : WanEntryObj)
    (evt : ConnEvt) : (svcWanHandleConnEvt w old st obj evt).objs = st.objs := by
  obtain ⟨d, hd⟩ := updateDefaultRoute_eq w st obj.path evt
  simp only [svcWanHandleConnEvt, hd]

theorem frame_svcWanHandleConnEvt (w : Outside) (old st : WanState) (obj : WanEntryObj)
    (evt : ConnEvt) : Frame st (svcWanHandleConnEvt w old st obj evt) := by
  obtain ⟨d, hd⟩ := updateDefaultRoute_eq w st obj.path evt
  rw [svcWanHandleConnEvt, hd]
  exact ⟨rfl, rfl, rfl, rfl, rfl⟩

/-- An address is lost: one up flag is cleared, and the default route may change. -/
theorem frame_lostDeal (w : Outside) {st : WanState} {a : Nat} (h : st.Valid a) (f : Family) :
    Frame st (svcWanHandleEventConnLostDeal w st a f) := by
  obtain ⟨o, ho⟩ := WanState.obj?_of_valid h
  rw [svcWanHandleEventConnLostDeal, WanState.withObj_of_some ho]
  exact (frame_modify st a fun o => o.core_setUp f false).trans (frame_svcWanHandleConnEvt ..)

/-- A device names an object of the list. -/
theorem mem_of_findByDev {st : WanState} {dev : Str} {o : WanEntryObj}
    (h : svcWanFindObjectByDev st dev = some o) : o ∈ st.objs := by
  rw [svcWanFindObjectByDev] at h
  split at h
  · exact absurd h (by simp)
  · exact List.mem_of_find?_eq_some h

/-- The same for an event that names the device. -/
theorem frame_svcWanHandleEventConnLost (w : Outside) (st : WanState) (f : Family) (dev : Str) :
    Frame st (svcWanHandleEventConnLost w st f dev) := by
  rw [svcWanHandleEventConnLost]
  split
  · exact .refl st
  · next o ho =>
    split_ifs
    · exact .refl st
    · exact .refl st
    · exact frame_lostDeal w (WanState.valid_of_mem (mem_of_findByDev ho)) f

/-- An address is there: one up flag is set. -/
theorem frame_svcWanHandleEventConnGet (w : Outside) (st : WanState) (f : Family) (dev : Str) :
    Frame st (svcWanHandleEventConnGet w st f dev) := by
  cases f with
  | v4 =>
    rw [svcWanHandleEventConnGet, svcWanHandleEventConnGetv4]
    split
    · exact .refl st
    · split_ifs
      · exact .refl st
      · exact (frame_modify st _ fun o => o.core_setUp .v4 true).trans
          (frame_svcWanHandleConnEvt ..)
  | v6 =>
    rw [svcWanHandleEventConnGet, svcWanHandleEventConnGetv6]
    split
    · exact .refl st
    · split_ifs
      · exact .refl st
      · exact .refl st
      · exact (frame_modify st _ fun o => o.core_setUp .v6 true).trans
          (frame_svcWanHandleConnEvt ..)

theorem frame_reportLoss (w : Outside) {a : Nat} (dev : Str) {st : WanState} (h : st.Valid a)
    (l : Loss) : Frame st (reportLoss w a dev st l) := by
  rw [reportLoss]
  split
  · exact frame_lostDeal w h l.fam
  · exact frame_svcWanHandleEventConnLost w st l.fam dev

/-- All losses that stopping an interface reports, by induction on their list. -/
theorem frame_foldl_reportLoss (w : Outside) {a : Nat} (dev : Str) : ∀ (ls : List Loss)
    {st : WanState}, st.Valid a → Frame st (ls.foldl (reportLoss w a dev) st)
  | [], st, _ => .refl st
  | l :: ls, _, h =>
    have hl := frame_reportLoss w dev h l
    hl.trans (frame_foldl_reportLoss w dev ls (hl.valid h))

/-- All addresses that starting an interface brings. -/
theorem frame_foldl_get (w : Outside) (dev : Str) : ∀ (fs : List Family) (st : WanState),
    Frame st (fs.foldl (fun st f => svcWanHandleEventConnGet w st f dev) st)
  | [], st => .refl st
  | f :: fs, st =>
    (frame_svcWanHandleEventConnGet w st f dev).trans (frame_foldl_get w dev fs _)

/-! ## Starting and stopping -/

/-- Stopping an interface is recorded, and is a frame apart from that. -/
theorem svcWanDoStopIntf_frame (w : Outside) {st : WanState} {a : Nat} {o : WanEntryObj}
    (ho : st.obj? a = some o) :
    Frame { st with intfLog := st.intfLog ++ [.stop o.idx o.cfg] } (svcWanDoStopIntf w st a) := by
  rw [svcWanDoStopIntf, WanState.withObj_of_some ho]
  obtain ⟨hm, rfl⟩ := WanState.mem_of_obj? ho
  exact frame_foldl_reportLoss w _ _ (WanState.valid_of_mem hm)

/-- And so is starting one. -/
theorem svcWanDoStartIntf_frame (w : Outside) {st : WanState} {a : Nat} {o : WanEntryObj}
    (ho : st.obj? a = some o) :
    Frame { st with intfLog := st.intfLog ++ [.start o.idx o.cfg] } (svcWanDoStartIntf w st a) := by
  rw [svcWanDoStartIntf, WanState.withObj_of_some ho]
  dsimp only
  split
  · exact frame_foldl_get w _ _ _
  · exact .refl _

end OnuFirmware.Wan
