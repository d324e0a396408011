import OnuFirmware.Wan.Objects

/-!
# Starts and stops of WAN interfaces

An interface is stopped with the configuration that is stored for the entry at that time. Updates
store a new configuration after the stop and before the start, so that the stop sees the
configuration the interface was started with. The exception is an update that comes from a commit
over TR-069 for a WAN with TR-069 service: it stores the configuration without a stop.
-/

namespace OnuFirmware.Wan

open Clib Cfg Lib

/-! ## The log of calls -/

def IntfCall.idx : IntfCall → Nat
  | .start i _ => i
  | .stop i _ => i

/-- The configuration with which interface `i` runs after the calls of a log. -/
def running (log : List IntfCall) (i : Nat) : Option WanEntryCfg :=
  match log.reverse.find? fun c => c.idx == i with
  | some (.start _ cfg) => some cfg
  | _ => none

/-- A stop is made with the configuration the interface was started with; a start, only while the
interface does not run. -/
def CallPaired (log : List IntfCall) : IntfCall → Prop
  | .start i _ => running log i = none
  | .stop i cfg => running log i = some cfg

/-- Every call of a log is paired with the calls before it. -/
def LogPaired (log : List IntfCall) : Prop := ∀ pre c, pre ++ [c] <+: log → CallPaired pre c

theorem running_concat (log : List IntfCall) (c : IntfCall) (i : Nat) :
    running (log ++ [c]) i =
      if c.idx = i then (match c with | .start _ cfg => some cfg | .stop _ _ => none)
      else running log i := by
  rw [running, List.reverse_append, List.reverse_singleton, List.singleton_append, List.find?_cons]
  by_cases h : c.idx = i
  · cases c <;> simp [h]
  · rw [if_neg h, running, beq_eq_false_iff_ne.mpr h]

@[simp] theorem running_start (log : List IntfCall) (i j : Nat) (cfg : WanEntryCfg) :
    running (log ++ [.start j cfg]) i = if j = i then some cfg else running log i :=
  running_concat log _ i

@[simp] theorem running_stop (log : List IntfCall) (i j : Nat) (cfg : WanEntryCfg) :
    running (log ++ [.stop j cfg]) i = if j = i then none else running log i :=
  running_concat log _ i

theorem logPaired_concat {log : List IntfCall} {c : IntfCall} (h : LogPaired log)
    (hc : CallPaired log c) : LogPaired (log ++ [c]) := by
  intro pre d hp
  rcases List.prefix_concat_iff.mp hp with heq | hp
  · obtain ⟨rfl, he⟩ := List.append_inj' heq rfl
    obtain rfl := List.singleton_inj.mp he
    exact hc
  · exact h pre d hp

/-! ## The invariant -/

/-- The log and the objects agree: an interface runs with the stored configuration of the object
that has the flag `started`, and only then. -/
structure PairInv (objs : List WanEntryObj) (next : Nat) (log : List IntfCall) : Prop where
  addrs : (objs.map WanEntryObj.addr).Nodup
  fresh : ∀ o ∈ objs, o.addr < next
  idxs : (objs.map WanEntryObj.idx).Nodup
  rows : ∀ o ∈ objs, running log o.idx = if o.started then some o.cfg else none
  out : ∀ i, i ∉ objs.map WanEntryObj.idx → running log i = none
  active : ∀ o ∈ objs, o.started = true → o.cfg.active = 1
  paired : LogPaired log

theorem eq_of_nodup_map {α β : Type*} {g : α → β} {l : List α} (h : (l.map g).Nodup) {a b : α}
    (ha : a ∈ l) (hb : b ∈ l) (he : g a = g b) : a = b :=
  List.inj_on_of_nodup_map h ha hb he

/-- One object changes, and the log only in what it says about this object. -/
theorem PairInv.row {objs : List WanEntryObj} {next : Nat} {log log' : List IntfCall}
    (h : PairInv objs next log) {o : WanEntryObj} (ho : o ∈ objs) {g : WanEntryObj → WanEntryObj}
    (haddr : ∀ c, (g c).addr = c.addr) (hidx : ∀ c, (g c).idx = c.idx)
    (hlog : ∀ i, i ≠ o.idx → running log' i = running log i)
    (hrow : running log' o.idx = if (g o).started then some (g o).cfg else none)
    (hact : (g o).started = true → (g o).cfg.active = 1) (hpaired : LogPaired log') :
    PairInv (objs.map fun c => if c.addr == o.addr then g c else c) next log' := by
  have hmap : ∀ {β : Type} (π : WanEntryObj → β), (∀ c, π (g c) = π c) →
      (objs.map fun c => if c.addr == o.addr then g c else c).map π = objs.map π := by
    intro β π hπ
    rw [List.map_map]
    refine List.map_congr_left fun c _ => ?_
    rw [Function.comp_apply]
    split
    · exact hπ c
    · rfl
  -- an object of the new list is the changed one, or an old one with another number
  have hcases : ∀ c' ∈ objs.map fun c => if c.addr == o.addr then g c else c,
      c' = g o ∨ (c' ∈ objs ∧ c'.idx ≠ o.idx) := by
    intro c' hc'
    obtain ⟨c, hc, rfl⟩ := List.mem_map.mp hc'
    by_cases ha : c.addr = o.addr
    · obtain rfl := eq_of_nodup_map h.addrs hc ho ha
      simp
    · rw [if_neg (by simpa using ha)]
      exact .inr ⟨hc, fun hi => ha (eq_of_nodup_map h.idxs hc ho hi ▸ rfl)⟩
  constructor
  · rw [hmap _ haddr]
    exact h.addrs
  · intro c' hc'
    rcases hcases c' hc' with rfl | ⟨hc, -⟩
    · rw [haddr]
      exact h.fresh o ho
    · exact h.fresh c' hc
  · rw [hmap _ hidx]
    exact h.idxs
  · intro c' hc'
    rcases hcases c' hc' with rfl | ⟨hc, hi⟩
    · rw [hidx]
      exact hrow
    · rw [hlog _ hi]
      exact h.rows c' hc
  · intro i hi
    rw [hmap _ hidx] at hi
    rw [hlog i fun he => hi (he ▸ List.mem_map_of_mem ho)]
    exact h.out i hi
  · intro c' hc'
    rcases hcases c' hc' with rfl | ⟨hc, -⟩
    · exact hact
    · exact h.active c' hc
  · exact hpaired

/-- The invariant of a state; up flags do not matter. -/
def WanState.Paired (st : WanState) : Prop := PairInv st.cores st.next st.intfLog

theorem paired_boot : WanState.boot.Paired where
  addrs := List.nodup_nil
  fresh := by simp [WanState.boot, WanState.cores]
  idxs := List.nodup_nil
  rows := by simp [WanState.boot, WanState.cores]
  out := fun _ _ => rfl
  active := by simp [WanState.boot, WanState.cores]
  paired := by
    intro pre c hp
    exact absurd (List.prefix_nil.mp hp) (by simp)

theorem Frame.paired {st st' : WanState} (h : Frame st st') (hst : st.Paired) : st'.Paired := by
  rw [WanState.Paired, h.cores, h.next, h.intfLog]
  exact hst

/-! ## Starting, stopping and storing -/

theorem WanState.core_mem {st : WanState} {a : Nat} {o : WanEntryObj} (h : st.obj? a = some o) :
    o.core ∈ st.cores := List.mem_map_of_mem (WanState.mem_of_obj? h).1

theorem WanState.Paired.row_of {st : WanState} (hst : st.Paired) {a : Nat} {o : WanEntryObj}
    (h : st.obj? a = some o) :
    running st.intfLog o.idx = if o.started then some o.cfg else none :=
  hst.rows o.core (WanState.core_mem h)

theorem WanState.Paired.active_of {st : WanState} (hst : st.Paired) {a : Nat} {o : WanEntryObj}
    (h : st.obj? a = some o) (hs : o.started = true) : o.cfg.active = 1 :=
  hst.active o.core (WanState.core_mem h) hs

/-- A write through a pointer that does not look at the up flags is a write to the cores. -/
theorem WanState.cores_modify (st : WanState) (a : Nat) {f : WanEntryObj → WanEntryObj}
    (hf : ∀ o, (f o).core = f o.core) :
    (st.modify a f).cores = st.cores.map fun c => if c.addr == a then f c else c := by
  rw [cores, cores, modify, List.map_map, List.map_map]
  refine List.map_congr_left fun o _ => ?_
  simp only [Function.comp_apply]
  rw [show o.core.addr = o.addr from rfl]
  split
  · exact hf o
  · rfl

/-- A write to one object of a state that has the objects of `st`, and a longer log. -/
theorem paired_modify {st st' : WanState} {a : Nat} {o : WanEntryObj} (hst : st.Paired)
    (ho : st.obj? a = some o) (hcores : st'.cores = st.cores) (hnext : st'.next = st.next)
    {f : WanEntryObj → WanEntryObj} (hf : ∀ c, (f c).core = f c.core)
    (haddr : ∀ c, (f c).addr = c.addr) (hidx : ∀ c, (f c).idx = c.idx)
    (hlog : ∀ i, i ≠ o.idx → running st'.intfLog i = running st.intfLog i)
    (hrow : running st'.intfLog o.idx = if (f o.core).started then some (f o.core).cfg else none)
    (hact : (f o.core).started = true → (f o.core).cfg.active = 1)
    (hpaired : LogPaired st'.intfLog) : (st'.modify a f).Paired := by
  have hrows := hst.row (WanState.core_mem ho) haddr hidx hlog hrow hact hpaired
  rw [WanState.Paired, WanState.cores_modify _ _ hf, hcores]
  rw [show o.core.addr = a from (WanState.mem_of_obj? ho).2, ← hnext] at hrows
  exact hrows

theorem paired_stopIntf (w : Outside) {st : WanState} {a : Nat} {o : WanEntryObj}
    (hst : st.Paired) (ho : st.obj? a = some o) : (svcWanStopIntf w st a).Paired ∧
      ∃ o', (svcWanStopIntf w st a).obj? a = some o' ∧ o'.started = false := by
  rw [svcWanStopIntf, WanState.withObj_of_some ho]
  split
  · next hns => exact ⟨hst, o, ho, by simpa using hns⟩
  · next hs =>
    have hframe := svcWanDoStopIntf_frame w ho
    have hlog : (svcWanDoStopIntf w st a).intfLog = st.intfLog ++ [.stop o.idx o.cfg] :=
      hframe.intfLog
    have hrow : running st.intfLog o.idx = some o.cfg := by
      rw [hst.row_of ho, if_pos (by simpa using hs)]
    obtain ⟨o', ho', -⟩ := hframe.obj? (o := o) ho
    refine ⟨paired_modify hst ho hframe.cores hframe.next (fun _ => rfl) (fun _ => rfl)
      (fun _ => rfl) (fun i hi => ?_) ?_ (fun h => absurd h Bool.false_ne_true) ?_,
      _, WanState.obj?_modify ho' fun _ => rfl, rfl⟩
    · rw [hlog, running_stop, if_neg (Ne.symm hi)]
    · rw [hlog, running_stop, if_pos rfl]
      rfl
    · rw [hlog]
      exact logPaired_concat hst.paired hrow

theorem active_of_svcWanCheckCfg {cfg : WanEntryCfg} (h : svcWanCheckCfg cfg = true) :
    cfg.active = 1 := by
  rw [svcWanCheckCfg] at h
  split at h
  · exact absurd h (by decide)
  · next ha => simpa using ha

theorem paired_startIntf (w : Outside) {st : WanState} {a : Nat} {o : WanEntryObj}
    (hst : st.Paired) (ho : st.obj? a = some o) : (svcWanStartIntf w st a).Paired := by
  rw [svcWanStartIntf, WanState.withObj_of_some ho]
  split_ifs with hs hcheck
  · exact hst
  · exact hst
  · have hframe := svcWanDoStartIntf_frame w ho
    have hlog : (svcWanDoStartIntf w st a).intfLog = st.intfLog ++ [.start o.idx o.cfg] :=
      hframe.intfLog
    have hrow : running st.intfLog o.idx = none := by
      rw [hst.row_of ho, if_neg hs]
    refine paired_modify hst ho hframe.cores hframe.next (fun _ => rfl) (fun _ => rfl)
      (fun _ => rfl) (fun i hi => ?_) ?_ (fun _ => ?_) ?_
    · rw [hlog, running_start, if_neg (Ne.symm hi)]
    · rw [hlog, running_start, if_pos rfl]
      rfl
    · exact active_of_svcWanCheckCfg (by simpa using hcheck)
    · rw [hlog]
      exact logPaired_concat hst.paired hrow

/-- Storing a configuration is harmless while the interface does not run, or if nothing changes. -/
theorem paired_storeCfg (tmp : WanEntryCfg) {st : WanState} {a : Nat} {o : WanEntryObj}
    (hst : st.Paired) (ho : st.obj? a = some o) (h : o.started = true → tmp = o.cfg) :
    (st.storeCfg a tmp).Paired ∧ ∃ o', (st.storeCfg a tmp).obj? a = some o' := by
  refine ⟨paired_modify hst ho rfl rfl (fun _ => rfl) (fun _ => rfl) (fun _ => rfl)
    (fun _ _ => rfl) ?_ (fun hs => ?_) hst.paired, _, WanState.obj?_modify ho fun _ => rfl⟩
  · rw [hst.row_of ho]
    change _ = if o.started then some tmp else none
    split
    · next hs => rw [h hs]
    · rfl
  · change tmp.active = 1
    rw [h hs]
    exact hst.active_of ho hs

theorem paired_stopIf (effect : Bool) (w : Outside) {st : WanState} {a : Nat} {o : WanEntryObj}
    (hst : st.Paired) (ho : st.obj? a = some o) : (stopIf effect w st a).Paired ∧
      ∃ o', (stopIf effect w st a).obj? a = some o' ∧
        (o'.started = true → effect = false ∧ o' = o) := by
  cases effect with
  | true =>
    obtain ⟨hp, o', ho', hs⟩ := paired_stopIntf w hst ho
    exact ⟨hp, o', ho', fun h => absurd (h.symm.trans hs) (by decide)⟩
  | false => exact ⟨hst, o, ho, fun _ => ⟨rfl, rfl⟩⟩

theorem paired_startIf (effect : Bool) (w : Outside) {st : WanState} {a : Nat} {o : WanEntryObj}
    (hst : st.Paired) (ho : st.obj? a = some o) : (startIf effect w st a).Paired := by
  cases effect with
  | true => exact paired_startIntf w hst ho
  | false => exact hst

/-- **An update keeps starts and stops paired** if it stops the interface, or the interface does not
run, or it loads the configuration that is stored. -/
theorem paired_updateObject (u : UpdateEvt) {st : WanState} {a : Nat} {o : WanEntryObj}
    (hst : st.Paired) (ho : st.obj? a = some o)
    (h : ∀ tmp ∈ u.loaded, u.effect o = false → o.started = true → tmp = o.cfg) :
    (svcWanUpdateObject u st a).Paired := by
  rw [svcWanUpdateObject, WanState.withObj_of_some ho]
  cases hload : u.loaded with
  | none => exact hst
  | some tmp =>
    have hskip := h tmp hload
    obtain ⟨hp, o', ho', hrun⟩ := paired_stopIf (u.effect o) u.outside hst ho
    obtain ⟨hps, o₂, ho₂⟩ := paired_storeCfg tmp hp ho' fun hs => by
      obtain ⟨he, rfl⟩ := hrun hs
      exact hskip he hs
    dsimp only
    split_ifs with h1
    · -- an entry that was disabled does not run
      obtain ⟨hpe, o₃, ho₃⟩ := paired_storeCfg tmp hst ho fun hs => by
        exact absurd (h1.1.symm.trans (hst.active_of ho hs)) (by decide)
      exact paired_startIf _ _ hpe ho₃
    · exact hps
    · exact paired_startIf _ _ hps ho₂
    · exact hst

/-! ## Objects that come and go -/

theorem PairInv.create {objs : List WanEntryObj} {next : Nat} {log : List IntfCall}
    (h : PairInv objs next log) {o : WanEntryObj} (haddr : o.addr = next)
    (hs : o.started = false) (hnew : ∀ c ∈ objs, c.idx ≠ o.idx) :
    PairInv (objs ++ [o]) (next + 1) log := by
  have hout : o.idx ∉ objs.map WanEntryObj.idx := by
    intro hi
    obtain ⟨c, hc, he⟩ := List.mem_map.mp hi
    exact hnew c hc he
  have hcases : ∀ c ∈ objs ++ [o], c ∈ objs ∨ c = o := by
    intro c hc
    simpa using hc
  constructor
  · rw [List.map_append, List.map_singleton]
    refine List.nodup_append.mpr ⟨h.addrs, by simp, fun a ha b hb => ?_⟩
    obtain ⟨c, hc, rfl⟩ := List.mem_map.mp ha
    have := h.fresh c hc
    rw [List.mem_singleton.mp hb]
    omega
  · intro c hc
    rcases hcases c hc with hc | rfl
    · exact Nat.lt_succ_of_lt (h.fresh c hc)
    · omega
  · rw [List.map_append, List.map_singleton]
    refine List.nodup_append.mpr ⟨h.idxs, by simp, fun i hi j hj => ?_⟩
    rw [List.mem_singleton.mp hj]
    exact fun he => hout (he ▸ hi)
  · intro c hc
    rcases hcases c hc with hc | rfl
    · exact h.rows c hc
    · rw [h.out _ hout, hs, if_neg (by decide)]
  · intro i hi
    rw [List.map_append, List.mem_append, not_or] at hi
    exact h.out i hi.1
  · intro c hc
    rcases hcases c hc with hc | rfl
    · exact h.active c hc
    · rw [hs]
      exact fun hf => absurd hf (by decide)
  · exact h.paired

theorem PairInv.erase {l₁ l₂ : List WanEntryObj} {o : WanEntryObj} {next : Nat}
    {log : List IntfCall} (h : PairInv (l₁ ++ o :: l₂) next log) (hs : o.started = false) :
    PairInv (l₁ ++ l₂) next log := by
  have hsub : (l₁ ++ l₂).Sublist (l₁ ++ o :: l₂) :=
    List.Sublist.append_left (List.sublist_cons_self o l₂) l₁
  have ho : o ∈ l₁ ++ o :: l₂ := List.mem_append_right _ List.mem_cons_self
  refine ⟨(hsub.map _).nodup h.addrs, fun c hc => h.fresh c (hsub.subset hc),
    (hsub.map _).nodup h.idxs, fun c hc => h.rows c (hsub.subset hc), fun i hi => ?_,
    fun c hc => h.active c (hsub.subset hc), h.paired⟩
  by_cases hio : i = o.idx
  · rw [hio, h.rows o ho, hs, if_neg (by decide)]
  · refine h.out i fun hmem => ?_
    simp only [List.map_append, List.map_cons, List.mem_append, List.mem_cons] at hmem hi
    tauto

/-! ## Events -/

/-- The condition on an update: a new object is made only for an entry that has none, and an update
that does not touch the interface finds it stopped, or loads what is stored. -/
structure PairOk (tt : TypeTree) (maxPvc : Nat) (st : WanState) (u : UpdateEvt) : Prop where
  create : u.present = true → svcWanFindObject st u.path = none →
    ∀ n ∈ entryNumber tt maxPvc u.path, ∀ o ∈ st.objs, o.idx ≠ n
  skip : ∀ o ∈ svcWanFindObject st u.path, ∀ tmp ∈ u.loaded, u.effect o = false →
    o.started = true → tmp = o.cfg

instance PairOk.decidable (tt : TypeTree) (maxPvc : Nat) (st : WanState) (u : UpdateEvt) :
    Decidable (PairOk tt maxPvc st u) :=
  decidable_of_iff
    ((u.present = true → svcWanFindObject st u.path = none →
        ∀ n ∈ entryNumber tt maxPvc u.path, ∀ o ∈ st.objs, o.idx ≠ n) ∧
      ∀ o ∈ svcWanFindObject st u.path, ∀ tmp ∈ u.loaded, u.effect o = false →
        o.started = true → tmp = o.cfg)
    ⟨fun h => ⟨h.1, h.2⟩, fun h => ⟨h.create, h.skip⟩⟩

/-- The condition on an event. -/
def PairEvtOk (tt : TypeTree) (maxPvc : Nat) (st : WanState) : WanEvt → Prop
  | .update u => PairOk tt maxPvc st u
  | .xponUp entries => st.preEvt ≠ some .up →
    RunOk (svcWanHandleEventUpdate tt maxPvc) (PairOk tt maxPvc) st (entries.map startAllUpdate)
  | _ => True

instance PairEvtOk.decidable (tt : TypeTree) (maxPvc : Nat) (st : WanState) :
    ∀ ev, Decidable (PairEvtOk tt maxPvc st ev)
  | .update u => inferInstanceAs (Decidable (PairOk tt maxPvc st u))
  | .xponUp entries => inferInstanceAs (Decidable (st.preEvt ≠ some .up →
      RunOk (svcWanHandleEventUpdate tt maxPvc) (PairOk tt maxPvc) st
        (entries.map startAllUpdate)))
  | .delete _ _ => isTrue trivial
  | .conn _ _ _ => isTrue trivial
  | .xponDown _ => isTrue trivial

theorem obj?_of_mem {st : WanState} (h : (st.objs.map WanEntryObj.addr).Nodup) {o : WanEntryObj}
    (ho : o ∈ st.objs) : st.obj? o.addr = some o := by
  obtain ⟨o', ho'⟩ := WanState.obj?_of_valid (WanState.valid_of_mem ho)
  obtain ⟨hm, ha⟩ := WanState.mem_of_obj? ho'
  rw [ho', eq_of_nodup_map h hm ho ha]

theorem WanState.Paired.nodup_addrs {st : WanState} (hst : st.Paired) :
    (st.objs.map WanEntryObj.addr).Nodup := by
  have h := hst.addrs
  rwa [st.map_cores fun _ => rfl] at h

theorem paired_update {tt : TypeTree} {maxPvc : Nat} {st : WanState} {u : UpdateEvt}
    (hst : st.Paired) (h : PairOk tt maxPvc st u) :
    (svcWanHandleEventUpdate tt maxPvc st u).Paired := by
  rw [svcWanHandleEventUpdate]
  split
  · exact hst
  · next hpres =>
    cases hfind : svcWanFindObject st u.path with
    | some o =>
      have ho := obj?_of_mem hst.nodup_addrs (findObject_some hfind).1
      exact paired_updateObject u hst ho (h.skip o hfind)
    | none =>
      cases hent : entryOfPath tt maxPvc u.path with
      | none => exact hst
      | some e =>
        dsimp only
        split
        · exact hst
        · have hnum : entryNumber tt maxPvc u.path = some (e.1 * 8 + e.2) := by
            rw [entryNumber, hent]
            rfl
          have hnew : WanState.Paired { st with
              objs := st.objs ++ [newWanObj st.next u.path e.1 e.2], next := st.next + 1 } := by
            have hc := hst.create (o := (newWanObj st.next u.path e.1 e.2).core) rfl rfl
              (fun c hc => by
                obtain ⟨o, ho, rfl⟩ := List.mem_map.mp hc
                exact h.create (by simpa using hpres) hfind _ hnum o ho)
            simpa [WanState.Paired, WanState.cores] using hc
          have hobj := obj?_of_mem hnew.nodup_addrs
            (List.mem_append_right st.objs (List.mem_singleton_self
              (newWanObj st.next u.path e.1 e.2)))
          exact paired_updateObject u hnew hobj fun tmp _ _ hs => absurd hs (by
            simp [newWanObj])

theorem paired_delete (w : Outside) {st : WanState} (hst : st.Paired) (path : Str) :
    (svcWanHandleEventDelete w st path).Paired := by
  cases hfind : svcWanFindObject st path with
  | none =>
    rw [svcWanHandleEventDelete, hfind]
    exact hst
  | some o =>
    obtain ⟨o', l₁, l₂, ho', hobjs, heq⟩ := svcWanHandleEventDelete_eq w hst.nodup_addrs hfind
    have ho := obj?_of_mem hst.nodup_addrs (findObject_some hfind).1
    obtain ⟨hp, x, hx, hs⟩ := paired_stopIntf w hst ho
    obtain rfl : o' = x := Option.some.inj (ho'.symm.trans hx)
    rw [WanState.Paired, WanState.cores, hobjs, List.map_append, List.map_cons] at hp
    rw [heq, WanState.Paired, WanState.cores, List.map_append]
    exact hp.erase hs

/-- Stopping all interfaces one by one empties the list and leaves no interface running. -/
theorem paired_stopAllLoop (w : Outside) : ∀ (as : List Nat) {st : WanState},
    st.objs.map WanEntryObj.addr = as → st.Paired →
    (stopAllLoop w as st).Paired ∧ (stopAllLoop w as st).objs = []
  | [], _, h, hst => ⟨hst, List.map_eq_nil_iff.mp h⟩
  | a :: as, st, h, hst => by
    have hvalid : st.Valid a := by rw [WanState.Valid, h]; exact List.mem_cons_self
    obtain ⟨o, ho⟩ := WanState.obj?_of_valid hvalid
    obtain ⟨hp, o', ho', hs⟩ := paired_stopIntf w hst ho
    obtain ⟨os, hobjs, htail⟩ := stopIntf_head w h ho'
    have hdel := svcWanDelFromList_of_valid ho'
    rw [hobjs, List.eraseP_cons_of_pos (by simp)] at hdel
    rw [WanState.Paired, WanState.cores, hobjs] at hp
    rw [stopAllLoop, hdel]
    exact paired_stopAllLoop w as htail (@PairInv.erase [] _ _ _ _ hp hs)

/-- **One event keeps starts and stops paired.** -/
theorem paired_step {tt : TypeTree} {maxPvc : Nat} {st : WanState} {ev : WanEvt}
    (hst : st.Paired) (h : PairEvtOk tt maxPvc st ev) :
    (svcWanMgrHandleEvent tt maxPvc st ev).Paired := by
  cases ev with
  | update u => exact paired_update hst h
  | delete w path => exact paired_delete w hst path
  | conn w evt dev =>
    cases evt with
    | get f => exact (frame_svcWanHandleEventConnGet w st f dev).paired hst
    | lost f => exact (frame_svcWanHandleEventConnLost w st f dev).paired hst
  | xponUp entries =>
    rw [svcWanMgrHandleEvent]
    split
    · exact hst
    · next hpre =>
      exact RunOk.inv (fun (s : WanState) u (hs : s.Paired) hc => paired_update hs hc) (h hpre) hst
  | xponDown w =>
    rw [svcWanMgrHandleEvent]
    split
    · exact hst
    · obtain ⟨hp, hnil⟩ := paired_stopAllLoop w (st.objs.map WanEntryObj.addr) rfl hst
      rw [WanState.Paired, WanState.cores, hnil] at hp
      exact hp

/-! ## Runs -/

/-- Starts and stops pair up, and a started entry is stored as active. -/
structure StartsPaired (st : WanState) : Prop where
  log : LogPaired st.intfLog
  active : ∀ o ∈ st.objs, o.started = true → o.cfg.active = 1

theorem WanState.Paired.startsPaired {st : WanState} (hst : st.Paired) : StartsPaired st where
  log := hst.paired
  active := fun o ho hs => hst.active o.core (List.mem_map_of_mem ho) hs

/-- **In a run that makes one object for each entry, and in which an update that skips a running
interface loads what is stored, starts and stops pair up in every state.** -/
theorem runWan_startsPaired {tt : TypeTree} {maxPvc : Nat} {evts : List WanEvt}
    (h : RunOk (svcWanMgrHandleEvent tt maxPvc) (PairEvtOk tt maxPvc) .boot evts) :
    ∀ pre, pre <+: evts → StartsPaired (runWan tt maxPvc .boot pre) := by
  intro pre hpre
  have hst : (runWan tt maxPvc .boot pre).Paired :=
    RunOk.inv_prefix (fun _ _ hs hc => paired_step hs hc) h paired_boot hpre
  exact hst.startsPaired

/-- An update over TR-069. -/
def tr069Update (path : String) (cfg : WanEntryCfg) : UpdateEvt :=
  { plainUpdate path cfg with tr069 := true }

/-- An active WAN over DHCP with TR-069 service. -/
def tr069Wan : WanEntryCfg :=
  { active := 1, wanmode := 1, linkmode := 1, vtag := 1, version := versionIpv4,
    srvType := eSrvTr069 }

theorem runWan_startsPaired_sample : StartsPaired (runWan wanTypes 8 .boot
    [.update (plainUpdate "root.wan.pvc.1.entry.1" tr069Wan),
      .update (tr069Update "root.wan.pvc.1.entry.1" tr069Wan),
      .xponDown quiet,
      .xponUp [(1, 1, plainUpdate "" tr069Wan)],
      .delete quiet "root.wan.pvc.1.entry.1".toList]) :=
  runWan_startsPaired (by decide +kernel) _ (List.prefix_refl _)

/-- A commit over TR-069 that disables a running TR-069 WAN leaves it started, one that changes its
VLAN has it stopped later with the new configuration, and a second spelling of a path starts an
interface that runs. -/
theorem runWan_startsPaired_fail :
    (¬ StartsPaired (runWan wanTypes 8 .boot
      [.update (plainUpdate "root.wan.pvc.1.entry.1" tr069Wan),
        .update (tr069Update "root.wan.pvc.1.entry.1" { tr069Wan with active := 0 })])) ∧
    (¬ StartsPaired (runWan wanTypes 8 .boot
      [.update (plainUpdate "root.wan.pvc.1.entry.1" tr069Wan),
        .update (tr069Update "root.wan.pvc.1.entry.1" { tr069Wan with vid := 46 }),
        .delete quiet "root.wan.pvc.1.entry.1".toList])) ∧
    ¬ StartsPaired (runWan wanTypes 8 .boot
      [.update (plainUpdate "root.wan.pvc.1.entry.1" tr069Wan),
        .update (plainUpdate "root.Wan.pvc.1.entry.1" tr069Wan)]) := by
  refine ⟨fun h => absurd h.active (by decide +kernel), fun h => ?_, fun h => ?_⟩
  · have hlog := h.log [.start 0 tr069Wan] (.stop 0 { tr069Wan with vid := 46 })
      (by decide +kernel)
    exact absurd hlog (by rw [CallPaired]; decide)
  · have hlog := h.log [.start 0 tr069Wan] (.start 0 tr069Wan) (by decide +kernel)
    exact absurd hlog (by rw [CallPaired]; decide)

end OnuFirmware.Wan
