import OnuFirmware.Wan.Pairing

/-!
# The default route

`DefRouteIndexv4` and `DefRouteIndexv6` name the entry that has the default route, as text in the
configuration tree. Got and lost addresses keep them in step with the up flags. An update or a
deletion reaches them only through the losses that stopping the interface reports, so an entry that
is reconfigured or removed while it keeps an address takes the index with it.
-/

namespace OnuFirmware.Wan

open Clib Cfg Lib

/-! ## Texts of an index -/

theorem fmtNat_ne_notAvailable (n : Nat) : fmtNat n ≠ notAvailable := by
  intro he
  have hd : isDigit 'N' = true :=
    isDigit_of_mem_fmtNat (n := n) (by rw [he]; exact List.mem_cons_self)
  exact absurd hd (by decide)

theorem snprintf_fmtNat {n : Nat} (h : n < 64) : snprintf 16 (fmtNat n) = fmtNat n := by
  rw [snprintf]
  exact List.take_of_length_le ((length_fmtNat_le (by decide)).mpr (by omega))

/-- The index of a family is `N/A` or the number of an entry. -/
def IndexText (text : Str) : Prop := text = notAvailable ∨ ∃ n < 64, text = fmtNat n

theorem IndexText.snprintf_eq {text : Str} (h : IndexText text) : snprintf 16 text = text := by
  rcases h with rfl | ⟨n, hn, rfl⟩
  · rfl
  · exact snprintf_fmtNat hn

/-- The test of `update_default_route` whether an index names an entry. -/
theorem IndexText.names_iff {text : Str} (h : IndexText text) (n : Nat) :
    (text ≠ notAvailable ∧ (n : Int) = atoi text) ↔ text = fmtNat n := by
  rcases h with rfl | ⟨m, hm, rfl⟩
  · simp [(fmtNat_ne_notAvailable n).symm]
  · rw [atoi_fmtNat (by rw [intMax]; omega), fmtNat_inj]
    refine ⟨fun h => by omega, ?_⟩
    rintro rfl
    exact ⟨fmtNat_ne_notAvailable m, rfl⟩

theorem WanState.index_initIndices {st : WanState} (h : ∀ f, IndexText (st.index f)) (f : Family) :
    st.initIndices.index f = st.index f := by
  rw [WanState.index, WanState.initIndices]
  exact (h f).snprintf_eq

@[simp] theorem WanState.index_setIndex (st : WanState) (f f' : Family) (text : Str) :
    (st.setIndex f text).index f' = if f' = f then text else st.index f' := by
  simp only [WanState.index, WanState.setIndex, Function.update_apply]
  split <;> rfl

/-! ## One handling of a got or lost address -/

/-- The index of the family of an event after the event has been handled for an object. -/
def routeAfter (w : Outside) (st : WanState) (o : WanEntryObj) : ConnEvt → Str
  | .get f =>
    if o.up f = true ∧ o.cfg.srvE8cInternet = true ∧ w.gateway (.get f) o.idx ≠ [] ∧
        st.index f = notAvailable then fmtNat o.idx
    else st.index f
  | .lost f => if st.index f = fmtNat o.idx then defaultRouteSwitch w st f else st.index f

/-- **`update_default_route` writes the index of the family of its event only.** -/
theorem updateDefaultRoute_index (w : Outside) {st : WanState} {path : Str} {o : WanEntryObj}
    (ho : svcWanFindObject st path = some o) (hidx : o.idx < 64)
    (ht : ∀ f, IndexText (st.index f)) (evt : ConnEvt) (f : Family) :
    (updateDefaultRoute w st path evt).index f =
      if f = evt.fam then routeAfter w st o evt else st.index f := by
  rw [updateDefaultRoute, ho]
  cases evt with
  | get g =>
    cases g with
    | v4 =>
      have hup : o.up .v4 = o.upv4 := rfl
      simp only [routeAfter, ConnEvt.fam, hup]
      split_ifs <;> simp_all [WanState.index_initIndices ht, snprintf_fmtNat hidx, notAvailable]
    | v6 =>
      have hup : o.up .v6 = o.upv6 := rfl
      simp only [routeAfter, ConnEvt.fam, hup]
      split_ifs <;> simp_all [WanState.index_initIndices ht, snprintf_fmtNat hidx, notAvailable]
  | lost g =>
    have hswitch : defaultRouteSwitch w st.initIndices g = defaultRouteSwitch w st g := rfl
    have hnames := (ht g).names_iff o.idx
    simp only [routeAfter, ConnEvt.fam, WanState.index_initIndices ht, hswitch, ← hnames]
    split_ifs <;> simp_all [WanState.index_initIndices ht, notAvailable]

theorem svcWanHandleConnEvt_index (w : Outside) (old : WanState)
    {st : WanState} {obj o : WanEntryObj}
    (ho : svcWanFindObject st obj.path = some o) (hidx : o.idx < 64)
    (ht : ∀ f, IndexText (st.index f)) (evt : ConnEvt) (f : Family) :
    (svcWanHandleConnEvt w old st obj evt).index f =
      if f = evt.fam then routeAfter w st o evt else st.index f :=
  updateDefaultRoute_index w ho hidx ht evt f

/-! ## The invariant -/

/-- The index of a family is `N/A`, or the number of an entry of the list that has Internet service
and is up. -/
def WanState.RouteNamed (st : WanState) (f : Family) : Prop :=
  st.index f = notAvailable ∨
    ∃ o ∈ st.objs, o.cfg.srvE8cInternet = true ∧ o.up f = true ∧ st.index f = fmtNat o.idx

/-- The index of a family after the records of a log. -/
def lastIndex (log : List ConnRec) (f : Family) : Str :=
  match log.reverse.find? fun r => r.evt.fam == f with
  | some r => r.after
  | none => notAvailable

/-- What one handling may do to the index of its family. -/
structure ConnRec.Ok (r : ConnRec) : Prop where
  /-- The index was `N/A`, or the entry it named has gone down. -/
  change : r.after ≠ r.before → r.before = notAvailable ∨
    ∃ o ∈ r.objsBefore, r.before = fmtNat o.idx ∧ o.up r.evt.fam = true ∧
      ∀ o' ∈ r.objsAfter, o'.idx = o.idx → o'.up r.evt.fam = false
  /-- The index is given up only if no other entry can take the route. -/
  lost : ∀ f, r.evt = .lost f → r.before = fmtNat r.idx → r.after = notAvailable →
    ∀ o ∈ r.objsAfter, o.idx ≠ r.idx → o.cfg.srvE8cInternet = true → o.up f = true →
      r.gateway o.idx = []

/-- Both indices name what they should, and every change of them is a handling that may make it. -/
structure RouteOk (st : WanState) : Prop where
  named : ∀ f, st.RouteNamed f
  last : ∀ f, st.index f = lastIndex st.connLog f
  log : ∀ pre r, pre ++ [r] <+: st.connLog → r.before = lastIndex pre r.evt.fam ∧ r.Ok

theorem lastIndex_concat (log : List ConnRec) (r : ConnRec) (f : Family) :
    lastIndex (log ++ [r]) f = if f = r.evt.fam then r.after else lastIndex log f := by
  rw [lastIndex, List.reverse_append, List.reverse_singleton, List.singleton_append,
    List.find?_cons]
  by_cases h : f = r.evt.fam
  · simp [h]
  · rw [if_neg h, lastIndex, beq_eq_false_iff_ne.mpr fun he => h he.symm]

/-- An entry that is named stays named where its object keeps the service, the flag and the
number. -/
theorem WanState.RouteNamed.map {st st' : WanState} {f : Family} (h : st.RouteNamed f)
    (hi : st'.index f = st.index f)
    (hobj : ∀ o ∈ st.objs, o.cfg.srvE8cInternet = true → o.up f = true →
      st.index f = fmtNat o.idx →
      ∃ o' ∈ st'.objs, o'.cfg.srvE8cInternet = true ∧ o'.up f = true ∧ o'.idx = o.idx) :
    st'.RouteNamed f := by
  rw [RouteNamed, hi]
  rcases h with h | ⟨o, ho, hs, hu, hn⟩
  · exact .inl h
  · obtain ⟨o', ho', hs', hu', hn'⟩ := hobj o ho hs hu hn
    exact .inr ⟨o', ho', hs', hu', hn' ▸ hn⟩

theorem WanState.mem_modify {st : WanState} {o : WanEntryObj} (ho : o ∈ st.objs) (a : Nat)
    (g : WanEntryObj → WanEntryObj) :
    (if o.addr == a then g o else o) ∈ (st.modify a g).objs :=
  List.mem_map_of_mem (f := fun o => if o.addr == a then g o else o) ho

theorem WanState.RouteNamed.modify {st : WanState} {f : Family} (h : st.RouteNamed f) (a : Nat)
    {g : WanEntryObj → WanEntryObj}
    (hg : ∀ o ∈ st.objs, o.addr = a → o.cfg.srvE8cInternet = true → o.up f = true →
      st.index f = fmtNat o.idx →
      (g o).cfg.srvE8cInternet = true ∧ (g o).up f = true ∧ (g o).idx = o.idx) :
    (st.modify a g).RouteNamed f := by
  refine h.map rfl fun o ho hs hu hn => ⟨_, st.mem_modify ho a g, ?_⟩
  by_cases ha : o.addr = a
  · rw [if_pos (by simpa using ha)]
    exact hg o ho ha hs hu hn
  · rw [if_neg (by simpa using ha)]
    exact ⟨hs, hu, rfl⟩

/-- The list has one object for each entry, and the indices are in order. -/
structure RouteInv (tt : TypeTree) (maxPvc : Nat) (st : WanState) : Prop where
  objs : ObjsInv tt maxPvc st
  route : RouteOk st

section Invariant

variable {tt : TypeTree} {maxPvc : Nat} {st : WanState}

theorem RouteInv.indexText (hmax : maxPvc ≤ 8) (h : RouteInv tt maxPvc st) (f : Family) :
    IndexText (st.index f) := by
  rcases h.route.named f with hn | ⟨o, ho, -, -, hn⟩
  · exact .inl hn
  · exact .inr ⟨o.idx, h.objs.idx_lt hmax ho, hn⟩

/-- A step that writes neither an index nor the log. -/
theorem RouteOk.same {st' : WanState} (h : RouteOk st) (hr : st'.defRoute = st.defRoute)
    (hl : st'.connLog = st.connLog) (hn : ∀ f, st'.RouteNamed f) : RouteOk st' where
  named := hn
  last := fun f => by
    rw [WanState.index, hr, hl]
    exact h.last f
  log := by
    rw [hl]
    exact h.log

/-! ## Handlings keep the invariant -/

theorem WanEntryObj.up_setUp (o : WanEntryObj) (f g : Family) (b : Bool) :
    (o.setUp g b).up f = if f = g then b else o.up f := by
  cases f <;> cases g <;> rfl

@[simp] theorem WanEntryObj.setUp_cfg (o : WanEntryObj) (f : Family) (b : Bool) :
    (o.setUp f b).cfg = o.cfg := by cases f <;> rfl

@[simp] theorem WanEntryObj.setUp_idx (o : WanEntryObj) (f : Family) (b : Bool) :
    (o.setUp f b).idx = o.idx := by cases f <;> rfl

@[simp] theorem WanEntryObj.setUp_path (o : WanEntryObj) (f : Family) (b : Bool) :
    (o.setUp f b).path = o.path := by cases f <;> rfl

/-- The flag that an event leaves. -/
def ConnEvt.isGet : ConnEvt → Bool
  | .get _ => true
  | .lost _ => false

/-- The state in which the default route is updated. -/
def WanState.flagged (st : WanState) (o : WanEntryObj) (evt : ConnEvt) : WanState :=
  st.modify o.addr fun x => x.setUp evt.fam evt.isGet

theorem mem_flagged {o : WanEntryObj} (ho : o ∈ st.objs) (evt : ConnEvt) :
    o.setUp evt.fam evt.isGet ∈ (st.flagged o evt).objs := by
  have hm := st.mem_modify ho o.addr fun x => x.setUp evt.fam evt.isGet
  rwa [if_pos (by simp)] at hm

theorem sameObjs_flagged (st : WanState) (o : WanEntryObj) (evt : ConnEvt) :
    SameObjs st (st.flagged o evt) :=
  (frame_modify st o.addr fun x => x.core_setUp evt.fam evt.isGet).sameObjs

theorem ObjsInv.findObject {o : WanEntryObj} (h : ObjsInv tt maxPvc st) (ho : o ∈ st.objs) :
    svcWanFindObject st o.path = some o := by
  cases hf : svcWanFindObject st o.path with
  | none => exact absurd rfl (findObject_none hf o ho)
  | some x =>
    obtain ⟨hx, hp⟩ := findObject_some hf
    rw [eq_of_nodup_map h.paths hx ho hp]

theorem ObjsInv.findObject_flagged {o : WanEntryObj} (h : ObjsInv tt maxPvc st) (ho : o ∈ st.objs)
    (evt : ConnEvt) :
    svcWanFindObject (st.flagged o evt) o.path = some (o.setUp evt.fam evt.isGet) := by
  have hf := (h.same (sameObjs_flagged st o evt)).findObject (mem_flagged ho evt)
  rwa [WanEntryObj.setUp_path] at hf

/-- The index of a family after an event was handled for an object of the list. -/
theorem RouteInv.index_connEvt (hmax : maxPvc ≤ 8) (h : RouteInv tt maxPvc st) (w : Outside)
    {o : WanEntryObj} (ho : o ∈ st.objs) (evt : ConnEvt) (f : Family) :
    (svcWanHandleConnEvt w st (st.flagged o evt) o evt).index f =
      if f = evt.fam then routeAfter w (st.flagged o evt) (o.setUp evt.fam evt.isGet) evt
      else st.index f :=
  svcWanHandleConnEvt_index w st (h.objs.findObject_flagged ho evt)
    (by simpa using h.objs.idx_lt hmax ho) (fun g => h.indexText hmax g) evt f

theorem defaultRouteSwitch_cases (w : Outside) (st : WanState) (f : Family) :
    (∃ o ∈ st.objs, o.cfg.srvE8cInternet = true ∧ o.up f = true ∧
      defaultRouteSwitch w st f = snprintf 16 (fmtNat o.idx)) ∨
    (defaultRouteSwitch w st f = notAvailable ∧ ∀ o ∈ st.objs, o.cfg.srvE8cInternet = true →
      o.up f = true → w.gateway (.lost f) o.idx = []) := by
  rw [defaultRouteSwitch]
  split
  · next o ho =>
    have hp := List.find?_some ho
    simp only [Bool.and_eq_true] at hp
    exact .inl ⟨o, List.mem_of_find?_eq_some ho, hp.1.1, hp.1.2, rfl⟩
  · next hnone =>
    refine .inr ⟨rfl, fun o ho hs hu => ?_⟩
    have hp := List.find?_eq_none.mp hnone o ho
    simpa [hs, hu] using hp

/-- A family whose index is kept stays named, unless the event takes the address of the entry. -/
theorem RouteInv.named_flagged (h : RouteInv tt maxPvc st) {o : WanEntryObj} (ho : o ∈ st.objs)
    {evt : ConnEvt} {f : Family}
    (hkeep : ∀ g, evt = .lost g → f = g → st.index f ≠ fmtNat o.idx) :
    (st.flagged o evt).RouteNamed f := by
  refine (h.route.named f).modify o.addr fun x hx ha hs hu hn => ⟨by simpa using hs, ?_, by simp⟩
  obtain rfl := eq_of_nodup_map h.objs.addrs hx ho ha
  rw [WanEntryObj.up_setUp]
  split
  · next hf =>
    cases evt with
    | get g => rfl
    | lost g => exact absurd hn (hkeep g rfl hf)
  · exact hu

theorem WanState.routeNamed_of_objs {st' : WanState} {f : Family} (h : st.RouteNamed f)
    (ho : st'.objs = st.objs) (hi : st'.index f = st.index f) : st'.RouteNamed f := by
  rw [RouteNamed, hi, ho]
  exact h

/-- **Handling a got or lost address of an object of the list keeps both indices named.** -/
theorem RouteInv.named_connEvt (hmax : maxPvc ≤ 8) (h : RouteInv tt maxPvc st) (w : Outside)
    {o : WanEntryObj} (ho : o ∈ st.objs) (evt : ConnEvt) (f : Family) :
    (svcWanHandleConnEvt w st (st.flagged o evt) o evt).RouteNamed f := by
  have hobjs := svcWanHandleConnEvt_objs w st (st.flagged o evt) o evt
  have hindex := h.index_connEvt hmax w ho evt f
  have hidx : ∀ x ∈ (st.flagged o evt).objs, x.idx < 64 := fun x hx =>
    (h.objs.same (sameObjs_flagged st o evt)).idx_lt hmax hx
  by_cases hf : f = evt.fam
  · rw [if_pos hf] at hindex
    cases evt with
    | get g =>
      obtain rfl : f = g := hf
      rw [routeAfter] at hindex
      split at hindex
      · next hset =>
        refine .inr ⟨o.setUp f true, ?_, by simpa using hset.2.1, hset.1, hindex⟩
        rw [hobjs]
        exact mem_flagged ho (.get f)
      · have hkept := h.named_flagged (f := f) ho fun g (he : ConnEvt.get f = .lost g) => by
          exact absurd he (by simp)
        exact WanState.routeNamed_of_objs hkept hobjs hindex
    | lost g =>
      obtain rfl : f = g := hf
      rw [routeAfter, WanEntryObj.setUp_idx] at hindex
      split at hindex
      · rcases defaultRouteSwitch_cases w (st.flagged o (.lost f)) f with
          ⟨x, hx, hs, hu, hsw⟩ | ⟨hsw, -⟩
        · rw [hsw, snprintf_fmtNat (hidx x hx)] at hindex
          exact .inr ⟨x, hobjs ▸ hx, hs, hu, hindex⟩
        · exact .inl (hindex.trans hsw)
      · next hne =>
        exact WanState.routeNamed_of_objs (h.named_flagged ho fun _ _ _ => hne) hobjs hindex
  · rw [if_neg hf] at hindex
    refine WanState.routeNamed_of_objs (h.named_flagged ho fun g he hg => ?_) hobjs hindex
    exact absurd (hg.trans (by rw [he]; rfl)) hf

/-- The record that a handling adds to the log. -/
def connRecord (w : Outside) (st : WanState) (o : WanEntryObj) (evt : ConnEvt) : ConnRec :=
  ⟨evt, o.idx, st.objs, (st.flagged o evt).objs, st.index evt.fam,
    (svcWanHandleConnEvt w st (st.flagged o evt) o evt).index evt.fam, w.gateway evt⟩

theorem connLog_connEvt (w : Outside) (st : WanState) (o : WanEntryObj) (evt : ConnEvt) :
    (svcWanHandleConnEvt w st (st.flagged o evt) o evt).connLog =
      st.connLog ++ [connRecord w st o evt] := by
  obtain ⟨d, hd⟩ := updateDefaultRoute_eq w (st.flagged o evt) o.path evt
  simp only [connRecord, svcWanHandleConnEvt, hd]
  rfl

/-- The object of an entry in the list with the new flag. -/
theorem ObjsInv.up_flagged {o x : WanEntryObj} (h : ObjsInv tt maxPvc st) (ho : o ∈ st.objs)
    {evt : ConnEvt} (hx : x ∈ (st.flagged o evt).objs) (hi : x.idx = o.idx) :
    x.up evt.fam = evt.isGet := by
  have hinv := h.same (sameObjs_flagged st o evt)
  have he : x = o.setUp evt.fam evt.isGet :=
    eq_of_nodup_map hinv.idxs hx (mem_flagged ho evt) (by simpa using hi)
  rw [he, WanEntryObj.up_setUp, if_pos rfl]

theorem RouteInv.connRecord_ok (hmax : maxPvc ≤ 8) (h : RouteInv tt maxPvc st) (w : Outside)
    {o : WanEntryObj} (ho : o ∈ st.objs) (evt : ConnEvt) : (connRecord w st o evt).Ok := by
  have hindex := h.index_connEvt hmax w ho evt evt.fam
  rw [if_pos rfl] at hindex
  constructor
  · intro hne
    show st.index evt.fam = notAvailable ∨ _
    have hne : routeAfter w (st.flagged o evt) (o.setUp evt.fam evt.isGet) evt ≠ st.index evt.fam :=
      hindex ▸ hne
    cases evt with
    | get f =>
      rw [routeAfter] at hne
      split at hne
      · next hset => exact .inl hset.2.2.2
      · exact absurd rfl hne
    | lost f =>
      rw [routeAfter, WanEntryObj.setUp_idx] at hne
      split at hne
      · next heq =>
        -- the entry that was named is the one that lost its address
        have heq : st.index f = fmtNat o.idx := heq
        rcases h.route.named f with hna | ⟨x, hx, -, hu, hn⟩
        · exact .inl hna
        · obtain rfl := eq_of_nodup_map h.objs.idxs hx ho (fmtNat_inj.mp (hn.symm.trans heq))
          exact .inr ⟨x, hx, hn, hu, fun x' hx' hi => h.objs.up_flagged ho hx' hi⟩
      · exact absurd rfl hne
  · rintro f hevt hbefore hafter x hx hxo hs hu
    obtain rfl : evt = .lost f := hevt
    have hbefore : (st.flagged o (.lost f)).index f = fmtNat o.idx := hbefore
    have hafter : routeAfter w (st.flagged o (.lost f)) (o.setUp f false) (.lost f) =
      notAvailable := hindex.symm.trans hafter
    rw [routeAfter, WanEntryObj.setUp_idx, if_pos hbefore] at hafter
    rcases defaultRouteSwitch_cases w (st.flagged o (.lost f)) f with ⟨y, hy, -, -, hsw⟩ | ⟨-, hall⟩
    · have hlt := (h.objs.same (sameObjs_flagged st o (.lost f))).idx_lt hmax hy
      rw [hsw, snprintf_fmtNat hlt] at hafter
      exact absurd hafter (fmtNat_ne_notAvailable y.idx)
    · exact hall x hx hs hu

/-- **Handling a got or lost address of an object of the list keeps the invariant.** -/
theorem RouteInv.connEvt (hmax : maxPvc ≤ 8) (h : RouteInv tt maxPvc st) (w : Outside)
    {o : WanEntryObj} (ho : o ∈ st.objs) (evt : ConnEvt) :
    RouteInv tt maxPvc (svcWanHandleConnEvt w st (st.flagged o evt) o evt) where
  objs := h.objs.same ((sameObjs_flagged st o evt).trans (frame_svcWanHandleConnEvt ..).sameObjs)
  route := by
    constructor
    · exact h.named_connEvt hmax w ho evt
    · intro f
      rw [connLog_connEvt, lastIndex_concat]
      split
      · next hf => exact congrArg _ hf
      · next hf =>
        have hf : f ≠ evt.fam := hf
        rw [h.index_connEvt hmax w ho evt f, if_neg hf]
        exact h.route.last f
    · intro pre r hp
      rw [connLog_connEvt] at hp
      rcases List.prefix_concat_iff.mp hp with heq | hp
      · obtain ⟨rfl, he⟩ := List.append_inj' heq rfl
        obtain rfl := List.singleton_inj.mp he
        exact ⟨h.route.last evt.fam, h.connRecord_ok hmax w ho evt⟩
      · exact h.route.log pre r hp

theorem RouteInv.connGet (hmax : maxPvc ≤ 8) (h : RouteInv tt maxPvc st) (w : Outside) (f : Family)
    (dev : Str) : RouteInv tt maxPvc (svcWanHandleEventConnGet w st f dev) := by
  cases f with
  | v4 =>
    rw [svcWanHandleEventConnGet, svcWanHandleEventConnGetv4]
    split
    · exact h
    · next o ho =>
      split
      · exact h
      · exact h.connEvt hmax w (mem_of_findByDev ho) (.get .v4)
  | v6 =>
    rw [svcWanHandleEventConnGet, svcWanHandleEventConnGetv6]
    split
    · exact h
    · next o ho =>
      split_ifs
      · exact h
      · exact h
      · exact h.connEvt hmax w (mem_of_findByDev ho) (.get .v6)

theorem lostDeal_eq (w : Outside) {a : Nat} {o : WanEntryObj} (ho : st.obj? a = some o)
    (f : Family) : svcWanHandleEventConnLostDeal w st a f =
      svcWanHandleConnEvt w st (st.flagged o (.lost f)) o (.lost f) := by
  obtain ⟨-, rfl⟩ := WanState.mem_of_obj? ho
  rw [svcWanHandleEventConnLostDeal, WanState.withObj_of_some ho]
  rfl

theorem RouteInv.connLost (hmax : maxPvc ≤ 8) (h : RouteInv tt maxPvc st) (w : Outside) (f : Family)
    (dev : Str) : RouteInv tt maxPvc (svcWanHandleEventConnLost w st f dev) := by
  rw [svcWanHandleEventConnLost]
  split
  · exact h
  · next o ho =>
    have hmem := mem_of_findByDev ho
    split_ifs
    · exact h
    · exact h
    · rw [lostDeal_eq w (obj?_of_mem h.objs.addrs hmem)]
      exact h.connEvt hmax w hmem (.lost f)

/-! ## Stopping an interface -/

/-- The name of the interface of an object leads back to its number. -/
theorem ObjsInv.getWanindexByName_intfName (hmax : maxPvc ≤ 8) (h : ObjsInv tt maxPvc st)
    {o : WanEntryObj} (ho : o ∈ st.objs) :
    getWanindexByName (svcWanIntfName o 16) = some o.idx := by
  have hlt := h.idx_lt hmax ho
  rw [svcWanIntfName]
  split
  · have hppp : ∀ n : Fin 64,
        getWanindexByName (snprintf 16 ("ppp".toList ++ fmtNat n.val)) = some n.val := by decide
    exact hppp ⟨o.idx, hlt⟩
  · have hdev : o.dev = devOfNumber o.idx := (h.named _ (List.mem_map_of_mem ho)).2
    have hfits : ∀ n : Fin 64, snprintf 16 (devOfNumber n) = devOfNumber n := by decide
    rw [hdev, hfits ⟨o.idx, hlt⟩, getWanindexByName_devOfNumber o.idx hlt]

/-- A loss takes the address of its family from an object that is up. -/
def Loss.takes (l : Loss) (cfg : WanEntryCfg) (f : Family) : Bool :=
  l.fam == f && (l.direct || !cfg.isStatic f)

/-- **What one report of a stopped interface does**: nothing, or it is handled as a lost address of
the object. -/
theorem reportLoss_cases (w : Outside) {a : Nat} {o : WanEntryObj} {dev : Str}
    (h : ObjsInv tt maxPvc st) (ho : st.obj? a = some o) (hdev : getWanindexByName dev = some o.idx)
    (l : Loss) :
    (reportLoss w a dev st l = st ∧ ∀ f, l.takes o.cfg f = true → o.up f = false) ∨
    reportLoss w a dev st l = svcWanHandleConnEvt w st (st.flagged o (.lost l.fam)) o
    (.lost l.fam) := by
  obtain ⟨hmem, rfl⟩ := WanState.mem_of_obj? ho
  rw [reportLoss]
  split
  · exact .inr (lostDeal_eq w ho l.fam)
  · next hdir =>
    have hfind : svcWanFindObjectByDev st dev = some o := by
      rw [svcWanFindObjectByDev, hdev]
      dsimp only
      cases hf : st.objs.find? fun x => x.idx == o.idx with
      | none => exact absurd (List.find?_eq_none.mp hf o hmem) (by simp)
      | some x =>
        have hx := List.mem_of_find?_eq_some hf
        rw [eq_of_nodup_map h.idxs hx hmem (by simpa using List.find?_some hf)]
    rw [svcWanHandleEventConnLost, hfind]
    dsimp only
    split_ifs with hup hstatic
    · refine .inl ⟨rfl, fun f ht => ?_⟩
      rw [Loss.takes, Bool.and_eq_true, beq_iff_eq] at ht
      simpa [ht.1] using hup
    · refine .inl ⟨rfl, fun f ht => ?_⟩
      rw [Loss.takes, Bool.and_eq_true, beq_iff_eq] at ht
      obtain ⟨rfl, ht⟩ := ht
      simp [hdir, hstatic] at ht
    · exact .inr (lostDeal_eq w ho l.fam)

theorem RouteInv.reportLoss (hmax : maxPvc ≤ 8) (h : RouteInv tt maxPvc st) (w : Outside) {a : Nat}
    {o : WanEntryObj} {dev : Str} (ho : st.obj? a = some o)
    (hdev : getWanindexByName dev = some o.idx) (l : Loss) :
    RouteInv tt maxPvc (reportLoss w a dev st l) := by
  rcases reportLoss_cases w h.objs ho hdev l with ⟨heq, -⟩ | heq
  · rw [heq]
    exact h
  · rw [heq]
    exact h.connEvt hmax w (WanState.mem_of_obj? ho).1 (.lost l.fam)

/-- A lost address never makes the index name the entry that lost it. -/
theorem RouteInv.index_lost_ne (hmax : maxPvc ≤ 8) (h : RouteInv tt maxPvc st) (w : Outside)
    {o : WanEntryObj} (ho : o ∈ st.objs) (f : Family) :
    (svcWanHandleConnEvt w st (st.flagged o (.lost f)) o (.lost f)).index f ≠ fmtNat o.idx := by
  intro hi
  have hinv := h.connEvt hmax w ho (.lost f)
  rcases hinv.route.named f with hna | ⟨x, hx, -, hu, hn⟩
  · exact fmtNat_ne_notAvailable o.idx (hi.symm.trans hna)
  · rw [svcWanHandleConnEvt_objs] at hx
    have hidx := fmtNat_inj.mp (hn.symm.trans hi)
    exact absurd hu (by rw [show x.up f = false from h.objs.up_flagged ho hx hidx]; decide)

/-- A report does not make an index name the entry, and one that takes the address of a family
clears the index of the family. -/
theorem RouteInv.index_reportLoss_ne (hmax : maxPvc ≤ 8) (h : RouteInv tt maxPvc st) (w : Outside)
    {a : Nat} {o : WanEntryObj} {dev : Str} (ho : st.obj? a = some o)
    (hdev : getWanindexByName dev = some o.idx) {l : Loss} {f : Family}
    (hne : st.index f ≠ fmtNat o.idx ∨ l.takes o.cfg f = true) :
    (Wan.reportLoss w a dev st l).index f ≠ fmtNat o.idx := by
  have hmem := (WanState.mem_of_obj? ho).1
  -- an entry that is not up is not named
  have hdown : o.up f = false → st.index f ≠ fmtNat o.idx := by
    intro hd hi
    rcases h.route.named f with hna | ⟨x, hx, -, hu, hn⟩
    · exact fmtNat_ne_notAvailable o.idx (hi.symm.trans hna)
    · obtain rfl := eq_of_nodup_map h.objs.idxs hx hmem (fmtNat_inj.mp (hn.symm.trans hi))
      exact absurd hu (by rw [hd]; decide)
  rcases reportLoss_cases w h.objs ho hdev l with ⟨heq, htakes⟩ | heq
  · rw [heq]
    exact hne.elim id fun ht => hdown (htakes f ht)
  · rw [heq]
    by_cases hf : f = l.fam
    · obtain rfl := hf
      exact h.index_lost_ne hmax w hmem l.fam
    · rw [h.index_connEvt hmax w hmem, if_neg (show f ≠ (ConnEvt.lost l.fam).fam from hf)]
      refine hne.resolve_right fun ht => hf ?_
      rw [Loss.takes, Bool.and_eq_true, beq_iff_eq] at ht
      exact ht.1.symm

/-- The reports keep the invariant. An index that does not name the entry stays so, and one whose
family is taken by a report no longer names it. -/
theorem RouteInv.foldl_reportLoss (hmax : maxPvc ≤ 8) (w : Outside) {a : Nat} {dev : Str}
    {c : WanEntryObj} (hdev : getWanindexByName dev = some c.idx) : ∀ (ls : List Loss)
    {st : WanState}, RouteInv tt maxPvc st → (∃ o, st.obj? a = some o ∧ o.core = c) →
    RouteInv tt maxPvc (ls.foldl (Wan.reportLoss w a dev) st) ∧
    ∀ f, (st.index f ≠ fmtNat c.idx ∨ ∃ l ∈ ls, l.takes c.cfg f = true) →
      (ls.foldl (Wan.reportLoss w a dev) st).index f ≠ fmtNat c.idx
  | [], st, h, _ => ⟨h, fun f hf => by simpa using hf⟩
  | l :: ls, st, h, ⟨o, ho, hc⟩ => by
    obtain ⟨hmem, rfl⟩ := WanState.mem_of_obj? ho
    obtain rfl := hc
    obtain ⟨o', ho', hc'⟩ := (frame_reportLoss w dev (WanState.valid_of_mem hmem) l).obj? ho
    obtain ⟨hinv, hne⟩ := foldl_reportLoss hmax w hdev ls (h.reportLoss hmax w ho hdev l)
      ⟨o', ho', hc'⟩
    refine ⟨hinv, fun f hf => hne f ?_⟩
    have hfirst := h.index_reportLoss_ne hmax w ho hdev (l := l) (f := f)
    rcases hf with hf | ⟨l', hl', ht⟩
    · exact .inl (hfirst (.inl hf))
    · rcases List.mem_cons.mp hl' with rfl | hl'
      · exact .inl (hfirst (.inr ht))
      · exact .inr ⟨l', hl', ht⟩

theorem RouteInv.same {st' : WanState} (h : RouteInv tt maxPvc st) (ho : SameObjs st st')
    (hr : st'.defRoute = st.defRoute) (hl : st'.connLog = st.connLog)
    (hn : ∀ f, st'.RouteNamed f) : RouteInv tt maxPvc st' :=
  ⟨h.objs.same ho, h.route.same hr hl hn⟩

theorem RouteInv.modify (h : RouteInv tt maxPvc st) (a : Nat) {g : WanEntryObj → WanEntryObj}
    (hid : ∀ o, (g o).ident = o.ident)
    (hg : ∀ f, ∀ o ∈ st.objs, o.addr = a → o.cfg.srvE8cInternet = true → o.up f = true →
      st.index f = fmtNat o.idx → (g o).cfg.srvE8cInternet = true ∧ (g o).up f = true) :
    RouteInv tt maxPvc (st.modify a g) := by
  refine h.same (sameObjs_modify st a hid) rfl rfl fun f => ?_
  refine (h.route.named f).modify a fun o ho ha hs hu hn => ?_
  obtain ⟨hs', hu'⟩ := hg f o ho ha hs hu hn
  exact ⟨hs', hu', show (g o).ident.idx = o.ident.idx by rw [hid]⟩

theorem RouteInv.setStarted (h : RouteInv tt maxPvc st) (a : Nat) (b : Bool) :
    RouteInv tt maxPvc (st.modify a fun o => { o with started := b }) := by
  refine h.modify a (fun _ => rfl) fun f o _ _ hs hu _ => ⟨hs, ?_⟩
  cases f <;> exact hu

theorem RouteInv.logIntf (h : RouteInv tt maxPvc st) (log : List IntfCall) :
    RouteInv tt maxPvc { st with intfLog := log } :=
  h.same ⟨rfl, rfl, rfl⟩ rfl rfl h.route.named

/-- Stopping the interface of an object takes the address of a family from it. -/
def WanEntryObj.stopDrops (o : WanEntryObj) (f : Family) : Bool :=
  o.started && (stopLosses o.cfg).any fun l => l.takes o.cfg f

/-- **Stopping an interface keeps the invariant.** -/
theorem RouteInv.stopIntf (hmax : maxPvc ≤ 8) (h : RouteInv tt maxPvc st) (w : Outside) {a : Nat}
    {o : WanEntryObj} (ho : st.obj? a = some o) :
    RouteInv tt maxPvc (svcWanStopIntf w st a) ∧
    ∀ f, (st.index f ≠ fmtNat o.idx ∨ o.stopDrops f = true) →
      (svcWanStopIntf w st a).index f ≠ fmtNat o.idx := by
  rw [svcWanStopIntf, WanState.withObj_of_some ho]
  split
  · next hstart =>
    refine ⟨h, fun f hf => hf.elim id fun hd => ?_⟩
    simp only [Bool.not_eq_true'] at hstart
    simp [WanEntryObj.stopDrops, hstart] at hd
  · rw [svcWanDoStopIntf, WanState.withObj_of_some ho]
    have hdev := h.objs.getWanindexByName_intfName hmax (WanState.mem_of_obj? ho).1
    obtain ⟨hinv, hne⟩ := RouteInv.foldl_reportLoss hmax w (c := o.core) hdev (stopLosses o.cfg)
      (h.logIntf (st.intfLog ++ [.stop o.idx o.cfg])) ⟨o, ho, rfl⟩
    refine ⟨hinv.setStarted a false, fun f hf => hne f (hf.imp id fun hd => ?_)⟩
    rw [WanEntryObj.stopDrops, Bool.and_eq_true, List.any_eq_true] at hd
    exact hd.2

theorem RouteInv.startIntf (hmax : maxPvc ≤ 8) (h : RouteInv tt maxPvc st) (w : Outside) {a : Nat}
    {o : WanEntryObj} (ho : st.obj? a = some o) : RouteInv tt maxPvc (svcWanStartIntf w st a) := by
  have hgets : ∀ (fs : List Family) {s : WanState}, RouteInv tt maxPvc s →
      RouteInv tt maxPvc (fs.foldl (fun s f => svcWanHandleEventConnGet w s f o.dev) s) := by
    intro fs
    induction fs with
    | nil => exact fun hs => hs
    | cons f fs ih => exact fun hs => ih (hs.connGet hmax w f o.dev)
  rw [svcWanStartIntf, WanState.withObj_of_some ho]
  split_ifs
  · exact h
  · exact h
  · rw [svcWanDoStartIntf, WanState.withObj_of_some ho]
    refine RouteInv.setStarted ?_ a true
    have hlog := h.logIntf (st.intfLog ++ [.start o.idx o.cfg])
    dsimp only
    split
    · exact hgets _ hlog
    · exact hlog

/-! ## Updates and deletions -/

theorem RouteInv.storeCfg (h : RouteInv tt maxPvc st) {a : Nat} {o : WanEntryObj}
    (ho : st.obj? a = some o) {tmp : WanEntryCfg}
    (hc : ∀ f, st.index f = fmtNat o.idx → tmp.srvE8cInternet = true) :
    RouteInv tt maxPvc (st.storeCfg a tmp) := by
  refine h.modify a (fun _ => rfl) fun f x hx ha _ hu hn => ⟨hc f ?_, ?_⟩
  · have hx' := obj?_of_mem h.objs.addrs hx
    rw [ha, ho] at hx'
    rw [Option.some.inj hx']
    exact hn
  · cases f <;> exact hu

/-- The active fields with which `svc_wan_update_object` stores the loaded configuration. -/
def stores (old tmp : WanEntryCfg) : Prop :=
  (old.active = 0 ∧ tmp.active = 1) ∨ (old.active = 1 ∧ tmp.active = 0) ∨
    (old.active = 1 ∧ tmp.active = 1)

instance (old tmp : WanEntryCfg) : Decidable (stores old tmp) :=
  inferInstanceAs (Decidable (_ ∨ _))

/-- The condition on an update of an object that an index names: what is stored keeps the Internet
service, or the interface is stopped before and loses its address. -/
def KeepsRoute (st : WanState) (u : UpdateEvt) (o : WanEntryObj) (f : Family) : Prop :=
  st.index f = fmtNat o.idx → ∀ tmp ∈ u.loaded, stores o.cfg tmp →
    tmp.srvE8cInternet = true ∨
      (o.cfg.active = 1 ∧ u.effect o = true ∧ o.stopDrops f = true)

theorem RouteInv.startIf (hmax : maxPvc ≤ 8) (h : RouteInv tt maxPvc st) (effect : Bool)
    (w : Outside) {a : Nat} {o : WanEntryObj} (ho : st.obj? a = some o) :
    RouteInv tt maxPvc (Wan.startIf effect w st a) := by
  rw [Wan.startIf]
  split
  · exact h.startIntf hmax w ho
  · exact h

/-- Stopping the interface where `effect` says so, and storing the configuration. -/
theorem RouteInv.stopStore (hmax : maxPvc ≤ 8) (h : RouteInv tt maxPvc st) (effect : Bool)
    (w : Outside) {a : Nat} {o : WanEntryObj} (ho : st.obj? a = some o) {tmp : WanEntryCfg}
    (hc : ∀ f, st.index f = fmtNat o.idx →
      tmp.srvE8cInternet = true ∨ (effect = true ∧ o.stopDrops f = true)) :
    RouteInv tt maxPvc ((stopIf effect w st a).storeCfg a tmp) := by
  rw [stopIf]
  split
  · next heff =>
    obtain ⟨hinv, hne⟩ := h.stopIntf hmax w ho
    obtain ⟨hmem, ha⟩ := WanState.mem_of_obj? ho
    obtain ⟨o', ho', hid⟩ :=
      (sameObjs_svcWanStopIntf w (ha ▸ WanState.valid_of_mem hmem)).obj? ho
    have hidx : o'.idx = o.idx := show o'.ident.idx = o.ident.idx by rw [hid]
    refine hinv.storeCfg ho' fun f hi => ?_
    rw [hidx] at hi
    by_contra htmp
    refine hne f ?_ hi
    by_cases hst : st.index f = fmtNat o.idx
    · exact .inr ((hc f hst).resolve_left htmp).2
    · exact .inl hst
  · next heff =>
    exact h.storeCfg ho fun f hi => (hc f hi).resolve_right fun hd => heff hd.1

/-- **An update under its condition keeps the invariant.** -/
theorem RouteInv.updateObject (hmax : maxPvc ≤ 8) (h : RouteInv tt maxPvc st) (u : UpdateEvt)
    {a : Nat} {o : WanEntryObj} (ho : st.obj? a = some o) (hc : ∀ f, KeepsRoute st u o f) :
    RouteInv tt maxPvc (svcWanUpdateObject u st a) := by
  have hvalid : st.Valid a := by
    obtain ⟨hmem, rfl⟩ := WanState.mem_of_obj? ho
    exact WanState.valid_of_mem hmem
  rw [svcWanUpdateObject, WanState.withObj_of_some ho]
  cases hload : u.loaded with
  | none => exact h
  | some tmp =>
    dsimp only
    split_ifs with h01 h10 h11
    · -- the interface is not stopped, since the entry was not active
      have hstored : RouteInv tt maxPvc (st.storeCfg a tmp) := by
        refine h.storeCfg ho fun f hi => ?_
        refine (hc f hi tmp hload (.inl h01)).resolve_right fun hd => ?_
        exact absurd (h01.1.symm.trans hd.1) (by decide)
      obtain ⟨o', ho'⟩ := WanState.obj?_of_valid ((sameObjs_storeCfg st a tmp).valid hvalid)
      exact hstored.startIf hmax _ _ ho'
    · exact h.stopStore hmax _ _ ho fun f hi =>
        (hc f hi tmp hload (.inr (.inl h10))).imp id And.right
    · have hkeep : ∀ f, st.index f = fmtNat o.idx → tmp.srvE8cInternet = true ∨
          (u.effect o = true ∧ o.stopDrops f = true) := fun f hi =>
        (hc f hi tmp hload (.inr (.inr h11))).imp id And.right
      have hstored := h.stopStore hmax (u.effect o) u.outside ho hkeep
      obtain ⟨o', ho'⟩ := WanState.obj?_of_valid
        (((sameObjs_stopIf (u.effect o) u.outside hvalid).trans
          (sameObjs_storeCfg _ a tmp)).valid hvalid)
      exact hstored.startIf hmax _ _ ho'
    · exact h

/-- A new object is named by no index. -/
theorem RouteInv.create (h : RouteInv tt maxPvc st) {path : Str} {pvc entry : Nat}
    (hobjs : ObjsInv tt maxPvc { st with
      objs := st.objs ++ [newWanObj st.next path pvc entry], next := st.next + 1 }) :
    RouteInv tt maxPvc { st with
      objs := st.objs ++ [newWanObj st.next path pvc entry], next := st.next + 1 } where
  objs := hobjs
  route := h.route.same rfl rfl fun f => (h.route.named f).map rfl fun o ho hs hu _ =>
    ⟨o, List.mem_append_left _ ho, hs, hu, rfl⟩

/-- An entry without an object is named by no index. -/
theorem RouteInv.index_ne (h : RouteInv tt maxPvc st) {n : Nat} (hn : ∀ o ∈ st.objs, o.idx ≠ n)
    (f : Family) : st.index f ≠ fmtNat n := by
  intro hi
  rcases h.route.named f with hna | ⟨o, ho, -, -, hno⟩
  · exact fmtNat_ne_notAvailable n (hi.symm.trans hna)
  · exact hn o ho (fmtNat_inj.mp (hno.symm.trans hi))

/-- The condition on an update. -/
structure RouteUpdateOk (tt : TypeTree) (maxPvc : Nat) (st : WanState) (u : UpdateEvt) : Prop where
  path : PathOk tt maxPvc st u
  keeps : u.present = true → ∀ o ∈ svcWanFindObject st u.path, ∀ f, KeepsRoute st u o f

theorem RouteInv.update {u : UpdateEvt} (hmax : maxPvc ≤ 8) (h : RouteInv tt maxPvc st)
    (hc : RouteUpdateOk tt maxPvc st u) :
    RouteInv tt maxPvc (svcWanHandleEventUpdate tt maxPvc st u) := by
  rw [svcWanHandleEventUpdate]
  split
  · exact h
  · next hpres =>
    have hpres : u.present = true := by simpa using hpres
    cases hfind : svcWanFindObject st u.path with
    | some o =>
      have ho := obj?_of_mem h.objs.addrs (findObject_some hfind).1
      exact h.updateObject hmax u ho (hc.keeps hpres o hfind)
    | none =>
      cases hent : entryOfPath tt maxPvc u.path with
      | none => exact h
      | some e =>
        dsimp only
        split
        · exact h
        · have hnum : entryNumber tt maxPvc u.path = some (e.1 * 8 + e.2) := by
            rw [entryNumber, hent]
            rfl
          obtain ⟨hlen, hspell⟩ := hc.path hpres _ hnum
          have hpath := findObject_none hfind
          have hout : ∀ o ∈ st.objs, o.idx ≠ e.1 * 8 + e.2 := fun o ho hi =>
            hpath o ho (hspell o ho hi)
          have hnew := h.create (h.objs.create hent hlen hout hpath)
          have hobj := obj?_of_mem hnew.objs.addrs (List.mem_append_right st.objs
            (List.mem_singleton_self (newWanObj st.next u.path e.1 e.2)))
          exact hnew.updateObject hmax u hobj fun f hi => absurd hi (h.index_ne hout f)

theorem RouteInv.delete (hmax : maxPvc ≤ 8) (h : RouteInv tt maxPvc st) (w : Outside) {path : Str}
    (hc : ∀ o ∈ svcWanFindObject st path, ∀ f, st.index f = fmtNat o.idx → o.stopDrops f = true) :
    RouteInv tt maxPvc (svcWanHandleEventDelete w st path) := by
  cases hfind : svcWanFindObject st path with
  | none =>
    rw [svcWanHandleEventDelete, hfind]
    exact h
  | some o =>
    obtain ⟨o', l₁, l₂, ho', hobjs, heq⟩ := svcWanHandleEventDelete_eq w h.objs.addrs hfind
    have ho := obj?_of_mem h.objs.addrs (findObject_some hfind).1
    have hvalid := WanState.valid_of_mem (findObject_some hfind).1
    obtain ⟨hinv, hne⟩ := h.stopIntf hmax w ho
    obtain ⟨x, hx, hid⟩ := (sameObjs_svcWanStopIntf w hvalid).obj? ho
    obtain rfl : o' = x := Option.some.inj (ho'.symm.trans hx)
    have hidx : o'.idx = o.idx := show o'.ident.idx = o.ident.idx by rw [hid]
    have hsub : (l₁ ++ l₂).Sublist (svcWanStopIntf w st o.addr).objs := by
      rw [hobjs]
      exact List.Sublist.append_left (List.sublist_cons_self o' l₂) l₁
    rw [heq]
    refine ⟨hinv.objs.sublist hsub, hinv.route.same rfl rfl fun f => ?_⟩
    refine (hinv.route.named f).map rfl fun y hy hs hu hn => ⟨y, ?_, hs, hu, rfl⟩
    -- the entry that is named is not the one that is removed
    have hyo : y ≠ o' := by
      rintro rfl
      refine hne f ?_ (hidx ▸ hn)
      by_cases hi : st.index f = fmtNat o.idx
      · exact .inr (hc o hfind f hi)
      · exact .inl hi
    rw [hobjs, List.mem_append, List.mem_cons] at hy
    rw [List.mem_append]
    tauto

end Invariant

/-! ## Runs -/

instance Family.decidableForall (p : Family → Prop) [DecidablePred p] : Decidable (∀ f, p f) :=
  decidable_of_iff (p .v4 ∧ p .v6)
    ⟨fun h f => by cases f <;> [exact h.1; exact h.2], fun h => ⟨h .v4, h .v6⟩⟩

instance (st : WanState) (u : UpdateEvt) (o : WanEntryObj) (f : Family) :
    Decidable (KeepsRoute st u o f) := inferInstanceAs (Decidable (_ → _))

instance (tt : TypeTree) (maxPvc : Nat) (st : WanState) (u : UpdateEvt) :
    Decidable (RouteUpdateOk tt maxPvc st u) :=
  decidable_of_iff
    (PathOk tt maxPvc st u ∧
      (u.present = true → ∀ o ∈ svcWanFindObject st u.path, ∀ f, KeepsRoute st u o f))
    ⟨fun h => ⟨h.1, h.2⟩, fun h => ⟨h.path, h.keeps⟩⟩

/-- The condition on an event. A deletion of an entry that an index names has to take its address;
the optical link is not one of the events. -/
def RouteEvtOk (tt : TypeTree) (maxPvc : Nat) (st : WanState) : WanEvt → Prop
  | .update u => RouteUpdateOk tt maxPvc st u
  | .delete _ path =>
    ∀ o ∈ svcWanFindObject st path, ∀ f, st.index f = fmtNat o.idx → o.stopDrops f = true
  | .conn .. => True
  | .xponUp _ => False
  | .xponDown _ => False

instance (tt : TypeTree) (maxPvc : Nat) (st : WanState) :
    ∀ ev, Decidable (RouteEvtOk tt maxPvc st ev)
  | .update u => inferInstanceAs (Decidable (RouteUpdateOk tt maxPvc st u))
  | .delete _ path => inferInstanceAs (Decidable (∀ o ∈ svcWanFindObject st path, ∀ f,
      st.index f = fmtNat o.idx → o.stopDrops f = true))
  | .conn .. => isTrue trivial
  | .xponUp _ => isFalse not_false
  | .xponDown _ => isFalse not_false

/-- **One event keeps the indices in order.** -/
theorem RouteInv.step {tt : TypeTree} {maxPvc : Nat} {st : WanState} {ev : WanEvt}
    (hmax : maxPvc ≤ 8) (h : RouteInv tt maxPvc st) (hc : RouteEvtOk tt maxPvc st ev) :
    RouteInv tt maxPvc (svcWanMgrHandleEvent tt maxPvc st ev) := by
  cases ev with
  | update u => exact h.update hmax hc
  | delete w path => exact h.delete hmax w hc
  | conn w evt dev =>
    cases evt with
    | get f => exact h.connGet hmax w f dev
    | lost f => exact h.connLost hmax w f dev
  | xponUp entries => exact absurd hc not_false
  | xponDown w => exact absurd hc not_false

theorem routeInv_boot (tt : TypeTree) (maxPvc : Nat) : RouteInv tt maxPvc .boot where
  objs := objsInv_boot tt maxPvc
  route := {
    named := fun _ => .inl rfl
    last := fun _ => rfl
    log := fun pre r hp => absurd (List.prefix_nil.mp hp) (by simp) }

/-- **In a run that reconfigures or removes an entry with the default route only while it keeps its
service or loses its address, both indices are in order in every state.** -/
theorem runWan_routeOk {tt : TypeTree} {maxPvc : Nat} (hmax : maxPvc = 1 ∨ maxPvc = 8)
    {evts : List WanEvt}
    (h : RunOk (svcWanMgrHandleEvent tt maxPvc) (RouteEvtOk tt maxPvc) .boot evts) :
    ∀ pre, pre <+: evts → RouteOk (runWan tt maxPvc .boot pre) := by
  intro pre hpre
  have hinv : RouteInv tt maxPvc (runWan tt maxPvc .boot pre) :=
    RunOk.inv_prefix (fun _ _ hs hc => hs.step (by omega) hc) h (routeInv_boot tt maxPvc) hpre
  exact hinv.route

/-- Every entry has a gateway. -/
def gateways : Outside := { quiet with gateway := fun _ _ => "10.0.0.1".toList, ipv6Ready := true }

/-- An active WAN over DHCP with the services `srv`. -/
def dhcpWan (srv : Word) : WanEntryCfg := { tr069Wan with srvType := srv }

theorem runWan_routeOk_sample : RouteOk (runWan wanTypes 8 .boot
    [.update (plainUpdate "root.wan.pvc.1.entry.1" (dhcpWan eSrvE8cInternet)),
      .update (plainUpdate "root.wan.pvc.1.entry.2" (dhcpWan eSrvE8cInternet)),
      .conn gateways (.get .v4) "nas0_0".toList,
      .conn gateways (.get .v4) "nas0_1".toList,
      .conn gateways (.lost .v4) "nas0_0".toList,
      .update (plainUpdate "root.wan.pvc.1.entry.2" (dhcpWan eSrvOther)),
      .delete gateways "root.wan.pvc.1.entry.1".toList]) :=
  runWan_routeOk (.inr rfl) (by decide +kernel) _ (List.prefix_refl _)

/-- Two ways to a stale index: a commit over TR-069 takes the Internet service from a WAN that keeps
running, and an IPv6 address that an IPv4 WAN has got is not lost when the WAN is deleted. -/
theorem runWan_routeOk_fail :
    (¬ RouteOk (runWan wanTypes 8 .boot
      [.update (plainUpdate "root.wan.pvc.1.entry.1" (dhcpWan (eSrvE8cInternet ||| eSrvTr069))),
        .conn gateways (.get .v4) "nas0_0".toList,
        .update (tr069Update "root.wan.pvc.1.entry.1" (dhcpWan eSrvTr069))])) ∧
    ¬ RouteOk (runWan wanTypes 8 .boot
      [.update (plainUpdate "root.wan.pvc.1.entry.1" (dhcpWan eSrvE8cInternet)),
        .conn gateways (.get .v6) "nas0_0".toList,
        .delete gateways "root.wan.pvc.1.entry.1".toList]) := by
  constructor
  · intro h
    rcases h.named .v4 with hna | hnamed
    · exact absurd hna (by decide +kernel)
    · exact absurd hnamed (by decide +kernel)
  · intro h
    rcases h.named .v6 with hna | hnamed
    · exact absurd hna (by decide +kernel)
    · exact absurd hnamed (by decide +kernel)

end OnuFirmware.Wan
