import OnuFirmware.Lib.Run
import OnuFirmware.Tr181.RouteForward

/-!
# What the entries of the forwarding table are bound to in runs

Carrying a static route over never binds it twice. A commit releases the other entry of the new WAN
only after some of the histories of its own entry, and it gives an entry the route whose index it
held once, whoever has the route now.
-/

namespace OnuFirmware.Tr181

open Clib Cfg Lib StaticRoute

variable {s : FwdState} {q : Nat} {b : Binding} {e : RouteFwd4}

/-! ## Entries of changed tables -/

theorem entry_eq_some : s.entry q = some e ↔ s.fwd[q]? = some (some e) := by
  rw [FwdState.entry, Option.join_eq_some_iff]

theorem setFwd_other {j : Nat} (h : j ≠ q) (x : Option RouteFwd4) :
    (s.setFwd q x).fwd[j]? = s.fwd[j]? :=
  List.getElem?_set_ne h.symm

theorem setFwd_entry_self (hq : q < s.fwd.length) (x : Option RouteFwd4) :
    (s.setFwd q x).entry q = x := by
  have hself : (s.setFwd q x).fwd[q]? = some x := List.getElem?_set_self hq
  rw [FwdState.entry, hself, Option.join_some]

theorem setFwd_entry_other {j : Nat} (h : j ≠ q) (x : Option RouteFwd4) :
    (s.setFwd q x).entry j = s.entry j := by
  rw [FwdState.entry, setFwd_other h, FwdState.entry]

theorem setFwd_setFwd (x y : Option RouteFwd4) : (s.setFwd q x).setFwd q y = s.setFwd q y := by
  simp only [FwdState.setFwd, List.set_set]

theorem modFwd_eq (h : s.entry q = some e) (f : RouteFwd4 → RouteFwd4) :
    s.modFwd q f = s.setFwd q (some (f e)) := by
  rw [FwdState.modFwd, h, Option.getD_some]

theorem lt_of_entry (h : s.entry q = some e) : q < s.fwd.length :=
  (List.getElem?_eq_some_iff.mp (entry_eq_some.mp h)).1

theorem bound_iff : Bound s b q ↔ (s.entry q).bind bindingOf = some b := by
  rw [Option.bind_eq_some_iff]
  simp only [entry_eq_some]
  exact Iff.rfl

/-! ## The invariant -/

/-- What every event keeps: an entry of a static route holds the index of the route. -/
structure FwdInv (s : FwdState) : Prop where
  unique : FwdRight s
  idx : ∀ q e, s.entry q = some e → e.staticRoute = some true → e.staticRouteIdx ≠ none

theorem bindingOf_eq_route {i : Nat} : bindingOf e = some (.route i) ↔
    e.staticRoute = some true ∧ e.staticRouteIdx = some i := by
  rw [bindingOf]
  cases e.staticRoute with
  | none => simp
  | some x =>
    cases x with
    | false => simp
    | true => simp

theorem bindingOf_eq_wan {w : Int} : bindingOf e = some (.wan w) ↔
    e.staticRoute = some false ∧ getPvcIdx e.pvcIndex.join = w ∧ 0 ≤ w := by
  rw [bindingOf]
  cases e.staticRoute with
  | none => simp
  | some x =>
    cases x with
    | true => simp
    | false =>
      by_cases hw : 0 ≤ getPvcIdx e.pvcIndex.join
      · simp only [if_pos hw, Option.some_inj, Binding.wan.injEq, true_and]
        exact ⟨fun h => ⟨h, h ▸ hw⟩, And.left⟩
      · simp only [if_neg hw, reduceCtorEq, true_and, false_iff]
        rintro ⟨rfl, h⟩
        exact hw h

theorem fwdInv_cleared (route : List (Option RouteAttrs)) (h : route.length = maxRouteEntryNum) :
    FwdInv (clearedFwd route h) where
  unique := uniqueKeys_replicate _
  idx q e he := by
    have hslot := entry_eq_some.mp he
    rw [clearedFwd, List.getElem?_replicate] at hslot
    split at hslot <;> simp at hslot

/-- The routes are not looked at. -/
theorem FwdInv.setRoute (h : FwdInv s) (i : Nat) (r : Option RouteAttrs) :
    FwdInv (s.setRoute i r) := ⟨h.unique, h.idx⟩

/-- **An entry is written that is bound to nothing that another one is bound to.** -/
theorem FwdInv.setFwd (h : FwdInv s) {x : Option RouteFwd4}
    (hnew : ∀ b, x.bind bindingOf = some b → OnlyHere s b q)
    (hidx : ∀ e, x = some e → e.staticRoute = some true → e.staticRouteIdx ≠ none) :
    FwdInv (s.setFwd q x) where
  unique := h.unique.set_slot fun b hb j hj hbound => hj (hnew b hb j hbound)
  idx j e he := by
    by_cases hj : j = q
    · rw [hj] at he
      have hq : q < s.fwd.length := by
        rw [← List.length_set]
        exact lt_of_entry he
      rw [setFwd_entry_self hq] at he
      exact hidx e he
    · rw [setFwd_entry_other hj] at he
      exact h.idx j e he

theorem bound_setFwd_self (hq : q < s.fwd.length) {x : Option RouteFwd4} :
    Bound (s.setFwd q x) b q ↔ x.bind bindingOf = some b := by
  rw [bound_iff, setFwd_entry_self hq]

/-- An entry that stays what it is bound to. -/
theorem bound_setFwd_same {x : Option RouteFwd4} (hq : q < s.fwd.length)
    (hx : x.bind bindingOf = (s.entry q).bind bindingOf) {j : Nat} :
    Bound (s.setFwd q x) b j ↔ Bound s b j := by
  by_cases hj : j = q
  · rw [hj, bound_setFwd_self hq, hx, bound_iff]
  · rw [bound_iff, setFwd_entry_other hj, bound_iff]

/-! ## Routes and WANs -/

/-- The entry that is found for a route or a WAN is bound to it, or it is bound to nothing and no
entry is bound to it. -/
def EntryFits (s : FwdState) (b : Binding) (q : Nat) : Prop :=
  q < s.fwd.length ∧ (Bound s b q ∨ (∀ j, ¬ Bound s b j) ∧ ∀ b', ¬ Bound s b' q)

theorem not_bound_of_isEmpty {x : Option RouteFwd4} (hx : s.fwd[q]? = some x)
    (hempty : isEmpty x = true) : ¬ Bound s b q := by
  rw [bound_iff, FwdState.entry, hx, Option.join_some]
  cases x with
  | none => simp
  | some e =>
    have hnone : e.staticRoute = none := by simpa [isEmpty] using hempty
    simp [bindingOf, hnone]

/-- What a search finds that knows every entry of the route or the WAN. -/
theorem fits_of_empty {type : RouteType} (hf : getEmptyRouteFwd4Entry type s = some (q, false))
    (hfor : ∀ j, Bound s b j → isFor type (s.entry j) = true) : EntryFits s b q := by
  obtain ⟨hnone, x, hx, hempty⟩ := slotFor_empty hf
  refine ⟨(List.getElem?_eq_some_iff.mp hx).1, .inr ⟨fun j hj => ?_, fun b' =>
    not_bound_of_isEmpty hx hempty⟩⟩
  have htrue := hfor j hj
  obtain ⟨e, he, -⟩ := hj
  rw [entry_eq_some.mpr he, hnone (some e) (List.mem_of_getElem? he)] at htrue
  exact absurd htrue (by decide)

theorem isFor_static_some {i : Nat} : isFor (.static i) (some e) = true ↔
    e.staticRoute = some true ∧ e.staticRouteIdx.getD 0 = i := by
  cases hstatic : e.staticRoute with
  | none => simp [isFor, hstatic]
  | some x =>
    cases x with
    | false => simp [isFor, hstatic]
    | true => simp [isFor, hstatic]

theorem isFor_wan_some {w : Int} : isFor (.wanSync w) (some e) = true ↔
    e.staticRoute = some false ∧ e.pvcIndex.join.getD 0 = w := by
  cases hstatic : e.staticRoute with
  | none => simp [isFor, hstatic]
  | some x =>
    cases x with
    | false =>
      simp only [isFor, Option.bind_some, hstatic, atoiPvc, readIdx, beq_iff_eq, true_and]
      exact eq_comm
    | true => simp [isFor, hstatic]

theorem isFor_none (type : RouteType) : isFor type none = false := by
  cases type with
  | static => rfl
  | wanSync => rfl

theorem isFor_static {i : Nat} (h : FwdInv s) {j : Nat} :
    isFor (.static i) (s.entry j) = true ↔ Bound s (.route i) j := by
  rw [bound_iff]
  cases he : s.entry j with
  | none => simp [isFor_none]
  | some e =>
    rw [Option.bind_some, bindingOf_eq_route, isFor_static_some]
    refine and_congr_right fun hstatic => ?_
    obtain ⟨k, hk⟩ := Option.ne_none_iff_exists'.mp (h.idx j e he hstatic)
    rw [hk, Option.getD_some, Option.some_inj]

theorem static_fits (h : FwdInv s) {i : Nat} {found : Bool}
    (hf : getEmptyRouteFwd4Entry (.static i) s = some (q, found)) : EntryFits s (.route i) q := by
  cases found with
  | false => exact fits_of_empty hf fun j hj => (isFor_static h).mpr hj
  | true =>
    obtain ⟨x, hx, hheld⟩ := slotFor_held hf
    have hent : s.entry q = x := by rw [FwdState.entry, hx, Option.join_some]
    exact ⟨(List.getElem?_eq_some_iff.mp hx).1, .inl ((isFor_static h).mp (hent ▸ hheld))⟩

theorem isFor_wan {w : Int} {j : Nat} : isFor (.wanSync w) (s.entry j) = true ↔
    ∃ e, s.entry j = some e ∧ e.staticRoute = some false ∧ e.pvcIndex.join.getD 0 = w := by
  cases s.entry j with
  | none => simp [isFor_none]
  | some e =>
    simp only [isFor_wan_some, Option.some_inj, exists_eq_left']

theorem bound_wan {w : Int} {j : Nat} : Bound s (.wan w) j ↔
    ∃ e, s.entry j = some e ∧ e.staticRoute = some false ∧ e.pvcIndex.join = some w ∧ 0 ≤ w := by
  rw [bound_iff, Option.bind_eq_some_iff]
  simp only [bindingOf_eq_wan]
  refine exists_congr fun e => and_congr_right fun _ => and_congr_right fun _ => ?_
  cases e.pvcIndex.join with
  | none =>
    simp only [getPvcIdx, Option.getD_none, reduceCtorEq, false_and, iff_false]
    omega
  | some a => simp [getPvcIdx]

theorem isFor_of_bound_wan {w : Int} {j : Nat} (h : Bound s (.wan w) j) :
    isFor (.wanSync w) (s.entry j) = true := by
  obtain ⟨e, he, hstatic, hpvc, -⟩ := bound_wan.mp h
  exact isFor_wan.mpr ⟨e, he, hstatic, by rw [hpvc, Option.getD_some]⟩

theorem wan_fits {w : Int} (hw : 0 ≤ w) {found : Bool}
    (hf : getEmptyRouteFwd4Entry (.wanSync w) s = some (q, found))
    (hc : w = 0 → ∀ q e, s.fwd[q]? = some (some e) → e.staticRoute = some false →
      e.pvcIndex.join = none → ∀ j, Bound s (.wan 0) j → j < q) : EntryFits s (.wan w) q := by
  cases found with
  | false => exact fits_of_empty hf fun j hj => isFor_of_bound_wan hj
  | true =>
    obtain ⟨x, hx, hheld⟩ := slotFor_held hf
    have hent : s.entry q = x := by rw [FwdState.entry, hx, Option.join_some]
    obtain ⟨e, he, hstatic, hidx⟩ := isFor_wan.mp (hent ▸ hheld)
    refine ⟨(List.getElem?_eq_some_iff.mp hx).1, ?_⟩
    cases hpvc : e.pvcIndex.join with
    | some a =>
      rw [hpvc, Option.getD_some] at hidx
      exact .inl (bound_wan.mpr ⟨e, he, hstatic, hidx ▸ hpvc, hw⟩)
    | none =>
      -- An entry without an index is taken for the one of WAN 0.
      rw [hpvc, Option.getD_none] at hidx
      refine .inr ⟨fun j hj => ?_, fun b' hb => ?_⟩
      · have hj' : Bound s (.wan 0) j := hidx ▸ hj
        have hlt := hc hidx.symm q e (entry_eq_some.mp he) hstatic hpvc j hj'
        have htrue := isFor_of_bound_wan hj
        obtain ⟨e', he', -⟩ := hj
        rw [entry_eq_some.mpr he', slotFor_first hf hlt he'] at htrue
        exact absurd htrue (by decide)
      · rw [bound_iff, he, Option.bind_some, bindingOf, hstatic, hpvc] at hb
        simp [getPvcIdx] at hb

/-- **A route or a WAN is carried over to the entry that is found for it.** -/
theorem sync_bind (h : FwdInv s) (hq : EntryFits s b q) {f : RouteFwd4 → RouteFwd4}
    (hf : ∀ x, bindingOf (f x) = some b)
    (hidx : ∀ x, (f x).staticRoute = some true → (f x).staticRouteIdx ≠ none) :
    FwdInv (s.modFwd q f) ∧ SyncRight s (s.modFwd q f) b := by
  obtain ⟨hlt, hfits⟩ := hq
  have hbind : (some (f ((s.entry q).getD {}))).bind bindingOf = some b := hf _
  refine ⟨h.setFwd (fun b' hb' j hj => ?_) fun e he => ?_,
    q, fun j hj => setFwd_other hj _, (bound_setFwd_self hlt).mpr hbind, hfits⟩
  · obtain rfl := Option.some_inj.mp (hbind.symm.trans hb')
    rcases hfits with hbound | ⟨hnone, -⟩
    · exact h.unique b j q hj hbound
    · exact absurd hj (hnone j)
  · obtain rfl := Option.some_inj.mp he
    exact hidx _

theorem syncRoute_spec (h : FwdInv s) (env : FwdEnv) (i : Nat) :
    FwdInv (syncStaticRoute2RouteFwd4 env i s) ∧
      ∀ r, s.route[i]? = some (some r) → r.active ≠ none → HasRoom s →
        SyncRight s (syncStaticRoute2RouteFwd4 env i s) (.route i) := by
  rw [syncStaticRoute2RouteFwd4]
  cases hroute : s.route[i]?.join with
  | none =>
    refine ⟨h, fun r hr => ?_⟩
    rw [Option.join_eq_some_iff.mpr hr] at hroute
    exact absurd hroute (Option.some_ne_none r)
  | some r =>
    have hr : ∀ r', s.route[i]? = some (some r') → r' = r := fun r' hr' =>
      Option.some_inj.mp ((Option.join_eq_some_iff.mpr hr').symm.trans hroute)
    simp only
    by_cases hactive : r.active = none
    · rw [if_pos hactive]
      exact ⟨h, fun r' hr' hne => absurd (hr r' hr' ▸ hactive) hne⟩
    · rw [if_neg hactive]
      cases hfind : getEmptyRouteFwd4Entry (.static i) s with
      | none => exact ⟨h, fun _ _ _ hroom => absurd hfind (slotFor_ne_none hroom)⟩
      | some p =>
        have hbind : ∀ x, bindingOf (fromRoute env i r x) = some (.route i) := fun _ => rfl
        have hidx : ∀ x, (fromRoute env i r x).staticRouteIdx ≠ none := fun _ =>
          Option.some_ne_none i
        obtain ⟨hinv, hsync⟩ := sync_bind h (static_fits h hfind) hbind fun x _ => hidx x
        exact ⟨hinv, fun _ _ _ _ => hsync⟩

theorem syncWan_spec (h : FwdInv s) (w : { w : Int // w < 64 }) (enable : Str)
    (gateway : Option Str) (hc : FwdCond s (.syncWan w enable gateway)) :
    FwdInv (wanSync2Fwd4ByWanIf w.1 enable gateway s) ∧
      (0 ≤ w.1 → HasRoom s →
        SyncRight s (wanSync2Fwd4ByWanIf w.1 enable gateway s) (.wan w.1)) := by
  rw [wanSync2Fwd4ByWanIf]
  by_cases hneg : w.1 < 0
  · rw [if_pos hneg]
    exact ⟨h, fun hw => absurd hneg (by omega)⟩
  · rw [if_neg hneg]
    have hw : 0 ≤ w.1 := by omega
    cases hfind : getEmptyRouteFwd4Entry (.wanSync w.1) s with
    | none => exact ⟨h, fun _ hroom => absurd hfind (slotFor_ne_none hroom)⟩
    | some p =>
      have hbind : ∀ x, bindingOf (fromWan w.1 enable gateway x) = some (.wan w.1) := fun x =>
        bindingOf_eq_wan.mpr ⟨rfl, rfl, hw⟩
      obtain ⟨hinv, hsync⟩ := sync_bind h (wan_fits hw hfind hc) hbind fun x hx =>
        absurd (Option.some_inj.mp hx) (by decide)
      exact ⟨hinv, fun _ _ => hsync⟩

theorem delRoute_inv (h : FwdInv s) (fromTR181 : Bool) (i : Nat) :
    FwdInv (delRouteFwd4ByRouteNode fromTR181 i s) := by
  rw [delRouteFwd4ByRouteNode]
  split
  · exact h
  · split
    · exact h
    · exact h.setFwd (fun b hb => absurd hb (Option.some_ne_none b).symm) fun e he =>
        absurd he (Option.some_ne_none e).symm

/-! ## The commit -/

theorem clear_entry (w : Int) (j : Nat) : (clearOtherWanRouteByWanIf q w s).entry j =
    (s.entry j).map fun x =>
      if x.pvcIndex ≠ none ∧ atoiPvc (s.entry j) = w ∧ j ≠ q ∧ x.staticRoute = some false then
        { x with pvcIndex := some (some (-1)), interface := some [] }
      else x := by
  rw [FwdState.entry, FwdState.entry, clearOtherWanRouteByWanIf, List.getElem?_mapIdx]
  cases s.fwd[j]? with
  | none => rfl
  | some x => rfl

theorem clear_entry_self (w : Int) : (clearOtherWanRouteByWanIf q w s).entry q = s.entry q := by
  rw [clear_entry]
  cases s.entry q with
  | none => rfl
  | some x => simp

/-- An entry that is released is bound to nothing, and the others are as they were. -/
theorem clear_cases {w : Int} {j : Nat} (he : (clearOtherWanRouteByWanIf q w s).entry j = some e) :
    bindingOf e = none ∧ e.staticRoute = some false ∨
      s.entry j = some e ∧ ¬ (e.pvcIndex ≠ none ∧ atoiPvc (some e) = w ∧ j ≠ q ∧
        e.staticRoute = some false) := by
  rw [clear_entry, Option.map_eq_some_iff] at he
  obtain ⟨x, hx, he⟩ := he
  by_cases hcond : x.pvcIndex ≠ none ∧ atoiPvc (s.entry j) = w ∧ j ≠ q ∧ x.staticRoute = some false
  · rw [if_pos hcond] at he
    have hstatic : e.staticRoute = some false := he ▸ hcond.2.2.2
    have hpvc : e.pvcIndex = some (some (-1)) := by rw [← he]
    exact .inl ⟨by simp [bindingOf, hstatic, hpvc, getPvcIdx], hstatic⟩
  · rw [if_neg hcond] at he
    rw [hx, he] at hcond
    exact .inr ⟨he ▸ hx, hcond⟩

theorem bound_of_clear {w : Int} {j : Nat} (h : Bound (clearOtherWanRouteByWanIf q w s) b j) :
    Bound s b j := by
  obtain ⟨e, he, hbind⟩ := h
  rcases clear_cases (entry_eq_some.mpr he) with ⟨hnone, -⟩ | ⟨hent, -⟩
  · rw [hbind] at hnone
    exact absurd hnone (Option.some_ne_none b)
  · exact ⟨e, entry_eq_some.mp hent, hbind⟩

theorem FwdInv.clear (h : FwdInv s) (w : Int) : FwdInv (clearOtherWanRouteByWanIf q w s) where
  unique := h.unique.of_imp fun _ _ => bound_of_clear
  idx j e he hstatic := by
    rcases clear_cases he with ⟨-, hfalse⟩ | ⟨hent, -⟩
    · rw [hstatic] at hfalse
      exact absurd hfalse (by decide)
    · exact h.idx j e hent hstatic

/-- **No other entry of the WAN is left.** -/
theorem onlyHere_clear (w : Int) : OnlyHere (clearOtherWanRouteByWanIf q w s) (.wan w) q := by
  intro j hj
  obtain ⟨e, he, hstatic, hpvc, -⟩ := bound_wan.mp hj
  have hsome : e.pvcIndex ≠ none := by
    intro hnone
    rw [hnone] at hpvc
    exact absurd hpvc (Option.some_ne_none w).symm
  rcases clear_cases he with ⟨hnone, -⟩ | ⟨-, hcond⟩
  · obtain ⟨e', he', hbind⟩ := hj
    obtain rfl := Option.some_inj.mp (he.symm.trans (entry_eq_some.mpr he'))
    rw [hbind] at hnone
    exact absurd hnone (Option.some_ne_none _)
  · by_contra hne
    refine hcond ⟨hsome, ?_, hne, hstatic⟩
    rw [atoiPvc, Option.bind_some, hpvc, readIdx, Option.getD_some]

/-- What is left of the table when the commit writes its own entry. -/
theorem release_spec (h : FwdInv s) (he : s.entry q = some e) (w : Int) :
    ∃ s₂, (if Releases e w then clearOtherWanRouteByWanIf q w s else s) = s₂ ∧ FwdInv s₂ ∧
      s₂.entry q = some e ∧ s₂.route = s.route ∧ (∀ b j, Bound s₂ b j → Bound s b j) ∧
      (Releases e w ∨ OnlyHere s (.wan w) q → OnlyHere s₂ (.wan w) q) := by
  refine ⟨_, rfl, ?_⟩
  by_cases hrel : Releases e w
  · rw [if_pos hrel]
    exact ⟨h.clear w, (clear_entry_self w).trans he, rfl, fun b j => bound_of_clear,
      fun _ => onlyHere_clear w⟩
  · rw [if_neg hrel]
    exact ⟨h, he, rfl, fun b j hj => hj, fun hor => hor.resolve_left hrel⟩

/-- The entry that a commit writes is bound to what no other entry is bound to. -/
theorem commit_write (h : FwdInv s) {x : RouteFwd4}
    (hroute : ∀ i, x.staticRoute = some true → x.staticRouteIdx = some i → OnlyHere s (.route i) q)
    (hidx : x.staticRoute = some true → x.staticRouteIdx ≠ none)
    (hwan : ∀ w, x.staticRoute = some false → getPvcIdx x.pvcIndex.join = w → 0 ≤ w →
      OnlyHere s (.wan w) q) : FwdInv (s.setFwd q (some x)) := by
  refine h.setFwd (fun b hb => ?_) fun e he => Option.some_inj.mp he ▸ hidx
  cases b with
  | route i =>
    obtain ⟨hstatic, hi⟩ := bindingOf_eq_route.mp hb
    exact hroute i hstatic hi
  | wan w =>
    obtain ⟨hstatic, hpvc, hw⟩ := bindingOf_eq_wan.mp hb
    exact hwan w hstatic hpvc hw

theorem commit_spec (h : FwdInv s) (env : FwdEnv) (he : s.entry q = some e)
    (hc : EditOk env s q e) : FwdInv (routeForward4Commit env q s) ∧
      (destIP e = [] → 0 ≤ interfaceWan env e.interface →
        Bound (routeForward4Commit env q s) (.wan (interfaceWan env e.interface)) q) := by
  simp only [EditOk] at hc
  simp only [routeForward4Commit, he, Option.getD_some]
  generalize interfaceWan env e.interface = w at hc ⊢
  obtain ⟨s₂, heq, h₂, he₂, hroute₂, hbound₂, honly₂⟩ := release_spec h he w
  have hlt := lt_of_entry he₂
  have hof : ∀ b, OnlyHere s b q → OnlyHere s₂ b q := fun b hb j hj => hb j (hbound₂ b j hj)
  have hent : ∀ x, (s₂.setFwd q (some x)).entry q = some x := fun x => setFwd_entry_self hlt _
  simp only [heq, modFwd_eq he₂]
  by_cases hdest : destIP e = []
  · rw [if_pos hdest] at hc
    rw [if_neg (not_not_intro hdest)]
    by_cases hw : 0 < w
    · -- The entry is bound to the WAN.
      rw [if_pos hw, if_pos hw, modFwd_eq (hent _), setFwd_setFwd]
      refine ⟨commit_write h₂ (fun i hi => absurd (Option.some_inj.mp hi) (by decide))
        (fun hi => absurd (Option.some_inj.mp hi) (by decide)) fun w' _ hpvc _ => ?_, fun _ _ => ?_⟩
      · obtain rfl : w = w' := hpvc
        exact honly₂ (hc.2 hw)
      · rw [bound_setFwd_self hlt, Option.bind_some]
        exact bindingOf_eq_wan.mpr ⟨rfl, rfl, by omega⟩
    · rw [if_neg hw, if_neg hw]
      refine ⟨commit_write h₂ (fun i hstatic hi j hj => ?_) (h₂.idx q e he₂)
        fun w' _ hpvc hpos => ?_, fun _ hpos => absurd hc.1 (by omega)⟩
      · exact h₂.unique _ j q hj ⟨e, entry_eq_some.mp he₂, bindingOf_eq_route.mpr ⟨hstatic, hi⟩⟩
      · have hneg : (-1 : Int) = w' := hpvc
        omega
  · rw [if_neg hdest] at hc
    rw [if_pos hdest]
    refine ⟨?_, fun hnil => absurd hnil hdest⟩
    unfold tr181Route4UpdateStaticRoute
    rw [hent, Option.getD_some]
    have hfor : routeFor { e with pvcIndex := some (if 0 < w then some w else none) }
        (s₂.setFwd q (some { e with pvcIndex := some (if 0 < w then some w else none) })) =
        routeFor e s := by
      simp only [routeFor, findEmptyStaticRoute4Entry, FwdState.setFwd, hroute₂]
    rw [hfor]
    cases hi : routeFor e s with
    | some i =>
      simp only [hi] at hc ⊢
      rw [modFwd_eq (hent _), setFwd_setFwd]
      refine (commit_write h₂ (fun i' _ hi' => ?_) (fun _ => Option.some_ne_none i)
        fun w' hstatic => absurd (Option.some_inj.mp hstatic) (by decide)).setRoute _ _
      obtain rfl := Option.some_inj.mp hi'
      exact hof _ hc
    | none =>
      simp only [hi] at hc ⊢
      refine commit_write h₂ (fun i' hstatic hi' => ?_) (h₂.idx q e he₂)
        fun w' hstatic hpvc hpos => ?_
      · rw [routeFor, hi', Option.some_or] at hi
        exact absurd hi (Option.some_ne_none i')
      · by_cases hw : 0 < w
        · rw [if_pos hw] at hpvc
          obtain rfl : w = w' := hpvc
          exact honly₂ (hc hstatic hw)
        · rw [if_neg hw] at hpvc
          have hneg : (-1 : Int) = w' := hpvc
          omega

/-- A change of the attributes leaves an entry bound to what it was bound to. -/
theorem withBinding_bind (attrs : RouteFwd4) (old : Option RouteFwd4) :
    (some (attrs.withBinding old)).bind bindingOf = old.bind bindingOf := by
  cases old with
  | none => rfl
  | some x => rfl

theorem edit_spec (h : FwdInv s) (env : FwdEnv) (q : Fin routeIpv4ForwardingNum)
    (attrs : RouteFwd4) (hc : FwdCond s (.edit env q attrs)) :
    FwdInv (fwdStep s (.edit env q attrs)) ∧
      FwdStepRight s (fwdStep s (.edit env q attrs)) (.edit env q attrs) := by
  have hlt : q.1 < s.fwd.length := q.2.trans_eq s.fwd_length.symm
  have hbound : ∀ b j, Bound (s.setFwd q.1 (some (attrs.withBinding (s.entry q.1)))) b j ↔
      Bound s b j := fun b j => bound_setFwd_same hlt (withBinding_bind attrs _)
  have h₁ : FwdInv (s.setFwd q.1 (some (attrs.withBinding (s.entry q.1)))) := by
    refine h.setFwd (fun b hb j hj => ?_) fun e he hstatic => ?_
    · rw [withBinding_bind, ← bound_iff] at hb
      exact h.unique b j q.1 hj hb
    · obtain rfl := Option.some_inj.mp he
      obtain ⟨x, hx, htrue⟩ := Option.bind_eq_some_iff.mp hstatic
      have hidx := h.idx q.1 x hx htrue
      simpa only [RouteFwd4.withBinding, hx, Option.bind_some] using hidx
  have hc₁ : EditOk env (s.setFwd q.1 (some (attrs.withBinding (s.entry q.1)))) q.1
      (attrs.withBinding (s.entry q.1)) := by
    simp only [FwdCond, EditOk, OnlyHere] at hc ⊢
    simp only [hbound]
    exact hc
  obtain ⟨hinv, hright⟩ := commit_spec h₁ env (setFwd_entry_self hlt _) hc₁
  exact ⟨hinv, hright⟩

/-! ## Runs -/

theorem fwdStep_spec (h : FwdInv s) {e : FwdEvent} (hc : FwdCond s e) :
    FwdInv (fwdStep s e) ∧ FwdStepRight s (fwdStep s e) e := by
  cases e with
  | setRoute i r => exact ⟨h.setRoute i r, trivial⟩
  | syncRoute env i => exact syncRoute_spec h env i
  | syncWan w enable gateway => exact syncWan_spec h w enable gateway hc
  | delRoute fromTR181 i => exact ⟨delRoute_inv h fromTR181 i, trivial⟩
  | edit env q attrs => exact edit_spec h env q attrs hc

/-- **In a run from the cleared table whose events meet the condition at most one entry is bound to
each route and to each WAN, and every event does what it is to do.** -/
theorem forward_run_right (route : List (Option RouteAttrs)) (hr : route.length = maxRouteEntryNum)
    {es : List FwdEvent} (h : RunOk fwdStep FwdCond (clearedFwd route hr) es) :
    (∀ pre, pre <+: es → FwdRight (pre.foldl fwdStep (clearedFwd route hr))) ∧
      ∀ pre e, pre ++ [e] <+: es →
        FwdStepRight (pre.foldl fwdStep (clearedFwd route hr))
          (fwdStep (pre.foldl fwdStep (clearedFwd route hr)) e) e := by
  have hinv : ∀ pre, pre <+: es → FwdInv (pre.foldl fwdStep (clearedFwd route hr)) :=
    fun pre hp => RunOk.inv_prefix (fun s e hs hc => (fwdStep_spec hs hc).1) h
      (fwdInv_cleared route hr) hp
  refine ⟨fun pre hp => (hinv pre hp).unique, fun pre e hp => ?_⟩
  exact (fwdStep_spec (hinv pre ((List.prefix_append pre [e]).trans hp)) (h.at_prefix hp)).2

/-! ## The same WAN twice -/

/-- No static routes. -/
def noRoutes : List (Option RouteAttrs) := List.replicate maxRouteEntryNum none

/-- The cleared table without static routes. -/
abbrev emptyFwd : FwdState := clearedFwd noRoutes List.length_replicate

/-- IP entry 1 belongs to WAN 1, and IP entry 2 to WAN 0. -/
def twoWans : FwdEnv where
  ipPvc n := if n = 1 then some 1 else if n = 2 then some 0 else none
  ipLan _ := none
  lanIp := 0
  isPPP _ := false
  ipPvc_lt n w h := by
    split at h
    · have hw := Option.some_inj.mp h
      omega
    · split at h
      · have hw := Option.some_inj.mp h
        omega
      · exact absurd h (Option.some_ne_none w).symm

/-- The attributes of an entry without a destination for an IP entry. -/
def attrsFor (n : Int) : RouteFwd4 :=
  { destIPAddress := some [], interface := some (ipInterface (n - 1)) }

/-- Such an entry is committed. -/
def editFor (n : Int) (q : Fin 128) : FwdEvent := .edit twoWans q (attrsFor n)

/-- An entry with a destination. -/
def editDest (q : Fin 128) : FwdEvent :=
  .edit twoWans q { destIPAddress := some "10.0.0.0".toList }

/-- A static route is set and carried over, an entry is committed for WAN 1, and WAN 2 is carried
over. -/
def boundRun : List FwdEvent :=
  [.setRoute 0 (some { noAttrs with active := some "Yes".toList, dst := some "10.0.0.0".toList }),
    .syncRoute twoWans 0, editFor 1 1, .syncWan ⟨2, by decide⟩ "1".toList none]

/-- One entry is bound to the route and one to each WAN. -/
theorem forward_run_first :
    (∀ pre, pre <+: boundRun → FwdRight (pre.foldl fwdStep emptyFwd)) ∧
      (∀ pre e, pre ++ [e] <+: boundRun →
        FwdStepRight (pre.foldl fwdStep emptyFwd) (fwdStep (pre.foldl fwdStep emptyFwd) e) e) ∧
      Bound (boundRun.foldl fwdStep emptyFwd) (.route 0) 0 ∧
      Bound (boundRun.foldl fwdStep emptyFwd) (.wan 1) 1 ∧
      Bound (boundRun.foldl fwdStep emptyFwd) (.wan 2) 2 := by
  have hwan : interfaceWan twoWans (attrsFor 1).interface = 1 := by decide +kernel
  have hdest : destIP (attrsFor 1) = [] := rfl
  have hrel : Releases (attrsFor 1) 1 := ⟨by decide, .inr ⟨rfl, rfl⟩⟩
  have hedit : ∀ s : FwdState, s.entry 1 = none →
      EditOk twoWans s 1 ((attrsFor 1).withBinding (s.entry 1)) := by
    intro s hs
    have hattrs : (attrsFor 1).withBinding none = attrsFor 1 := rfl
    rw [hs, hattrs]
    simp only [EditOk, hwan]
    rw [if_pos hdest]
    exact ⟨by decide, fun _ => .inl hrel⟩
  have hrun : RunOk fwdStep FwdCond emptyFwd boundRun :=
    ⟨trivial, trivial, hedit _ (by decide +kernel), fun h => absurd h (by decide), trivial⟩
  obtain ⟨hright, hsteps⟩ := forward_run_right noRoutes List.length_replicate hrun
  exact ⟨hright, hsteps, bound_iff.mpr (by decide +kernel), bound_iff.mpr (by decide +kernel),
    bound_iff.mpr (by decide +kernel)⟩

/-- An entry that was a static route is given WAN 1, and the first entry keeps it; and an entry for
WAN 0 is bound to nothing. -/
theorem forward_wrong :
    ¬ FwdRight ([editFor 1 0, editDest 1, editFor 1 1].foldl fwdStep emptyFwd) ∧
      ¬ FwdStepRight emptyFwd (fwdStep emptyFwd (editFor 2 0)) (editFor 2 0) := by
  refine ⟨fun h => ?_, fun h => ?_⟩
  · generalize hs : [editFor 1 0, editDest 1, editFor 1 1].foldl fwdStep emptyFwd = s at h
    have h0 : (s.entry 0).bind bindingOf = some (.wan 1) := by rw [← hs]; decide +kernel
    have h1 : (s.entry 1).bind bindingOf = some (.wan 1) := by rw [← hs]; decide +kernel
    exact absurd (h _ 0 1 (bound_iff.mpr h0) (bound_iff.mpr h1)) (by decide)
  · have hwan : interfaceWan twoWans (attrsFor 2).interface = 0 := by decide +kernel
    have hbound := h rfl (by rw [hwan])
    have hnone : ((fwdStep emptyFwd (editFor 2 0)).entry 0).bind bindingOf = none := by
      decide +kernel
    exact absurd (hnone.symm.trans (bound_iff.mp hbound)) (Option.some_ne_none _).symm

end OnuFirmware.Tr181
