import OnuFirmware.Wan.OnDemand

/-!
# When the default routes of on-demand WANs are right (`wan_polling.c`)

Behind its first loop `notify_OnDemandWan_Switch` may switch to another WAN. The two families share
the name of the interface that is given up and the flag that another WAN was found, so that a route
of one family can be touched because of the other (`notifyOnDemandWanSwitch_right_iff`).

What the switch looks at is said here in terms of the state before the call: the WAN of a family is
the one that its index names, or else the first that asks for the route (`ownWan`).
-/

namespace OnuFirmware.Wan

open Clib Cfg
open Other (setAttr setAttr_self setAttr_of_ne)

variable {b : OnDemandBuild}

/-! ## The switch -/

theorem selfFamily_index {cfg : Conf} {g : Family} (h : selfFamily cfg = some g) :
    0 ≤ onDemandIndex cfg g := by
  unfold selfFamily at h
  split at h
  · rename_i h4
    injection h with h
    exact h ▸ h4.2
  · split at h
    · rename_i h6
      injection h with h
      exact h ▸ h6.2
    · cases h

/-- The name of the interface that is given up is that of the self-checked WAN, and empty if none
was checked. -/
def OldIfname (cfg : Conf) (oldIfname : Str) : Prop :=
  match selfFamily cfg with
  | none => oldIfname = []
  | some g =>
    oldIfname ≠ [] ∧
      oldIfname =
        attrText (cfg (onDemandEntryNode (onDemandIndex cfg g).toNat) "IFName".toList) 16 []

/-- A check that gives the WAN up has read the name of its interface. -/
theorem oldIfname_of_leave {cfg : Conf} {g : Family} {oldIfname : Str} {asks : Bool}
    (hself : selfFamily cfg = some g) (h : selfCheck cfg g = .leave oldIfname asks) :
    OldIfname cfg oldIfname := by
  have hread :
      let entry := onDemandEntryNode (onDemandIndex cfg g).toNat
      let got := cfgGetObjectAttr (cfg entry "IFName".toList) [] 16
      0 < got.1 ∧ oldIfname = got.2 := by
    unfold selfCheck at h
    dsimp only at h
    split at h
    · cases h
    · rename_i hvalid
      have hpos := not_le.mp fun hle =>
        hvalid (.inr (.inr (.inr (.inr (.inr (.inr (.inr (.inr hle))))))))
      refine ⟨hpos, ?_⟩
      split at h
      · split at h
        · cases h
        · injection h with hname
          exact hname.symm
      · injection h with hname
        exact hname.symm
  unfold OldIfname
  rw [hself]
  refine ⟨?_, hread.2.trans (cfgGetObjectAttr_snd _ _ _)⟩
  rw [hread.2, cfgGetObjectAttr_snd]
  exact (cfgGetObjectAttr_pos _ _ _).mp hread.1

/-- Once there is a switch, the old route may only go in the family that was checked: the other one
has no route. -/
theorem del_right_iff {cfg : Conf} {oldIfname : Str} {found : Bool} (hold : OldIfname cfg oldIfname)
    (hswitch : ¬ noSwitch cfg found) (f : Family) :
    (oldIfname ≠ [] → RouteEvt.right cfg (.del f oldIfname)) ↔ ∀ g, selfFamily cfg = some g →
    g = f := by
  unfold OldIfname at hold
  cases hself : selfFamily cfg with
  | none =>
    rw [hself] at hold
    exact ⟨fun _ _ h => (nomatch h), fun _ h => absurd hold h⟩
  | some g =>
    rw [hself] at hold
    obtain ⟨hne, hname⟩ := hold
    have hg := selfFamily_index hself
    constructor
    · intro h g' hg'
      obtain rfl := Option.some.inj hg'
      have hf : 0 ≤ onDemandIndex cfg f := (h hne).1
      by_contra hgf
      refine hswitch (.inl ?_)
      have hboth : ∀ f', onDemandIndex cfg f' ≠ -1 := by
        intro f'
        have hcases : f' = f ∨ f' = g := by
          revert hgf
          cases f <;> cases g <;> cases f' <;> simp
        rcases hcases with rfl | rfl <;> omega
      exact ⟨hboth .v4, hboth .v6⟩
    · intro h _
      obtain rfl := h g rfl
      refine ⟨hg, ?_⟩
      rw [← hname]
      refine List.take_of_length_le ?_
      rw [hname]
      unfold attrText
      cases cfg (onDemandEntryNode (onDemandIndex cfg g).toNat) "IFName".toList with
      | none => exact Nat.zero_le _
      | some v => exact (List.length_take_le _ _)

/-- The object that the second loop takes has everything but perhaps the family. -/
theorem switchTarget_right {cfg cfg' : Conf} {f : Family} {objs : List WanEntryObj}
    {o : WanEntryObj} (h : switchTarget cfg objs = some o) (hf : o.cfg.hasFamily f = true) :
    (RouteEntry.obj o).right cfg' f := by
  induction objs with
  | nil => cases h
  | cons o' objs ih =>
    unfold switchTarget at h
    split at h
    · cases h
    · split at h
      · rename_i hsw
        obtain rfl := Option.some.inj h
        unfold switchable at hsw
        simp only [Bool.and_eq_true] at hsw
        obtain ⟨⟨⟨⟨⟨⟨⟨⟨-, -⟩, hactive⟩, hppp⟩, hconn⟩, -⟩, hsrv⟩, -⟩, -⟩ := hsw
        exact ⟨hactive, hppp, hconn, hsrv, hf⟩
      · exact ih h

/-- The switch gives the object a route of the family. -/
def switchesFamily (cfg : Conf) (found : Bool) (o : WanEntryObj) (f : Family) : Prop :=
  (found = true ∨ 0 ≤ onDemandIndex cfg f) ∧ o.cfg.hasFamily f = true

/-- The end of the second loop for one family; what is checked may be read in another configuration
that agrees on the family. -/
theorem switchFamily_right {f : Family} {found : Bool} {oldIfname : Str} {o : WanEntryObj}
    {s : OnDemandState} (cfg : Conf)
    (hentry : o.cfg.hasFamily f = true → (RouteEntry.obj o).right s.cfg f)
    (hindex : s.cfg waninfoCommonNode (onDemandName f) = cfg waninfoCommonNode (onDemandName f))
    (hdef : s.cfg waninfoCommonNode (defRouteName f) = cfg waninfoCommonNode (defRouteName f))
    (hname : ∀ p, s.cfg p "IFName".toList = cfg p "IFName".toList) :
    (switchFamily f found (onDemandIndex cfg f) oldIfname o s).RoutesRight ↔
      s.RoutesRight ∧ (switchesFamily cfg found o f →
        (oldIfname ≠ [] → RouteEvt.right cfg (.del f oldIfname)) ∧ noDefRoute cfg f) := by
  have hdel : RouteEvt.right s.cfg (.del f oldIfname) ↔ RouteEvt.right cfg (.del f oldIfname) := by
    unfold RouteEvt.right
    dsimp only
    rw [hname, show onDemandIndex s.cfg f = onDemandIndex cfg f from routeIndex_congr hindex]
  have hno : noDefRoute s.cfg f ↔ noDefRoute cfg f := by
    unfold noDefRoute
    rw [hdef]
  unfold switchFamily switchesFamily
  by_cases hsw : (found = true ∨ 0 ≤ onDemandIndex cfg f) ∧ o.cfg.hasFamily f = true
  · rw [if_pos hsw, imp_iff_right hsw]
    dsimp only
    rw [OnDemandState.routesRight_set, OnDemandState.routesRight_emit_add]
    split
    · rename_i hne
      rw [OnDemandState.routesRight_emit, and_assoc, hdel, imp_iff_right hne, ← hno]
      exact and_congr_right fun _ => and_congr_right fun _ => and_iff_left (hentry hsw.2)
    · rename_i hempty
      rw [and_iff_right fun h => absurd h hempty, ← hno]
      exact and_congr_right fun _ => and_iff_left (hentry hsw.2)
  · rw [if_neg hsw]
    exact (and_iff_left fun h => absurd h hsw).symm

/-- Of the family's own attributes only the index is written. -/
theorem cfg_switchFamily (f : Family) (found : Bool) (iOnDemand : Int)
    (oldIfname : Str) (o : WanEntryObj)
    (s : OnDemandState) {p name : Str} (h : name ≠ onDemandName f) :
    (switchFamily f found iOnDemand oldIfname o s).cfg p name = s.cfg p name := by
  unfold switchFamily
  split
  · dsimp only
    split <;> exact setAttr_of_ne (.inr h)
  · rfl

/-- The routes of a switch are right: the family has no default route, and if a WAN was given up, it
was the family's. -/
def SwitchRight (objs : List WanEntryObj) (valid : Nat → Bool) (cfg : Conf) : Prop :=
  ¬ noSwitch cfg (foundOnDemand cfg valid) →
    ∀ o, switchTarget cfg objs = some o → ∀ f, switchesFamily cfg (foundOnDemand cfg valid) o f →
      noDefRoute cfg f ∧ ∀ g, selfFamily cfg = some g → g = f

theorem switchRest_right {objs : List WanEntryObj} {valid : Nat → Bool}
    {oldIfname : Str} {s : OnDemandState}
    (hold : OldIfname s.cfg oldIfname) :
    (switchRest objs valid s.cfg oldIfname s).RoutesRight ↔ s.RoutesRight ∧
    SwitchRight objs valid s.cfg := by
  unfold switchRest SwitchRight
  dsimp only
  by_cases hno : noSwitch s.cfg (foundOnDemand s.cfg valid)
  · rw [if_pos hno]
    exact (and_iff_left fun h => absurd hno h).symm
  · rw [if_neg hno, imp_iff_right hno]
    cases htarget : switchTarget s.cfg objs with
    | none => exact (and_iff_left fun o h => nomatch h).symm
    | some o =>
      dsimp only
      rw [switchFamily_right s.cfg (fun hf => switchTarget_right htarget hf)
          (cfg_switchFamily _ _ _ _ _ _ (by decide)) (cfg_switchFamily _ _ _ _ _ _ (by decide))
          (fun p => cfg_switchFamily _ _ _ _ _ _ (by decide)),
        switchFamily_right s.cfg (fun hf => switchTarget_right htarget hf) rfl rfl (fun p => rfl),
        del_right_iff hold hno, del_right_iff hold hno, and_assoc]
      refine and_congr_right fun _ =>
        ⟨fun h o' ho' f hf => ?_, fun h => ⟨fun hf => ?_, fun hf => ?_⟩⟩
      · obtain rfl := Option.some.inj ho'
        cases f with
        | v4 => exact (h.1 hf).symm
        | v6 => exact (h.2 hf).symm
      · exact (h o rfl .v4 hf).symm
      · exact (h o rfl .v6 hf).symm

/-- The second part of the function gets as far as its second loop. -/
def comesToSwitch (cfg : Conf) : Bool :=
  !(defIndex cfg .v4 != -1 && defIndex cfg .v6 != -1) &&
    match selfFamily cfg with
    | none => true
    | some f =>
      match selfCheck cfg f with
      | .leave _ _ => true
      | _ => false

theorem switchOnDemand_right (objs : List WanEntryObj) (valid : Nat → Bool) (s : OnDemandState) :
    (switchOnDemand objs valid s).RoutesRight ↔
      s.RoutesRight ∧ (comesToSwitch s.cfg = true → SwitchRight objs valid s.cfg) := by
  unfold switchOnDemand comesToSwitch
  by_cases hboth : defIndex s.cfg .v4 ≠ -1 ∧ defIndex s.cfg .v6 ≠ -1
  · rw [if_pos hboth]
    refine (and_iff_left fun h => ?_).symm
    simp [hboth.1, hboth.2] at h
  · have hboth' : (!(defIndex s.cfg .v4 != -1 && defIndex s.cfg .v6 != -1)) = true := by
      simpa [or_iff_not_imp_left] using hboth
    rw [if_neg hboth, hboth', Bool.true_and]
    cases hself : selfFamily s.cfg with
    | none =>
      dsimp only
      rw [imp_iff_right rfl]
      exact switchRest_right (by unfold OldIfname; rw [hself])
    | some f =>
      dsimp only
      cases hcheck : selfCheck s.cfg f with
      | invalid => exact (and_iff_left fun h => absurd h Bool.false_ne_true).symm
      | stay => exact (and_iff_left fun h => absurd h Bool.false_ne_true).symm
      | leave oldIfname asks =>
        have hold := oldIfname_of_leave hself hcheck
        dsimp only
        rw [imp_iff_right rfl]
        cases asks with
        | false => exact switchRest_right hold
        | true =>
          rw [if_pos rfl]
          have hcfg : (s.setRouteState (onDemandIndex s.cfg f).toNat true).cfg = s.cfg :=
            OnDemandState.cfg_setRouteState
          have hrest := @switchRest_right objs valid _ _ (hcfg.symm ▸ hold)
          rw [hcfg] at hrest
          exact hrest.trans (and_congr_left fun _ => OnDemandState.routesRight_setRouteState)

/-! ## The state before the call -/

/-- `wanboot` lets the call go on. -/
def booted (cfg : Conf) :
    Prop := attrText (cfg globalstateCommonNode "wanboot".toList) 8 [] = "1".toList

theorem not_booted_iff (cfg : Conf) :
    (let wanboot := cfgGetObjectAttr (cfg globalstateCommonNode "wanboot".toList) [] 8
     wanboot.1 < 0 ∨ wanboot.2 ≠ "1".toList) ↔ ¬ booted cfg := by
  unfold booted
  cases cfg globalstateCommonNode "wanboot".toList with
  | none => exact iff_of_true (.inl (by decide)) (by decide)
  | some v => exact or_iff_right (not_lt.mpr (Int.natCast_nonneg _))

/-- The first WAN that asks for a route of the family. -/
def firstAsking (b : OnDemandBuild) (pids : PppPids) (objs : List WanEntryObj) (s : OnDemandState)
    (f : Family) : Option Nat :=
  firstAdd (asksFor b pids s.cfg s.routeState f) objs

/-- The WAN of a family: the one that its index names, or else the first that asks; `-1` if there is
none. -/
def ownWan (b : OnDemandBuild) (pids : PppPids) (objs : List WanEntryObj) (s : OnDemandState)
    (f : Family) : Int :=
  if onDemandIndex s.cfg f = -1 then ((firstAsking b pids objs s f).map Int.ofNat).getD (-1)
  else onDemandIndex s.cfg f

/-- There is another WAN that connects on demand than those of the families. -/
def OtherWan (b : OnDemandBuild) (pids : PppPids) (objs : List WanEntryObj) (s : OnDemandState) :
    Prop :=
  ∃ o ∈ objs, countsAsValid pids s.routeState o = true ∧ ∀ f, ownWan b pids objs s f ≠ o.idx

/-- The entry of a WAN may have a route, but the WAN cannot connect, or it has been idle, has lost
its route and asks for none. -/
structure GivenUp (cfg : Conf) (f : Family) (ifIndex : Nat) (asking : Bool) : Prop where
  active : attrText (cfg (onDemandEntryNode ifIndex) "Active".toList) 8 [] = "Yes".toList
  isp : atoi (attrText (cfg (onDemandEntryNode ifIndex) "ISP".toList) 12 []) = 2
  connection : attrText (cfg (onDemandEntryNode ifIndex) "CONNECTION".toList) 32 [] =
    "Connect_on_Demand".toList
  serviceList : hasStr (attrText (cfg (onDemandEntryNode ifIndex) "ServiceList".toList) 64 [])
    "INTERNET".toList = true
  ifname : attrText (cfg (onDemandEntryNode ifIndex) "IFName".toList) 16 [] ≠ []
  error :
    let lasterror := attrText (cfg (onDemandEntryNode ifIndex) "ConnectionError".toList) 128 []
    lasterror = "ERROR_AUTHENTICATION_FAILURE".toList ∨ lasterror = "ERROR_ISP_TIME_OUT".toList ∨
      lasterror = "ERROR_IDLE_DISCONNECT".toList ∧ asking = false ∧
        checkAddRouteOndemand cfg ifIndex f = true

/-- The object may get the routes of a WAN that is given up. -/
structure TakesOver (b : OnDemandBuild) (pids : PppPids) (objs : List WanEntryObj)
    (s : OnDemandState) (o : WanEntryObj) : Prop where
  other : ∀ f, ownWan b pids objs s f ≠ o.idx
  active : o.cfg.isActive = true
  ppp : o.cfg.isPpp = true
  onDemand : o.cfg.isConnOnDemand = true
  dev : o.dev ≠ []
  internet : o.cfg.srvInternet = true
  error : ∃ v, s.cfg o.path "ConnectionError".toList = some v ∧
    snprintf 128 v ≠ "ERROR_AUTHENTICATION_FAILURE".toList ∧
    snprintf 128 v ≠ "ERROR_ISP_TIME_OUT".toList
  family : o.cfg.isIpv4 = true ∨ o.cfg.isIpv6 = true

/-- There is a search for another WAN, and it ends at the object. -/
structure SwitchesTo (b : OnDemandBuild) (pids : PppPids) (objs : List WanEntryObj)
    (s : OnDemandState) (o : WanEntryObj) : Prop where
  indices : ∀ o ∈ objs, o.idx < 64
  noDefault : ∃ f, defIndex s.cfg f = -1
  noOwn : ∃ f, ownWan b pids objs s f = -1
  givenUp : ∀ f, 0 ≤ ownWan b pids objs s f → defIndex s.cfg f = -1 ∧
    GivenUp s.cfg f (ownWan b pids objs s f).toNat (firstAsking b pids objs s f).isSome
  otherWan : ∀ f, defIndex s.cfg f = -1 → ownWan b pids objs s f = -1 → OtherWan b pids objs s
  first : ∃ before after, objs = before ++ o :: after ∧ TakesOver b pids objs s o ∧
    ∀ o' ∈ before, ¬ TakesOver b pids objs s o'

/-- When a call touches only the routes it should. No port is bound to a WAN of IPv6 whose route is
asked for. A WAN that gets the route it asks for is active, and the index of the default route is
`N/A` or absent rather than `-1`. A WAN that is switched to gets no route of a family that has a
default route or, when another WAN is given up, of a family that is not the one of that WAN. -/
structure OnDemandSafe (b : OnDemandBuild) (pids : PppPids) (objs : List WanEntryObj)
    (s : OnDemandState) : Prop where
  ports : ¬ LoopFaults b pids s.cfg s.routeState objs
  asked : ∀ f i, firstAsking b pids objs s f = some i → AddRight s.cfg f i
  switched : ∀ o, SwitchesTo b pids objs s o → ∀ f, o.cfg.hasFamily f = true →
    (OtherWan b pids objs s ∨ 0 ≤ ownWan b pids objs s f) →
    noDefRoute s.cfg f ∧ ∀ g, 0 ≤ ownWan b pids objs s g → g = f

/-! ## The state behind the first loop -/

theorem forall_family {p : Family → Prop} : (∀ f, p f) ↔ p .v4 ∧ p .v6 :=
  ⟨fun h => ⟨h .v4, h .v6⟩, fun h f => by cases f; exacts [h.1, h.2]⟩

theorem exists_family {p : Family → Prop} : (∃ f, p f) ↔ p .v4 ∨ p .v6 :=
  ⟨fun ⟨f, h⟩ => by cases f; exacts [.inl h, .inr h], fun h => h.elim (⟨_, ·⟩) (⟨_, ·⟩)⟩

/-- An attribute that is no index and no flag of a family. -/
theorem afterAdds_of_ne {added : Family → Option Nat} {cfg : Conf} {p name : Str}
    (h : ∀ f, name ≠ onDemandName f ∧ name ≠ onDemandDelName f) :
    afterAdds added cfg p name = cfg p name :=
  (afterAdd_of_ne (h .v6).1 (h .v6).2).trans (afterAdd_of_ne (h .v4).1 (h .v4).2)

theorem defIndex_afterAdds (added : Family → Option Nat) (cfg : Conf) (f : Family) :
    defIndex (afterAdds added cfg) f = defIndex cfg f :=
  (defIndex_afterAdd .v6 f _ _).trans (defIndex_afterAdd .v4 f _ _)

theorem noDefRoute_afterAdds (added : Family → Option Nat) (cfg : Conf) (f : Family) :
    noDefRoute (afterAdds added cfg) f ↔ noDefRoute cfg f := by
  unfold noDefRoute
  rw [afterAdds_of_ne (fun g => defRouteName_ne f g)]

theorem firstAdd_eq_some {asks : Nat → Bool} {i : Nat} :
    ∀ {objs : List WanEntryObj}, firstAdd asks objs = some i → i < 64 ∧ asks i = true
  | o :: objs, h => by
    unfold firstAdd at h
    split at h
    · cases h
    · rename_i ho
      split at h
      · rename_i hasks
        obtain rfl := Option.some.inj h
        exact ⟨not_le.mp ho, hasks⟩
      · exact firstAdd_eq_some h

section

variable {pids : PppPids} {objs : List WanEntryObj} {s : OnDemandState}

theorem addsRoute_of_firstAsking {f : Family} {i : Nat} (h : firstAsking b pids objs s f = some i) :
    i < 64 ∧ addsRoute b s.cfg f i := by
  obtain ⟨hi, hasks⟩ := firstAdd_eq_some h
  rw [asksFor, Bool.and_eq_true, decide_eq_true_eq] at hasks
  exact ⟨hi, hasks.2⟩

/-- The index of a family is the WAN that it has. -/
theorem onDemandIndex_afterAdds (f : Family) :
    onDemandIndex (afterAdds (firstAsking b pids objs s) s.cfg) f = ownWan b pids objs s f := by
  have hown : onDemandIndex (afterAdds (firstAsking b pids objs s) s.cfg) f =
      onDemandIndex (afterAdd f (firstAsking b pids objs s f) s.cfg) f := by
    unfold afterAdds
    cases f with
    | v4 => exact onDemandIndex_afterAdd_of_ne (by decide) _ _
    | v6 =>
      rw [afterAdd_comm]
      exact onDemandIndex_afterAdd_of_ne (by decide) _ _
  rw [hown, ownWan]
  cases hfirst : firstAsking b pids objs s f with
  | none =>
    split
    · rename_i hindex
      exact hindex
    · rfl
  | some i =>
    obtain ⟨hi, hadds⟩ := addsRoute_of_firstAsking hfirst
    rw [onDemandIndex_afterAdd_self hi]
    split
    · rfl
    · rename_i hindex
      exact (hadds.2.2.2.resolve_left hindex).symm

/-- A WAN that has just got its route does not ask for it again. -/
theorem checkAddRouteOndemand_afterAdds {f : Family} (hown : 0 ≤ ownWan b pids objs s f) :
    checkAddRouteOndemand (afterAdds (firstAsking b pids objs s) s.cfg)
        (ownWan b pids objs s f).toNat f = true ↔
      (firstAsking b pids objs s f).isSome = false ∧
        checkAddRouteOndemand s.cfg (ownWan b pids objs s f).toNat f = true := by
  have hstatus : ∀ p, afterAdds (firstAsking b pids objs s) s.cfg p (statusName f) =
      s.cfg p (statusName f) := fun p =>
    afterAdds_of_ne fun g => by cases f <;> cases g <;> decide
  have hdel : ∀ p, afterAdds (firstAsking b pids objs s) s.cfg p (onDemandDelName f) =
      afterAdd f (firstAsking b pids objs s f) s.cfg p (onDemandDelName f) := by
    intro p
    unfold afterAdds
    cases f with
    | v4 => exact afterAdd_of_ne (by decide) (by decide)
    | v6 =>
      rw [afterAdd_comm]
      exact afterAdd_of_ne (by decide) (by decide)
  unfold checkAddRouteOndemand
  rw [hstatus, hdel]
  cases hfirst : firstAsking b pids objs s f with
  | none => exact (and_iff_right rfl).symm
  | some i =>
    obtain ⟨hi, hadds⟩ := addsRoute_of_firstAsking hfirst
    have hindex : (ownWan b pids objs s f).toNat = i := by
      rw [← onDemandIndex_afterAdds] at hown ⊢
      rw [onDemandIndex_afterAdds, ownWan, hfirst]
      split
      · rfl
      · rename_i hne
        rw [hadds.2.2.2.resolve_left hne]
        rfl
    have hflag : afterAdd f (some i) s.cfg (waninfoEntryNode i) (onDemandDelName f) =
      some notAvailable := setAttr_self _ _ _ _
    rw [hindex, hflag]
    simp only [decide_eq_true_eq]
    refine iff_of_false (fun h => ?_) fun h => absurd h.1 Bool.false_ne_true.symm
    exact h.2.elim (by decide) (by decide)

end

/-- A test of a text that is read, where nothing is read as an empty text. -/
theorem cfgGetObjectAttr_test_iff {p : Str → Prop} (hp : ¬ p []) (attr : Option Str) (size : Nat) :
    (0 ≤ (cfgGetObjectAttr attr [] size).1 ∧ p (cfgGetObjectAttr attr [] size).2) ↔
      p (attrText attr size []) := by
  rw [cfgGetObjectAttr_snd]
  cases attr with
  | none => exact iff_of_false (fun h => absurd h.1 (by rw [cfgGetObjectAttr_none]; decide)) hp
  | some v => exact and_iff_right (Int.natCast_nonneg _)

/-- The own on-demand WAN is given up where its attributes say so. -/
theorem selfCheck_leave_iff (cfg : Conf) (f : Family) :
    (∃ oldIfname asks, selfCheck cfg f = .leave oldIfname asks) ↔
      GivenUp cfg f (onDemandIndex cfg f).toNat false := by
  have hactive := cfgGetObjectAttr_test_iff (p := (· = "Yes".toList)) (by decide)
    (cfg (onDemandEntryNode (onDemandIndex cfg f).toNat) "Active".toList) 8
  have hisp := cfgGetObjectAttr_test_iff (p := (atoi · = 2)) (by decide)
    (cfg (onDemandEntryNode (onDemandIndex cfg f).toNat) "ISP".toList) 12
  have hconn := cfgGetObjectAttr_test_iff (p := (· = "Connect_on_Demand".toList)) (by decide)
    (cfg (onDemandEntryNode (onDemandIndex cfg f).toNat) "CONNECTION".toList) 32
  have hlist := cfgGetObjectAttr_test_iff (p := (hasStr · "INTERNET".toList = true)) (by decide)
    (cfg (onDemandEntryNode (onDemandIndex cfg f).toNat) "ServiceList".toList) 64
  have hname := cfgGetObjectAttr_pos
    (cfg (onDemandEntryNode (onDemandIndex cfg f).toNat) "IFName".toList) [] 16
  have herror := cfgGetObjectAttr_test_iff
    (p := fun v => v = "ERROR_AUTHENTICATION_FAILURE".toList ∨ v = "ERROR_ISP_TIME_OUT".toList)
    (by decide)
    (cfg (onDemandEntryNode (onDemandIndex cfg f).toNat) "ConnectionError".toList) 128
  unfold selfCheck
  dsimp only
  constructor
  · rintro ⟨oldIfname, asks, h⟩
    split at h
    · cases h
    · rename_i hvalid
      simp only [not_or, not_lt, ne_eq, not_not, Bool.not_eq_false, not_le] at hvalid
      obtain ⟨ha, ha', hi, hi', hc, hc', hl, hl', hn⟩ := hvalid
      refine ⟨hactive.mp ⟨ha, ha'⟩, hisp.mp ⟨hi, hi'⟩, hconn.mp ⟨hc, hc'⟩, hlist.mp ⟨hl, hl'⟩,
        hname.mp hn, ?_⟩
      split at h
      · split at h
        · cases h
        · rename_i hidle
          simp only [not_or, ne_eq, not_not, Bool.not_eq_false, cfgGetObjectAttr_snd] at hidle
          exact .inr (.inr ⟨hidle.1, rfl, hidle.2⟩)
      · rename_i hfail
        rw [not_or, not_lt, not_and_or, not_not, not_not] at hfail
        exact (herror.mp hfail).imp_right .inl
  · intro h
    obtain ⟨ha, ha'⟩ := hactive.mpr h.active
    obtain ⟨hi, hi'⟩ := hisp.mpr h.isp
    obtain ⟨hc, hc'⟩ := hconn.mpr h.connection
    obtain ⟨hl, hl'⟩ := hlist.mpr h.serviceList
    rw [if_neg (by
      simp only [not_or, not_lt, ne_eq, not_not, Bool.not_eq_false, not_le]
      exact ⟨ha, ha', hi, hi', hc, hc', hl, hl', hname.mpr h.ifname⟩)]
    split
    · rename_i hfail
      split
      · rename_i hidle
        rw [cfgGetObjectAttr_snd] at hidle
        rcases h.error with he | he | ⟨he, -, hcheck⟩
        · exact absurd (herror.mpr (.inl he)) (by rwa [not_and_or, not_le, not_or])
        · exact absurd (herror.mpr (.inr he)) (by rwa [not_and_or, not_le, not_or])
        · rcases hidle with hidle | hidle
          · exact absurd he hidle
          · rw [hcheck] at hidle
            cases hidle
      · exact ⟨_, _, rfl⟩
    · exact ⟨_, _, rfl⟩

/-- While a family has no WAN, the one that is checked is that of the other. -/
theorem selfFamily_eq_some_iff {cfg : Conf} (hown : ∃ g, onDemandIndex cfg g = -1) (f : Family) :
    selfFamily cfg = some f ↔ defIndex cfg f = -1 ∧ 0 ≤ onDemandIndex cfg f := by
  rw [exists_family] at hown
  unfold selfFamily
  split
  · rename_i h
    cases f with
    | v4 => exact iff_of_true rfl h
    | v6 => exact iff_of_false (by decide) fun h' => by omega
  · rename_i h
    cases f with
    | v4 => exact iff_of_false (by split <;> decide) h
    | v6 =>
      split
      · rename_i h'
        exact iff_of_true rfl h'
      · rename_i h'
        exact iff_of_false (by decide) h'

/-- When the second part of the function comes to its second loop. -/
theorem comesToSwitch_iff (cfg : Conf) (found : Bool) :
    comesToSwitch cfg = true ∧ ¬ noSwitch cfg found ↔
      (∃ f, defIndex cfg f = -1) ∧ (∃ f, onDemandIndex cfg f = -1) ∧
      (∀ f, 0 ≤ onDemandIndex cfg f →
        defIndex cfg f = -1 ∧ GivenUp cfg f (onDemandIndex cfg f).toNat false) ∧
      ∀ f, defIndex cfg f = -1 → onDemandIndex cfg f = -1 → found = true := by
  have hcomes : comesToSwitch cfg = true ↔ (∃ f, defIndex cfg f = -1) ∧
      ∀ f, selfFamily cfg = some f → GivenUp cfg f (onDemandIndex cfg f).toNat false := by
    simp only [← selfCheck_leave_iff, exists_family]
    unfold comesToSwitch
    cases selfFamily cfg with
    | none => simp [or_iff_not_imp_left]
    | some f =>
      simp only [Option.some.injEq, forall_eq']
      cases selfCheck cfg f <;> simp [or_iff_not_imp_left]
  have hno : ¬ noSwitch cfg found ↔ (∃ f, onDemandIndex cfg f = -1) ∧
      (∀ f, 0 ≤ onDemandIndex cfg f → defIndex cfg f = -1) ∧
      ∀ f, defIndex cfg f = -1 → onDemandIndex cfg f = -1 → found = true := by
    unfold noSwitch
    simp only [exists_family, forall_family]
    cases found with
    | false =>
      simp only [Bool.false_eq_true, imp_false, and_true]
      omega
    | true =>
      simp only [Bool.true_eq_false, imp_true_iff, and_true, and_false, or_false]
      omega
  rw [hcomes, hno]
  constructor
  · rintro ⟨⟨hdef, hgiven⟩, hown, hnodef, hfound⟩
    refine ⟨hdef, hown, fun f hf => ⟨hnodef f hf, hgiven f ?_⟩, hfound⟩
    exact (selfFamily_eq_some_iff hown f).mpr ⟨hnodef f hf, hf⟩
  · rintro ⟨hdef, hown, hgiven, hfound⟩
    refine ⟨⟨hdef, fun f hf => ?_⟩, hown, fun f hf => (hgiven f hf).1, hfound⟩
    exact (hgiven f ((selfFamily_eq_some_iff hown f).mp hf).2).2

/-! ## The whole call -/

section

variable {pids : PppPids} {objs : List WanEntryObj} {s : OnDemandState}

theorem givenUp_afterAdds {f : Family} (hown : 0 ≤ ownWan b pids objs s f) :
    GivenUp (afterAdds (firstAsking b pids objs s) s.cfg) f (ownWan b pids objs s f).toNat false ↔
      GivenUp s.cfg f (ownWan b pids objs s f).toNat (firstAsking b pids objs s f).isSome := by
  have hread : ∀ name ∈ ["Active".toList, "ISP".toList, "CONNECTION".toList, "ServiceList".toList,
      "IFName".toList, "ConnectionError".toList], ∀ p,
      afterAdds (firstAsking b pids objs s) s.cfg p name = s.cfg p name := by
    intro name hname p
    refine afterAdds_of_ne fun g => ?_
    revert name
    cases g <;> decide
  simp only [List.forall_mem_cons] at hread
  obtain ⟨hactive, hisp, hconn, hlist, hname, herror, -⟩ := hread
  have hcheck := checkAddRouteOndemand_afterAdds hown
  constructor
  · rintro ⟨ha, hi, hc, hl, hn, he⟩
    rw [hactive] at ha
    rw [hisp] at hi
    rw [hconn] at hc
    rw [hlist] at hl
    rw [hname] at hn
    rw [herror] at he
    exact ⟨ha, hi, hc, hl, hn, he.imp_right (Or.imp_right fun h => ⟨h.1, hcheck.mp h.2.2⟩)⟩
  · rintro ⟨ha, hi, hc, hl, hn, he⟩
    rw [← hactive] at ha
    rw [← hisp] at hi
    rw [← hconn] at hc
    rw [← hlist] at hl
    rw [← hname] at hn
    rw [← herror] at he
    exact ⟨ha, hi, hc, hl, hn, he.imp_right (Or.imp_right fun h => ⟨h.1, rfl, hcheck.mpr h.2⟩)⟩

theorem foundOnDemand_iff (hidx : ∀ o ∈ objs, o.idx < 64) {valid : Nat → Bool}
    (hvalid : ∀ i, valid i = objs.any fun o => o.idx == i && countsAsValid pids s.routeState o) :
    foundOnDemand (afterAdds (firstAsking b pids objs s) s.cfg) valid = true ↔
      OtherWan b pids objs s := by
  unfold foundOnDemand OtherWan
  simp only [onDemandIndex_afterAdds, forall_family, hvalid, List.any_eq_true, List.mem_range,
    Bool.and_eq_true, bne_iff_ne, beq_iff_eq]
  constructor
  · rintro ⟨i, -, ⟨⟨o, ho, rfl, hcounts⟩, h4⟩, h6⟩
    exact ⟨o, ho, hcounts, h4, h6⟩
  · rintro ⟨o, ho, hcounts, h4, h6⟩
    exact ⟨o.idx, hidx o ho, ⟨⟨o, ho, rfl, hcounts⟩, h4⟩, h6⟩

theorem switchable_iff (o : WanEntryObj) :
    switchable (afterAdds (firstAsking b pids objs s) s.cfg) o = true ↔
      TakesOver b pids objs s o := by
  have herror : afterAdds (firstAsking b pids objs s) s.cfg o.path "ConnectionError".toList =
      s.cfg o.path "ConnectionError".toList :=
    afterAdds_of_ne fun g => by cases g <;> decide
  have hread : ∀ attr : Option Str,
      (!(decide ((cfgGetObjectAttr attr [] 128).1 < 0) ||
        (cfgGetObjectAttr attr [] 128).2 == "ERROR_AUTHENTICATION_FAILURE".toList ||
        (cfgGetObjectAttr attr [] 128).2 == "ERROR_ISP_TIME_OUT".toList)) = true ↔
      ∃ v, attr = some v ∧ snprintf 128 v ≠ "ERROR_AUTHENTICATION_FAILURE".toList ∧
        snprintf 128 v ≠ "ERROR_ISP_TIME_OUT".toList := by
    intro attr
    simp only [Bool.not_eq_true', Bool.or_eq_false_iff, decide_eq_false_iff_not,
      beq_eq_false_iff_ne, and_assoc]
    cases attr with
    | none => simp
    | some v =>
      simp only [cfgGetObjectAttr_some, Option.some.injEq, exists_eq_left']
      rw [and_iff_right (not_lt.mpr (Int.natCast_nonneg _))]
  unfold switchable
  dsimp only
  rw [herror]
  simp only [Bool.and_eq_true, hread, onDemandIndex_afterAdds, bne_iff_ne, Bool.or_eq_true]
  constructor
  · rintro ⟨⟨⟨⟨⟨⟨⟨⟨h4, h6⟩, hactive⟩, hppp⟩, hconn⟩, hdev⟩, hsrv⟩, herr⟩, hfam⟩
    exact ⟨forall_family.mpr ⟨h4, h6⟩, hactive, hppp, hconn, hdev, hsrv, herr, hfam⟩
  · rintro ⟨hother, hactive, hppp, hconn, hdev, hsrv, herr, hfam⟩
    exact ⟨⟨⟨⟨⟨⟨⟨⟨hother .v4, hother .v6⟩, hactive⟩, hppp⟩, hconn⟩, hdev⟩, hsrv⟩, herr⟩, hfam⟩

/-- While the indices are small, nothing ends the search early. -/
theorem switchTarget_eq_find? (cfg : Conf) : ∀ {objs : List WanEntryObj},
    (∀ o ∈ objs, o.idx < 64) → switchTarget cfg objs = objs.find? (switchable cfg)
  | [], _ => rfl
  | o :: objs, h => by
    have ho : o.idx < 64 := h o List.mem_cons_self
    rw [switchTarget, if_neg (by omega), List.find?_cons,
      switchTarget_eq_find? cfg fun o' ho' => h o' (List.mem_cons_of_mem _ ho')]
    cases switchable cfg o <;> rfl

/-- The second loop takes an object exactly if the state before the call says so. -/
theorem switchesTo_iff (hidx : ∀ o ∈ objs, o.idx < 64) {valid : Nat → Bool}
    (hvalid : ∀ i, valid i = objs.any fun o => o.idx == i && countsAsValid pids s.routeState o)
    (o : WanEntryObj) :
    let cfg := afterAdds (firstAsking b pids objs s) s.cfg
    ((comesToSwitch cfg = true ∧ ¬ noSwitch cfg (foundOnDemand cfg valid)) ∧
      switchTarget cfg objs = some o) ↔ SwitchesTo b pids objs s o := by
  intro cfg
  have htakes : ∀ o, switchable cfg o = true ↔ TakesOver b pids objs s o := switchable_iff
  have hfirst : switchTarget cfg objs = some o ↔ ∃ before after, objs = before ++ o :: after ∧
      TakesOver b pids objs s o ∧ ∀ o' ∈ before, ¬ TakesOver b pids objs s o' := by
    rw [switchTarget_eq_find? cfg hidx, List.find?_eq_some_iff_append]
    simp only [Bool.not_eq_true', ← Bool.not_eq_true, htakes]
    constructor
    · rintro ⟨htakes, before, after, hobjs, hbefore⟩
      exact ⟨before, after, hobjs, htakes, hbefore⟩
    · rintro ⟨before, after, hobjs, htakes, hbefore⟩
      exact ⟨htakes, before, after, hobjs, hbefore⟩
  have hgiven : ∀ f, (0 ≤ ownWan b pids objs s f → defIndex s.cfg f = -1 ∧
      GivenUp cfg f (ownWan b pids objs s f).toNat false) ↔
      (0 ≤ ownWan b pids objs s f → defIndex s.cfg f = -1 ∧
        GivenUp s.cfg f (ownWan b pids objs s f).toNat (firstAsking b pids objs s f).isSome) :=
    fun f => imp_congr_right fun hown => and_congr_right fun _ => givenUp_afterAdds hown
  rw [comesToSwitch_iff, hfirst]
  simp only [show ∀ f, defIndex cfg f = defIndex s.cfg f from defIndex_afterAdds _ _,
    show ∀ f, onDemandIndex cfg f = ownWan b pids objs s f from onDemandIndex_afterAdds, hgiven,
    show foundOnDemand cfg valid = true ↔ OtherWan b pids objs s from foundOnDemand_iff hidx hvalid]
  constructor
  · rintro ⟨⟨hdef, hown, hgiven, hother⟩, hfirst⟩
    exact ⟨hidx, hdef, hown, hgiven, hother, hfirst⟩
  · rintro ⟨-, hdef, hown, hgiven, hother, hfirst⟩
    exact ⟨⟨hdef, hown, hgiven, hother⟩, hfirst⟩

/-- The routes of the switch are right, said of the state before the call. -/
theorem switchRight_iff (hidx : ∀ o ∈ objs, o.idx < 64) {valid : Nat → Bool}
    (hvalid : ∀ i, valid i = objs.any fun o => o.idx == i && countsAsValid pids s.routeState o) :
    let cfg := afterAdds (firstAsking b pids objs s) s.cfg
    (comesToSwitch cfg = true → SwitchRight objs valid cfg) ↔
      ∀ o, SwitchesTo b pids objs s o → ∀ f, o.cfg.hasFamily f = true →
        (OtherWan b pids objs s ∨ 0 ≤ ownWan b pids objs s f) →
        noDefRoute s.cfg f ∧ ∀ g, 0 ≤ ownWan b pids objs s g → g = f := by
  intro cfg
  have hfound : foundOnDemand cfg valid = true ↔ OtherWan b pids objs s :=
    foundOnDemand_iff hidx hvalid
  have hindex : ∀ f, onDemandIndex cfg f = ownWan b pids objs s f := onDemandIndex_afterAdds
  have hno : ∀ f, noDefRoute cfg f ↔ noDefRoute s.cfg f := noDefRoute_afterAdds _ _
  have hself : ∀ o, SwitchesTo b pids objs s o → ∀ g, selfFamily cfg = some g ↔
      0 ≤ ownWan b pids objs s g := by
    intro o ho g
    have hown : ∃ f, onDemandIndex cfg f = -1 := ho.noOwn.imp fun f hf => (hindex f).trans hf
    rw [selfFamily_eq_some_iff hown, hindex, show defIndex cfg g = defIndex s.cfg g from
      defIndex_afterAdds _ _ _]
    exact ⟨fun h => h.2, fun h => ⟨(ho.givenUp g h).1, h⟩⟩
  unfold SwitchRight switchesFamily
  constructor
  · intro h o ho f hf hswitch
    obtain ⟨⟨hcomes, hnot⟩, htarget⟩ := (switchesTo_iff hidx hvalid o).mpr ho
    obtain ⟨hnodef, honly⟩ := h hcomes hnot o htarget f
      ⟨hswitch.imp hfound.mpr ((hindex f).symm ▸ ·), hf⟩
    exact ⟨(hno f).mp hnodef, fun g hg => honly g ((hself o ho g).mpr hg)⟩
  · intro h hcomes hnot o htarget f hswitch
    have ho := (switchesTo_iff hidx hvalid o).mp ⟨⟨hcomes, hnot⟩, htarget⟩
    obtain ⟨hnodef, honly⟩ := h o ho f hswitch.2 (hswitch.1.imp hfound.mp ((hindex f) ▸ ·))
    exact ⟨(hno f).mpr hnodef, fun g hg => honly g ((hself o ho g).mp hg)⟩

end

theorem endsRight_some {s : OnDemandState} : EndsRight (some s) ↔ s.RoutesRight := by
  constructor
  · rintro ⟨s', hs, h⟩
    obtain rfl := Option.some.inj hs
    exact h
  · exact fun h => ⟨s, rfl, h⟩

theorem not_endsRight_none : ¬ EndsRight none := by
  rintro ⟨s, hs, -⟩
  exact absurd hs (Option.some_ne_none s).symm

end OnuFirmware.Wan
