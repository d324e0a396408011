import OnuFirmware.Cfg.ReadAttr
import OnuFirmware.Wan.DefaultRoute

/-!
# Upstream interfaces of the multicast proxies

`svc_wan_handle_event_update` ends with a part for the two multicast proxies (build with
`TCSUPPORT_CMCCV2` and `TCSUPPORT_CT_JOYME4`). An Internet WAN offers itself as `DefaultWAN`, a
bound OTHER WAN takes `UpstreamIF`, and otherwise `UpstreamIF` is set to the default. The defaults
are read into one buffer for each family under a condition that stops at the first one found, so the
buffer of IPv6 is often written unread.
-/

namespace OnuFirmware.Wan

open Clib Cfg Lib

/-! ## The proxies -/

/-- The attributes of `root.igmpproxy.entry` or `root.mldproxy.entry`. -/
structure ProxyEntry where
  defaultWan : Option Str := none
  upstreamIf : Option Str := none
  active : Option Str := none
deriving DecidableEq

/-- The manager, the two proxies, and the record of what was written to `UpstreamIF`. -/
structure McastState where
  wan : WanState
  entry : Family → ProxyEntry
  writes : List (Family × Str)

/-- Sets `UpstreamIF` and `Active`. -/
def McastState.setUpstream (s : McastState) (f : Family) (val active : Str) : McastState :=
  { s with
    entry := Function.update s.entry f
      { s.entry f with upstreamIf := some val, active := some active }
    writes := s.writes ++ [(f, val)] }

/-- The part of `svc_wan_start_bridge` for a proxy: an interface that becomes a bridge gives up its
place. -/
def clearUpstream (o : WanEntryObj) (s : McastState) (f : Family) : McastState :=
  let r := cfgGetObjectAttr (s.entry f).upstreamIf [] 32
  if r.2 ≠ [] ∧ (o.dev = r.2 ∨ snprintf 32 ("ppp".toList ++ fmtNat o.idx) = r.2) then
    s.setUpstream f [] "No".toList
  else s

/-- The variable `upstreamif_set`. -/
def upstreamifSet (o : WanEntryObj) : Str :=
  if o.cfg.isPpp then snprintf 16 ("ppp".toList ++ fmtNat o.idx) else snprintf 16 o.dev

/-- An Internet WAN offers itself as the default of a family; the second component is the buffer. -/
def offerDefault (o : WanEntryObj) (e : ProxyEntry) (f : Family) : ProxyEntry × Str :=
  if o.cfg.srvInternet && o.cfg.hasFamily f then
    let r := cfgGetObjectAttr e.defaultWan [] 16
    if r.1 ≤ 0 ∨ getWanindexByName r.2 = some o.idx then
      ({ e with defaultWan := some (upstreamifSet o) }, r.2)
    else (e, r.2)
  else (e, [])

/-- Sets `UpstreamIF` if the WAN has the family. -/
def writeFamily (o : WanEntryObj) (s : McastState) (f : Family) (val : Str) : McastState :=
  if o.cfg.hasFamily f then s.setUpstream f val "Yes".toList else s

/-- Sets `UpstreamIF` if the WAN has the family and there is none yet. -/
def writeFirst (o : WanEntryObj) (s : McastState) (f : Family) : McastState :=
  if (cfgGetObjectAttr (s.entry f).upstreamIf [] 16).1 ≤ 0 then
    writeFamily o s f (upstreamifSet o)
  else s

/-- The last part of `svc_wan_handle_event_update`, for the object that was updated. -/
def updateProxies (o : WanEntryObj) (s : McastState) : McastState :=
  if o.cfg.isRoute && (o.cfg.srvInternet || o.cfg.srvOther) then
    let d4 := offerDefault o (s.entry .v4) .v4
    let d6 := offerDefault o (s.entry .v6) .v6
    let s : McastState := { s with entry := fun | .v4 => d4.1 | .v6 => d6.1 }
    if o.cfg.bindbit ≠ 0 ∧ o.cfg.srvOther then
      writeFamily o (writeFamily o s .v4 (upstreamifSet o)) .v6 (upstreamifSet o)
    else
      let r4 := cfgGetObjectAttr (s.entry .v4).defaultWan d4.2 16
      -- the second default is read only if there is no first one
      if 0 < r4.1 then writeFamily o (writeFamily o s .v4 r4.2) .v6 d6.2
      else
        let r6 := cfgGetObjectAttr (s.entry .v6).defaultWan d6.2 16
        if 0 < r6.1 then writeFamily o (writeFamily o s .v4 r4.2) .v6 r6.2
        else writeFirst o (writeFirst o s .v4) .v6
  else s

/-! ## The update -/

/-- The object that an update works on, as it is before the update; a new one if the entry had
none. -/
def updatedObj (tt : TypeTree) (maxPvc : Nat) (st : WanState) (u : UpdateEvt) :
    Option WanEntryObj :=
  if !u.present then none
  else
    match svcWanFindObject st u.path with
    | some obj => some obj
    | none =>
      match entryOfPath tt maxPvc u.path with
      | none => none
      | some (pvc, entry) => if !u.alloc then none else some (newWanObj st.next u.path pvc entry)

/-- The interface was started, as a bridge. -/
def startsBridge (u : UpdateEvt) (before after : WanState) : Bool :=
  u.outside.deviceOk && (after.intfLog.drop before.intfLog.length).any fun
    | .start _ cfg => cfg.isBridge
    | .stop _ _ => false

/-- `svc_wan_handle_event_update` with the proxies. -/
def svcWanHandleEventUpdateProxies (tt : TypeTree) (maxPvc : Nat) (s : McastState) (u : UpdateEvt) :
    McastState :=
  let wan := svcWanHandleEventUpdate tt maxPvc s.wan u
  match (updatedObj tt maxPvc s.wan u).bind fun o => wan.obj? o.addr with
  | none => { s with wan := wan }
  | some o =>
    let s' : McastState := { s with wan := wan }
    updateProxies o (if startsBridge u s.wan wan then
      clearUpstream o (clearUpstream o s' .v4) .v6 else s')

/-! ## What an update should leave -/

/-- `DefaultWAN`, empty if it is not there. -/
def ProxyEntry.default (e : ProxyEntry) : Str := e.defaultWan.getD []

/-- An OTHER WAN that is bound to a port. -/
def WanEntryCfg.bindsOther (x : WanEntryCfg) : Prop := x.bindbit ≠ 0 ∧ x.srvOther = true

/-- A WAN that the proxies are set for. -/
def WanEntryCfg.feedsProxies (x : WanEntryCfg) : Prop :=
  x.isRoute = true ∧ (x.srvInternet = true ∨ x.srvOther = true)

/-- For the families of the WAN, `UpstreamIF` is its own interface if it is a bound OTHER WAN, and
the default, if there is one, otherwise. No proxy has been set to the empty text. -/
structure ProxyOk (o : WanEntryObj) (before after : McastState) : Prop where
  upstream : ∀ f, o.cfg.hasFamily f = true →
    (o.cfg.bindsOther → (after.entry f).upstreamIf = some (svcWanIntfName o 16)) ∧
    (¬ o.cfg.bindsOther → (after.entry f).default ≠ [] →
      (after.entry f).upstreamIf = some (after.entry f).default)
  nonempty : ∀ e ∈ after.writes.drop before.writes.length, e.2 ≠ []

/-- The Internet WAN becomes the default of a family: there is none, or it names the WAN already. -/
def Offers (o : WanEntryObj) (e : Family → ProxyEntry) (f : Family) : Prop :=
  o.cfg.srvInternet = true ∧ o.cfg.hasFamily f = true ∧
    ((e f).default = [] ∨ getWanindexByName (snprintf 16 (e f).default) = some o.idx)

/-- When the last part of the update leaves what it should. -/
structure ProxyCond (o : WanEntryObj) (e : Family → ProxyEntry) : Prop where
  /-- The name of the interface is the one of a routed WAN. -/
  bound : o.cfg.bindsOther → (∃ f, o.cfg.hasFamily f = true) →
    upstreamifSet o = svcWanIntfName o 16
  /-- IPv4 gets its default if there is one, and there must be one if IPv6 has one. -/
  v4 : ¬ o.cfg.bindsOther → o.cfg.isIpv4 = true → ¬ Offers o e .v4 →
    (e .v4).default.length ≤ 15 ∧ ((e .v4).default = [] → (e .v6).default = [])
  /-- With a default of IPv4, only an Internet WAN reads the one of IPv6, and before it offers
  itself there. -/
  v6 : ¬ o.cfg.bindsOther → o.cfg.isIpv6 = true → Offers o e .v4 ∨ (e .v4).default ≠ [] →
    o.cfg.srvInternet = true ∧ (e .v6).default ≠ [] ∧
      (Offers o e .v6 → snprintf 16 (e .v6).default = upstreamifSet o) ∧
      (¬ Offers o e .v6 → (e .v6).default.length ≤ 15)
  /-- Without a default of IPv4, the one of IPv6 is read. -/
  v6alone : ¬ o.cfg.bindsOther → o.cfg.isIpv6 = true →
    ¬ (Offers o e .v4 ∨ (e .v4).default ≠ []) → ¬ Offers o e .v6 → (e .v6).default.length ≤ 15

/-! ## Reading and writing the attributes -/

theorem read_default (e : ProxyEntry) (size : Nat) :
    (cfgGetObjectAttr e.defaultWan [] size).2 = snprintf size e.default :=
  (cfgGetObjectAttr_snd _ _ _).trans (attrText_getD _ _)

theorem snprintf_eq_self {size : Nat} (h : 0 < size) (v : Str) :
    snprintf size v = v ↔ v.length < size := by
  rw [snprintf, List.take_eq_self_iff]
  omega

/-- An attribute is read as empty if it is not there. -/
theorem read_default_le_zero (e : ProxyEntry) (buf : Str) :
    (cfgGetObjectAttr e.defaultWan buf 16).1 ≤ 0 ↔ e.default = [] := by
  rw [← not_lt, cfgGetObjectAttr_pos, not_not, attrText_getD, ProxyEntry.default,
    snprintf_eq_nil_iff (by decide)]

theorem upstreamifSet_length (o : WanEntryObj) : (upstreamifSet o).length ≤ 15 := by
  rw [upstreamifSet]
  split <;> exact List.length_take_le _ _

theorem upstreamifSet_ne_nil {o : WanEntryObj} (h : o.dev ≠ []) : upstreamifSet o ≠ [] := by
  rw [upstreamifSet]
  split
  · rw [Ne, snprintf_eq_nil_iff (by decide)]
    simp
  · rw [Ne, snprintf_eq_nil_iff (by decide)]
    exact h

instance (o : WanEntryObj) (e : Family → ProxyEntry) (f : Family) : Decidable (Offers o e f) :=
  inferInstanceAs (Decidable (_ ∧ _))

instance (x : WanEntryCfg) : Decidable x.bindsOther := inferInstanceAs (Decidable (_ ∧ _))

/-- What the offer of a WAN leaves in the attribute and in the buffer of a family. -/
theorem offerDefault_eq (o : WanEntryObj) (e : Family → ProxyEntry) (f : Family) :
    offerDefault o (e f) f =
      (if Offers o e f then { e f with defaultWan := some (upstreamifSet o) } else e f,
        if o.cfg.srvInternet = true ∧ o.cfg.hasFamily f = true then snprintf 16 (e f).default
        else []) := by
  simp only [offerDefault, read_default_le_zero, read_default, Bool.and_eq_true]
  by_cases hs : o.cfg.srvInternet = true ∧ o.cfg.hasFamily f = true
  · rw [if_pos hs, if_pos hs]
    by_cases hr : (e f).default = [] ∨ getWanindexByName (snprintf 16 (e f).default) = some o.idx
    · rw [if_pos hr, if_pos (show Offers o e f from ⟨hs.1, hs.2, hr⟩)]
    · rw [if_neg hr, if_neg fun h : Offers o e f => hr h.2.2]
  · rw [if_neg hs, if_neg hs, if_neg fun h : Offers o e f => hs ⟨h.1, h.2.1⟩]

theorem default_offerDefault (o : WanEntryObj) (e : Family → ProxyEntry) (f : Family) :
    (offerDefault o (e f) f).1.default =
      if Offers o e f then upstreamifSet o else (e f).default := by
  rw [offerDefault_eq]
  split <;> rfl

/-- The second read of a default: a default that is not there has left the buffer empty before. -/
theorem read_offerDefault (o : WanEntryObj) (e : Family → ProxyEntry) (f : Family) :
    (cfgGetObjectAttr (offerDefault o (e f) f).1.defaultWan (offerDefault o (e f) f).2 16).2 =
      snprintf 16 (offerDefault o (e f) f).1.default := by
  cases he : (offerDefault o (e f) f).1.defaultWan with
  | some v => simp [cfgGetObjectAttr, ProxyEntry.default, he]
  | none =>
    have hd : (e f).default = [] := by
      rw [offerDefault_eq] at he
      by_cases ho : Offers o e f
      · simp [ho] at he
      · simpa [ho, ProxyEntry.default] using congrArg (Option.getD · []) he
    rw [cfgGetObjectAttr, ProxyEntry.default, he, offerDefault_eq, hd]
    dsimp only
    split <;> rfl

/-! ## When the proxies are left as they should -/

/-- Both families are written, as far as the WAN has them. -/
theorem writeFamily_entry (o : WanEntryObj) (s : McastState) (val : Family → Str) (f : Family) :
    (writeFamily o (writeFamily o s .v4 (val .v4)) .v6 (val .v6)).entry f =
      if o.cfg.hasFamily f then
        { s.entry f with upstreamIf := some (val f), active := some "Yes".toList }
      else s.entry f := by
  rw [writeFamily, writeFamily]
  cases f <;> cases h4 : o.cfg.hasFamily .v4 <;> cases h6 : o.cfg.hasFamily .v6 <;>
    simp [McastState.setUpstream]

theorem writeFamily_writes (o : WanEntryObj) (s : McastState) (val : Family → Str) :
    (writeFamily o (writeFamily o s .v4 (val .v4)) .v6 (val .v6)).writes =
      s.writes ++ ([Family.v4, .v6].filter o.cfg.hasFamily).map fun f => (f, val f) := by
  rw [writeFamily, writeFamily]
  cases h4 : o.cfg.hasFamily .v4 <;> cases h6 : o.cfg.hasFamily .v6 <;>
    simp [McastState.setUpstream, h4, h6]

/-- The two writes are right if each of them is. -/
theorem proxyOk_writeFamily_iff (o : WanEntryObj) {s s₀ : McastState} (hw : s.writes = s₀.writes)
    (val : Family → Str) :
    ProxyOk o s₀ (writeFamily o (writeFamily o s .v4 (val .v4)) .v6 (val .v6)) ↔
      ∀ f, o.cfg.hasFamily f = true → val f ≠ [] ∧
        (o.cfg.bindsOther → val f = svcWanIntfName o 16) ∧
        (¬ o.cfg.bindsOther → (s.entry f).default ≠ [] → val f = (s.entry f).default) := by
  have hmem : ∀ f : Family, f ∈ [Family.v4, .v6] := fun f => by cases f <;> simp
  constructor
  · rintro ⟨hup, hne⟩ f hf
    have hupf := hup f hf
    rw [writeFamily_entry, if_pos hf] at hupf
    refine ⟨hne (f, val f) ?_, fun hb => Option.some.inj (hupf.1 hb), fun hb hd =>
      Option.some.inj (hupf.2 hb hd)⟩
    rw [writeFamily_writes, hw, List.drop_left]
    exact List.mem_map_of_mem (List.mem_filter.mpr ⟨hmem f, hf⟩)
  · intro h
    constructor
    · intro f hf
      obtain ⟨-, hb, hd⟩ := h f hf
      rw [writeFamily_entry, if_pos hf]
      exact ⟨fun hbo => congrArg some (hb hbo), fun hbo hne => congrArg some (hd hbo hne)⟩
    · intro e he
      rw [writeFamily_writes, hw, List.drop_left] at he
      obtain ⟨f, hf, rfl⟩ := List.mem_map.mp he
      exact (h f (List.mem_filter.mp hf).2).1

/-- Where no proxy has a default, setting the missing interfaces is right. -/
theorem proxyOk_writeFirst {o : WanEntryObj} {s s₀ : McastState} (hw : s.writes = s₀.writes)
    (hdev : o.dev ≠ []) (hb : ¬ o.cfg.bindsOther) (hd : ∀ f, (s.entry f).default = []) :
    ProxyOk o s₀ (writeFirst o (writeFirst o s .v4) .v6) := by
  have hown := upstreamifSet_ne_nil hdev
  -- one write keeps the defaults empty and writes nothing empty
  have hstep : ∀ (s : McastState) (f : Family), (∀ g, (s.entry g).default = []) →
      (∀ e ∈ s.writes.drop s₀.writes.length, e.2 ≠ []) →
      s₀.writes.length ≤ s.writes.length →
      (∀ g, ((writeFirst o s f).entry g).default = []) ∧
      (∀ e ∈ (writeFirst o s f).writes.drop s₀.writes.length, e.2 ≠ []) ∧
      s₀.writes.length ≤ (writeFirst o s f).writes.length := by
    intro s f hd hne hlen
    rw [writeFirst, writeFamily]
    split_ifs
    · refine ⟨fun g => ?_, fun e he => ?_, ?_⟩
      · have hg := hd g
        rw [McastState.setUpstream]
        by_cases hgf : g = f
        · subst hgf
          simpa [ProxyEntry.default] using hg
        · simpa [Function.update_of_ne hgf] using hg
      · rw [McastState.setUpstream, List.drop_append_of_le_length hlen, List.mem_append] at he
        rcases he with he | he
        · exact hne e he
        · rw [List.mem_singleton.mp he]
          exact hown
      · rw [McastState.setUpstream, List.length_append]
        exact Nat.le_add_right_of_le hlen
    · exact ⟨hd, hne, hlen⟩
    · exact ⟨hd, hne, hlen⟩
  obtain ⟨hd4, hne4, hlen4⟩ := hstep s .v4 hd (by simp [hw]) (by rw [hw])
  obtain ⟨hd6, hne6, -⟩ := hstep _ .v6 hd4 hne4 hlen4
  exact ⟨fun f _ => ⟨fun h => absurd h hb, fun _ hne => absurd (hd6 f) hne⟩, hne6⟩

/-- The default of a family after the Internet step. -/
def defaultAfter (o : WanEntryObj) (e : Family → ProxyEntry) (f : Family) : Str :=
  if Offers o e f then upstreamifSet o else (e f).default

theorem defaultAfter_ne_nil {o : WanEntryObj} (hdev : o.dev ≠ []) (e : Family → ProxyEntry)
    (f : Family) : defaultAfter o e f ≠ [] ↔ Offers o e f ∨ (e f).default ≠ [] := by
  rw [defaultAfter]
  split
  · next h => simp [h, upstreamifSet_ne_nil hdev]
  · next h => simp [h]

theorem snprintf_defaultAfter (o : WanEntryObj) (e : Family → ProxyEntry) (f : Family) :
    snprintf 16 (defaultAfter o e f) = defaultAfter o e f ↔
      (¬ Offers o e f → (e f).default.length ≤ 15) := by
  rw [snprintf_eq_self (by decide), defaultAfter]
  split
  · next h => simpa [h] using Nat.lt_succ_of_le (upstreamifSet_length o)
  · next h => simp [h, Nat.lt_succ_iff]

/-- **What the last part of the update writes**, in terms of the defaults before it. -/
theorem updateProxies_eq {o : WanEntryObj} (hg : o.cfg.feedsProxies) (s : McastState) :
    ∃ s₁ : McastState, s₁.writes = s.writes ∧
      (∀ f, (s₁.entry f).default = defaultAfter o s.entry f) ∧
      updateProxies o s =
        if o.cfg.bindsOther then
          writeFamily o (writeFamily o s₁ .v4 (upstreamifSet o)) .v6 (upstreamifSet o)
        else if defaultAfter o s.entry .v4 ≠ [] then
          writeFamily o (writeFamily o s₁ .v4 (snprintf 16 (defaultAfter o s.entry .v4))) .v6
            (if o.cfg.srvInternet = true ∧ o.cfg.hasFamily .v6 = true then
              snprintf 16 (s.entry .v6).default else [])
        else if defaultAfter o s.entry .v6 ≠ [] then
          writeFamily o (writeFamily o s₁ .v4 []) .v6 (snprintf 16 (defaultAfter o s.entry .v6))
        else writeFirst o (writeFirst o s₁ .v4) .v6 := by
  have hguard : (o.cfg.isRoute && (o.cfg.srvInternet || o.cfg.srvOther)) = true := by
    simpa [WanEntryCfg.feedsProxies] using hg
  have hdef : ∀ f, (offerDefault o (s.entry f) f).1.default = defaultAfter o s.entry f :=
    default_offerDefault o s.entry
  have hread : ∀ f, (0 < (cfgGetObjectAttr (offerDefault o (s.entry f) f).1.defaultWan
      (offerDefault o (s.entry f) f).2 16).1) ↔ defaultAfter o s.entry f ≠ [] := by
    intro f
    rw [← hdef f, Ne, ← read_default_le_zero, not_le]
  have hval : ∀ f, (cfgGetObjectAttr (offerDefault o (s.entry f) f).1.defaultWan
      (offerDefault o (s.entry f) f).2 16).2 = snprintf 16 (defaultAfter o s.entry f) := by
    intro f
    rw [read_offerDefault, hdef]
  have hbuf : (offerDefault o (s.entry .v6) .v6).2 =
      if o.cfg.srvInternet = true ∧ o.cfg.hasFamily .v6 = true then
        snprintf 16 (s.entry .v6).default else [] := by
    rw [offerDefault_eq]
  refine ⟨{ s with entry := fun
    | .v4 => (offerDefault o (s.entry .v4) .v4).1
    | .v6 => (offerDefault o (s.entry .v6) .v6).1 }, rfl, fun f => ?_, ?_⟩
  · cases f <;> exact hdef _
  · rw [updateProxies, if_pos hguard]
    simp only [hread, hval]
    rw [hbuf]
    by_cases hb : o.cfg.bindsOther
    · rw [if_pos hb, if_pos (show _ ∧ _ from hb)]
    · rw [if_neg hb, if_neg (show ¬ (_ ∧ _) from hb)]
      by_cases h4 : defaultAfter o s.entry .v4 = []
      · rw [if_neg (not_not.mpr h4), if_neg (not_not.mpr h4), h4]
        rfl
      · rw [if_pos h4, if_pos h4]

/-- **The last part of the update leaves the proxies as it should exactly under its condition.** -/
theorem updateProxies_ok_iff {o : WanEntryObj} (hg : o.cfg.feedsProxies) (hdev : o.dev ≠ [])
    {s s₀ : McastState} (hs : s.writes = s₀.writes) :
    ProxyOk o s₀ (updateProxies o s) ↔ ProxyCond o s.entry := by
  obtain ⟨s₁, hw, hd, heq⟩ := updateProxies_eq hg s
  have hw := hw.trans hs
  have hown := upstreamifSet_ne_nil hdev
  have hne := defaultAfter_ne_nil hdev s.entry
  have hfit := snprintf_defaultAfter o s.entry
  have h6 : o.cfg.hasFamily .v6 = o.cfg.isIpv6 := rfl
  have h4 : o.cfg.hasFamily .v4 = o.cfg.isIpv4 := rfl
  rw [heq]
  by_cases hb : o.cfg.bindsOther
  · rw [if_pos hb, proxyOk_writeFamily_iff o hw fun _ => upstreamifSet o]
    constructor
    · intro h
      exact ⟨fun _ ⟨f, hf⟩ => (h f hf).2.1 hb, fun h => absurd hb h, fun h => absurd hb h,
        fun h => absurd hb h⟩
    · intro h f hf
      exact ⟨hown, fun _ => h.bound hb ⟨f, hf⟩, fun h => absurd hb h⟩
  · rw [if_neg hb]
    by_cases hd4 : defaultAfter o s.entry .v4 = []
    · rw [if_neg (not_not.mpr hd4)]
      have hno4 := (hne .v4).not.mp (not_not.mpr hd4)
      by_cases hd6 : defaultAfter o s.entry .v6 = []
      · -- no default at all
        rw [if_neg (not_not.mpr hd6)]
        have hno6 := (hne .v6).not.mp (not_not.mpr hd6)
        have hok := proxyOk_writeFirst hw hdev hb fun f => by
          rw [hd f]
          cases f with
          | v4 => exact hd4
          | v6 => exact hd6
        rw [not_or, not_not] at hno4 hno6
        refine iff_of_true hok
          ⟨fun h => absurd h hb, fun _ _ _ => ⟨by simp [hno4.2], fun _ => hno6.2⟩, fun _ _ h => ?_,
            fun _ _ _ _ => by simp [hno6.2]⟩
        exact absurd h (by simp [hno4])
      · -- only IPv6 has a default, so IPv4 must not be written
        rw [if_pos hd6]
        have hval := proxyOk_writeFamily_iff o hw fun
          | .v4 => []
          | .v6 => snprintf 16 (defaultAfter o s.entry .v6)
        rw [hval]
        constructor
        · intro h
          have hno : ¬ o.cfg.isIpv4 = true := fun hi => (h .v4 hi).1 rfl
          refine ⟨fun hbo => absurd hbo hb, fun _ hi => absurd hi hno,
            fun _ _ hor => absurd hor hno4, fun _ hi _ => (hfit .v6).mp ?_⟩
          have hkept := (h .v6 hi).2.2 hb (by rw [hd]; exact hd6)
          rwa [hd] at hkept
        · intro h f hf
          cases f with
          | v4 =>
            rw [not_or, not_not] at hno4
            have hd6' := (h.v4 hb hf hno4.1).2 hno4.2
            rcases (hne .v6).mp hd6 with hoff | hne6
            · -- an Internet WAN would have offered itself to IPv4 too
              exact absurd ⟨hoff.1, hf, .inl hno4.2⟩ hno4.1
            · exact absurd hd6' hne6
          | v6 =>
            refine ⟨fun he => hd6 ((snprintf_eq_nil_iff (by decide)).mp he),
              fun hbo => absurd hbo hb,
              fun _ _ => ?_⟩
            rw [hd]
            exact (hfit .v6).mpr (h.v6alone hb hf hno4)
    · -- the default of IPv4 is written, and what is in the buffer of IPv6
      rw [if_pos hd4]
      have hor := (hne .v4).mp hd4
      have hval := proxyOk_writeFamily_iff o hw fun
        | .v4 => snprintf 16 (defaultAfter o s.entry .v4)
        | .v6 => if o.cfg.srvInternet = true ∧ o.cfg.hasFamily .v6 = true then
            snprintf 16 (s.entry .v6).default else []
      rw [hval]
      constructor
      · intro h
        refine ⟨fun hbo => absurd hbo hb, fun _ hi hoff => ?_, fun _ hi _ => ?_,
          fun _ _ hno => absurd hor hno⟩
        · have hkept := (h .v4 hi).2.2 hb (by rw [hd]; exact hd4)
          rw [hd] at hkept
          exact ⟨(hfit .v4).mp hkept hoff, fun he => absurd he (hor.resolve_left hoff)⟩
        · obtain ⟨hbuf, -, hkept⟩ := h .v6 hi
          have hint : o.cfg.srvInternet = true := by
            by_contra hni
            exact hbuf (if_neg fun hc => hni hc.1)
          rw [hd] at hkept
          have hboth := And.intro hint (show o.cfg.hasFamily .v6 = true from hi)
          simp only [if_pos hboth] at hbuf hkept
          have hd6 : (s.entry .v6).default ≠ [] := fun he =>
            hbuf ((snprintf_eq_nil_iff (by decide)).mpr he)
          have heq6 := hkept hb ((hne .v6).mpr (.inr hd6))
          refine ⟨hint, hd6, fun hoff => ?_, fun hoff => ?_⟩
          · rwa [defaultAfter, if_pos hoff] at heq6
          · rw [defaultAfter, if_neg hoff, snprintf_eq_self (by decide)] at heq6
            exact Nat.le_of_lt_succ heq6
      · intro h f hf
        cases f with
        | v4 =>
          refine ⟨fun he => hd4 ((snprintf_eq_nil_iff (by decide)).mp he), fun hbo => absurd hbo hb,
            fun _ _ => ?_⟩
          rw [hd]
          exact (hfit .v4).mpr fun hoff => (h.v4 hb hf hoff).1
        | v6 =>
          obtain ⟨hint, hd6, hoff, hno⟩ := h.v6 hb hf hor
          simp only [if_pos (And.intro hint hf)]
          refine ⟨fun he => hd6 ((snprintf_eq_nil_iff (by decide)).mp he), fun hbo => absurd hbo hb,
            fun _ _ => ?_⟩
          rw [hd, defaultAfter]
          split
          · next ho => exact hoff ho
          · next ho => exact (snprintf_eq_self (by decide) _).mpr (Nat.lt_succ_of_le (hno ho))

/-! ## What an update does to its object -/

theorem stopIf_spec (effect : Bool) (w : Outside) {st : WanState} {a : Nat} {o : WanEntryObj}
    (ho : st.obj? a = some o) :
    ∃ o', (stopIf effect w st a).obj? a = some o' ∧ o'.ident = o.ident ∧ o'.cfg = o.cfg ∧
      o'.started = (o.started && !effect) ∧
      ∃ stops : List IntfCall, (∀ c ∈ stops, ∃ i cfg, c = .stop i cfg) ∧
        (stopIf effect w st a).intfLog = st.intfLog ++ stops := by
  cases effect with
  | false => exact ⟨o, ho, rfl, rfl, by simp, [], by simp, by simp [stopIf]⟩
  | true =>
    rw [stopIf, if_pos rfl, svcWanStopIntf, WanState.withObj_of_some ho]
    split
    · next hns =>
      exact ⟨o, ho, rfl, rfl, by simpa using hns, [], by simp, by simp⟩
    · have hframe := svcWanDoStopIntf_frame w ho
      obtain ⟨o', ho', hc⟩ := hframe.obj? (o := o) ho
      have hid : o'.ident = o.ident := show o'.core.ident = o.core.ident by rw [hc]
      have hcfg : o'.cfg = o.cfg := show o'.core.cfg = o.core.cfg by rw [hc]
      exact ⟨_, WanState.obj?_modify ho' fun _ => rfl, hid, hcfg, by simp, [.stop o.idx o.cfg],
        by simp, hframe.intfLog⟩

theorem startIf_spec (effect : Bool) (w : Outside) {st : WanState} {a : Nat} {o : WanEntryObj}
    (ho : st.obj? a = some o) :
    ∃ o', (startIf effect w st a).obj? a = some o' ∧ o'.ident = o.ident ∧ o'.cfg = o.cfg ∧
      (startIf effect w st a).intfLog = st.intfLog ++
        if effect = true ∧ o.started = false ∧ svcWanCheckCfg o.cfg = true then
          [.start o.idx o.cfg] else [] := by
  cases effect with
  | false => exact ⟨o, ho, rfl, rfl, by simp [startIf]⟩
  | true =>
    rw [startIf, if_pos rfl, svcWanStartIntf, WanState.withObj_of_some ho]
    by_cases hs : o.started = true
    · rw [if_pos hs]
      exact ⟨o, ho, rfl, rfl, by simp [hs]⟩
    rw [if_neg hs]
    by_cases hcheck : svcWanCheckCfg o.cfg = true
    · rw [if_neg (by simp [hcheck])]
      have hframe := svcWanDoStartIntf_frame w ho
      obtain ⟨o', ho', hc⟩ := hframe.obj? (o := o) ho
      have hid : o'.ident = o.ident := show o'.core.ident = o.core.ident by rw [hc]
      have hcfg : o'.cfg = o.cfg := show o'.core.cfg = o.core.cfg by rw [hc]
      refine ⟨_, WanState.obj?_modify ho' fun _ => rfl, hid, hcfg, ?_⟩
      rw [if_pos ⟨rfl, by simpa using hs, hcheck⟩]
      exact hframe.intfLog
    · rw [if_pos (by simpa using hcheck)]
      exact ⟨o, ho, rfl, rfl, by simp [hcheck]⟩

/-- The configuration that an update leaves. -/
def storedCfg (old : WanEntryCfg) : Option WanEntryCfg → WanEntryCfg
  | none => old
  | some tmp => if stores old tmp then tmp else old

/-- The update starts the interface, with the configuration that it stores. -/
def Restarts (u : UpdateEvt) (o : WanEntryObj) : Prop :=
  ∃ tmp ∈ u.loaded, stores o.cfg tmp ∧ tmp.active = 1 ∧ u.effect o = true ∧
    (o.cfg.active = 1 ∨ o.started = false) ∧ svcWanCheckCfg tmp = true

instance (u : UpdateEvt) (o : WanEntryObj) : Decidable (Restarts u o) :=
  inferInstanceAs (Decidable (∃ _ ∈ _, _))

/-- **What an update does**: the object keeps its identity and gets the stored configuration, and
after the stops the interface is started at most once. -/
theorem updateObject_spec (u : UpdateEvt) {st : WanState} {a : Nat} {o : WanEntryObj}
    (ho : st.obj? a = some o) :
    ∃ o', (svcWanUpdateObject u st a).obj? a = some o' ∧ o'.ident = o.ident ∧
      o'.cfg = storedCfg o.cfg u.loaded ∧
      ∃ stops : List IntfCall, (∀ c ∈ stops, ∃ i cfg, c = .stop i cfg) ∧
        (svcWanUpdateObject u st a).intfLog = st.intfLog ++ stops ++
          if Restarts u o then [.start o.idx (storedCfg o.cfg u.loaded)] else [] := by
  rw [svcWanUpdateObject, WanState.withObj_of_some ho]
  cases hload : u.loaded with
  | none =>
    have hno : ¬ Restarts u o := by
      rintro ⟨tmp, htmp, -⟩
      simp [hload] at htmp
    exact ⟨o, ho, rfl, rfl, [], by simp, by simp [hno]⟩
  | some tmp =>
    have hiff : Restarts u o ↔ stores o.cfg tmp ∧ tmp.active = 1 ∧ u.effect o = true ∧
        (o.cfg.active = 1 ∨ o.started = false) ∧ svcWanCheckCfg tmp = true := by
      simp [Restarts, hload]
    obtain ⟨o₁, ho₁, hid₁, -, hs₁, stops, hstops, hlog₁⟩ :=
      stopIf_spec (u.effect o) u.outside ho
    have hstore : ((stopIf (u.effect o) u.outside st a).storeCfg a tmp).obj? a =
        some { o₁ with cfg := tmp } := WanState.obj?_modify ho₁ fun _ => rfl
    have hidx₁ : o₁.idx = o.idx := show o₁.ident.idx = o.ident.idx by rw [hid₁]
    dsimp only
    by_cases h01 : o.cfg.active = 0 ∧ tmp.active = 1
    · rw [if_pos h01]
      have hst : stores o.cfg tmp := .inl h01
      have hstore0 : (st.storeCfg a tmp).obj? a = some { o with cfg := tmp } :=
        WanState.obj?_modify ho fun _ => rfl
      obtain ⟨o', ho', hid, hcfg, hlog⟩ := startIf_spec (u.effect o) u.outside hstore0
      have hne : o.cfg.active ≠ 1 := by rw [h01.1]; decide
      refine ⟨o', ho', hid, by rw [hcfg, storedCfg, if_pos hst], [], by simp, ?_⟩
      rw [hlog, storedCfg, if_pos hst, List.append_nil]
      refine congrArg _ (if_congr ?_ rfl rfl)
      rw [hiff]
      simp [hst, h01.2, hne]
    rw [if_neg h01]
    by_cases h10 : o.cfg.active = 1 ∧ tmp.active = 0
    · rw [if_pos h10]
      have hst : stores o.cfg tmp := .inr (.inl h10)
      have hne : tmp.active ≠ 1 := by rw [h10.2]; decide
      refine ⟨_, hstore, hid₁, by rw [storedCfg, if_pos hst], stops, hstops, ?_⟩
      rw [if_neg fun h => hne (hiff.mp h).2.1, List.append_nil]
      exact hlog₁
    rw [if_neg h10]
    by_cases h11 : o.cfg.active = 1 ∧ tmp.active = 1
    · rw [if_pos h11]
      have hst : stores o.cfg tmp := .inr (.inr h11)
      obtain ⟨o', ho', hid, hcfg, hlog⟩ := startIf_spec (u.effect o) u.outside hstore
      refine ⟨o', ho', hid.trans hid₁, by rw [hcfg, storedCfg, if_pos hst], stops, hstops, ?_⟩
      rw [hlog, storedCfg, if_pos hst, ← hlog₁, ← hidx₁]
      refine congrArg _ (if_congr ?_ rfl rfl)
      rw [hiff, hs₁]
      cases u.effect o <;> simp [hst, h11.1, h11.2]
    · rw [if_neg h11]
      have hst : ¬ stores o.cfg tmp := by
        rintro (h | h | h)
        · exact h01 h
        · exact h10 h
        · exact h11 h
      have hno : ¬ Restarts u o := fun h => hst (hiff.mp h).1
      exact ⟨o, ho, rfl, by rw [storedCfg, if_neg hst], [], by simp, by simp [hno]⟩

/-! ## The whole update -/

/-- Addresses are unique and every object has a device. -/
structure StateOk (st : WanState) : Prop where
  addrs : (st.objs.map WanEntryObj.addr).Nodup
  fresh : ∀ a ∈ st.objs.map WanEntryObj.addr, a < st.next
  devs : ∀ d ∈ st.objs.map WanEntryObj.dev, d ≠ []

theorem StateOk.same {st st' : WanState} (h : StateOk st) (hs : SameObjs st st') : StateOk st' where
  addrs := by rw [hs.map fun _ => rfl]; exact h.addrs
  fresh := by rw [hs.map fun _ => rfl, hs.next]; exact h.fresh
  devs := by rw [hs.map fun _ => rfl]; exact h.devs

theorem newWanObj_dev_ne_nil (addr : Nat) (path : Str) (pvc entry : Nat) :
    (newWanObj addr path pvc entry).dev ≠ [] := by
  rw [newWanObj, Ne, snprintf_eq_nil_iff (by decide), nasName]
  simp

theorem StateOk.create {st : WanState} (h : StateOk st) (path : Str) (pvc entry : Nat) :
    StateOk { st with
      objs := st.objs ++ [newWanObj st.next path pvc entry], next := st.next + 1 } := by
  have hmap : ∀ {β : Type} (π : WanEntryObj → β),
      (st.objs ++ [newWanObj st.next path pvc entry]).map π =
        st.objs.map π ++ [π (newWanObj st.next path pvc entry)] := fun π => by simp
  constructor
  · rw [hmap]
    refine List.nodup_append.mpr ⟨h.addrs, by simp, fun a ha b hb => ?_⟩
    have hlt := h.fresh a ha
    rw [List.mem_singleton.mp hb]
    exact hlt.ne
  · intro a ha
    rw [hmap, List.mem_append, List.mem_singleton] at ha
    rcases ha with ha | rfl
    · exact Nat.lt_succ_of_lt (h.fresh a ha)
    · exact Nat.lt_succ_self _
  · intro d hd
    rw [hmap, List.mem_append, List.mem_singleton] at hd
    rcases hd with hd | rfl
    · exact h.devs d hd
    · exact newWanObj_dev_ne_nil st.next path pvc entry

/-- An update without an object changes nothing; with one, it is `svc_wan_update_object` on a state
in which the object is. -/
theorem svcWanHandleEventUpdate_cases (tt : TypeTree) (maxPvc : Nat) {st : WanState}
    (h : StateOk st) (u : UpdateEvt) :
    (updatedObj tt maxPvc st u = none ∧ svcWanHandleEventUpdate tt maxPvc st u = st) ∨
    ∃ o st', updatedObj tt maxPvc st u = some o ∧ StateOk st' ∧ st'.obj? o.addr = some o ∧
      st'.intfLog = st.intfLog ∧
      svcWanHandleEventUpdate tt maxPvc st u = svcWanUpdateObject u st' o.addr := by
  rw [updatedObj, svcWanHandleEventUpdate]
  by_cases hp : u.present = true
  · simp only [hp, Bool.not_true, Bool.false_eq_true, if_false]
    cases hfind : svcWanFindObject st u.path with
    | some o =>
      exact .inr ⟨o, st, rfl, h, obj?_of_mem h.addrs (findObject_some hfind).1, rfl, rfl⟩
    | none =>
      cases hent : entryOfPath tt maxPvc u.path with
      | none => exact .inl ⟨rfl, rfl⟩
      | some e =>
        by_cases ha : u.alloc = true
        · simp only [ha, Bool.not_true, Bool.false_eq_true, if_false]
          have hnew := h.create u.path e.1 e.2
          refine .inr ⟨_, _, rfl, hnew, obj?_of_mem hnew.addrs ?_, rfl, rfl⟩
          exact List.mem_append_right st.objs (List.mem_singleton_self _)
        · simp only [ha, Bool.not_false, if_true]
          exact .inl (by simp)
  · simp only [hp, Bool.not_false, if_true]
    exact .inl (by simp)

theorem StateOk.update {st : WanState} (tt : TypeTree) (maxPvc : Nat) (h : StateOk st)
    (u : UpdateEvt) : StateOk (svcWanHandleEventUpdate tt maxPvc st u) := by
  rcases svcWanHandleEventUpdate_cases tt maxPvc h u with ⟨-, heq⟩ | ⟨o, st', -, h', ho, -, heq⟩
  · rw [heq]
    exact h
  · rw [heq]
    obtain ⟨hm, ha⟩ := WanState.mem_of_obj? ho
    exact h'.same (sameObjs_svcWanUpdateObject u (ha ▸ WanState.valid_of_mem hm))

/-- `UpstreamIF` of a proxy is the interface of the object, under one of its two names. -/
def NamesOwn (o : WanEntryObj) (e : ProxyEntry) : Prop :=
  snprintf 32 (e.upstreamIf.getD []) ≠ [] ∧
    (o.dev = snprintf 32 (e.upstreamIf.getD []) ∨
      snprintf 32 ("ppp".toList ++ fmtNat o.idx) = snprintf 32 (e.upstreamIf.getD []))

instance (o : WanEntryObj) (e : ProxyEntry) : Decidable (NamesOwn o e) :=
  inferInstanceAs (Decidable (_ ∧ _))

theorem clearUpstream_eq (o : WanEntryObj) (s : McastState) (f : Family) :
    clearUpstream o s f =
      if NamesOwn o (s.entry f) then s.setUpstream f [] "No".toList else s := by
  have hread : (cfgGetObjectAttr (s.entry f).upstreamIf [] 32).2 =
      snprintf 32 ((s.entry f).upstreamIf.getD []) := by
    cases (s.entry f).upstreamIf <;> rfl
  rw [clearUpstream]
  simp only [hread]
  rfl

theorem prefix_setUpstream (s : McastState) (f : Family) (val active : Str) :
    s.writes <+: (s.setUpstream f val active).writes := List.prefix_append _ _

theorem prefix_writeFamily (o : WanEntryObj) (s : McastState) (f : Family) (val : Str) :
    s.writes <+: (writeFamily o s f val).writes := by
  rw [writeFamily]
  split
  · exact prefix_setUpstream ..
  · exact List.prefix_rfl

theorem prefix_writeFirst (o : WanEntryObj) (s : McastState) (f : Family) :
    s.writes <+: (writeFirst o s f).writes := by
  rw [writeFirst]
  split
  · exact prefix_writeFamily ..
  · exact List.prefix_rfl

/-- The last part of the update only adds to the record. -/
theorem prefix_updateProxies {o : WanEntryObj} (hg : o.cfg.feedsProxies) (s : McastState) :
    s.writes <+: (updateProxies o s).writes := by
  obtain ⟨s₁, hw, -, heq⟩ := updateProxies_eq hg s
  have hboth : ∀ a b, s₁.writes <+: (writeFamily o (writeFamily o s₁ .v4 a) .v6 b).writes :=
    fun a b => (prefix_writeFamily ..).trans (prefix_writeFamily ..)
  rw [heq, ← hw]
  split
  · exact hboth _ _
  split
  · exact hboth _ _
  split
  · exact hboth _ _
  · exact (prefix_writeFirst ..).trans (prefix_writeFirst ..)

/-- An interface that becomes a bridge while a proxy names it sets the proxy to the empty text. -/
theorem clearUpstream_both (o : WanEntryObj) (s : McastState) :
    ((∀ f, ¬ NamesOwn o (s.entry f)) ∧ clearUpstream o (clearUpstream o s .v4) .v6 = s) ∨
    ((∃ f, NamesOwn o (s.entry f)) ∧ ∃ f ws,
      (clearUpstream o (clearUpstream o s .v4) .v6).writes = s.writes ++ (f, []) :: ws) := by
  have hv6 : ((clearUpstream o s .v4).entry .v6) = s.entry .v6 := by
    rw [clearUpstream_eq]
    split <;> simp [McastState.setUpstream]
  rw [clearUpstream_eq o (clearUpstream o s .v4), hv6, clearUpstream_eq]
  by_cases h4 : NamesOwn o (s.entry .v4)
  · refine .inr ⟨⟨.v4, h4⟩, .v4, ?_⟩
    rw [if_pos h4]
    split
    · exact ⟨[(.v6, [])], by simp [McastState.setUpstream]⟩
    · exact ⟨[], rfl⟩
  · rw [if_neg h4]
    by_cases h6 : NamesOwn o (s.entry .v6)
    · refine .inr ⟨⟨.v6, h6⟩, .v6, [], ?_⟩
      rw [if_pos h6]
      rfl
    · refine .inl ⟨fun f => ?_, by rw [if_neg h6]⟩
      cases f
      · exact h4
      · exact h6

/-- After an update that works on an object, the proxies are left as they should be. -/
def UpdateOk (tt : TypeTree) (maxPvc : Nat) (s : McastState) (u : UpdateEvt) : Prop :=
  ∀ o ∈ updatedObj tt maxPvc s.wan u,
    ∀ o' ∈ (svcWanHandleEventUpdate tt maxPvc s.wan u).obj? o.addr, o'.cfg.feedsProxies →
      ProxyOk o' s (svcWanHandleEventUpdateProxies tt maxPvc s u)

/-- The object with the configuration that the update stores. -/
def afterUpdate (u : UpdateEvt) (o : WanEntryObj) : WanEntryObj :=
  { o with cfg := storedCfg o.cfg u.loaded }

/-- When an update leaves the proxies as it should: it does not turn an interface that a proxy names
into a bridge, and the last part finds what it needs. -/
def UpdateCond (tt : TypeTree) (maxPvc : Nat) (s : McastState) (u : UpdateEvt) : Prop :=
  ∀ o ∈ updatedObj tt maxPvc s.wan u, (afterUpdate u o).cfg.feedsProxies →
    (u.outside.deviceOk = true → Restarts u o → (afterUpdate u o).cfg.isBridge = true →
      ∀ f, ¬ NamesOwn (afterUpdate u o) (s.entry f)) ∧
    ProxyCond (afterUpdate u o) s.entry

theorem ProxyCond.congr {o o' : WanEntryObj} (hi : o.idx = o'.idx) (hd : o.dev = o'.dev)
    (hc : o.cfg = o'.cfg) {e : Family → ProxyEntry} (h : ProxyCond o e) : ProxyCond o' e := by
  obtain ⟨addr, path, started, upv4, upv6, idx, dev, cfg⟩ := o
  obtain ⟨addr', path', started', upv4', upv6', idx', dev', cfg'⟩ := o'
  obtain rfl : idx = idx' := hi
  obtain rfl : dev = dev' := hd
  obtain rfl : cfg = cfg' := hc
  exact ⟨h.bound, h.v4, h.v6, h.v6alone⟩

theorem NamesOwn.congr {o o' : WanEntryObj} (hi : o.idx = o'.idx) (hd : o.dev = o'.dev)
    {e : ProxyEntry} (h : NamesOwn o e) : NamesOwn o' e := by
  rw [NamesOwn, ← hi, ← hd]
  exact h

theorem startsBridge_eq (u : UpdateEvt) {b after : WanState} {stops starts : List IntfCall}
    (hstops : ∀ c ∈ stops, ∃ i cfg, c = .stop i cfg)
    (hlog : after.intfLog = b.intfLog ++ stops ++ starts) :
    startsBridge u b after = (u.outside.deviceOk && starts.any fun
      | .start _ cfg => cfg.isBridge
      | .stop _ _ => false) := by
  rw [startsBridge, hlog, List.append_assoc, List.drop_left, List.any_append]
  congr 1
  have hnone : (stops.any fun
      | .start _ cfg => cfg.isBridge
      | .stop _ _ => false) = false := by
    rw [List.any_eq_false]
    intro c hc
    obtain ⟨i, cfg, rfl⟩ := hstops c hc
    exact Bool.false_ne_true
  rw [hnone, Bool.false_or]

/-- **A call leaves the proxies as it should exactly under its condition.** -/
theorem updateOk_iff (tt : TypeTree) (maxPvc : Nat) {s : McastState} (h : StateOk s.wan)
    (u : UpdateEvt) : UpdateOk tt maxPvc s u ↔ UpdateCond tt maxPvc s u := by
  rcases svcWanHandleEventUpdate_cases tt maxPvc h u with
    ⟨hnone, -⟩ | ⟨o, st', hobj, h', ho, hlog, heq⟩
  · simp [UpdateOk, UpdateCond, hnone]
  · obtain ⟨o', ho', hid, hcfg, stops, hstops, hlog'⟩ := updateObject_spec u ho
    rw [← heq] at ho' hlog'
    have hidx : (afterUpdate u o).idx = o'.idx := show o.ident.idx = o'.ident.idx by rw [hid]
    have hdev : (afterUpdate u o).dev = o'.dev := show o.ident.dev = o'.ident.dev by rw [hid]
    have hcfg : (afterUpdate u o).cfg = o'.cfg := hcfg.symm
    have hne : o'.dev ≠ [] := by
      rw [← hdev]
      exact h'.devs o.dev (List.mem_map_of_mem (WanState.mem_of_obj? ho).1)
    have hcond : ProxyCond (afterUpdate u o) s.entry ↔ ProxyCond o' s.entry :=
      ⟨ProxyCond.congr hidx hdev hcfg, ProxyCond.congr hidx.symm hdev.symm hcfg.symm⟩
    have hnames : ∀ f, NamesOwn (afterUpdate u o) (s.entry f) ↔ NamesOwn o' (s.entry f) :=
      fun f => ⟨NamesOwn.congr hidx hdev, NamesOwn.congr hidx.symm hdev.symm⟩
    rw [hlog] at hlog'
    have hbridge := startsBridge_eq u (b := s.wan) hstops hlog'
    have hcall : svcWanHandleEventUpdateProxies tt maxPvc s u =
        updateProxies o' (if startsBridge u s.wan (svcWanHandleEventUpdate tt maxPvc s.wan u) then
          clearUpstream o' (clearUpstream o'
            { s with wan := svcWanHandleEventUpdate tt maxPvc s.wan u } .v4) .v6
          else { s with wan := svcWanHandleEventUpdate tt maxPvc s.wan u }) := by
      rw [svcWanHandleEventUpdateProxies, hobj, Option.bind_some, ho']
    -- the interface becomes a bridge
    have hstart : startsBridge u s.wan (svcWanHandleEventUpdate tt maxPvc s.wan u) = true ↔
        u.outside.deviceOk = true ∧ Restarts u o ∧ (afterUpdate u o).cfg.isBridge = true := by
      rw [hbridge, Bool.and_eq_true]
      refine and_congr_right fun _ => ?_
      by_cases hr : Restarts u o
      · simp [hr, afterUpdate]
      · simp [hr]
    have hiff : UpdateOk tt maxPvc s u ↔
        (o'.cfg.feedsProxies → ProxyOk o' s (svcWanHandleEventUpdateProxies tt maxPvc s u)) := by
      simp [UpdateOk, hobj, ho']
    have hiff' : UpdateCond tt maxPvc s u ↔ (o'.cfg.feedsProxies →
        (startsBridge u s.wan (svcWanHandleEventUpdate tt maxPvc s.wan u) = true →
          ∀ f, ¬ NamesOwn o' (s.entry f)) ∧ ProxyCond o' s.entry) := by
      simp only [UpdateCond, hobj, Option.mem_some_iff, forall_eq', hcfg, hcond, hnames, hstart,
        and_imp]
    rw [hiff, hiff']
    refine imp_congr_right fun hg => ?_
    rw [hcall]
    have hs : ({ s with wan := svcWanHandleEventUpdate tt maxPvc s.wan u } : McastState).writes =
      s.writes := rfl
    have hlast := updateProxies_ok_iff hg hne hs
    by_cases hsb : startsBridge u s.wan (svcWanHandleEventUpdate tt maxPvc s.wan u) = true
    · simp only [hsb, if_true, true_imp_iff]
      rcases clearUpstream_both o' { s with wan := svcWanHandleEventUpdate tt maxPvc s.wan u } with
        ⟨hno, hclear⟩ | ⟨⟨f, hf⟩, g, ws, hws⟩
      · rw [hclear]
        exact hlast.trans (and_iff_right hno).symm
      · -- the empty text is written
        refine iff_of_false (fun hok => ?_) fun hc => hc.1 f hf
        obtain ⟨ws', hws'⟩ := prefix_updateProxies hg (clearUpstream o' (clearUpstream o'
          { s with wan := svcWanHandleEventUpdate tt maxPvc s.wan u } .v4) .v6)
        refine hok.nonempty (g, []) ?_ rfl
        rw [← hws', hws, List.append_assoc, List.drop_left]
        simp
    · rw [if_neg hsb]
      exact hlast.trans (and_iff_right fun h => absurd h hsb).symm

/-! ## Sequences of updates -/

/-- The manager as it starts, over any configuration of the proxies. -/
def McastState.start (entry : Family → ProxyEntry) : McastState :=
  { wan := .boot, entry := entry, writes := [] }

/-- A sequence of updates. -/
def runMcast (tt : TypeTree) (maxPvc : Nat) (s : McastState) (us : List UpdateEvt) : McastState :=
  us.foldl (svcWanHandleEventUpdateProxies tt maxPvc) s

theorem updateProxies_wan (o : WanEntryObj) (s : McastState) : (updateProxies o s).wan = s.wan := by
  have hwrite : ∀ (s : McastState) f v, (writeFamily o s f v).wan = s.wan := by
    intro s f v
    rw [writeFamily]
    split <;> rfl
  have hfirst : ∀ (s : McastState) f, (writeFirst o s f).wan = s.wan := by
    intro s f
    rw [writeFirst]
    split
    · exact hwrite ..
    · rfl
  rw [updateProxies]
  dsimp only
  split_ifs <;> simp only [hwrite, hfirst]

theorem wan_svcWanHandleEventUpdateProxies (tt : TypeTree) (maxPvc : Nat) (s : McastState)
    (u : UpdateEvt) : (svcWanHandleEventUpdateProxies tt maxPvc s u).wan =
      svcWanHandleEventUpdate tt maxPvc s.wan u := by
  have hclear : ∀ o (s : McastState) f, (clearUpstream o s f).wan = s.wan := by
    intro o s f
    rw [clearUpstream_eq]
    split <;> rfl
  rw [svcWanHandleEventUpdateProxies]
  dsimp only
  split
  · rfl
  · rw [updateProxies_wan]
    split
    · rw [hclear, hclear]
    · rfl

/-- **After every update of a sequence the proxies are left as they should exactly if every update
meets its condition in the state before it.** -/
theorem runMcast_ok_iff (tt : TypeTree) (maxPvc : Nat) (entry : Family → ProxyEntry)
    (us : List UpdateEvt) :
    (∀ pre u, pre ++ [u] <+: us → UpdateOk tt maxPvc (runMcast tt maxPvc (.start entry) pre) u) ↔
    RunOk (svcWanHandleEventUpdateProxies tt maxPvc) (UpdateCond tt maxPvc) (.start entry) us := by
  have hstart : StateOk (McastState.start entry).wan :=
    ⟨List.nodup_nil, by simp [McastState.start, WanState.boot], by
      simp [McastState.start, WanState.boot]⟩
  rw [← RunOk.congr (fun (s : McastState) u (hs : StateOk s.wan) => by
    rw [wan_svcWanHandleEventUpdateProxies]
    exact hs.update tt maxPvc u) (fun s u hs => updateOk_iff tt maxPvc hs u) hstart]
  exact RunOk.iff_prefix.symm

/-- A routed WAN over DHCP with the services `srv`, for both families. -/
def routedWan (srv : Word) : WanEntryCfg :=
  { tr069Wan with version := versionBoth, ipv6mode := 1, srvType := srv }

/-- Two failures: an OTHER WAN without ports sets the proxy of IPv6, which has a default, to the
empty text; so does an Internet WAN that becomes the first default of both families. -/
theorem runMcast_fail :
    (¬ UpdateOk wanTypes 8
      (.start fun _ => { defaultWan := some "nas0_0".toList, upstreamIf := some "nas0_0".toList })
      (plainUpdate "root.wan.pvc.1.entry.2" (routedWan eSrvOther))) ∧
    ¬ UpdateOk wanTypes 8 (.start fun _ => {})
      (plainUpdate "root.wan.pvc.1.entry.1" (routedWan eSrvInternet)) := by
  constructor
  · intro h
    have hok := h (newWanObj 0 "root.wan.pvc.1.entry.2".toList 0 1) (by decide +kernel)
      { newWanObj 0 "root.wan.pvc.1.entry.2".toList 0 1 with
        started := true, cfg := routedWan eSrvOther } (by decide +kernel)
      ⟨by decide, .inr (by decide)⟩
    exact absurd hok.nonempty (by decide +kernel)
  · intro h
    have hok := h (newWanObj 0 "root.wan.pvc.1.entry.1".toList 0 0) (by decide +kernel)
      { newWanObj 0 "root.wan.pvc.1.entry.1".toList 0 0 with
        started := true, cfg := routedWan eSrvInternet } (by decide +kernel)
      ⟨by decide, .inl (by decide)⟩
    exact absurd hok.nonempty (by decide +kernel)

end OnuFirmware.Wan
