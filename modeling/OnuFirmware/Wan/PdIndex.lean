import OnuFirmware.Lib.Choice
import OnuFirmware.Cfg.ReadAttr
import OnuFirmware.Wan.Manager

/-!
# The WAN whose prefix is delegated (`pd_info.c`)

`get_pd_index` looks for a WAN to take over the delegation when one goes down. Among the other
active WANs in route mode with PD enabled it prefers one with `INTERNET` service, then one with
`OTHER` service, and in a CMCC build one with `IPTV` and one with `OTT`.

A WAN counts only if it is up and has a prefix, but the flag for that is set once and never cleared,
so that a WAN that is down counts if one before it is up. The choice is right exactly if each such
WAN is beaten by one that is up.
-/

namespace OnuFirmware.Wan

open Clib Lib Cfg

/-- The node of an entry, from its index. -/
def entryNode (idx : Nat) : Str := wanPvcEntryNode (idx / 8 + 1) (idx % 8 + 1)

/-- The WAN list: each object stands for one entry, under the name of the entry. -/
structure WanList where
  objs : List WanEntryObj
  named : ∀ o ∈ objs, o.path = entryNode o.idx
  paths : (objs.map WanEntryObj.path).Nodup

/-- `svc_wan_find_object` on the list. -/
def WanList.find (l : WanList) (path : Str) : Option WanEntryObj :=
  l.objs.find? fun o => o.path == path

/-- What `get_pd_index` reads besides the list: the attributes of the entries of `root.waninfo` and
whether the build has `TCSUPPORT_CMCCV2`. -/
structure PdOutside where
  waninfo : Nat → List (Str × Str)
  cmccv2 : Bool

/-- The variables of the loop; `none` is `-1`. -/
structure PdSlots where
  itfFlag : Bool := false
  internetIf : Option Nat := none
  otherIf : Option Nat := none
  iptvIf : Option Nat := none
  ottIf : Option Nat := none

def textNA : Str := "N/A".toList

/-- The status of an entry is `up` and its prefix is there. -/
def pdUp (w : PdOutside) (o : WanEntryObj) : Bool :=
  let attrs := w.waninfo (o.idx + 1)
  let status6 := cfgGetObjectAttr (cfgXmlGetAttr attrs "Status6".toList) [] 8
  let strStatus6 := if status6.1 < 0 then textNA else status6.2
  let pd6 := cfgGetObjectAttr (cfgXmlGetAttr attrs "PD6".toList) [] 64
  let strPd6 := if pd6.1 < 0 then textNA else pd6.2
  (strPd6 != [] && strPd6 != textNA) && strStatus6 == "up".toList

/-- The body of the loop for an object that has been found. -/
def pdVisit (w : PdOutside) (s : PdSlots) (v : Nat) (o : WanEntryObj) : PdSlots :=
  if o.cfg.isActive && o.cfg.isRoute && o.cfg.pdEnable then
    let s := if pdUp w o then { s with itfFlag := true } else s
    if o.cfg.srvInternet && s.itfFlag then { s with internetIf := some v }
    else if s.otherIf.isNone && o.cfg.srvOther && s.itfFlag then { s with otherIf := some v }
    else if w.cmccv2 && s.iptvIf.isNone && o.cfg.srvIptv && s.itfFlag then
      { s with iptvIf := some v }
    else if w.cmccv2 && s.ottIf.isNone && o.cfg.srvOtt && s.itfFlag then { s with ottIf := some v }
    else s
  else s

/-- The loop over the indices; `none` is the return when an object is not found. -/
def pdLoop (w : PdOutside) (l : WanList) (ifindex : Int) : List Nat → PdSlots → Option PdSlots
  | [], s => some s
  | v :: vs, s =>
    if ifindex = v then pdLoop w l ifindex vs s
    else if s.internetIf.isNone then
      match l.find (entryNode v) with
      | none => none
      | some o => pdLoop w l ifindex vs (pdVisit w s v o)
    else pdLoop w l ifindex vs s

/-- The choice between the slots. -/
def pdPick (w : PdOutside) (s : PdSlots) : Option Nat :=
  if s.internetIf.isNone then
    if w.cmccv2 && s.otherIf.isNone then
      if s.iptvIf.isNone then s.ottIf else s.iptvIf
    else s.otherIf
  else s.internetIf

/-- `get_pd_index`. -/
def getPdIndex (w : PdOutside) (l : WanList) (ifindex : Int) : Int :=
  match pdLoop w l ifindex (l.objs.map WanEntryObj.idx) {} with
  | none => -1
  | some s => ((pdPick w s).map Int.ofNat).getD (-1)

/-! ## What it should return -/

/-- The WANs that may take over if they are up, in list order. -/
def pdEligible (l : List WanEntryObj) (ifindex : Int) : List WanEntryObj :=
  l.filter fun o => (ifindex != o.idx) && (o.cfg.isActive && o.cfg.isRoute && o.cfg.pdEnable)

/-- The services, the preferred one first. -/
def pdServices (cmccv2 : Bool) : List (WanEntryObj → Bool) :=
  [fun o => o.cfg.srvInternet, fun o => o.cfg.srvOther] ++
    if cmccv2 then [fun o => o.cfg.srvIptv, fun o => o.cfg.srvOtt] else []

/-- The index of the WAN chosen from a list: the first one with `INTERNET` service if there is one,
else the first with `OTHER` service, and so on. -/
def pdChoice (cmccv2 : Bool) (l : List WanEntryObj) : Int :=
  ((firstBest (pdServices cmccv2) l).map fun o => (o.idx : Int)).getD (-1)

/-- The return value is the choice from the WANs that are up. -/
def PdRight (w : PdOutside) (l : WanList) (ifindex : Int) (r : Int) : Prop :=
  r = pdChoice w.cmccv2 ((pdEligible l.objs ifindex).filter (pdUp w))

/-- Each WAN with one of the services that is down and comes after one that is up is beaten by a WAN
that is up: one before it of the same or a better service, or one behind it of a better service. -/
def PdBeaten (w : PdOutside) (e : List WanEntryObj) : Prop :=
  ∀ pre d post, e = pre ++ d :: post → pdUp w d = false → (∃ u ∈ pre, pdUp w u = true) →
    rank (pdServices w.cmccv2) d < (pdServices w.cmccv2).length →
    (∃ o ∈ pre, pdUp w o = true ∧ rank (pdServices w.cmccv2) o ≤ rank (pdServices w.cmccv2) d) ∨
      ∃ o ∈ post, pdUp w o = true ∧ rank (pdServices w.cmccv2) o < rank (pdServices w.cmccv2) d

/-! ## The list -/

theorem WanList.find_path (l : WanList) {o : WanEntryObj} (ho : o ∈ l.objs) :
    l.find (entryNode o.idx) = some o := by
  rw [← l.named o ho, WanList.find]
  cases hf : l.objs.find? fun x => x.path == o.path with
  | none =>
    have := List.find?_eq_none.mp hf o ho
    simp at this
  | some x =>
    have hx := List.mem_of_find?_eq_some hf
    have hp := List.find?_some hf
    have hpath : x.path = o.path := by simpa using hp
    rw [List.inj_on_of_nodup_map l.paths hx ho hpath]

theorem WanList.idx_inj (l : WanList) {o x : WanEntryObj} (ho : o ∈ l.objs) (hx : x ∈ l.objs)
    (h : o.idx = x.idx) : o = x :=
  List.inj_on_of_nodup_map l.paths ho hx (by rw [l.named o ho, l.named x hx, h])

/-! ## What the loop finds -/

/-- The eligible WANs that the loop counts with a flag: all if it is set, else those from the first
one on that is up. -/
def pdCounted (w : PdOutside) (itfFlag : Bool) (e : List WanEntryObj) : List WanEntryObj :=
  if itfFlag then e else e.dropWhile fun o => !pdUp w o

theorem pdCounted_cons (w : PdOutside) (f : Bool) (o : WanEntryObj) (e : List WanEntryObj) :
    pdCounted w f (o :: e) =
      if f || pdUp w o then o :: pdCounted w true e else pdCounted w false e := by
  cases f <;> cases h : pdUp w o <;> simp [pdCounted, h]

/-- The slots once the rest of the list has been counted. -/
def pdResult (w : PdOutside) (s : PdSlots) (e : List WanEntryObj) : Option Nat :=
  let find := fun p => ((pdCounted w s.itfFlag e).find? p).map WanEntryObj.idx
  let internet := s.internetIf.or (find fun o => o.cfg.srvInternet)
  let other := s.otherIf.or (find fun o => o.cfg.srvOther)
  let iptv := s.iptvIf.or (find fun o => o.cfg.srvIptv)
  let ott := s.ottIf.or (find fun o => o.cfg.srvOtt)
  internet.or (other.or (if w.cmccv2 then iptv.or ott else none))

theorem pdPick_eq (w : PdOutside) (s : PdSlots) : pdPick w s = pdResult w s [] := by
  rcases s with ⟨f, _ | i, _ | o, _ | p, _ | t⟩ <;> cases hc : w.cmccv2 <;>
    simp [pdPick, pdResult, pdCounted, hc]

/-- Once an `INTERNET` WAN has been found the rest does not count. -/
theorem pdResult_of_internet (w : PdOutside) {s : PdSlots} {v : Nat} (h : s.internetIf = some v)
    (e : List WanEntryObj) : pdResult w s e = some v := by
  simp [pdResult, h]

/-- The step for a WAN that is eligible. -/
theorem pdResult_visit (w : PdOutside) {s : PdSlots} (hi : s.internetIf = none) {o : WanEntryObj}
    (he : (o.cfg.isActive && o.cfg.isRoute && o.cfg.pdEnable) = true) (e : List WanEntryObj) :
    pdResult w (pdVisit w s o.idx o) e = pdResult w s (o :: e) := by
  rw [pdVisit, if_pos he]
  by_cases hflag : (s.itfFlag || pdUp w o) = true
  · -- the WAN counts, and goes to the first free slot of one of its services
    have hs : (if pdUp w o then { s with itfFlag := true } else s) =
      { s with itfFlag := true } := by
      split
      · rfl
      · next hu =>
        have : s.itfFlag = true := by simpa [hu] using hflag
        rw [← this]
    rw [hs]
    dsimp only
    simp only [Bool.and_true]
    split
    · next hsrv => simp [pdResult, pdCounted_cons, hflag, hi, hsrv]
    · next hsrv =>
      split
      · next hother =>
        rw [Bool.and_eq_true, Option.isNone_iff_eq_none] at hother
        simp [pdResult, pdCounted_cons, hflag, hi, hsrv, hother.1, hother.2]
      · next hother =>
        split
        · next hiptv =>
          cases ho : s.otherIf <;> simp_all [pdResult, pdCounted_cons]
        · next hiptv =>
          split
          · next hott =>
            cases ho : s.otherIf <;> cases hp : s.iptvIf <;> simp_all [pdResult, pdCounted_cons]
          · next hott =>
            cases ho : s.otherIf <;> cases hp : s.iptvIf <;> cases ht : s.ottIf <;>
              simp_all [pdResult, pdCounted_cons]
  · -- no WAN so far was up
    have hf : s.itfFlag = false ∧ pdUp w o = false := by simpa using hflag
    simp [hf.1, hf.2, pdResult, pdCounted_cons]

/-- **The loop finds every object, and the slots stand for the WANs that count.** -/
theorem pdLoop_eq (w : PdOutside) (l : WanList) (ifindex : Int) : ∀ (rest : List WanEntryObj)
    (s : PdSlots), (∀ o ∈ rest, o ∈ l.objs) →
    ∃ s', pdLoop w l ifindex (rest.map WanEntryObj.idx) s = some s' ∧
      pdPick w s' = pdResult w s (pdEligible rest ifindex)
  | [], s, _ => ⟨s, rfl, pdPick_eq w s⟩
  | o :: rest, s, h => by
    have hrest := fun x hx => h x (List.mem_cons_of_mem o hx)
    rw [List.map_cons, pdLoop]
    by_cases hex : ifindex = o.idx
    · have hel : pdEligible (o :: rest) ifindex = pdEligible rest ifindex := by
        rw [pdEligible, List.filter_cons_of_neg (by simp [hex])]
        rfl
      rw [if_pos hex, hel]
      exact pdLoop_eq w l ifindex rest s hrest
    · rw [if_neg hex]
      cases hi : s.internetIf with
      | some v =>
        obtain ⟨s', hs', hp⟩ := pdLoop_eq w l ifindex rest s hrest
        rw [if_neg (by simp)]
        exact ⟨s', hs', by rw [hp, pdResult_of_internet w hi, pdResult_of_internet w hi]⟩
      | none =>
        rw [if_pos (by rfl), l.find_path (h o List.mem_cons_self)]
        obtain ⟨s', hs', hp⟩ := pdLoop_eq w l ifindex rest (pdVisit w s o.idx o) hrest
        refine ⟨s', hs', ?_⟩
        rw [hp, pdEligible, pdEligible]
        by_cases he : (o.cfg.isActive && o.cfg.isRoute && o.cfg.pdEnable) = true
        · rw [List.filter_cons_of_pos (by simp only [he, Bool.and_true, bne_iff_ne]; exact hex),
            pdResult_visit w hi he]
        · rw [List.filter_cons_of_neg (by simp [he]), pdVisit, if_neg he]

theorem pdResult_start (w : PdOutside) (e : List WanEntryObj) :
    pdResult w {} e =
      (firstBest (pdServices w.cmccv2) (e.dropWhile fun o => !pdUp w o)).map WanEntryObj.idx := by
  cases hc : w.cmccv2 <;>
    simp [pdResult, pdCounted, pdServices, firstBest_cons, hc, Option.map_or]

/-- **The code chooses from the eligible WANs that come after the first one that is up.** -/
theorem getPdIndex_eq (w : PdOutside) (l : WanList) (ifindex : Int) :
    getPdIndex w l ifindex =
      pdChoice w.cmccv2 ((pdEligible l.objs ifindex).dropWhile fun o => !pdUp w o) := by
  obtain ⟨s', hs', hp⟩ := pdLoop_eq w l ifindex l.objs {} fun _ h => h
  rw [getPdIndex, hs']
  show ((pdPick w s').map Int.ofNat).getD (-1) = _
  rw [hp, pdResult_start, pdChoice, Option.map_map]
  rfl

/-! ## When the choice is right -/

/-- The WANs before the first one that is up are down. -/
theorem split_dropWhile (w : PdOutside) (e : List WanEntryObj) :
    ∃ t, e = t ++ e.dropWhile (fun o => !pdUp w o) ∧ (∀ x ∈ t, pdUp w x = false) ∧
      ∀ x ∈ (e.dropWhile fun o => !pdUp w o).head?, pdUp w x = true := by
  refine ⟨e.takeWhile fun o => !pdUp w o, (List.takeWhile_append_dropWhile).symm, fun x hx => ?_,
    fun x hx => ?_⟩
  · simpa using List.all_eq_true.mp List.all_takeWhile x hx
  · have hne : e.dropWhile (fun o => !pdUp w o) ≠ [] := by
      intro hnil
      simp [hnil] at hx
    have hhead := List.head_dropWhile_not (fun o => !pdUp w o) hne
    rw [Option.mem_def, List.head?_eq_some_head hne, Option.some_inj] at hx
    rw [hx] at hhead
    simpa using hhead

theorem filter_dropWhile (w : PdOutside) (e : List WanEntryObj) :
    (e.dropWhile fun o => !pdUp w o).filter (pdUp w) = e.filter (pdUp w) := by
  obtain ⟨t, ht, hdown, _⟩ := split_dropWhile w e
  have hnil : t.filter (pdUp w) = [] := List.filter_eq_nil_iff.mpr (by simpa using hdown)
  conv_rhs => rw [ht]
  rw [List.filter_append, hnil, List.nil_append]

/-- The choice is up exactly if every WAN that is down and counts is beaten by one that is up. -/
theorem pdBeaten_iff (w : PdOutside) (e : List WanEntryObj) :
    PdBeaten w e ↔ ∀ o, firstBest (pdServices w.cmccv2) (e.dropWhile fun o => !pdUp w o) = some o →
      pdUp w o = true := by
  obtain ⟨t, ht, hdown, hhead⟩ := split_dropWhile w e
  generalize hd : (e.dropWhile fun o => !pdUp w o) = rest at ht hhead
  constructor
  · intro h o ho
    by_contra hno
    have hno : pdUp w o = false := by simpa using hno
    obtain ⟨hlt, pre, post, rfl, hpre, hpost⟩ := firstBest_eq_some.mp ho
    -- the first WAN of the rest is up, so it comes before the choice
    rcases pre with _ | ⟨u, pre⟩
    · exact absurd (hhead o (by simp)) (by simp [hno])
    have hu : pdUp w u = true := hhead u (by simp)
    rcases h (t ++ u :: pre) o post (by rw [ht, List.append_assoc]) hno ⟨u, by simp, hu⟩ hlt with
      ⟨x, hx, hup, hle⟩ | ⟨x, hx, hup, hlt'⟩
    · rcases List.mem_append.mp hx with hx | hx
      · exact absurd hup (by simp [hdown x hx])
      · have := hpre x hx
        omega
    · have := hpost x hx
      omega
  · rintro h pre d post rfl hdd ⟨u, hu, hup⟩ hlt
    -- the WAN that is up shows that `d` counts
    have hsplit : ∃ pre', pre = t ++ pre' ∧ rest = pre' ++ d :: post := by
      rcases List.append_eq_append_iff.mp ht with ⟨as', rfl, _⟩ | ⟨pre', hpre', hrest⟩
      · exact absurd hup (by simp [hdown u (by simp [hu])])
      · exact ⟨pre', hpre', hrest⟩
    obtain ⟨pre', rfl, rfl⟩ := hsplit
    cases hbest : firstBest (pdServices w.cmccv2) (pre' ++ d :: post) with
    | none =>
      have := firstBest_eq_none.mp hbest d (by simp)
      omega
    | some o =>
      have houp := h o hbest
      rcases firstBest_beats hbest with rfl | ⟨ho, hle⟩ | ⟨ho, hlt'⟩
      · exact absurd houp (by simp [hdd])
      · exact .inl ⟨o, List.mem_append_right t ho, houp, hle⟩
      · exact .inr ⟨o, ho, houp, hlt'⟩

theorem pdEligible_mem {l : WanList} {ifindex : Int} {o : WanEntryObj}
    (h : o ∈ pdEligible l.objs ifindex) : o ∈ l.objs := List.mem_of_mem_filter h

/-- **`get_pd_index` returns the right WAN exactly if each WAN that is down, has one of the services
and comes after one that is up is beaten by a WAN that is up.** -/
theorem getPdIndex_right_iff (w : PdOutside) (l : WanList) (ifindex : Int) :
    PdRight w l ifindex (getPdIndex w l ifindex) ↔ PdBeaten w (pdEligible l.objs ifindex) := by
  rw [PdRight, getPdIndex_eq, pdBeaten_iff, ← filter_dropWhile, pdChoice, pdChoice]
  have hsub : ∀ o ∈ (pdEligible l.objs ifindex).dropWhile (fun o => !pdUp w o), o ∈ l.objs :=
    fun o ho => pdEligible_mem ((List.dropWhile_sublist _).subset ho)
  generalize (pdEligible l.objs ifindex).dropWhile (fun o => !pdUp w o) = rest at hsub
  cases hbest : firstBest (pdServices w.cmccv2) rest with
  | none =>
    have hnone : firstBest (pdServices w.cmccv2) (rest.filter (pdUp w)) = none :=
      firstBest_eq_none.mpr fun x hx => firstBest_eq_none.mp hbest x (List.mem_of_mem_filter hx)
    simp [hnone]
  | some o =>
    constructor
    · intro heq o' ho'
      obtain rfl := Option.some.inj ho'
      cases hup : firstBest (pdServices w.cmccv2) (rest.filter (pdUp w)) with
      | none =>
        rw [hup] at heq
        simp only [Option.map_some, Option.getD_some, Option.map_none, Option.getD_none] at heq
        omega
      | some x =>
        rw [hup] at heq
        simp only [Option.map_some, Option.getD_some, Int.natCast_inj] at heq
        have hx := firstBest_mem hup
        obtain rfl := l.idx_inj (hsub o (firstBest_mem hbest))
          (hsub x (List.mem_of_mem_filter hx)) heq
        exact (List.mem_filter.mp hx).2
    · intro h
      rw [firstBest_filter hbest (h o rfl)]

/-- An active WAN in route mode with PD enabled. -/
def pdObj (idx : Nat) (srv : Word) : WanEntryObj :=
  { path := entryNode idx, idx := idx,
    cfg := { active := 1, wanmode := 1, pd := 1, srvType := srv } }

/-- A WAN with `OTHER` service, and behind it one with `INTERNET` service. -/
def pdPair : WanList where
  objs := [pdObj 0 eSrvOther, pdObj 1 eSrvInternet]
  named := by decide
  paths := by decide

/-- The first WAN is up with a prefix, the second one is down. -/
def pdFirstUp : PdOutside where
  waninfo n :=
    if n = 1 then [("Status6".toList, "up".toList), ("PD6".toList, "2001:db8::/56".toList)]
    else [("Status6".toList, "down".toList), ("PD6".toList, [])]
  cmccv2 := false

/-- The WAN that is down is chosen. -/
theorem not_pdRight : getPdIndex pdFirstUp pdPair 2 = 1 ∧
    ¬ PdRight pdFirstUp pdPair 2 (getPdIndex pdFirstUp pdPair 2) := by
  refine ⟨by decide, ?_⟩
  show ¬ getPdIndex pdFirstUp pdPair 2 = _
  decide

end OnuFirmware.Wan
