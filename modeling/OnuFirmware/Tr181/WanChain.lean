import OnuFirmware.Tr181.Links

/-!
# What `updateTR181IFByPvcIdx` writes

The searches add entries and leave all links as they are. After a call that succeeds each entry
found has its `LowerLayers`, and all but the Link entry have their `uplayer`; the Link entry has it
if the WAN has a VLAN tag, and keeps what it had otherwise.
-/

namespace OnuFirmware.Tr181

open Clib Cfg Lib

/-! ## Searches -/

section Search

variable {f : Tr181Interface} {v : ScanVars} {i k : Nat} {b : Bool}

theorem scanEntry_first (f : Tr181Interface) (i : Nat) (s : Option Attrs) (v : ScanVars) :
    (scanEntry f i s v).1.fisrtEmptyEntry = v.fisrtEmptyEntry ∨
      (scanEntry f i s v).1.fisrtEmptyEntry = v.fisrtEmptyEntry.or (some i) := by
  rw [scanEntry]
  split
  · exact .inr rfl
  · split
    · exact .inl rfl
    · split
      · exact .inr rfl
      · split
        · exact .inl rfl
        · exact .inl rfl

/-- The search ends at an entry of the table. -/
theorem scanEntries_lt : ∀ {slots : List (Option Attrs)} {i : Nat} {v : ScanVars},
    (∀ e, v.fisrtEmptyEntry = some e → e < i) → scanEntries f i v slots = some (k, b) →
      k < i + slots.length
  | [], i, v, hv, h => by
    rw [scanEntries] at h
    obtain ⟨e, he, heq⟩ := Option.map_eq_some_iff.mp h
    obtain ⟨rfl, -⟩ := Prod.mk.inj heq
    exact hv _ he
  | s :: slots, i, v, hv, h => by
    rw [scanEntries] at h
    split at h
    · obtain ⟨rfl, -⟩ := Prod.mk.inj (Option.some.inj h)
      simp
    · have hfirst : ∀ e, (scanEntry f i s v).1.fisrtEmptyEntry = some e → e < i + 1 := by
        intro e he
        rcases scanEntry_first f i s v with hs | hs
        · exact Nat.lt_succ_of_lt (hv e (hs ▸ he))
        · rw [hs] at he
          cases hopt : v.fisrtEmptyEntry with
          | none =>
            obtain rfl : i = e := by simpa [hopt] using he
            exact Nat.lt_succ_self i
          | some e' =>
            obtain rfl : e' = e := by simpa [hopt] using he
            exact Nat.lt_succ_of_lt (hv _ hopt)
      have hlt := scanEntries_lt hfirst h
      rw [List.length_cons]
      omega

theorem scanEntries_isSome : ∀ {slots : List (Option Attrs)} {i : Nat} {v : ScanVars},
    v.fisrtEmptyEntry.isSome = true → (scanEntries f i v slots).isSome = true
  | [], i, v, h => by
    rw [scanEntries, Option.isSome_map]
    exact h
  | s :: slots, i, v, h => by
    rw [scanEntries]
    split
    · rfl
    · refine scanEntries_isSome ?_
      rcases scanEntry_first f i s v with hs | hs
      · rw [hs, h]
      · rw [hs, Option.isSome_or, h]
        rfl

/-- A WAN finds no entry only if all entries exist. -/
theorem scanEntries_full (hp : 0 ≤ f.pvcIndex) (hl : f.lanIndex < 0) :
    ∀ {slots : List (Option Attrs)} {i : Nat} {v : ScanVars}, scanEntries f i v slots = none →
      ∀ s ∈ slots, s.isSome = true
  | [], _, _, _ => by simp
  | s :: slots, i, v, h => by
    rw [scanEntries] at h
    split at h
    · exact absurd h (Option.some_ne_none _)
    · refine List.forall_mem_cons.mpr ⟨?_, scanEntries_full hp hl h⟩
      cases s with
      | some a => rfl
      | none =>
        have hsome : (scanEntry f i none v).1.fisrtEmptyEntry.isSome = true := by
          simp [scanEntry, readAttr, Int.not_le.mpr hl, hp, ScanVars.asEmpty]
        have hres : (scanEntries f (i + 1) (scanEntry f i none v).1 slots).isSome = true :=
          scanEntries_isSome hsome
        rw [h] at hres
        exact absurd hres (by decide)

end Search

/-- Entries are added, or changed in other attributes than the links. -/
structure Grown (T T' : Tables) : Prop where
  nodeName : ∀ l, (T' l).nodeName = (T l).nodeName
  length : ∀ l, (T' l).slots.length = (T l).slots.length
  entry : ∀ l i, HasEntry T l i → HasEntry T' l i
  link : ∀ l i n, n = lowerLayersAttr ∨ n = uplayerAttr → entryAttr T' l i n = entryAttr T l i n

section Grown

variable {c : Consts} {T T' T'' : Tables} {wanIf : Int} {l : Layer} {active : Int}

theorem Grown.refl (T : Tables) : Grown T T :=
  ⟨fun _ => rfl, fun _ => rfl, fun _ _ h => h, fun _ _ _ _ => rfl⟩

theorem Grown.trans (h : Grown T T') (h' : Grown T' T'') : Grown T T'' where
  nodeName l := (h'.nodeName l).trans (h.nodeName l)
  length l := (h'.length l).trans (h.length l)
  entry l i hi := h'.entry l i (h.entry l i hi)
  link l i n hn := (h'.link l i n hn).trans (h.link l i n hn)

theorem writeIndexes_link (f : Tr181Interface) (a : Attrs) {n : Str}
    (hn : n = lowerLayersAttr ∨ n = uplayerAttr) : writeIndexes f a n = a n := by
  have hne : n ≠ lanIndexAttr ∧ n ≠ pvcIndexAttr ∧ n ≠ enableAttr := by
    rcases hn with rfl | rfl <;> decide
  rw [writeIndexes, Attrs.set_ne hne.1, Attrs.set_ne hne.2.1, Attrs.set_ne hne.2.2]

/-- The slots after a search that wrote the entry in slot `i`. -/
theorem grown_update {f : Tr181Interface} {t : Table} {i : Nat} (hi : i < (T l).slots.length)
    (hname : t.nodeName = (T l).nodeName)
    (hslots : t.slots =
      (T l).slots.modify i fun s => some (writeIndexes f (s.getD fun _ => none))) :
    Grown T (Function.update T l t) ∧ HasEntry (Function.update T l t) l i := by
  have hget : ∀ j, t.slots[j]? = if j = i then
      (T l).slots[j]?.map fun s => some (writeIndexes f (s.getD fun _ => none))
      else (T l).slots[j]? := fun j => by
    rw [hslots]
    split
    · next h =>
      rw [h, List.getElem?_modify_eq]
      rfl
    · next h => rw [List.getElem?_modify_ne _ _ (Ne.symm h)]
  refine ⟨⟨fun l' => ?_, fun l' => ?_, ?_, ?_⟩, ?_⟩
  · by_cases hl : l' = l
    · rw [hl, Function.update_self, hname]
    · rw [Function.update_of_ne hl]
  · by_cases hl : l' = l
    · rw [hl, Function.update_self, hslots, List.length_modify]
    · rw [Function.update_of_ne hl]
  · rintro l' j ⟨hj, a, ha⟩
    refine ⟨hj, ?_⟩
    by_cases hl : l' = l
    · subst hl
      rw [Function.update_self, hget, ha]
      split
      · exact ⟨_, rfl⟩
      · exact ⟨a, rfl⟩
    · rw [Function.update_of_ne hl]
      exact ⟨a, ha⟩
  · intro l' j n hn
    rw [entryAttr, entryAttr]
    split
    · by_cases hl : l' = l
      · subst hl
        rw [Function.update_self, hget]
        split
        · rcases (T l').slots[j.toNat]? with _ | _ | a
          · rfl
          · exact writeIndexes_link f _ hn
          · exact writeIndexes_link f a hn
        · rfl
      · rw [Function.update_of_ne hl]
    · rfl
  · refine ⟨Int.natCast_nonneg i, ?_⟩
    rw [Function.update_self, Int.toNat_natCast, hget, if_pos rfl, List.getElem?_eq_getElem hi]
    exact ⟨_, rfl⟩

/-- A search adds the entry, or finds the table full. -/
theorem createEntry_spec (hnode : (T l).nodeName ∉ wifiNodes) (hwan : 0 ≤ wanIf) :
    Grown T (createEntry c T wanIf l active).1 ∧
      (HasEntry (createEntry c T wanIf l active).1 l (createEntry c T wanIf l active).2 ∨
        ((createEntry c T wanIf l active).2 = -1 ∧ (createEntry c T wanIf l active).1 = T ∧
          ∀ s ∈ (T l).slots, s.isSome = true)) := by
  rw [createEntry]
  cases hscan : scanEntries ⟨wanIf, -1, active⟩ 0 ⟨none, [], []⟩ (T l).slots with
  | none =>
    have hcreate : createTR181InterfaceEntry c.wlanStart (T l) ⟨wanIf, -1, active⟩ = (T l, -1) := by
      rw [createTR181InterfaceEntry, hscan]
    have hfull : ∀ s ∈ (T l).slots, s.isSome = true := 
      scanEntries_full hwan (by decide : (-1 : Int) < 0) hscan
    rw [hcreate, Function.update_eq_self]
    exact ⟨.refl T, .inr ⟨rfl, rfl, hfull⟩⟩
  | some r =>
    obtain ⟨i, existFlag⟩ := r
    have hi : i < (T l).slots.length := by
      have hlt := scanEntries_lt (by simp) hscan
      omega
    obtain ⟨t, hcreate, hname, hslots⟩ : ∃ t : Table,
        createTR181InterfaceEntry c.wlanStart (T l) ⟨wanIf, -1, active⟩ = (t, (i : Int)) ∧
        t.nodeName = (T l).nodeName ∧ t.slots = (T l).slots.modify i fun s =>
          some (writeIndexes ⟨wanIf, -1, active⟩ (s.getD fun _ => none)) := by
      refine ⟨⟨(T l).nodeName, (T l).slots.modify i _,
        if existFlag then (T l).num else addNum (T l).num 1⟩, ?_, rfl, rfl⟩
      rw [createTR181InterfaceEntry, hscan]
      simp only [hnode, if_false, Int.toNat_natCast]
      rw [if_neg (by omega)]
    rw [hcreate]
    obtain ⟨hgrown, hentry⟩ := grown_update hi hname hslots
    exact ⟨hgrown, .inl hentry⟩

/-- A table with an entry in its first slot. -/
theorem hasEntry_zero (hpos : 0 < (T l).slots.length)
    (h : ∀ s ∈ (T l).slots, s.isSome = true) : HasEntry T l 0 := by
  refine ⟨le_rfl, ?_⟩
  rw [Int.toNat_zero, List.getElem?_eq_getElem hpos]
  obtain ⟨a, ha⟩ := Option.isSome_iff_exists.mp (h _ (List.getElem_mem hpos))
  exact ⟨a, by rw [ha]⟩

/-- What the searches need of the tables. -/
structure Sized (T : Tables) : Prop where
  node : ∀ l, (T l).nodeName ∉ wifiNodes
  ip : 0 < (T .ip).slots.length

theorem Sized.of_grown (h : Sized T) (hg : Grown T T') : Sized T' :=
  ⟨fun l => hg.nodeName l ▸ h.node l, (hg.length .ip).symm ▸ h.ip⟩

theorem findIPInterfaceEntry_spec (hs : Sized T) (hwan : 0 ≤ wanIf) :
    Grown T (findIPInterfaceEntry c T wanIf active).1 ∧
      HasEntry (findIPInterfaceEntry c T wanIf active).1 .ip
        (findIPInterfaceEntry c T wanIf active).2 := by
  obtain ⟨hg, hres⟩ := @createEntry_spec c T wanIf .ip active (hs.node .ip) hwan
  rw [findIPInterfaceEntry, if_neg (Int.not_lt.mpr hwan)]
  rcases hres with hentry | ⟨hneg, hT, hfull⟩
  · rw [if_neg (Int.not_lt.mpr hentry.1)]
    exact ⟨hg, hentry⟩
  · rw [if_pos (by rw [hneg]; decide), hT]
    exact ⟨.refl T, hasEntry_zero hs.ip hfull⟩

theorem findPPPInterfaceEntry_spec (hs : Sized T) (hwan : 0 ≤ wanIf)
    (hres : 0 ≤ (findPPPInterfaceEntry c T wanIf active).2) :
    Grown T (findPPPInterfaceEntry c T wanIf active).1 ∧
      HasEntry (findPPPInterfaceEntry c T wanIf active).1 .ppp
        (findPPPInterfaceEntry c T wanIf active).2 := by
  rw [findPPPInterfaceEntry, if_neg (Int.not_lt.mpr hwan)] at hres ⊢
  obtain ⟨hg, hentry | ⟨hneg, -⟩⟩ := @createEntry_spec c T wanIf .ppp
    (if active = 1 then active else 0) (hs.node .ppp) hwan
  · rw [if_neg (Int.not_lt.mpr hentry.1)]
    exact ⟨hg, hentry⟩
  · rw [if_pos (by rw [hneg]; decide)] at hres
    exact absurd hres (by simp)

theorem vlanTermEntry_spec (hs : Sized T) (hwan : 0 ≤ wanIf) (iVlanTag : Int) {r : Tables × Int}
    (hr : r = if 0 ≤ iVlanTag then findEtherVlanTermEntry c T wanIf active else (T, -1)) :
    Grown T r.1 ∧ (0 ≤ iVlanTag → HasEntry r.1 .vlanT r.2 ∨ r.2 = -1) := by
  subst hr
  split
  · obtain ⟨hg, hres⟩ := @createEntry_spec c T wanIf .vlanT active (hs.node .vlanT) hwan
    exact ⟨hg, fun _ => hres.imp_right fun hr => hr.1⟩
  · exact ⟨.refl T, fun h => absurd h ‹_›⟩

/-- What the searches find. -/
structure Found (T T' : Tables) (e : WanEntries) (isPpp : Bool) (iVlanTag : Int) : Prop where
  grown : Grown T T'
  ip : HasEntry T' .ip e.ip
  ppp : isPpp = true → HasEntry T' .ppp e.ppp
  vlanT : 0 ≤ iVlanTag → HasEntry T' .vlanT e.vlanT ∨ e.vlanT = -1
  link : HasEntry T' .link e.link

theorem findWanEntries_spec (hs : Sized T) (hwan : 0 ≤ wanIf) {isPpp : Bool} {iVlanTag : Int}
    {e : WanEntries}
    (h : findWanEntries c T wanIf isPpp iVlanTag active = (T', some e)) :
    Found T T' e isPpp iVlanTag := by
  dsimp only [findWanEntries] at h
  obtain ⟨hgip, hip⟩ := @findIPInterfaceEntry_spec c T wanIf active hs hwan
  set ip := findIPInterfaceEntry c T wanIf active
  rw [if_neg (Int.not_lt.mpr hip.1)] at h
  obtain ⟨hglink, hlink⟩ :=
    @createEntry_spec c ip.1 wanIf .link active ((hs.of_grown hgip).node .link) hwan
  rw [← findEtherLinkEntry] at hglink hlink
  set link := findEtherLinkEntry c ip.1 wanIf active
  have hgl := hgip.trans hglink
  generalize hvdef : (if 0 ≤ iVlanTag then findEtherVlanTermEntry c link.1 wanIf active
    else (link.1, -1)) = vlanT at h
  obtain ⟨hgv, hv⟩ := vlanTermEntry_spec (hs.of_grown hgl) hwan iVlanTag hvdef.symm
  have hg := hgl.trans hgv
  by_cases hneg : link.2 < 0
  · simp [hneg] at h
  rw [if_neg hneg] at h
  have hlink' : HasEntry vlanT.1 .link link.2 := by
    refine hgv.entry _ _ (hlink.resolve_right fun hr => hneg ?_)
    rw [hr.1]
    decide
  have hip' : HasEntry vlanT.1 .ip ip.2 := (hglink.trans hgv).entry _ _ hip
  by_cases hppp : isPpp = true
  · rw [if_pos hppp] at h
    by_cases hpneg : (findPPPInterfaceEntry c vlanT.1 wanIf active).2 < 0
    · simp [hpneg] at h
    · rw [if_neg hpneg] at h
      obtain ⟨hgp, hp⟩ := findPPPInterfaceEntry_spec (hs.of_grown hg) hwan (Int.not_lt.mp hpneg)
      obtain ⟨rfl, he⟩ := Prod.mk.inj h
      obtain rfl := Option.some.inj he
      exact ⟨hg.trans hgp, hgp.entry _ _ hip', fun _ => hp,
        fun ht => (hv ht).imp_left (hgp.entry _ _), hgp.entry _ _ hlink'⟩
  · rw [if_neg hppp] at h
    obtain ⟨rfl, he⟩ := Prod.mk.inj h
    obtain rfl := Option.some.inj he
    exact ⟨hg, hip', fun hp => absurd hp hppp, hv, hlink'⟩

end Grown

/-! ## Links -/

/-- The links of a WAN whose entries are `e`; `T` are the tables before they are written. -/
structure WanLinks (T T' : Tables) (e : WanEntries) (isPpp : Bool) (iVlanTag : Int) : Prop where
  nodeName : ∀ l, (T' l).nodeName = (T l).nodeName
  length : ∀ l, (T' l).slots.length = (T l).slots.length
  entry : ∀ l i, HasEntry T' l i ↔ HasEntry T l i
  kept : ∀ l i n, n ≠ lowerLayersAttr → n ≠ uplayerAttr → entryAttr T' l i n = entryAttr T l i n
  ipLower : entryAttr T' .ip e.ip lowerLayersAttr =
    some (if isPpp then Layer.ppp.interface e.ppp
      else if 0 ≤ iVlanTag then Layer.vlanT.interface e.vlanT else Layer.link.interface e.link)
  pppUpper : isPpp = true → entryAttr T' .ppp e.ppp uplayerAttr = some (Layer.ip.interface e.ip)
  pppLower : isPpp = true → entryAttr T' .ppp e.ppp lowerLayersAttr =
    some (if 0 ≤ iVlanTag then Layer.vlanT.interface e.vlanT else Layer.link.interface e.link)
  vlanTUpper : 0 ≤ iVlanTag → HasEntry T .vlanT e.vlanT → entryAttr T' .vlanT e.vlanT uplayerAttr =
    some (if isPpp then Layer.ppp.interface e.ppp else Layer.ip.interface e.ip)
  vlanTLower : 0 ≤ iVlanTag → HasEntry T .vlanT e.vlanT →
    entryAttr T' .vlanT e.vlanT lowerLayersAttr = some (Layer.link.interface e.link)
  linkUpper : 0 ≤ iVlanTag →
    entryAttr T' .link e.link uplayerAttr = some (Layer.vlanT.interface e.vlanT)
  linkKept : iVlanTag < 0 → ∀ i, entryAttr T' .link i uplayerAttr = entryAttr T .link i uplayerAttr
  linkLower : entryAttr T' .link e.link lowerLayersAttr = some opticalInterface

section Links

variable {T : Tables} {e : WanEntries} {iVlanTag : Int}

open Classical in
theorem entryAttr_set {l l' : Layer} {i i' : Int} {name name' text : Str} :
    entryAttr (setEntryAttr T l i name text) l' i' name' =
      if l' = l ∧ i' = i ∧ name' = name ∧ HasEntry T l i then some text
      else entryAttr T l' i' name' := by
  split
  · next h =>
    obtain ⟨rfl, rfl, rfl, he⟩ := h
    exact entryAttr_set_self he
  · next h =>
    by_cases hsame : l' = l ∧ i' = i ∧ name' = name
    · obtain ⟨rfl, rfl, rfl⟩ := hsame
      rw [setEntryAttr_of_not fun he => h ⟨rfl, rfl, rfl, he⟩]
    · exact entryAttr_set_ne (by tauto)

theorem lowerLayersAttr_ne : lowerLayersAttr ≠ uplayerAttr := by decide

theorem linkPpp_spec (hip : HasEntry T .ip e.ip) (hppp : HasEntry T .ppp e.ppp)
    (hlink : HasEntry T .link e.link) : WanLinks T
      (setEtherLinkLowerLayer (linkPpp T e iVlanTag) e.link opticalInterface) e true iVlanTag := by
  have hne := lowerLayersAttr_ne
  simp only [setEtherLinkLowerLayer, linkPpp, setIPInterfaceLowerLayer, setPPPInterfaceUpLayer,
    setPPPInterfaceLowerLayer, setEtherVlanTermUpLayer, setEtherVlanTermLowerLayer,
    setEtherLinkUpLayer]
  by_cases ht : 0 ≤ iVlanTag
  · rw [if_pos ht]
    constructor
    case kept =>
      intro l i n hl hu
      simp [entryAttr_set, hl, hu]
    case vlanTUpper =>
      intro _ hv
      simp [entryAttr_set, hasEntry_set, hne.symm, hv]
    case vlanTLower =>
      intro _ hv
      simp [entryAttr_set, hasEntry_set, hne, hv]
    all_goals
      simp [nodeName_set, length_set, entryAttr_set, hasEntry_set, ht, hne, hne.symm, hip, hppp,
        hlink]
  · rw [if_neg ht]
    constructor
    case kept =>
      intro l i n hl hu
      simp [entryAttr_set, hl, hu]
    all_goals
      simp [nodeName_set, length_set, entryAttr_set, hasEntry_set, ht, hne, hne.symm, hip, hppp,
        hlink]

theorem linkIp_spec (hip : HasEntry T .ip e.ip) (hlink : HasEntry T .link e.link) : WanLinks T
      (setEtherLinkLowerLayer (linkIp T e iVlanTag) e.link opticalInterface) e false iVlanTag := by
  have hne := lowerLayersAttr_ne
  simp only [setEtherLinkLowerLayer, linkIp, setIPInterfaceLowerLayer, setEtherVlanTermUpLayer,
    setEtherVlanTermLowerLayer, setEtherLinkUpLayer]
  by_cases ht : 0 ≤ iVlanTag
  · rw [if_pos ht]
    constructor
    case kept =>
      intro l i n hl hu
      simp [entryAttr_set, hl, hu]
    case vlanTUpper =>
      intro _ hv
      simp [entryAttr_set, hasEntry_set, hne.symm, hv]
    case vlanTLower =>
      intro _ hv
      simp [entryAttr_set, hasEntry_set, hne, hv]
    all_goals
      simp [nodeName_set, length_set, entryAttr_set, hasEntry_set, ht, hne, hne.symm, hip, hlink]
  · rw [if_neg ht]
    constructor
    case kept =>
      intro l i n hl hu
      simp [entryAttr_set, hl]
    all_goals
      simp [nodeName_set, length_set, entryAttr_set, hasEntry_set, ht, hne.symm, hip, hlink]

end Links

/-- **What a call that succeeds leaves.** -/
theorem update_spec {c : Consts} {T : Tables} {wanIf : Int} {w : Wan} {isp : Str} (hs : Sized T)
    (hwan : 0 ≤ wanIf) (hlt : wanIf < c.wanInterfaceNum) (hisp : w.isp = some isp)
    (hres : 0 ≤ (updateTR181IFByPvcIdx c T wanIf w).2) :
    ∃ T₁ e, findWanEntries c T wanIf (isPpp c isp) (getWanVlanTag w) w.activeFlag = (T₁, some e) ∧
      (updateTR181IFByPvcIdx c T wanIf w).2 = e.ip ∧
      Found T T₁ e (isPpp c isp) (getWanVlanTag w) ∧
      WanLinks T₁ (updateTR181IFByPvcIdx c T wanIf w).1 e (isPpp c isp) (getWanVlanTag w) := by
  rw [updateTR181IFByPvcIdx, if_neg (Int.not_lt.mpr hwan), if_neg (Int.not_le.mpr hlt), hisp]
    at hres ⊢
  simp only at hres ⊢
  rcases hfind : findWanEntries c T wanIf (isPpp c isp) (getWanVlanTag w) w.activeFlag with
    ⟨T₁, _ | e⟩
  · rw [hfind] at hres
    exact absurd hres (by simp)
  · have hfound := findWanEntries_spec hs hwan hfind
    rw [hfind] at hres
    simp only at hres ⊢
    refine ⟨T₁, e, rfl, ?_⟩
    by_cases hp : isPpp c isp = true
    · have hlinks := @linkPpp_spec T₁ e (getWanVlanTag w) hfound.ip (hfound.ppp hp) hfound.link
      simp only [hp, not_true_eq_false, false_and, if_false, if_true] at hres hfound ⊢
      split at hres
      · exact absurd hres (by simp)
      · next hnat =>
        rw [if_neg hnat]
        exact ⟨rfl, hfound, hlinks⟩
    · have hlinks := @linkIp_spec T₁ e (getWanVlanTag w) hfound.ip hfound.link
      rw [Bool.not_eq_true] at hp
      simp only [hp, Bool.false_eq_true, not_false_eq_true, true_and, if_false] at hres hfound ⊢
      split at hres
      · exact absurd hres (by simp)
      · next hdhcp =>
        rw [if_neg hdhcp]
        split at hres
        · exact absurd hres (by simp)
        · next hnat =>
          rw [if_neg hnat]
          exact ⟨rfl, hfound, hlinks⟩

end OnuFirmware.Tr181
