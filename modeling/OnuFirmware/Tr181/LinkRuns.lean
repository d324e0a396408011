import OnuFirmware.Tr181.WanChain

/-!
# The links of a WAN over its changes

From cleared tables a WAN always gets the first entry of each table. After an update its entries are
linked down and up exactly if the WAN has a VLAN tag: else nothing writes the `uplayer` of its Link
entry, which is missing or names a VLANTermination entry.
-/

namespace OnuFirmware.Tr181

open Clib Cfg Lib

/-! ## Statement -/

/-- The kinds of the interfaces of a WAN, from the top. -/
def wanLayers (isPpp : Bool) (iVlanTag : Int) : List Layer :=
  .ip :: ((if isPpp then [.ppp] else []) ++ (if 0 ≤ iVlanTag then [.vlanT] else []) ++ [.link])

/-- `LowerLayers` of each element names the next one and of the last the optical interface, and
`uplayer` of each names the one before it. -/
def Linked (T : Tables) : List (Layer × Nat) → Prop
  | [] => True
  | [e] => entryAttr T e.1 e.2 lowerLayersAttr = some opticalInterface
  | e :: f :: es => entryAttr T e.1 e.2 lowerLayersAttr = some (f.1.interface f.2) ∧
      entryAttr T f.1 f.2 uplayerAttr = some (e.1.interface e.2) ∧ Linked T (f :: es)

/-- The entries of the WAN in the tables of these kinds are linked. -/
def LinksRight (T : Tables) (wanIf : Int) (layers : List Layer) : Prop :=
  ∃ es : List (Layer × Nat), es.map Prod.fst = layers ∧
    (∀ e ∈ es, Holds wanKey (T e.1).slots wanIf e.2) ∧ Linked T es

/-- The ISP is PPP. -/
def Wan.ppp (c : Consts) (w : Wan) : Bool := isPpp c (w.isp.getD [])

/-- The links of the WAN are as its ISP and its tag want them. -/
def WanRight (c : Consts) (wanIf : Int) (T : Tables) (w : Wan) : Prop :=
  LinksRight T wanIf (wanLayers (w.ppp c) (getWanVlanTag w))

/-- An update after a change of the WAN. -/
def updateStep (c : Consts) (wanIf : Int) (T : Tables) (w : Wan) : Tables :=
  (updateTR181IFByPvcIdx c T wanIf w).1

/-- The WAN exists and the update succeeds. -/
def Succeeds (c : Consts) (wanIf : Int) (T : Tables) (w : Wan) : Prop :=
  w.isp.isSome = true ∧ 0 ≤ (updateTR181IFByPvcIdx c T wanIf w).2

/-! ## Tables of one WAN -/

/-- No table has an entry but the first, and that belongs to the WAN. -/
structure Single (wanIf : Int) (T : Tables) : Prop where
  node : ∀ l, (T l).nodeName ∉ wifiNodes
  pos : ∀ l, 0 < (T l).slots.length
  zero : ∀ l i, HasEntry T l i → i = 0
  index : ∀ l, HasEntry T l 0 → entryAttr T l 0 pvcIndexAttr = some (fmtInt wanIf) ∧
    entryAttr T l 0 lanIndexAttr = some (fmtInt (-1))
  linkUpper : ∀ t, entryAttr T .link 0 uplayerAttr = some t → t = Layer.vlanT.interface 0

section Single

variable {c : Consts} {T T' : Tables} {wanIf : Int} {l : Layer} {active : Int}

theorem Single.sized (h : Single wanIf T) : Sized T := ⟨h.node, h.pos .ip⟩

theorem entryAttr_of_slot {i : Nat} {a : Attrs} (h : (T l).slots[i]? = some (some a)) (n : Str) :
    entryAttr T l i n = a n := by
  rw [entryAttr, if_pos (Int.natCast_nonneg i), Int.toNat_natCast, h]
  rfl

theorem holds_of_index (hwan : 0 ≤ wanIf) (hint : IsInt wanIf) (he : HasEntry T l 0)
    (h : entryAttr T l 0 pvcIndexAttr = some (fmtInt wanIf)) :
    Holds wanKey (T l).slots wanIf 0 := by
  obtain ⟨-, a, ha⟩ := he
  have hpvc : a pvcIndexAttr = some (fmtInt wanIf) := (entryAttr_of_slot ha _).symm.trans h
  exact ⟨a, ha, IndexText.key_nonneg ⟨hint, hpvc⟩ hwan⟩

theorem Single.holds (h : Single wanIf T) {k : Int} {j : Nat} (hj : Holds wanKey (T l).slots k j) :
    j = 0 := by
  obtain ⟨a, ha, -⟩ := hj
  have hzero := h.zero l j ⟨Int.natCast_nonneg j, a, by rwa [Int.toNat_natCast]⟩
  omega

/-- What slot `i` of a table of one WAN holds. -/
theorem Single.slot (h : Single wanIf T) {i : Nat} {s : Option Attrs}
    (hs : (T l).slots[i]? = some s) : s = none ∨
      (i = 0 ∧ ∃ a, s = some a ∧ a pvcIndexAttr = some (fmtInt wanIf) ∧
        a lanIndexAttr = some (fmtInt (-1))) := by
  cases s with
  | none => exact .inl rfl
  | some a =>
    have he : HasEntry T l i := ⟨Int.natCast_nonneg i, a, by rwa [Int.toNat_natCast]⟩
    have hi : i = 0 := by
      have hzero := h.zero l i he
      omega
    subst hi
    obtain ⟨hpvc, hlan⟩ := h.index l he
    exact .inr ⟨rfl, a, rfl, (entryAttr_of_slot hs _).symm.trans hpvc,
      (entryAttr_of_slot hs _).symm.trans hlan⟩

theorem Single.regular (h : Single wanIf T) (hwan : 0 ≤ wanIf) (hint : IsInt wanIf) (l : Layer) :
    ∀ s ∈ (T l).slots, Regular s := by
  rintro s hs a rfl
  obtain ⟨i, hi⟩ := List.getElem?_of_mem hs
  obtain ⟨-, b, hb, hpvc, hlan⟩ := (h.slot hi).resolve_left (Option.some_ne_none a)
  obtain rfl := Option.some.inj hb
  exact .inl ⟨⟨-1, by decide, ⟨by decide, by decide⟩, hlan⟩, .inr ⟨wanIf, hwan, hint, hpvc⟩⟩

theorem oneIndex_wan (hwan : 0 ≤ wanIf) (hint : IsInt wanIf) (active : Int) :
    OneIndex ⟨wanIf, -1, active⟩ := by
  have hneg : IsInt (-1) := ⟨by decide, by decide⟩
  have hlan : (-1 : Int) < 0 := by decide
  exact ⟨hint, hneg, .inl ⟨hwan, hlan⟩⟩

/-- The search of the WAN takes the first slot. -/
theorem Single.slotFor (h : Single wanIf T) (hwan : 0 ≤ wanIf) (hint : IsInt wanIf) :
    ∃ b, Lib.slotFor (heldBy ⟨wanIf, -1, active⟩) (emptyFor ⟨wanIf, -1, active⟩) (T l).slots =
      some (0, b) := by
  obtain ⟨s, rest, hslots⟩ := List.exists_cons_of_length_pos (h.pos l)
  have hs : (T l).slots[0]? = some s := by rw [hslots, List.getElem?_cons_zero]
  rcases h.slot hs with rfl | ⟨-, a, rfl, hpvc, -⟩
  · have hnone : ∀ s ∈ (T l).slots, heldBy ⟨wanIf, -1, active⟩ s = false := by
      intro s' hs'
      obtain ⟨i, hi⟩ := List.getElem?_of_mem hs'
      rcases h.slot hi with rfl | ⟨rfl, a, rfl, -⟩
      · simp [heldBy]
      · exact absurd (hs.symm.trans hi) (by simp)
    refine ⟨false, ?_⟩
    rw [Lib.slotFor, List.findIdx?_eq_none_iff.mpr hnone, hslots, List.findIdx?_cons]
    rfl
  · refine ⟨true, ?_⟩
    have hkey : wanKey a = some wanIf := IndexText.key_nonneg ⟨hint, hpvc⟩ hwan
    have hheld : heldBy ⟨wanIf, -1, active⟩ (some a) = true := by simp [heldBy, hwan, hkey]
    rw [Lib.slotFor, hslots, List.findIdx?_cons, hheld]
    rfl

theorem single_update (h : Single wanIf T) {f : Tr181Interface} (hf : OneIndex f)
    (hpvc : f.pvcIndex = wanIf) (hlan : f.lanIndex = -1) {t : Table}
    (hname : t.nodeName = (T l).nodeName)
    (hslots : t.slots =
      (T l).slots.modify 0 fun s => some (writeIndexes f (s.getD fun _ => none))) :
    Single wanIf (Function.update T l t) := by
  obtain ⟨hgrown, -⟩ := grown_update (h.pos l) hname hslots
  refine ⟨fun l' => hgrown.nodeName l' ▸ h.node l', fun l' => (hgrown.length l').symm ▸ h.pos l',
    fun l' i hi => ?_, fun l' he => ?_, fun t ht => ?_⟩
  · obtain ⟨hpos, a, ha⟩ := hi
    by_cases hl : l' = l
    · subst hl
      by_cases hi : i.toNat = 0
      · omega
      · rw [Function.update_self, hslots, List.getElem?_modify_ne _ _ (Ne.symm hi)] at ha
        exact h.zero l' i ⟨hpos, a, ha⟩
    · rw [Function.update_of_ne hl] at ha
      exact h.zero l' i ⟨hpos, a, ha⟩
  · by_cases hl : l' = l
    · subst hl
      obtain ⟨s, rest, hcons⟩ := List.exists_cons_of_length_pos (h.pos l')
      have hfirst : t.slots = some (writeIndexes f (s.getD fun _ => none)) :: rest := by
        rw [hslots, hcons]
        rfl
      have hattr : ∀ n, entryAttr (Function.update T l' t) l' 0 n =
          writeIndexes f (s.getD fun _ => none) n := fun n => by
        rw [entryAttr, if_pos le_rfl, Function.update_self, hfirst]
        rfl
      have hpvcText := (@writeIndexes_pvcIndex f (s.getD fun _ => none) hf.1).2
      have hlanText := (@writeIndexes_lanIndex f (s.getD fun _ => none) hf.2.1).2
      rw [hlan, if_neg (by decide), hpvc] at hpvcText
      rw [hlan] at hlanText
      rw [hattr, hattr]
      exact ⟨hpvcText, hlanText⟩
    · rw [HasEntry, Function.update_of_ne hl] at he
      rw [entryAttr, entryAttr, Function.update_of_ne hl]
      exact h.index l' he
  · rw [hgrown.link .link 0 _ (.inr rfl)] at ht
    exact h.linkUpper t ht

/-- A search of the WAN leaves tables of one WAN, with its entry in the first slot. -/
theorem createEntry_single (h : Single wanIf T) (hwan : 0 ≤ wanIf) (hint : IsInt wanIf) :
    Single wanIf (createEntry c T wanIf l active).1 ∧
      (createEntry c T wanIf l active).2 = 0 := by
  have hf := oneIndex_wan hwan hint active
  obtain ⟨b, hslot⟩ := @Single.slotFor T wanIf l active h hwan hint
  have heq := @create_eq c.wlanStart (T l) ⟨wanIf, -1, active⟩ (h.node l) (h.regular hwan hint l) hf
  rw [hslot] at heq
  rw [createEntry]
  refine ⟨single_update h hf rfl rfl ?_ ?_, ?_⟩
  · rw [heq]
  · rw [heq]
  · rw [heq]
    rfl

/-- The entries that the searches of the WAN find are the first ones. -/
theorem findWanEntries_single (h : Single wanIf T) (hwan : 0 ≤ wanIf) (hint : IsInt wanIf)
    {isPpp : Bool} {iVlanTag : Int} {e : WanEntries}
    (hfind : findWanEntries c T wanIf isPpp iVlanTag active = (T', some e)) :
    Single wanIf T' ∧ e.ip = 0 ∧ (isPpp = true → e.ppp = 0) ∧ (0 ≤ iVlanTag → e.vlanT = 0) ∧
      e.link = 0 := by
  have hcreate : ∀ {T} l active, Single wanIf T → Single wanIf (createEntry c T wanIf l active).1 ∧
      (createEntry c T wanIf l active).2 = 0 :=
    fun l active h => createEntry_single h hwan hint
  have hfindIp : findIPInterfaceEntry c T wanIf active = createEntry c T wanIf .ip active := by
    simp only [findIPInterfaceEntry, if_neg (Int.not_lt.mpr hwan), (hcreate .ip active h).2]
    rw [if_neg (by decide)]
  have hfindPpp : ∀ {T}, Single wanIf T → findPPPInterfaceEntry c T wanIf active =
      createEntry c T wanIf .ppp (if active = 1 then active else 0) := fun h => by
    simp only [findPPPInterfaceEntry, if_neg (Int.not_lt.mpr hwan),
      (hcreate .ppp (if active = 1 then active else 0) h).2]
    rw [if_neg (by decide)]
  dsimp only [findWanEntries] at hfind
  rw [hfindIp, findEtherLinkEntry] at hfind
  obtain ⟨hip, hip0⟩ := hcreate .ip active h
  set ip := createEntry c T wanIf .ip active
  obtain ⟨hlink, hlink0⟩ := hcreate .link active hip
  set link := createEntry c ip.1 wanIf .link active
  generalize hvdef : (if 0 ≤ iVlanTag then findEtherVlanTermEntry c link.1 wanIf active
    else (link.1, -1)) = vlanT at hfind
  obtain ⟨hv, hv0⟩ : Single wanIf vlanT.1 ∧ (0 ≤ iVlanTag → vlanT.2 = 0) := by
    rw [← hvdef]
    split
    · exact ⟨(hcreate .vlanT active hlink).1, fun _ => (hcreate .vlanT active hlink).2⟩
    · next hneg => exact ⟨hlink, fun hpos => absurd hpos hneg⟩
  rw [hip0, hlink0, if_neg (by decide), if_neg (by decide)] at hfind
  by_cases hppp : isPpp = true
  · rw [if_pos hppp, hfindPpp hv] at hfind
    obtain ⟨hp, hp0⟩ := hcreate .ppp (if active = 1 then active else 0) hv
    rw [hp0, if_neg (by decide)] at hfind
    obtain ⟨rfl, he⟩ := Prod.mk.inj hfind
    obtain rfl := Option.some.inj he
    exact ⟨hp, rfl, fun _ => rfl, hv0, rfl⟩
  · rw [if_neg hppp] at hfind
    obtain ⟨rfl, he⟩ := Prod.mk.inj hfind
    obtain rfl := Option.some.inj he
    exact ⟨hv, rfl, fun hp => absurd hp hppp, hv0, rfl⟩

end Single

/-! ## Updates -/

section Update

variable {c : Consts} {T T' : Tables} {wanIf : Int} {w : Wan} {e : WanEntries} {isPpp : Bool}
  {iVlanTag : Int}

theorem single_links (h : Single wanIf T) (hl : WanLinks T T' e isPpp iVlanTag) (hlink : e.link = 0)
    (hv : 0 ≤ iVlanTag → e.vlanT = 0) : Single wanIf T' := by
  refine ⟨fun l => hl.nodeName l ▸ h.node l, fun l => (hl.length l).symm ▸ h.pos l,
    fun l i hi => h.zero l i ((hl.entry l i).mp hi), fun l hi => ?_, fun t ht => ?_⟩
  · rw [hl.kept l 0 _ (by decide) (by decide), hl.kept l 0 _ (by decide) (by decide)]
    exact h.index l ((hl.entry l 0).mp hi)
  · by_cases htag : 0 ≤ iVlanTag
    · have hupper := hl.linkUpper htag
      rw [hlink, hv htag, ht] at hupper
      exact Option.some.inj hupper
    · rw [hl.linkKept (Int.not_le.mp htag)] at ht
      exact h.linkUpper t ht

/-- With a tag all links are there. -/
theorem linksRight_of_tag (h : Single wanIf T') (hwan : 0 ≤ wanIf) (hint : IsInt wanIf)
    (hl : WanLinks T T' e isPpp iVlanTag) (hip : HasEntry T .ip e.ip) (hip0 : e.ip = 0)
    (hppp : isPpp = true → HasEntry T .ppp e.ppp ∧ e.ppp = 0) (hlink : HasEntry T .link e.link)
    (hlink0 : e.link = 0) (htag : 0 ≤ iVlanTag) (hv : HasEntry T .vlanT e.vlanT)
    (hv0 : e.vlanT = 0) : LinksRight T' wanIf (wanLayers isPpp iVlanTag) := by
  have hholds : ∀ l, HasEntry T l 0 → Holds wanKey (T' l).slots wanIf 0 := fun l he =>
    holds_of_index hwan hint ((hl.entry l 0).mpr he) (h.index l ((hl.entry l 0).mpr he)).1
  obtain ⟨ip, ppp, vlanT, link⟩ := e
  simp only at hip0 hlink0 hv0 hppp hip hlink hv
  subst hip0 hlink0 hv0
  have hvUpper := hl.vlanTUpper htag hv
  have hvLower := hl.vlanTLower htag hv
  have hlUpper := hl.linkUpper htag
  cases isPpp with
  | true =>
    obtain ⟨hp, rfl⟩ := hppp rfl
    have hipLower := hl.ipLower
    have hpLower := hl.pppLower rfl
    rw [if_pos htag] at hpLower
    refine ⟨[(.ip, 0), (.ppp, 0), (.vlanT, 0), (.link, 0)], by simp [wanLayers, htag], ?_,
      hipLower, hl.pppUpper rfl, hpLower, hvUpper, hvLower, hlUpper, hl.linkLower⟩
    simp [hholds, hip, hp, hv, hlink]
  | false =>
    have hipLower := hl.ipLower
    rw [if_neg Bool.false_ne_true, if_pos htag] at hipLower
    refine ⟨[(.ip, 0), (.vlanT, 0), (.link, 0)], by simp [wanLayers, htag], ?_,
      hipLower, hvUpper, hvLower, hlUpper, hl.linkLower⟩
    simp [hholds, hip, hv, hlink]

theorem interface_ne {l : Layer} (hl : l = .ip ∨ l = .ppp) (i j : Int) :
    l.interface i ≠ Layer.vlanT.interface j := by
  intro he
  have htake := congrArg (List.take 12) he
  rcases hl with rfl | rfl <;>
    rw [Layer.interface, Layer.interface, List.take_append_of_le_length (by decide),
      List.take_append_of_le_length (by decide)] at htake <;>
    exact absurd htake (by decide)

/-- Without a tag nothing names the element above the Link entry. -/
theorem not_linksRight (h : Single wanIf T') (htag : iVlanTag < 0) :
    ¬ LinksRight T' wanIf (wanLayers isPpp iVlanTag) := by
  have hupper : ∀ {l : Layer} {i j : Nat}, l = .ip ∨ l = .ppp →
      Holds wanKey (T' .link).slots wanIf j →
      entryAttr T' .link j uplayerAttr ≠ some (l.interface i) := fun {l i j} hl hj he => by
    have hj0 : j = 0 := h.holds hj
    subst hj0
    exact interface_ne hl i 0 (h.linkUpper _ he)
  rintro ⟨es, hmap, hholds, hlinked⟩
  -- the two last elements are an IP or a PPP entry and the Link entry
  cases isPpp with
  | true =>
    have hlayers : es.map Prod.fst = [.ip, .ppp, .link] := by
      rw [hmap, wanLayers, if_neg (Int.not_le.mpr htag)]
      rfl
    obtain ⟨x, es₁, rfl, -, hes₁⟩ := List.map_eq_cons_iff.mp hlayers
    obtain ⟨⟨l, i⟩, es₂, rfl, rfl, hes₂⟩ := List.map_eq_cons_iff.mp hes₁
    obtain ⟨⟨l, j⟩, es₃, rfl, rfl, -⟩ := List.map_eq_cons_iff.mp hes₂
    exact hupper (.inr rfl) (hholds (.link, j) (by simp)) hlinked.2.2.2.1
  | false =>
    have hlayers : es.map Prod.fst = [.ip, .link] := by
      rw [hmap, wanLayers, if_neg (Int.not_le.mpr htag)]
      rfl
    obtain ⟨⟨l, i⟩, es₁, rfl, rfl, hes₁⟩ := List.map_eq_cons_iff.mp hlayers
    obtain ⟨⟨l, j⟩, es₂, rfl, rfl, -⟩ := List.map_eq_cons_iff.mp hes₁
    exact hupper (.inl rfl) (hholds (.link, j) (by simp)) hlinked.2.1

/-- **An update that succeeds leaves the links right exactly if the WAN has a tag.** -/
theorem update_single (h : Single wanIf T) (hwan : 0 ≤ wanIf) (hlt : wanIf < c.wanInterfaceNum)
    (hint : IsInt wanIf) (hs : Succeeds c wanIf T w) :
    Single wanIf (updateStep c wanIf T w) ∧
      (WanRight c wanIf (updateStep c wanIf T w) w ↔ 0 ≤ getWanVlanTag w) := by
  obtain ⟨hisp, hres⟩ := hs
  obtain ⟨isp, hisp⟩ := Option.isSome_iff_exists.mp hisp
  obtain ⟨T₁, e, hfind, -, hfound, hl⟩ := update_spec h.sized hwan hlt hisp hres
  obtain ⟨h₁, hip, hppp, hv, hlink⟩ := findWanEntries_single h hwan hint hfind
  have h' := single_links h₁ hl hlink hv
  have hpppEq : w.ppp c = isPpp c isp := by rw [Wan.ppp, hisp, Option.getD_some]
  refine ⟨h', ?_⟩
  rw [WanRight, hpppEq]
  constructor
  · intro hright
    by_contra htag
    exact not_linksRight h' (Int.not_le.mp htag) hright
  · intro htag
    have hvEntry : HasEntry T₁ .vlanT e.vlanT := (hfound.vlanT htag).resolve_right fun hneg => by
      rw [hv htag] at hneg
      exact absurd hneg (by decide)
    exact linksRight_of_tag h' hwan hint hl hfound.ip hip
      (fun hp => ⟨hfound.ppp hp, hppp hp⟩) hfound.link hlink htag hvEntry (hv htag)

theorem single_cleared (hwan : 0 ≤ wanIf) (hlt : wanIf < c.wanInterfaceNum) :
    Single wanIf (clearedTables c) := by
  have hno : ∀ l i, ¬ HasEntry (clearedTables c) l i := fun l i hi => by
    obtain ⟨-, a, ha⟩ := hi
    have hmem := List.eq_of_mem_replicate (List.mem_of_getElem? ha)
    exact absurd hmem (by simp)
  refine ⟨fun l => ?_, fun l => ?_, fun l i hi => absurd hi (hno l i),
    fun l hi => absurd hi (hno l 0), fun t ht => ?_⟩
  · change l.node ∉ wifiNodes
    cases l <;> decide
  · rw [clearedTables, List.length_replicate]
    cases l <;> simp only [Layer.num] <;> omega
  · rw [entryAttr_of_not (hno .link 0)] at ht
    exact absurd ht.symm (Option.some_ne_none t)

end Update

/-- **In every run of updates that succeed, the links after an update are right exactly if the WAN
has a VLAN tag then.** -/
theorem links_run {c : Consts} {wanIf : Int} (hwan : 0 ≤ wanIf) (hlt : wanIf < c.wanInterfaceNum)
    (hint : IsInt wanIf) {ws : List Wan}
    (hrun : RunOk (updateStep c wanIf) (Succeeds c wanIf) (clearedTables c) ws) {pre : List Wan}
    {w : Wan} (hp : pre ++ [w] <+: ws) :
    WanRight c wanIf ((pre ++ [w]).foldl (updateStep c wanIf) (clearedTables c)) w ↔
      0 ≤ getWanVlanTag w := by
  have hstep : ∀ T w, Single wanIf T → Succeeds c wanIf T w →
      Single wanIf (updateStep c wanIf T w) := fun _ _ h hs => (update_single h hwan hlt hint hs).1
  have hpre : pre <+: ws := (List.prefix_append pre [w]).trans hp
  have hsingle := hrun.inv_prefix hstep (single_cleared hwan hlt) hpre
  rw [List.foldl_append]
  exact (update_single hsingle hwan hlt hint (hrun.at_prefix hp)).2

/-- Constants as a build could have them. -/
def someConsts : Consts := ⟨8, 9, 2, 0⟩

/-- A WAN whose ISP is PPP, with a value of `dot1q`. -/
def pppWan (dot1q : Str) : Wan :=
  ⟨some "2".toList, some "Yes".toList, some dot1q, some "100".toList, some "IPv4".toList, [], 0, 0⟩

/-- The same WAN before it was switched to PPP and given a tag. -/
def bridgedWan : Wan := { pppWan "No".toList with isp := some "3".toList }

/-- An update that changes the mode of the WAN and gives it a tag. -/
theorem links_run_tag :
    (0 : Int) ≤ 0 ∧ (0 : Int) < someConsts.wanInterfaceNum ∧ IsInt 0 ∧
    RunOk (updateStep someConsts 0) (Succeeds someConsts 0) (clearedTables someConsts)
      [bridgedWan, pppWan "Yes".toList] ∧
    bridgedWan.ppp someConsts = false ∧ (pppWan "Yes".toList).ppp someConsts = true ∧
    WanRight someConsts 0 ([bridgedWan, pppWan "Yes".toList].foldl (updateStep someConsts 0)
      (clearedTables someConsts)) (pppWan "Yes".toList) := by
  have hlt : (0 : Int) < someConsts.wanInterfaceNum := by decide
  have hint : IsInt 0 := ⟨by decide, by decide⟩
  have hrun : RunOk (updateStep someConsts 0) (Succeeds someConsts 0) (clearedTables someConsts)
      [bridgedWan, pppWan "Yes".toList] :=
    ⟨⟨rfl, by decide +kernel⟩, ⟨rfl, by decide +kernel⟩, trivial⟩
  have hp : [bridgedWan] ++ [pppWan "Yes".toList] <+: [bridgedWan, pppWan "Yes".toList] := ⟨[], rfl⟩
  exact ⟨le_rfl, hlt, hint, hrun, by decide, by decide,
    (links_run le_rfl hlt hint hrun hp).mpr (by decide)⟩

/-- A WAN without a tag: its Link entry has no `uplayer`. -/
theorem no_uplayer :
    RunOk (updateStep someConsts 0) (Succeeds someConsts 0) (clearedTables someConsts)
      [pppWan "No".toList] ∧
    entryAttr (updateStep someConsts 0 (clearedTables someConsts) (pppWan "No".toList)) .link 0
      uplayerAttr = none ∧
    ¬ WanRight someConsts 0
      (updateStep someConsts 0 (clearedTables someConsts) (pppWan "No".toList))
      (pppWan "No".toList) := by
  have hs : Succeeds someConsts 0 (clearedTables someConsts) (pppWan "No".toList) :=
    ⟨rfl, by decide⟩
  have hsingle : Single 0 (clearedTables someConsts) := single_cleared le_rfl (by decide)
  have hright := (update_single hsingle le_rfl (by decide) ⟨by decide, by decide⟩ hs).2
  exact ⟨⟨hs, trivial⟩, by decide, fun h => absurd (hright.mp h) (by decide)⟩

end OnuFirmware.Tr181
