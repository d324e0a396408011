import OnuFirmware.LanHost.KeyEffects

/-!
# The keys of the table

A slot gets a new MAC only through `add_lan_host`, after a look-up that did not find the MAC. The
look-up compares all characters, but the entry holds twelve; it finds free slots under the empty
MAC; and `check_mac_exist` looks only at the slots below `LANHostMaxNumber`. Events that run into
none of this keep the keys distinct (`keyInv_run`). A station that reports its MAC with dashes is
entered again with every event (`not_keyInv`).
-/

namespace OnuFirmware.LanHost

open Clib

/-! ## Statement -/

/-- Every valid entry holds a MAC, and no two hold the same. -/
structure KeyInv (W : World) (d : Daemon) : Prop where
  mac_ne : ∀ i ∈ slots W, (d.tab i).valid = true → (d.tab i).mac ≠ []
  unique : ∀ i ∈ slots W, ∀ j ∈ slots W, i ≠ j → (d.tab i).valid = true → (d.tab j).valid = true →
    strcaseEq (d.tab i).mac (d.tab j).mac = false

/-- A MAC that fits into an entry. -/
def MacFits (mac : Str) : Prop := mac ≠ [] ∧ mac.length ≤ devMacAddrLen

instance (mac : Str) : Decidable (MacFits mac) :=
  inferInstanceAs (Decidable (mac ≠ [] ∧ mac.length ≤ devMacAddrLen))

/-- The condition on a line of `stb_list` that reaches `add_lan_host`: its MAC fits and no entry
above `LANHostMaxNumber` has it. -/
def LineKeyed (W : World) (s : StbLoop) (line : StbLine) : Prop :=
  W.leaseOrArp (s.d.now + 1) (line.mac.getD s.mac) = true → 1 ≤ line.port.getD s.port →
    line.port.getD s.port ≤ 4 →
    MacFits (macRmDot (line.mac.getD s.mac)) ∧
    ∀ i ∈ slots W, i ∉ usableSlots W s.d → (s.d.tab i).valid = true →
      strcaseEq (s.d.tab i).mac (macRmDot (line.mac.getD s.mac)) = false

/-- The condition on `stb_list`: each line meets it in its state. -/
def StbKeyed (W : World) : StbLoop → List StbLine → Prop
  | _, [] => True
  | s, line :: lines => LineKeyed W s line ∧ StbKeyed W (stbTurn W s line) lines

/-- The variables at the start of the loop over `stb_list`. -/
def stbStart (W : World) (d : Daemon) : StbLoop :=
  { d := (slots W).foldl clearExist d, port := 0, mac := [], emptyIndex := -1 }

/-- Port and MAC with which each line is handled; what `sscanf` does not read stays from the line
before. -/
def lineFields : Int → Str → List StbLine → List (Int × Str)
  | _, _, [] => []
  | port, mac, line :: lines =>
    (line.port.getD port, line.mac.getD mac) ::
      lineFields (line.port.getD port) (line.mac.getD mac) lines

/-- The same condition on the table before the pass (`stbKeyed_of_table`). -/
def TableKeyed (W : World) (d : Daemon) (lines : List StbLine) : Prop :=
  ∀ f ∈ lineFields 0 [] lines, (∃ t, W.leaseOrArp t f.2 = true) → 1 ≤ f.1 → f.1 ≤ 4 →
    MacFits (macRmDot f.2) ∧
    ∀ i ∈ slots W, i ∉ usableSlots W d → (d.tab i).valid = true →
      strcaseEq (d.tab i).mac (macRmDot f.2) = false

/-- The condition on an event in the state it is handled in. -/
def EventKeyed (W : World) (d : Daemon) : HostEvent → Prop
  | .wifiUpdate data => ((strtokFields data).getD 0 []).take 15 = "add".toList →
      MacFits (macRmDot (((strtokFields data).getD 3 []).take 31))
  | .dhcpUpdate type macaddr => type.head? = some 'a' → macRmDot macaddr ≠ []
  | .ipv6Only mac _ => MacFits (macRmDot mac)
  | .check (some lines) => StbKeyed W (stbStart W d) lines
  | _ => True

/-- The condition on a run: each event meets it in its state. -/
def RunKeyed (W : World) : Daemon → List HostEvent → Prop
  | _, [] => True
  | d, ev :: evs => EventKeyed W d ev ∧ RunKeyed W (d.handle W ev) evs

/-- The condition on the nodes at the start: they hold different MACs. -/
structure ConfKeyed (W : World) (conf : Nat → Option LanHostEntry) : Prop where
  mac_ne : ∀ i ∈ slots W, ∀ e, conf i = some e → e.mac ≠ []
  unique : ∀ i ∈ slots W, ∀ j ∈ slots W, i ≠ j → ∀ e e', conf i = some e → conf j = some e' →
    strcaseEq (e.mac.take devMacAddrLen) (e'.mac.take devMacAddrLen) = false

/-! ## Comparing MACs -/

theorem strcaseEq_comm (a b : Str) : strcaseEq a b = strcaseEq b a := by
  unfold strcaseEq
  exact Bool.beq_comm

theorem strcaseEq_congr {a b : Str} (h : strcaseEq a b = true) (c : Str) :
    strcaseEq c a = strcaseEq c b := by
  unfold strcaseEq at h ⊢
  rw [eq_of_beq h]

theorem ne_nil_of_strcaseEq {a b : Str} (h : strcaseEq a b = true) (hb : b ≠ []) : a ≠ [] := by
  rintro rfl
  have hmap : b.map Char.toLower = [] := (eq_of_beq h).symm
  exact hb (List.map_eq_nil_iff.mp hmap)

theorem macRmDot_eq_self {mac : Str} (hlen : mac.length ≤ 17) (hcolon : ∀ c ∈ mac, c ≠ ':') :
    macRmDot mac = mac := by
  unfold macRmDot
  rw [List.take_of_length_le hlen, List.filter_eq_self]
  intro c hc
  simpa using hcolon c hc

theorem macRmDot_macRmDot (mac : Str) : macRmDot (macRmDot mac) = macRmDot mac := by
  refine macRmDot_eq_self ?_ ?_
  · exact Nat.le_trans (List.length_filter_le _ _) (List.length_take_le 17 mac)
  · intro c hc
    simpa using (List.mem_filter.mp hc).2

/-! ## The invariant -/

/-- The internal invariant: exactly the valid entries hold a MAC. -/
structure Keyed (W : World) (d : Daemon) : Prop where
  slot : ∀ i, (d.tab i).valid = true ↔ (d.tab i).mac ≠ []
  unique : ∀ i ∈ slots W, ∀ j ∈ slots W, i ≠ j → (d.tab i).valid = true → (d.tab j).valid = true →
    strcaseEq (d.tab i).mac (d.tab j).mac = false

namespace Keyed

variable {W : World} {d d' : Daemon} {p : Nat}

theorem keyInv (h : Keyed W d) : KeyInv W d := ⟨fun i _ => (h.slot i).mp, h.unique⟩

/-- Only the table matters. -/
theorem congr (h : Keyed W d) (htab : d'.tab = d.tab) : Keyed W d' := by
  refine ⟨fun i => ?_, fun i hi j hj hne => ?_⟩
  · rw [htab]
    exact h.slot i
  · rw [htab]
    exact h.unique i hi j hj hne

theorem tick (h : Keyed W d) : Keyed W d.tick := h.congr rfl

/-- A step that gives slot `p` an entry whose MAC no other valid entry has. -/
theorem of_frame (h : Keyed W d) (hframe : ∀ q, q ≠ p → d'.tab q = d.tab q)
    (hslot : (d'.tab p).valid = true ↔ (d'.tab p).mac ≠ [])
    (hfree : p ∈ slots W → (d'.tab p).valid = true → ∀ j ∈ slots W, j ≠ p →
      (d.tab j).valid = true → strcaseEq (d.tab j).mac (d'.tab p).mac = false) :
    Keyed W d' := by
  refine ⟨fun i => ?_, fun i hi j hj hne hvi hvj => ?_⟩
  · by_cases hip : i = p
    · rw [hip]
      exact hslot
    · rw [hframe i hip]
      exact h.slot i
  by_cases hip : i = p
  · have hjp : j ≠ p := fun hjp => hne (hip.trans hjp.symm)
    rw [hframe j hjp] at hvj ⊢
    rw [hip] at hi hvi ⊢
    rw [strcaseEq_comm]
    exact hfree hi hvi j hj hjp hvj
  · rw [hframe i hip] at hvi ⊢
    by_cases hjp : j = p
    · rw [hjp] at hj hvj ⊢
      exact hfree hj hvj i hi hip hvi
    · rw [hframe j hjp] at hvj ⊢
      exact h.unique i hi j hj hne hvi hvj

/-- A step that keeps or clears the key of slot `p`. -/
theorem step (h : Keyed W d) {node : Int} (htouch : Touches node p d d')
    (hkeeps : Keeps (d.tab p) (d'.tab p)) : Keyed W d' := by
  refine h.of_frame htouch.frame ?_ ?_
  · rcases hkeeps with ⟨hvalid, hmac⟩ | ⟨hvalid, hmac⟩
    · rw [hvalid, hmac]
      exact h.slot p
    · simp [hvalid, hmac]
  · intro hp hv j hj hjp hvj
    rcases hkeeps with ⟨hvalid, hmac⟩ | ⟨hvalid, hmac⟩
    · rw [hmac]
      exact h.unique j hj p hp hjp hvj (hvalid ▸ hv)
    · rw [hvalid] at hv
      exact absurd hv (by simp)

theorem put (h : Keyed W d) {e : LanHostEntry} (he : Keeps (d.tab p) e) : Keyed W (d.put p e) := by
  have htouch : Touches p p d (d.put p e) := Touches.put d e
  exact h.step htouch (put_keeps he)

/-- A loop that keeps or clears the keys of entry after entry. -/
theorem foldl {f : Daemon → Nat → Daemon} {node : Nat → Int}
    (htouch : ∀ d i, Touches (node i) i d (f d i)) (hf : ∀ d i, Keeps (d.tab i) ((f d i).tab i)) :
    ∀ (is : List Nat) {d : Daemon}, Keyed W d → Keyed W (is.foldl f d)
  | [], _, h => h
  | i :: is, d, h => foldl htouch hf is (h.step (htouch d i) (hf d i))

/-- `add_lan_host` in a slot when no other valid entry has the MAC. -/
theorem add (h : Keyed W d) {mac : Str} (hfits : MacFits (macRmDot mac))
    (hfree : ∀ j ∈ slots W, j ≠ p → (d.tab j).valid = true →
      strcaseEq (d.tab j).mac (macRmDot mac) = false) (node : Int) (connType : Nat) (port : Int) :
    Keyed W (addLanHost W d p mac node connType port) := by
  have htouch := addLanHost_touches W d p node mac connType port
  rcases addLanHost_key W d p node mac connType port with hkeeps | ⟨hvalid, hmac⟩
  · exact h.step htouch hkeeps
  rw [List.take_of_length_le hfits.2] at hmac
  refine h.of_frame htouch.frame ?_ ?_
  · rw [hmac]
    exact ⟨fun _ => hfits.1, fun _ => hvalid⟩
  · intro _ _ j hj hjp hvj
    rw [hmac]
    exact hfree j hj hjp hvj

/-- An entry that a look-up finds under a MAC is valid. -/
theorem valid_of_found (h : Keyed W d) {mac : Str} (hmac : mac ≠ [])
    (hfound : strcaseEq (d.tab p).mac mac = true) : (d.tab p).valid = true :=
  (h.slot p).mpr (ne_nil_of_strcaseEq hfound hmac)

end Keyed

/-! ## Messages -/

section

variable {W : World} {d : Daemon}

theorem findLanHostEntryByMac_some {mac : Str} {p : Nat}
    (h : findLanHostEntryByMac W d mac = some p) : strcaseEq (d.tab p).mac mac = true := by
  unfold findLanHostEntryByMac at h
  have hfound := List.find?_some h
  exact hfound

theorem findLanHostEntryByMac_none {mac : Str} (h : findLanHostEntryByMac W d mac = none) :
    ∀ i ∈ slots W, strcaseEq (d.tab i).mac mac = false := by
  unfold findLanHostEntryByMac at h
  intro i hi
  simpa using List.find?_eq_none.mp h i hi

theorem wifiAdd_keyed (hd : Keyed W d) {newMac : Str} (hfits : MacFits newMac)
    (hdot : macRmDot newMac = newMac) (oldSsidIdx : Int) :
    Keyed W (wifiAdd W d newMac oldSsidIdx) := by
  unfold wifiAdd
  split
  · next p hp =>
    have hvalid := hd.valid_of_found hfits.1 (findLanHostEntryByMac_some hp)
    have hput : Keyed W (d.put p { d.tab p with connType := 1 }) := hd.put (Keeps.of_eq rfl rfl)
    have hready : Ready ((d.put p { d.tab p with connType := 1 }).tab p) := by
      rw [Daemon.tab_put_self]
      exact .inl hvalid
    have honline := setLanHostOnline_ready W _ p p true hready
    dsimp only
    refine Keyed.step ?_ (wifiSettle_touches _ p) (wifiSettle_keeps _ p)
    refine Keyed.step ?_ (setLanHostOnline_touches W _ p p true)
      (setLanHostOnline_keeps W _ p p true (updatePort_ready W _ p _ honline))
    refine Keyed.step ?_ (updatePort_touches W _ p _) (updatePort_keeps W _ p _)
    exact hput.step (setLanHostOnline_touches W _ p p true)
      (setLanHostOnline_keeps W _ p p true hready)
  · next hnone =>
    split
    · exact hd.congr rfl
    · next p _ =>
      refine Keyed.step ?_ (wifiSettle_touches _ p) (wifiSettle_keeps _ p)
      refine hd.tick.add (hdot.symm ▸ hfits) ?_ _ _ _
      intro j hj _ _
      rw [hdot]
      exact findLanHostEntryByMac_none hnone j hj

theorem wifiDel_keyed (hd : Keyed W d) (newMac : Str) (oldSsidIdx : Int) :
    Keyed W (wifiDel W d newMac oldSsidIdx) := by
  unfold wifiDel
  split
  · exact hd
  · next p _ =>
    dsimp only
    split
    · refine Keyed.step ?_ (setLanHostOffline_touches W _ p p) (setLanHostOffline_keeps W _ p p)
      exact hd.put (Keeps.of_eq rfl rfl)
    · exact hd

theorem wifiUpdate_keyed (hd : Keyed W d) (newMac : Str) (oldSsidIdx : Int) :
    Keyed W (wifiUpdate W d newMac oldSsidIdx) := by
  unfold wifiUpdate
  split
  · exact hd
  · next p _ =>
    refine hd.step (sync_put_touches W d p p _ _) ?_
    exact (Keeps.of_eq rfl rfl).trans (sync_put_keeps W d p p _ _)

theorem wifiUpdateHandler_keyed (hd : Keyed W d) {data : Str}
    (hev : EventKeyed W d (.wifiUpdate data)) : Keyed W (wifiUpdateHandler W d data) := by
  unfold wifiUpdateHandler
  dsimp only
  split
  · next hadd => exact wifiAdd_keyed hd (hev hadd) (macRmDot_macRmDot _) _
  split
  · exact wifiDel_keyed hd _ _
  split
  · exact wifiUpdate_keyed hd _ _
  · exact hd

theorem dhcpUpdateHander_keyed (hd : Keyed W d) {type macaddr : Str}
    (hev : EventKeyed W d (.dhcpUpdate type macaddr)) :
    Keyed W (dhcpUpdateHander W d type macaddr) := by
  unfold dhcpUpdateHander
  split
  · exact hd
  · next p hp =>
    dsimp only
    split
    · exact hd.step (setLanHostOffline_touches W d p p) (setLanHostOffline_keeps W d p p)
    split
    · next hadd =>
      have hvalid := hd.valid_of_found (hev hadd) (findLanHostEntryByMac_some hp)
      have hset := hd.step (setIpFromDhcp_touches W d p p) (setIpFromDhcp_keeps W d p p)
      split
      · exact hset.step (setLanHostOnline_touches W _ p p false)
          (setLanHostOnline_keeps W _ p p false (setIpFromDhcp_ready W d p p hvalid))
      · exact hset
    · exact hd

theorem arpAddHandler_keyed (hd : Keyed W d) (lladdr abuf : Str) (ipv6 : Bool) :
    Keyed W (arpAddHandler W d lladdr abuf ipv6) := by
  unfold arpAddHandler
  split
  · exact hd
  · next p _ =>
    split
    · next hvalid =>
      split
      · split
        · exact hd.congr rfl
        · refine hd.tick.step (sync_put_touches W d.tick p p _ _) ?_
          exact (Keeps.of_eq rfl rfl).trans (sync_put_keeps W d.tick p p _ _)
      · exact hd.step (arpAddIpv4_touches W d p abuf) (arpAddIpv4_keeps W d p abuf hvalid)
    · exact hd

theorem lanHostIpv6onlyUpdate_keyed (hd : Keyed W d) {mac : Str} (hfits : MacFits (macRmDot mac))
    (ipv6addr : Str) : Keyed W (lanHostIpv6onlyUpdate W d mac ipv6addr) := by
  unfold lanHostIpv6onlyUpdate
  dsimp only
  split
  · exact hd.congr rfl
  split
  · next p hp =>
    have hvalid := hd.valid_of_found hfits.1 (findLanHostEntryByMac_some hp)
    exact hd.tick.step (ipv6onlyFound_touches W d.tick p ipv6addr)
      (ipv6onlyFound_keeps W d.tick p ipv6addr hvalid)
  · next hnone =>
    split
    · exact hd.congr rfl
    · next p _ =>
      have hmark : Keyed W (markIpv6Only d.tick p) :=
        hd.tick.step (markIpv6Only_touches d.tick p) (markIpv6Only_keeps d.tick p)
      refine hmark.add (by rwa [macRmDot_macRmDot]) ?_ _ _ _
      intro j hj hjp _
      rw [macRmDot_macRmDot, (markIpv6Only_touches d.tick p).frame j hjp]
      exact findLanHostEntryByMac_none hnone j hj

/-! ## The bridge table -/

/-- What the loop of `check_mac_exist` says about the MAC. -/
theorem checkMacExistLoop_spec (W : World) (d : Daemon) (newMac : Str) :
    ∀ (is : List Nat) (foundEmpty : Bool) (emptyIndex : Int) (acc : Nat × Int),
      match checkMacExistLoop W d newMac is foundEmpty emptyIndex acc with
      | .noIp i => i ∈ is ∧ (d.tab i).valid = true ∧ strcaseEq (d.tab i).mac newMac = true
      | .found _ _ _ => True
      | .missing _ _ => ∀ i ∈ is, (d.tab i).valid = true → strcaseEq (d.tab i).mac newMac = false
  | [], _, _, _ => by
    simp [checkMacExistLoop]
  | i :: is, foundEmpty, emptyIndex, acc => by
    have hrest := fun b n => checkMacExistLoop_spec W d newMac is b n (olderInactive W d acc i)
    -- A slot that the loop passes by does not have the MAC.
    have hpass : ∀ b n, ((d.tab i).valid = true → strcaseEq (d.tab i).mac newMac = false) →
        match checkMacExistLoop W d newMac is b n (olderInactive W d acc i) with
        | .noIp j => j ∈ i :: is ∧ (d.tab j).valid = true ∧ strcaseEq (d.tab j).mac newMac = true
        | .found _ _ _ => True
        | .missing _ _ =>
          ∀ j ∈ i :: is, (d.tab j).valid = true → strcaseEq (d.tab j).mac newMac = false := by
      intro b n hi
      have h := hrest b n
      cases hloop : checkMacExistLoop W d newMac is b n (olderInactive W d acc i) with
      | noIp j =>
        rw [hloop] at h
        exact ⟨List.mem_cons_of_mem i h.1, h.2⟩
      | found j _ _ => trivial
      | missing _ _ =>
        rw [hloop] at h
        intro j hj
        rcases List.mem_cons.mp hj with rfl | hj
        · exact hi
        · exact h j hj
    unfold checkMacExistLoop
    dsimp only
    by_cases hvalid : (d.tab i).valid = true
    · rw [if_pos hvalid]
      by_cases heq : strcaseEq (d.tab i).mac newMac = true
      · rw [if_pos heq]
        by_cases hip : (d.tab i).ip = [] ∧ (d.tab i).portBind = false ∧ (d.tab i).ipv6Flag = false
        · rw [if_pos hip]
          exact ⟨List.mem_cons_self, hvalid, heq⟩
        · rw [if_neg hip]
          trivial
      · rw [if_neg heq]
        exact hpass _ _ fun _ => by simpa using heq
    · rw [if_neg hvalid]
      by_cases hempty : foundEmpty = true
      · rw [if_pos hempty]
        exact hpass _ _ fun h => absurd h hvalid
      · rw [if_neg hempty]
        exact hpass _ _ fun h => absurd h hvalid

theorem checkMacExist_now (mac : Str) (emptyIndex : Int) :
    (checkMacExist W d mac emptyIndex).2.now = d.now + 1 := by
  unfold checkMacExist
  dsimp only
  split <;> rfl

theorem checkMacExist_keyed (hd : Keyed W d) (mac : Str) (emptyIndex : Int) :
    Keyed W (checkMacExist W d mac emptyIndex).2 := by
  unfold checkMacExist
  dsimp only
  split
  · exact hd.congr rfl
  · exact hd.tick.put (Keeps.of_eq rfl rfl)
  · exact hd.congr rfl

theorem mem_slots_of_usable (W : World) (d : Daemon) : ∀ i ∈ usableSlots W d, i ∈ slots W := by
  intro i hi
  have hlt := List.mem_range.mp hi
  unfold lanHostMaxNum at hlt
  exact List.mem_range.mpr (by omega)

/-- When `check_mac_exist` returns `0`, the slot it names is the only usable one with the MAC, or no
usable slot has it. -/
theorem checkMacExist_free (hd : Keyed W d) {mac : Str} {emptyIndex : Int}
    (hret : (checkMacExist W d mac emptyIndex).1.1 = true)
    (hbeyond : ∀ i ∈ slots W, i ∉ usableSlots W d → (d.tab i).valid = true →
      strcaseEq (d.tab i).mac (macRmDot mac) = false) :
    (checkMacExist W d mac emptyIndex).2.tab = d.tab ∧
    ∀ j ∈ slots W, j ≠ (checkMacExist W d mac emptyIndex).1.2.toNat → (d.tab j).valid = true →
      strcaseEq (d.tab j).mac (macRmDot mac) = false := by
  have hspec := checkMacExistLoop_spec W d (macRmDot mac) (usableSlots W d) false emptyIndex
    (offlineTimeMax, -1)
  unfold checkMacExist at hret ⊢
  dsimp only at hret ⊢
  cases hloop : checkMacExistLoop W d (macRmDot mac) (usableSlots W d) false emptyIndex
    (offlineTimeMax, -1) with
  | noIp i =>
    rw [hloop] at hspec
    refine ⟨rfl, fun j hj hne hvj => ?_⟩
    have hi := mem_slots_of_usable W d i hspec.1
    have hne' : j ≠ i := by simpa using hne
    rw [← strcaseEq_congr hspec.2.2]
    exact hd.unique j hj i hi hne' hvj hspec.2.1
  | found i _ _ =>
    rw [hloop] at hret
    exact absurd hret (by simp)
  | missing _ _ =>
    rw [hloop] at hspec
    refine ⟨rfl, fun j hj _ hvj => ?_⟩
    by_cases hus : j ∈ usableSlots W d
    · exact hspec j hus hvj
    · exact hbeyond j hj hus hvj

/-- An index of one of the slots, or none. -/
def IndexIn (is : List Nat) (n : Int) : Prop := n = -1 ∨ ∃ k ∈ is, n = (k : Int)

theorem olderInactive_indexIn {is : List Nat} {acc : Nat × Int} (h : IndexIn is acc.2) {i : Nat}
    (hi : i ∈ is) : IndexIn is (olderInactive W d acc i).2 := by
  unfold olderInactive
  dsimp only
  split
  · exact .inr ⟨i, hi, rfl⟩
  · exact h

/-- The search ends with indices of the slots. -/
def MacSearch.Within (is : List Nat) : MacSearch → Prop
  | .noIp i => i ∈ is
  | .found i emptyIndex latest => i ∈ is ∧ IndexIn is emptyIndex ∧ IndexIn is latest
  | .missing emptyIndex latest => IndexIn is emptyIndex ∧ IndexIn is latest

theorem checkMacExistLoop_within (newMac : Str) {is₀ : List Nat} :
    ∀ (is : List Nat) (foundEmpty : Bool) {emptyIndex : Int} {acc : Nat × Int},
      (∀ i ∈ is, i ∈ is₀) → IndexIn is₀ emptyIndex → IndexIn is₀ acc.2 →
      (checkMacExistLoop W d newMac is foundEmpty emptyIndex acc).Within is₀
  | [], _, _, _, _, hempty, hacc => ⟨hempty, hacc⟩
  | i :: is, foundEmpty, emptyIndex, acc, his, hempty, hacc => by
    obtain ⟨hi, his⟩ := List.forall_mem_cons.mp his
    have hacc' := olderInactive_indexIn (W := W) (d := d) hacc hi
    unfold checkMacExistLoop
    dsimp only
    split
    · split
      · split
        · exact hi
        · exact ⟨hi, hempty, hacc'⟩
      · exact checkMacExistLoop_within newMac is foundEmpty his hempty hacc'
    split
    · exact checkMacExistLoop_within newMac is foundEmpty his hempty hacc'
    · exact checkMacExistLoop_within newMac is true his (.inr ⟨i, hi, rfl⟩) hacc'

/-- `check_mac_exist` names a slot that it has looked at, or the one before, and changes none but
those. -/
theorem checkMacExist_within (mac : Str) {is : List Nat} {emptyIndex : Int}
    (his : ∀ i ∈ usableSlots W d, i ∈ is) (h : IndexIn is emptyIndex) :
    IndexIn is (checkMacExist W d mac emptyIndex).1.2 ∧
      ∀ j, j ∉ is → (checkMacExist W d mac emptyIndex).2.tab j = d.tab j := by
  have hwithin := checkMacExistLoop_within (W := W) (d := d) (macRmDot mac) (usableSlots W d) false
    his h (.inl rfl : IndexIn is ((offlineTimeMax, -1) : Nat × Int).2)
  unfold checkMacExist
  dsimp only
  split
  · next i heq =>
    rw [heq] at hwithin
    exact ⟨.inr ⟨i, hwithin, rfl⟩, fun _ _ => rfl⟩
  · next i n latest heq =>
    rw [heq] at hwithin
    refine ⟨?_, fun j hj => Daemon.tab_put_ne _ _ fun hji => hj (hji ▸ hwithin.1)⟩
    dsimp only
    split
    · exact hwithin.2.2
    · exact hwithin.2.1
  · next n latest heq =>
    rw [heq] at hwithin
    refine ⟨?_, fun _ _ => rfl⟩
    dsimp only
    split
    · exact hwithin.2
    · exact hwithin.1

/-- A line does not reach a slot above a limit that does not change. -/
theorem stbTurn_within {s : StbLoop} {is : List Nat} (his : ∀ i ∈ usableSlots W s.d, i ∈ is)
    (h : IndexIn is s.emptyIndex) (line : StbLine) :
    IndexIn is (stbTurn W s line).emptyIndex ∧
      ∀ j, j ∉ is → (stbTurn W s line).d.tab j = s.d.tab j := by
  obtain ⟨hindex, htab⟩ := checkMacExist_within (line.mac.getD s.mac) his h
  unfold stbTurn
  dsimp only
  split
  · next hadd =>
    refine ⟨hindex, fun j hj => ?_⟩
    have htouch := addLanHost_touches W (checkMacExist W s.d (line.mac.getD s.mac)
      s.emptyIndex).2.tick (checkMacExist W s.d (line.mac.getD s.mac) s.emptyIndex).1.2.toNat
      (checkMacExist W s.d (line.mac.getD s.mac) s.emptyIndex).1.2 (line.mac.getD s.mac) 0
      (line.port.getD s.port)
    refine (htouch.frame j ?_).trans (htab j hj)
    rintro rfl
    rcases hindex with hnone | ⟨k, hk, heq⟩
    · exact hadd.2.2.2.2 hnone
    · rw [heq] at hj
      exact hj hk
  · exact ⟨hindex, htab⟩

/-- A loop that keeps or clears the keys of entry after entry keeps or clears each. -/
theorem foldl_keeps {f : Daemon → Nat → Daemon} {node : Nat → Int}
    (htouch : ∀ d i, Touches (node i) i d (f d i)) (hf : ∀ d i, Keeps (d.tab i) ((f d i).tab i))
    (j : Nat) : ∀ (is : List Nat) (d : Daemon), Keeps (d.tab j) ((is.foldl f d).tab j)
  | [], _ => Keeps.refl _
  | i :: is, d => by
    refine Keeps.trans ?_ (foldl_keeps htouch hf j is (f d i))
    by_cases hji : j = i
    · subst hji
      exact hf d j
    · rw [(htouch d i).frame j hji]
      exact Keeps.refl _

/-- As long as `LANHostMaxNumber` stays the same, the condition on each line can be read off the
table before the pass. -/
theorem stbKeyed_of_table {W : World}
    (hlimit : ∀ t t', W.lanHostMaxNumber t = W.lanHostMaxNumber t') {d : Daemon}
    {lines : List StbLine} (h : TableKeyed W d lines) :
    StbKeyed W (stbStart W d) lines := by
  have husable : ∀ d' : Daemon, usableSlots W d' = usableSlots W d := by
    intro d'
    rw [usableSlots, usableSlots, lanHostMaxNum, lanHostMaxNum, hlimit d'.now d.now]
  have hloop : ∀ (lines : List StbLine) {s : StbLoop},
      (∀ f ∈ lineFields s.port s.mac lines, (∃ t, W.leaseOrArp t f.2 = true) → 1 ≤ f.1 →
        f.1 ≤ 4 → MacFits (macRmDot f.2) ∧
        ∀ i ∈ slots W, i ∉ usableSlots W d → (d.tab i).valid = true →
          strcaseEq (d.tab i).mac (macRmDot f.2) = false) →
      IndexIn (usableSlots W d) s.emptyIndex →
      (∀ j, j ∉ usableSlots W d → Keeps (d.tab j) (s.d.tab j)) → StbKeyed W s lines := by
    intro lines
    induction lines with
    | nil => exact fun _ _ _ => trivial
    | cons line lines ih =>
      intro s hlines hindex hkeeps
      obtain ⟨hline, hrest⟩ := List.forall_mem_cons.mp hlines
      refine ⟨fun hlease hge hle => ?_, ?_⟩
      · obtain ⟨hfits, hbeyond⟩ := hline ⟨_, hlease⟩ hge hle
        refine ⟨hfits, fun i hi hout hvalid => ?_⟩
        rw [husable] at hout
        rcases hkeeps i hout with ⟨hv, hm⟩ | ⟨hv, -⟩
        · rw [hm]
          exact hbeyond i hi hout (hv ▸ hvalid)
        · exact absurd hvalid (by simp [hv])
      · have hsub : ∀ i ∈ usableSlots W s.d, i ∈ usableSlots W d := fun i hi => husable s.d ▸ hi
        obtain ⟨hindex', htab⟩ := stbTurn_within hsub hindex line
        have hfields : (stbTurn W s line).port = line.port.getD s.port ∧
            (stbTurn W s line).mac = line.mac.getD s.mac := by
          unfold stbTurn
          dsimp only
          split <;> exact ⟨rfl, rfl⟩
        refine ih ?_ hindex' fun j hj => ?_
        · rw [hfields.1, hfields.2]
          exact hrest
        · rw [htab j hj]
          exact hkeeps j hj
  exact hloop lines h (.inl rfl) fun j _ =>
    foldl_keeps clearExist_touches clearExist_keeps j (slots W) d

theorem stbTurn_keyed {s : StbLoop} (hs : Keyed W s.d) {line : StbLine}
    (hline : LineKeyed W s line) : Keyed W (stbTurn W s line).d := by
  have hcheck := checkMacExist_keyed hs (line.mac.getD s.mac) s.emptyIndex
  unfold stbTurn
  dsimp only
  split
  · next hadd =>
    obtain ⟨hret, hlease, hge, hle, -⟩ := hadd
    rw [checkMacExist_now] at hlease
    obtain ⟨hfits, hbeyond⟩ := hline hlease hge hle
    obtain ⟨htab, hfree⟩ := checkMacExist_free hs hret hbeyond
    refine hcheck.tick.add hfits ?_ _ _ _
    intro j hj hne hvj
    rw [Daemon.tab_tick, htab] at hvj ⊢
    exact hfree j hj hne hvj
  · exact hcheck.congr rfl

theorem stbTurn_foldl_keyed : ∀ (lines : List StbLine) {s : StbLoop}, Keyed W s.d →
    StbKeyed W s lines → Keyed W (lines.foldl (stbTurn W) s).d
  | [], _, hs, _ => hs
  | _ :: lines, _, hs, hlines => stbTurn_foldl_keyed lines (stbTurn_keyed hs hlines.1) hlines.2

theorem checkLanHostUpdate_keyed (hd : Keyed W d) {stbList : Option (List StbLine)}
    (hev : EventKeyed W d (.check stbList)) : Keyed W (checkLanHostUpdate W d stbList) := by
  have hclear : Keyed W (stbStart W d).d :=
    Keyed.foldl clearExist_touches clearExist_keeps (slots W) hd
  cases stbList with
  | none => exact hclear
  | some lines =>
    exact Keyed.foldl (fun d i => checkEntry_touches W d i _) (fun d i => checkEntry_keeps W d i _)
      (slots W) (stbTurn_foldl_keyed lines hclear hev)

/-! ## The bridged devices -/

theorem findLanHostOBEntryByMac_none {isOBDev : Bool} {mac : Str}
    (h : findLanHostOBEntryByMac W d isOBDev mac = none) :
    ∀ i ∈ slots W, (d.tab i).otherBrDev = isOBDev → strcaseEq (d.tab i).mac mac = false := by
  unfold findLanHostOBEntryByMac at h
  intro i hi hdev
  have hnot := List.find?_eq_none.mp h i hi
  simpa [hdev] using hnot

theorem findLanHostOBEntryByMac_some {isOBDev : Bool} {mac : Str} {p : Nat}
    (h : findLanHostOBEntryByMac W d isOBDev mac = some p) :
    strcaseEq (d.tab p).mac mac = true := by
  unfold findLanHostOBEntryByMac at h
  have hfound := List.find?_some h
  exact (Bool.and_eq_true_iff.mp hfound).2

theorem digitChar_ne_colon : ∀ n < 16, Nat.digitChar n ≠ ':' := by
  decide

theorem hexByte_ne_colon (b : Fin 256) : ∀ c ∈ hexByte b, c ≠ ':' := by
  intro c hc
  rcases List.mem_pair.mp hc with rfl | rfl
  · exact digitChar_ne_colon _ (by omega)
  · exact digitChar_ne_colon _ (by omega)

theorem devmac_fits (dev : ObDevice) :
    MacFits dev.devmac ∧ macRmDot dev.devmac = dev.devmac := by
  have hlen : dev.devmac.length = 12 := by
    simp [ObDevice.devmac, hexByte]
  refine ⟨⟨fun h => ?_, Nat.le_of_eq hlen⟩, macRmDot_eq_self (by omega) ?_⟩
  · rw [h] at hlen
    exact absurd hlen (by decide)
  · intro c hc
    obtain ⟨b, -, hb⟩ := List.mem_flatMap.mp hc
    exact hexByte_ne_colon b c hb

theorem obTurn_keyed {s : ObLoop} (hs : Keyed W s.d) (dev : ObDevice) :
    Keyed W (obTurn W s dev).d := by
  obtain ⟨hfits, hdot⟩ := devmac_fits dev
  unfold obTurn
  dsimp only
  split
  · next p hp =>
    have hfound : strcaseEq (s.d.tab p).mac dev.devmac = true := by
      rcases Option.or_eq_some_iff.mp hp with hp | ⟨-, hp⟩
      · exact findLanHostOBEntryByMac_some hp
      · exact findLanHostOBEntryByMac_some hp
    split
    · exact hs
    · exact hs.step (obUpdate_touches W s.d p s.flags dev)
        (obUpdate_keeps W s.d p s.flags dev (hs.valid_of_found hfits.1 hfound))
  · next hnone =>
    rw [Option.or_eq_none_iff] at hnone
    split
    · exact hs.congr rfl
    · next p _ =>
      have hput : Keyed W (s.d.tick.put p { s.d.tab p with otherBrDev := true }) :=
        hs.tick.put (Keeps.of_eq rfl rfl)
      refine hput.add (hdot.symm ▸ hfits) ?_ _ _ _
      intro j hj hjp _
      rw [hdot, Daemon.tab_put_ne _ _ hjp]
      cases hdev : (s.d.tab j).otherBrDev with
      | true => exact findLanHostOBEntryByMac_none hnone.1 j hj hdev
      | false => exact findLanHostOBEntryByMac_none hnone.2 j hj hdev

theorem obTurn_foldl_keyed : ∀ (devices : List ObDevice) {s : ObLoop}, Keyed W s.d →
    Keyed W (devices.foldl (obTurn W) s).d
  | [], _, hs => hs
  | dev :: devices, _, hs => obTurn_foldl_keyed devices (obTurn_keyed hs dev)

theorem checkOBLanHostUpdate_keyed (hd : Keyed W d) (input : Option ObInput) :
    Keyed W (checkOBLanHostUpdate W d input) := by
  unfold checkOBLanHostUpdate
  split
  · exact hd.congr rfl
  cases input with
  | none => exact hd.congr rfl
  | some input =>
    have hs : Keyed W (obDevices W d input.devices).d :=
      obTurn_foldl_keyed input.devices (hd.congr rfl)
    dsimp only
    split
    · exact hs
    · exact Keyed.foldl (fun d i => lockLostTurn_touches W d i _)
        (fun d i => lockLostTurn_keeps W d i _) (slots W) hs

/-! ## Runs -/

theorem handle_keyed (hd : Keyed W d) {ev : HostEvent} (hev : EventKeyed W d ev) :
    Keyed W (d.handle W ev) := by
  cases ev with
  | wifiUpdate data => exact wifiUpdateHandler_keyed hd hev
  | dhcpUpdate type macaddr => exact dhcpUpdateHander_keyed hd hev
  | lanUp lanPort => exact hd.congr rfl
  | lanDown lanPort =>
    exact Keyed.foldl (fun d i => lanDownEntry_touches W d i lanPort)
      (fun d i => lanDownEntry_keeps W d i lanPort) (slots W) (hd.congr rfl)
  | arpAdd lladdr abuf ipv6 => exact arpAddHandler_keyed hd lladdr abuf ipv6
  | arpDel lladdr abuf => exact hd
  | bridgeDev macaddr ipaddr =>
    exact Keyed.foldl (fun d i => alinkBridgeEntry_touches W d i _ ipaddr)
      (fun d i => alinkBridgeEntry_keeps W d i _ ipaddr) (slots W) hd
  | ipv6Only mac ipv6addr => exact lanHostIpv6onlyUpdate_keyed hd hev ipv6addr
  | check stbList => exact checkLanHostUpdate_keyed hd hev
  | checkOB input => exact checkOBLanHostUpdate_keyed hd input

theorem handleAll_keyed : ∀ (evs : List HostEvent) {d : Daemon}, Keyed W d → RunKeyed W d evs →
    ∀ n, Keyed W (d.handleAll W (evs.take n))
  | [], _, hd, _, n => by simpa [Daemon.handleAll] using hd
  | ev :: evs, _, hd, hrun, n => by
    cases n with
    | zero => exact hd
    | succ n => exact handleAll_keyed evs (handle_keyed hd hrun.1) hrun.2 n

end

/-! ## The start -/

/-- What `init_lan_host_info` puts into the slots. -/
def FromConf (conf : Nat → Option LanHostEntry) (d : Daemon) : Prop :=
  ∀ i, ((d.tab i).valid = true ↔ (d.tab i).mac ≠ []) ∧
    ((d.tab i).valid = true → ∃ e, conf i = some e ∧ (d.tab i).mac = e.mac.take devMacAddrLen)

theorem initLanHostEntry_fromConf {W : World} {conf : Nat → Option LanHostEntry} {i : Nat}
    (hne : ∀ e, conf i = some e → e.mac ≠ []) {d : Daemon} (hd : FromConf conf d) :
    FromConf conf (initLanHostEntry W conf d i) := by
  unfold initLanHostEntry
  cases hconf : conf i with
  | none => exact hd
  | some e =>
    dsimp only
    intro j
    by_cases hji : j = i
    · subst hji
      have hmac : e.mac.take devMacAddrLen ≠ [] := by
        simpa [devMacAddrLen] using hne e hconf
      let read : LanHostEntry := { mac := e.mac.take devMacAddrLen, ip := e.ip.take ipAddrLen,
                                   connType := e.connType, port := e.port, valid := true }
      have hkeeps : Keeps ((d.put j read).tab j) ((setLanHostOffline W (d.put j read) j j).tab j) :=
        setLanHostOffline_keeps W _ j j
      rw [Daemon.tab_put_self] at hkeeps
      rcases hkeeps with ⟨hv, hm⟩ | ⟨hv, hm⟩
      · exact ⟨⟨fun _ => hm ▸ hmac, fun _ => hv⟩, fun _ => ⟨e, hconf, hm⟩⟩
      · exact ⟨⟨fun h => absurd (hv ▸ h) (by simp), fun h => absurd hm h⟩,
          fun h => absurd (hv ▸ h) (by simp)⟩
    · rw [(setLanHostOffline_touches W _ i i).frame j hji, Daemon.tab_put_ne _ _ hji]
      exact hd j

theorem initLanHostInfo_fromConf {W : World} {conf : Nat → Option LanHostEntry}
    (hconf : ConfKeyed W conf) : ∀ (is : List Nat), (∀ i ∈ is, i ∈ slots W) → ∀ {d : Daemon},
    FromConf conf d → FromConf conf (is.foldl (initLanHostEntry W conf) d)
  | [], _, _, hd => hd
  | i :: is, his, _, hd =>
    initLanHostInfo_fromConf hconf is (fun j hj => his j (List.mem_cons_of_mem i hj))
      (initLanHostEntry_fromConf (hconf.mac_ne i (his i List.mem_cons_self)) hd)

theorem initLanHostInfo_keyed {W : World} (status : Nat → Bool)
    {conf : Nat → Option LanHostEntry} (hconf : ConfKeyed W conf) :
    Keyed W (initLanHostInfo W status conf) := by
  have hfrom : FromConf conf (initLanHostInfo W status conf) :=
    initLanHostInfo_fromConf hconf (slots W) (fun _ hi => hi) fun i => by simp
  refine ⟨fun i => (hfrom i).1, fun i hi j hj hne hvi hvj => ?_⟩
  obtain ⟨e, he, hmac⟩ := (hfrom i).2 hvi
  obtain ⟨e', he', hmac'⟩ := (hfrom j).2 hvj
  rw [hmac, hmac']
  exact hconf.unique i hi j hj hne e e' he he'

/-- **In a run whose events all meet the condition the keys are distinct in every state.** -/
theorem keyInv_run (W : World) (status : Nat → Bool) (conf : Nat → Option LanHostEntry)
    (hconf : ConfKeyed W conf) (evs : List HostEvent)
    (hrun : RunKeyed W (initLanHostInfo W status conf) evs) (n : Nat) :
    KeyInv W ((initLanHostInfo W status conf).handleAll W (evs.take n)) :=
  (handleAll_keyed evs (initLanHostInfo_keyed status hconf) hrun n).keyInv

/-- A Wi-Fi station appears, gets its address, and is read in `stb_list`. -/
def stationRun : List HostEvent :=
  [.wifiUpdate "add;0;0;AA:BB:CC:DD:EE:FF".toList,
    .dhcpUpdate "a".toList "AA:BB:CC:DD:EE:FF".toList,
    .check (some [{ port := some 1, mac := some "AA:BB:CC:DD:EE:FF".toList }])]

theorem keyInv_sample :
    KeyInv twoHosts (twoHostsStart.handleAll twoHosts (stationRun.take 3)) := by
  have hlines : ∀ d, TableKeyed twoHosts d
      [{ port := some 1, mac := some "AA:BB:CC:DD:EE:FF".toList }] := by
    rintro d f - ⟨t, hlease⟩
    exact absurd hlease (by simp [twoHosts])
  exact keyInv_run twoHosts (fun _ => true) (fun _ => none) ⟨by simp, by simp⟩ stationRun
    ⟨fun _ => by decide, fun _ => by decide, stbKeyed_of_table (fun _ _ => rfl) (hlines _),
      trivial⟩ 3

/-- Two events of a station that reports its MAC with dashes. -/
def dashedRun : List HostEvent :=
  [.wifiUpdate "add;0;0;AA-BB-CC-DD-EE-FF".toList, .wifiUpdate "add;0;0;AA-BB-CC-DD-EE-FF".toList]

/-- Both entries are valid and hold the first twelve characters. -/
theorem not_keyInv : ¬ KeyInv twoHosts (twoHostsStart.handleAll twoHosts dashedRun) := by
  intro h
  have hsame := h.unique 0 (by decide) 1 (by decide) (by decide) (by decide +kernel)
    (by decide +kernel)
  exact absurd hsame (by decide +kernel)

end OnuFirmware.LanHost
