import OnuFirmware.LanHost.Effects

/-!
# What the operations do to the key of an entry

The key of an entry is its MAC and whether it is valid. Only `add_lan_host` gives an entry a new
key; every other operation keeps the key or clears the entry (`Keeps`). `set_lan_host_online` makes
an entry valid that has an address, so it keeps the key only of an entry that is `Ready`.
-/

namespace OnuFirmware.LanHost

open Clib

/-! ## Keys -/

/-- The key stays, or the entry is cleared. -/
def Keeps (e e' : LanHostEntry) : Prop :=
  (e'.valid = e.valid ∧ e'.mac = e.mac) ∨ (e'.valid = false ∧ e'.mac = [])

/-- The entry is valid or has no address. -/
def Ready (e : LanHostEntry) : Prop := e.valid = true ∨ (e.ipFlag = false ∧ e.ipv6Flag = false)

namespace Keeps

variable {e e' e'' : LanHostEntry}

/-- The other fields may change. -/
theorem of_eq (hvalid : e'.valid = e.valid) (hmac : e'.mac = e.mac) : Keeps e e' :=
  .inl ⟨hvalid, hmac⟩

theorem refl (e : LanHostEntry) : Keeps e e := of_eq rfl rfl

/-- The node is gone. -/
theorem cleared (e : LanHostEntry) : Keeps e {} := .inr ⟨rfl, rfl⟩

/-- A cleared entry stays cleared. -/
theorem trans (h : Keeps e e') (h' : Keeps e' e'') : Keeps e e'' := by
  rcases h' with ⟨hvalid', hmac'⟩ | hclear
  · rcases h with ⟨hvalid, hmac⟩ | ⟨hvalid, hmac⟩
    · exact .inl ⟨hvalid'.trans hvalid, hmac'.trans hmac⟩
    · exact .inr ⟨hvalid'.trans hvalid, hmac'.trans hmac⟩
  · exact .inr hclear

end Keeps

/-- A cleared entry has no address. -/
theorem ready_cleared : Ready {} := .inr ⟨rfl, rfl⟩

/-- `check_ipv6_device_inform` changes only the countdown. -/
theorem checkIpv6DeviceInform_snd (e : LanHostEntry) : ∃ flag cnt,
    (checkIpv6DeviceInform e).2 = { e with ipv6IdleFlag := flag, ipv6IdleCnt := cnt } := by
  unfold checkIpv6DeviceInform
  split
  · exact ⟨_, _, rfl⟩
  split
  · split
    · exact ⟨e.ipv6IdleFlag, e.ipv6IdleCnt, rfl⟩
    · exact ⟨e.ipv6IdleFlag, e.ipv6IdleCnt, rfl⟩
  · exact ⟨e.ipv6IdleFlag, e.ipv6IdleCnt, rfl⟩

@[simp] theorem checkIpv6DeviceInform_valid (e : LanHostEntry) :
    (checkIpv6DeviceInform e).2.valid = e.valid := by
  obtain ⟨flag, cnt, h⟩ := checkIpv6DeviceInform_snd e
  rw [h]

@[simp] theorem checkIpv6DeviceInform_mac (e : LanHostEntry) :
    (checkIpv6DeviceInform e).2.mac = e.mac := by
  obtain ⟨flag, cnt, h⟩ := checkIpv6DeviceInform_snd e
  rw [h]

/-- The countdown is no address. -/
theorem Ready.inform {e : LanHostEntry} (h : Ready e) : Ready (checkIpv6DeviceInform e).2 := by
  obtain ⟨flag, cnt, heq⟩ := checkIpv6DeviceInform_snd e
  rw [heq]
  exact h

/-- Without an address there is nothing to inform about. -/
theorem Ready.valid_of_inform {e : LanHostEntry} (h : Ready e)
    (hinform : (checkIpv6DeviceInform e).1 = true) : e.valid = true := by
  rcases h with hvalid | ⟨hip, hipv6⟩
  · exact hvalid
  · simp [checkIpv6DeviceInform, hip, hipv6] at hinform

/-! ## The operations -/

section

variable (W : World) (d : Daemon) (p : Nat) (node : Int)

/-- What `sync_lan_host_info` can leave in the entry. -/
theorem syncLanHostInfo_tab_cases (flags : List SyncFlag) :
    (syncLanHostInfo W d node p flags).tab p = d.tab p ∨
    (syncLanHostInfo W d node p flags).tab p = {} ∨
    ∃ mode, (syncLanHostInfo W d node p flags).tab p =
      { (checkIpv6DeviceInform (d.tab p)).2 with ipmode := mode } := by
  unfold syncLanHostInfo
  split
  · exact .inl rfl
  split
  · exact .inl rfl
  split
  · exact .inr (.inl (Daemon.tab_put_self ..))
  · refine .inr (.inr ?_)
    dsimp only
    split
    · exact ⟨_, Daemon.tab_put_self ..⟩
    · exact ⟨(checkIpv6DeviceInform (d.tab p)).2.ipmode, Daemon.tab_put_self ..⟩

/-- So it keeps the key, or clears the entry. -/
theorem syncLanHostInfo_keeps (flags : List SyncFlag) :
    Keeps (d.tab p) ((syncLanHostInfo W d node p flags).tab p) := by
  rcases syncLanHostInfo_tab_cases W d p node flags with h | h | ⟨mode, h⟩
  · rw [h]
    exact Keeps.refl _
  · rw [h]
    exact Keeps.cleared _
  · rw [h]
    exact Keeps.of_eq (checkIpv6DeviceInform_valid _) (checkIpv6DeviceInform_mac _)

/-- And an entry that was ready stays so. -/
theorem syncLanHostInfo_ready (flags : List SyncFlag) (hd : Ready (d.tab p)) :
    Ready ((syncLanHostInfo W d node p flags).tab p) := by
  rcases syncLanHostInfo_tab_cases W d p node flags with h | h | ⟨mode, h⟩
  · rw [h]
    exact hd
  · rw [h]
    exact ready_cleared
  · rw [h]
    exact hd.inform

/-- The key is that of the entry that was written before. -/
theorem sync_put_keeps (e : LanHostEntry) (flags : List SyncFlag) :
    Keeps e ((syncLanHostInfo W (d.put p e) node p flags).tab p) := by
  have h := syncLanHostInfo_keeps W (d.put p e) p node flags
  rwa [Daemon.tab_put_self] at h

theorem sync_put_ready {e : LanHostEntry} (flags : List SyncFlag) (he : Ready e) :
    Ready ((syncLanHostInfo W (d.put p e) node p flags).tab p) := by
  refine syncLanHostInfo_ready W _ p node flags ?_
  rwa [Daemon.tab_put_self]

/-- A lease changes the address and the name. -/
theorem setIpFromDhcp_keeps : Keeps (d.tab p) ((setIpFromDhcp W d p node).2.tab p) := by
  unfold setIpFromDhcp
  dsimp only
  split
  · exact Keeps.refl _
  split
  · exact (Keeps.of_eq rfl rfl).trans (sync_put_keeps W _ p node _ _)
  · exact Keeps.refl _

/-- A valid entry is ready whatever address it gets, unless it is cleared. -/
theorem setIpFromDhcp_ready (hvalid : (d.tab p).valid = true) :
    Ready ((setIpFromDhcp W d p node).2.tab p) := by
  unfold setIpFromDhcp
  dsimp only
  split
  · exact .inl hvalid
  split
  · exact sync_put_ready W _ p node _ (.inl hvalid)
  · exact .inl hvalid

/-- The ARP table changes the address. -/
theorem setIpFromArp_keeps : Keeps (d.tab p) ((setIpFromArp W d p node).2.tab p) := by
  unfold setIpFromArp
  dsimp only
  split
  · exact Keeps.refl _
  split
  · exact Keeps.refl _
  · exact (Keeps.of_eq rfl rfl).trans (sync_put_keeps W _ p node _ _)

theorem setIpFromArp_ready (hvalid : (d.tab p).valid = true) :
    Ready ((setIpFromArp W d p node).2.tab p) := by
  unfold setIpFromArp
  dsimp only
  split
  · exact .inl hvalid
  split
  · exact .inl hvalid
  · exact sync_put_ready W _ p node _ (.inl hvalid)

/-- Without a lease `set_ip_from_dhcp` leaves the table alone. -/
theorem setIpFromDhcp_tab_of_false (h : (setIpFromDhcp W d p node).1 = false) :
    (setIpFromDhcp W d p node).2.tab = d.tab := by
  unfold setIpFromDhcp at h ⊢
  dsimp only at h ⊢
  cases hlease : W.lease d.now (d.tab p).mac with
  | none => rfl
  | some ip =>
    rw [hlease] at h
    dsimp only at h
    split at h
    · exact absurd h (by simp)
    · exact absurd h (by simp)

/-- Both look-ups one after the other. -/
theorem setLanHostEntry_keeps : Keeps (d.tab p) ((setLanHostEntry W d p node).2.tab p) := by
  unfold setLanHostEntry
  dsimp only
  split
  · exact setIpFromDhcp_keeps W d p node
  · exact (setIpFromDhcp_keeps W d p node).trans (setIpFromArp_keeps W _ p node)

/-- The second look-up only follows if the first one left the entry alone. -/
theorem setLanHostEntry_ready (hvalid : (d.tab p).valid = true) :
    Ready ((setLanHostEntry W d p node).2.tab p) := by
  unfold setLanHostEntry
  dsimp only
  split
  · exact setIpFromDhcp_ready W d p node hvalid
  · next hdhcp =>
    refine setIpFromArp_ready W _ p node ?_
    rwa [setIpFromDhcp_tab_of_false W d p node (by simpa using hdhcp)]

/-- Only the name changes. -/
theorem setHostnameFromDhcp_keeps : Keeps (d.tab p) ((setHostnameFromDhcp W d p node).tab p) := by
  unfold setHostnameFromDhcp
  dsimp only
  split
  · exact (Keeps.of_eq rfl rfl).trans (sync_put_keeps W _ p node _ _)
  · exact Keeps.refl _

/-- The entry becomes active; it is cleared if its node is gone. -/
theorem onlineSettle_keeps : Keeps (d.tab p) ((onlineSettle W d p node).tab p) := by
  have hput : Keeps (d.tab p)
      ((d.put p { d.tab p with active := true, exist := 1 }).tick.tab p) := by
    rw [Daemon.tab_tick, Daemon.tab_put_self]
    exact Keeps.of_eq rfl rfl
  unfold onlineSettle
  dsimp only
  split
  · exact hput
  · exact hput.trans (syncLanHostInfo_keeps W _ p node _)

theorem onlineSettle_ready (hd : Ready (d.tab p)) : Ready ((onlineSettle W d p node).tab p) := by
  have hput : Ready ((d.put p { d.tab p with active := true, exist := 1 }).tick.tab p) := by
    rw [Daemon.tab_tick, Daemon.tab_put_self]
    exact hd
  unfold onlineSettle
  dsimp only
  split
  · exact hput
  · exact syncLanHostInfo_ready W _ p node _ hput

/-- The two ways through `set_lan_host_online` that change the entry start from a valid one. -/
theorem setLanHostOnline_cases (ipFlag : Bool) (hd : Ready (d.tab p)) :
    setLanHostOnline W d p node ipFlag = d ∨
    ∃ e, e.valid = true ∧ Keeps (d.tab p) e ∧
      (setLanHostOnline W d p node ipFlag =
          onlineSettle W (setLanHostEntry W (d.put p e) p node).2 p node ∨
        setLanHostOnline W d p node ipFlag = onlineSettle W (d.put p e) p node) := by
  unfold setLanHostOnline
  dsimp only
  split
  · exact .inl rfl
  split
  · exact .inl rfl
  · next hinform =>
    have hvalid := hd.valid_of_inform (by simpa using hinform)
    split
    · refine .inr ⟨_, ?_, ?_, .inl rfl⟩
      · rfl
      · exact Keeps.of_eq hvalid.symm (checkIpv6DeviceInform_mac _)
    · refine .inr ⟨_, ?_, ?_, .inr rfl⟩
      · rfl
      · exact Keeps.of_eq hvalid.symm (checkIpv6DeviceInform_mac _)

/-- A ready entry that goes online keeps its key. -/
theorem setLanHostOnline_keeps (ipFlag : Bool) (hd : Ready (d.tab p)) :
    Keeps (d.tab p) ((setLanHostOnline W d p node ipFlag).tab p) := by
  rcases setLanHostOnline_cases W d p node ipFlag hd with h | ⟨e, -, he, h⟩
  · rw [h]
    exact Keeps.refl _
  have hput : Keeps (d.tab p) ((d.put p e).tab p) := by
    rwa [Daemon.tab_put_self]
  rcases h with h | h
  · rw [h]
    exact (hput.trans (setLanHostEntry_keeps W _ p node)).trans (onlineSettle_keeps W _ p node)
  · rw [h]
    exact hput.trans (onlineSettle_keeps W _ p node)

/-- And it stays ready, since it is valid now. -/
theorem setLanHostOnline_ready (ipFlag : Bool) (hd : Ready (d.tab p)) :
    Ready ((setLanHostOnline W d p node ipFlag).tab p) := by
  rcases setLanHostOnline_cases W d p node ipFlag hd with h | ⟨e, he, -, h⟩
  · rw [h]
    exact hd
  have hput : ((d.put p e).tab p).valid = true := by
    rwa [Daemon.tab_put_self]
  rcases h with h | h
  · rw [h]
    exact onlineSettle_ready W _ p node (setLanHostEntry_ready W _ p node hput)
  · rw [h]
    exact onlineSettle_ready W _ p node (.inl hput)

/-- Going offline clears the addresses and the name, not the key. -/
theorem setLanHostOffline_keeps : Keeps (d.tab p) ((setLanHostOffline W d p node).tab p) :=
  (Keeps.of_eq rfl rfl).trans (sync_put_keeps W _ p node _ _)

/-- Deleting an entry clears it. -/
theorem delLanHost_keeps : Keeps (d.tab p) ((delLanHost W d p node).tab p) :=
  (Keeps.cleared _).trans (sync_put_keeps W d p node _ _)

/-! ## A new key -/

/-- The claimed entry is valid. -/
theorem claimEntry_valid (e : LanHostEntry) (newMac : Str) (connType : Nat) (port : Int)
    (bound ipOk : Bool) : (claimEntry e newMac connType port bound ipOk).valid = true := by
  unfold claimEntry
  dsimp only
  split <;> split <;> (try split) <;> simp

/-- Its MAC is the new one, as far as it fits. -/
theorem claimEntry_mac (e : LanHostEntry) (newMac : Str) (connType : Nat) (port : Int)
    (bound ipOk : Bool) :
    (claimEntry e newMac connType port bound ipOk).mac = newMac.take devMacAddrLen := by
  unfold claimEntry
  dsimp only
  split <;> rfl

/-- The state of the new entry depends on its addresses, the key does not. -/
theorem addedState_keeps (ipOk : Bool) (e : LanHostEntry) : Keeps e (addedState ipOk e).2 := by
  unfold addedState
  dsimp only
  split <;> split <;> (try split) <;> exact Keeps.of_eq (by simp) (by simp)

theorem addSettle_keeps (flags : List SyncFlag) :
    Keeps (d.tab p) ((addSettle W d p node flags).tab p) :=
  ((setLanHostEntry_keeps W d p node).trans (addedState_keeps _ _)).trans
    (sync_put_keeps W _ p node _ _)

/-- `add_lan_host` gives the entry the MAC, or leaves its key, or clears it. -/
theorem addLanHost_key (mac : Str) (connType : Nat) (port : Int) :
    Keeps (d.tab p) ((addLanHost W d p mac node connType port).tab p) ∨
    (((addLanHost W d p mac node connType port).tab p).valid = true ∧
      ((addLanHost W d p mac node connType port).tab p).mac =
        (macRmDot mac).take devMacAddrLen) := by
  unfold addLanHost
  dsimp only
  split
  · exact .inl (setLanHostEntry_keeps W d p node)
  split
  · right
    rw [Daemon.tab_tick, Daemon.tab_put_self]
    exact ⟨claimEntry_valid .., claimEntry_mac ..⟩
  · -- The second look-up may find the node gone and clear what was claimed.
    rcases addSettle_keeps W (Daemon.tick (Daemon.put _ p _)) p node _ with ⟨hvalid, hmac⟩ | hclear
    · right
      refine ⟨hvalid.trans ?_, hmac.trans ?_⟩
      · rw [Daemon.tab_tick, Daemon.tab_put_self]
        exact claimEntry_valid ..
      · rw [Daemon.tab_tick, Daemon.tab_put_self]
        exact claimEntry_mac ..
    · exact .inl (.inr hclear)

end

/-! ## The handlers -/

section

variable (W : World) (d : Daemon) (p : Nat)

variable {d} {p} in
/-- Writing an entry with the same key. -/
theorem put_keeps {e : LanHostEntry} (h : Keeps (d.tab p) e) :
    Keeps (d.tab p) ((d.put p e).tab p) := by
  rwa [Daemon.tab_put_self]

/-- A station without an address is put back to being on its way. -/
theorem wifiSettle_keeps : Keeps (d.tab p) ((wifiSettle d p).tab p) := by
  unfold wifiSettle
  dsimp only
  split
  · exact put_keeps (Keeps.of_eq rfl rfl)
  · exact Keeps.refl _

/-- Only the port changes. -/
theorem updatePort_keeps (port : Int) : Keeps (d.tab p) ((updatePort W d p port).tab p) := by
  unfold updatePort
  dsimp only
  split
  · exact (Keeps.of_eq rfl rfl).trans (sync_put_keeps W d p p _ _)
  · exact Keeps.refl _

theorem updatePort_ready (port : Int) (hd : Ready (d.tab p)) :
    Ready ((updatePort W d p port).tab p) := by
  unfold updatePort
  dsimp only
  split
  · exact sync_put_ready W d p p _ hd
  · exact hd

/-- The address of the reply is stored. -/
theorem arpTakeIp_keeps (abuf : Str) (lanPort : Int) :
    Keeps (d.tab p) ((arpTakeIp W d p abuf lanPort).tab p) := by
  unfold arpTakeIp
  dsimp only
  split
  · exact Keeps.refl _
  · exact (Keeps.of_eq rfl rfl).trans (sync_put_keeps W _ p p _ _)

theorem arpTakeIp_ready (abuf : Str) (lanPort : Int) (hvalid : (d.tab p).valid = true) :
    Ready ((arpTakeIp W d p abuf lanPort).tab p) := by
  unfold arpTakeIp
  dsimp only
  split
  · exact .inl hvalid
  · exact sync_put_ready W _ p p _ (.inl hvalid)

/-- The entry goes online if it is at a LAN port or a station on its way. -/
theorem arpOnline_keeps (hd : Ready (d.tab p)) : Keeps (d.tab p) ((arpOnline W d p).tab p) := by
  unfold arpOnline
  split
  · exact setLanHostOnline_keeps W d p p false hd
  · exact Keeps.refl _

/-- The entry was found by its MAC, so it is valid and may go online. -/
theorem arpAddIpv4_keeps (abuf : Str) (hvalid : (d.tab p).valid = true) :
    Keeps (d.tab p) ((arpAddIpv4 W d p abuf).tab p) := by
  have hput : ∀ flag, Keeps (d.tab p)
      ((d.tick.put p { d.tab p with ipFlag := flag }).tab p) := by
    intro flag
    rw [Daemon.tab_put_self]
    exact Keeps.of_eq rfl rfl
  have hput_valid : ∀ flag,
      ((d.tick.put p { d.tab p with ipFlag := flag }).tab p).valid = true := by
    intro flag
    rw [Daemon.tab_put_self]
    exact hvalid
  unfold arpAddIpv4
  dsimp only
  split
  · split
    · exact ((hput _).trans (arpTakeIp_keeps W _ p abuf _)).trans
        (arpOnline_keeps W _ p (arpTakeIp_ready W _ p abuf _ (hput_valid _)))
    · exact hput _
  split
  · exact hput _
  · exact (Keeps.of_eq rfl rfl).trans (sync_put_keeps W _ p p _ _)

/-- The marks are flags and the mode. -/
theorem markIpv6Only_keeps : Keeps (d.tab p) ((markIpv6Only d p).tab p) := by
  unfold markIpv6Only
  dsimp only
  split
  · exact put_keeps (Keeps.of_eq rfl rfl)
  · exact put_keeps (Keeps.of_eq rfl rfl)

theorem markIpv6Only_valid (hvalid : (d.tab p).valid = true) :
    ((markIpv6Only d p).tab p).valid = true := by
  unfold markIpv6Only
  dsimp only
  split
  · rw [Daemon.tab_put_self]
    exact hvalid
  · exact (congrArg LanHostEntry.valid (Daemon.tab_put_self d p _)).trans hvalid

/-- A cleared entry gets its countdown with the mark, so it does not go online at once. -/
theorem markIpv6Only_online_keeps (h : (d.tab p).valid = true ∨ d.tab p = {}) :
    Keeps (d.tab p) ((setLanHostOnline W (markIpv6Only d p) p p false).tab p) := by
  refine (markIpv6Only_keeps d p).trans ?_
  rcases h with hvalid | hclear
  · exact setLanHostOnline_keeps W _ p p false (.inl (markIpv6Only_valid d p hvalid))
  · have hmark : (markIpv6Only d p).tab p =
        { ipv6Flag := true, ipmode := .ipv6Only, ipv6IdleFlag := true, ipv6IdleCnt := 2 } := by
      simp [markIpv6Only, hclear, Daemon.put]
    have hstay : setLanHostOnline W (markIpv6Only d p) p p false = markIpv6Only d p := by
      unfold setLanHostOnline
      rw [hmark]
      rfl
    rw [hstay]
    exact Keeps.refl _

theorem sync_valid_or_cleared (flags : List SyncFlag) (hvalid : (d.tab p).valid = true) :
    ((syncLanHostInfo W d p p flags).tab p).valid = true ∨
      (syncLanHostInfo W d p p flags).tab p = {} := by
  rcases syncLanHostInfo_tab_cases W d p p flags with h | h | ⟨mode, h⟩
  · left
    rw [h]
    exact hvalid
  · exact .inr h
  · left
    rw [h]
    exact (checkIpv6DeviceInform_valid _).trans hvalid

theorem ipv6onlyFound_keeps (ipv6addr : Str) (hvalid : (d.tab p).valid = true) :
    Keeps (d.tab p) ((ipv6onlyFound W d p ipv6addr).tab p) := by
  have hstart : ∀ d' : Daemon, Keeps (d.tab p) (d'.tab p) →
      (d'.tab p).valid = true ∨ d'.tab p = {} →
      Keeps (d.tab p) ((if (d'.tab p).active then d'
        else setLanHostOnline W (markIpv6Only d' p) p p false).tab p) := by
    intro d' hkeeps h
    split
    · exact hkeeps
    · exact hkeeps.trans (markIpv6Only_online_keeps W d' p h)
  unfold ipv6onlyFound
  dsimp only
  by_cases heq : (d.tab p).ipv6 = ipv6addr
  · rw [if_pos heq]
    exact hstart d (Keeps.refl _) (.inl hvalid)
  · rw [if_neg heq]
    exact hstart _ ((markIpv6Only_keeps d p).trans (syncLanHostInfo_keeps W _ p p _))
      (sync_valid_or_cleared W _ p _ (markIpv6Only_valid d p hvalid))

theorem lanDownEntry_keeps (lanPort : Nat) :
    Keeps (d.tab p) ((lanDownEntry W lanPort d p).tab p) := by
  unfold lanDownEntry
  dsimp only
  split
  · refine Keeps.trans ?_ (setLanHostOffline_keeps W _ p p)
    exact put_keeps (Keeps.of_eq rfl rfl)
  · exact Keeps.refl _

theorem alinkBridgeEntry_keeps (mac ipaddr : Str) :
    Keeps (d.tab p) ((alinkBridgeEntry W mac ipaddr d p).tab p) := by
  unfold alinkBridgeEntry
  dsimp only
  split
  · next hfound =>
    rw [Bool.and_eq_true] at hfound
    split
    · refine Keeps.trans ?_ (setLanHostOnline_keeps W _ p p false ?_)
      · exact (Keeps.of_eq rfl rfl).trans (sync_put_keeps W _ p p _ _)
      · exact sync_put_ready W _ p p _ (.inl hfound.2)
    · exact Keeps.refl _
  · exact Keeps.refl _

/-! ### The checking thread -/

theorem clearExist_keeps : Keeps (d.tab p) ((clearExist d p).tab p) :=
  put_keeps (Keeps.of_eq rfl rfl)

theorem recheckLan_keeps (port : Int) (hvalid : (d.tab p).valid = true) :
    Keeps (d.tab p) ((recheckLan W port d p).tab p) := by
  have hkeeps : Keeps (d.tab p) ((setLanHostEntry W d.tick p p).2.tab p) :=
    setLanHostEntry_keeps W d.tick p p
  have hready : Ready ((setLanHostEntry W d.tick p p).2.tab p) :=
    setLanHostEntry_ready W d.tick p p hvalid
  -- The entry after `check_ipv6_device_inform`, which is skipped if an address was found.
  have hentry : ∀ (b : Bool) (e : LanHostEntry), Keeps (d.tab p) e → Ready e →
      Keeps (d.tab p) ((if b = true then (true, e) else checkIpv6DeviceInform e).2) ∧
      Ready ((if b = true then (true, e) else checkIpv6DeviceInform e).2) := by
    intro b e he hr
    split
    · exact ⟨he, hr⟩
    · exact ⟨he.trans (Keeps.of_eq (checkIpv6DeviceInform_valid _) (checkIpv6DeviceInform_mac _)),
        hr.inform⟩
  obtain ⟨hinform, hinform_ready⟩ := hentry ((setLanHostEntry W d.tick p p).1 ||
    ((setLanHostEntry W d.tick p p).2.tab p).portBind) _ hkeeps hready
  unfold recheckLan
  dsimp only
  split
  · revert hinform hinform_ready
    generalize (if (_ || _) = true then (true, _) else _ : Bool × LanHostEntry) = inform
    intro hinform hinform_ready
    split
    · have hput : Keeps (d.tab p) (((setLanHostEntry W d.tick p p).2.put p inform.2).tab p) := by
        rwa [Daemon.tab_put_self]
      have hput_ready : Ready (((setLanHostEntry W d.tick p p).2.put p inform.2).tab p) := by
        rwa [Daemon.tab_put_self]
      split
      · refine Keeps.trans ?_ (setLanHostOnline_keeps W _ p p true ?_)
        · exact hinform.trans ((Keeps.of_eq rfl rfl).trans (sync_put_keeps W _ p p _ _))
        · exact sync_put_ready W _ p p _ hinform_ready
      · exact hput.trans (setLanHostOnline_keeps W _ p p true hput_ready)
    · exact hkeeps
  · exact Keeps.refl _

/-- The station must be valid to be looked at. -/
theorem recheckWifi_keeps : Keeps (d.tab p) ((recheckWifi W d p).tab p) := by
  unfold recheckWifi
  dsimp only
  split
  · next hcond =>
    simp only [Bool.and_eq_true] at hcond
    exact (syncLanHostInfo_keeps W d.tick p p _).trans (setLanHostOnline_keeps W _ p p false
      (syncLanHostInfo_ready W d.tick p p _ (.inl hcond.1.1.1)))
  · exact Keeps.refl _

/-- Whether it is a host at a LAN port or a station. -/
theorem recheckEntry_keeps (port : Int) : Keeps (d.tab p) ((recheckEntry W port d p).tab p) := by
  have hput : Keeps (d.tab p) ((d.put p (checkIpv6DeviceInform (d.tab p)).2).tab p) :=
    put_keeps (Keeps.of_eq (checkIpv6DeviceInform_valid _) (checkIpv6DeviceInform_mac _))
  unfold recheckEntry
  dsimp only
  split
  · exact Keeps.refl _
  split
  · next hcond =>
    simp only [Bool.and_eq_true] at hcond
    refine hput.trans (recheckLan_keeps W _ p port ?_)
    rw [Daemon.tab_put_self]
    exact hcond.1
  · exact hput.trans (recheckWifi_keeps W _ p)

theorem countEntry_keeps (port : Int) : Keeps (d.tab p) ((countEntry W port d p).tab p) := by
  unfold countEntry
  split
  · exact syncLanHostInfo_keeps W d p p _
  split
  · exact recheckEntry_keeps W d p port
  · exact Keeps.refl _

theorem dropLost_keeps : Keeps (d.tab p) ((dropLost W d p).tab p) := by
  unfold dropLost
  dsimp only
  split
  · exact setLanHostOffline_keeps W d.tick p p
  · exact Keeps.refl _

/-- The entry is cleared here, if it is old enough. -/
theorem dropOld_keeps : Keeps (d.tab p) ((dropOld W d p).tab p) := by
  unfold dropOld
  dsimp only
  split
  · exact delLanHost_keeps W d.tick p p
  · exact Keeps.refl _

theorem ageBridged_keeps : Keeps (d.tab p) ((ageBridged W d p).tab p) := by
  unfold ageBridged
  dsimp only
  split
  · exact setLanHostOffline_keeps W d.tick p p
  · exact Keeps.refl _

theorem nameEntry_keeps (online : Bool) : Keeps (d.tab p) ((nameEntry W online d p).tab p) := by
  unfold nameEntry
  dsimp only
  split
  · refine (setHostnameFromDhcp_keeps W d p p).trans ?_
    exact put_keeps (Keeps.of_eq rfl rfl)
  · exact Keeps.refl _

theorem idleEntry_keeps : Keeps (d.tab p) ((idleEntry d p).tab p) := by
  unfold idleEntry
  dsimp only
  split
  · exact put_keeps (Keeps.of_eq rfl rfl)
  · exact Keeps.refl _

/-- One turn of the main loop of the periodic check, from its steps. -/
theorem checkEntry_keeps (port : Int) : Keeps (d.tab p) ((checkEntry W port d p).tab p) := by
  have hdrop : Keeps (d.tab p) ((dropOld W (dropLost W (countEntry W port d p) p) p).tab p) :=
    ((countEntry_keeps W d p port).trans (dropLost_keeps W _ p)).trans (dropOld_keeps W _ p)
  exact ((hdrop.trans (ageBridged_keeps W _ p)).trans (nameEntry_keeps W _ p _)).trans
    (idleEntry_keeps _ p)

/-- The entry of a device that is seen at another bridge. -/
theorem obOnline_keeps (hvalid : (d.tab p).valid = true) :
    Keeps (d.tab p) ((obOnline W d p).tab p) := by
  have hput : Keeps (d.tab p) ((d.put p { d.tab p with otherBrDev := true }).tab p) :=
    put_keeps (Keeps.of_eq rfl rfl)
  unfold obOnline
  dsimp only
  split
  · exact hput
  · have hput_valid : ((d.put p { d.tab p with otherBrDev := true }).tab p).valid = true := by
      rw [Daemon.tab_put_self]
      exact hvalid
    refine (hput.trans (setLanHostOnline_keeps W _ p p false (.inl hput_valid))).trans ?_
    exact put_keeps (Keeps.of_eq rfl rfl)

theorem obPort_keeps (e : LanHostEntry) (dev : ObDevice) : Keeps e (obPort e dev).1 := by
  unfold obPort
  split
  · exact Keeps.refl _
  split
  · exact Keeps.of_eq rfl rfl
  · exact Keeps.of_eq rfl rfl

/-- Its address, from the report or from the look-ups. -/
theorem obAddress_keeps (e : LanHostEntry) (dev : ObDevice) : Keeps e (obAddress e dev).1 := by
  unfold obAddress
  split
  · split
    · exact Keeps.refl _
    · exact Keeps.of_eq rfl rfl
  · dsimp only
    split
    · split
      · exact Keeps.of_eq rfl rfl
      · exact Keeps.of_eq rfl rfl
    split
    · exact Keeps.of_eq rfl rfl
    · exact Keeps.of_eq rfl rfl
  · exact Keeps.refl _

/-- The whole update of such an entry. -/
theorem obUpdate_keeps (flags : List SyncFlag) (dev : ObDevice)
    (hvalid : (d.tab p).valid = true) :
    Keeps (d.tab p) ((obUpdate W d flags p dev).1.tab p) := by
  unfold obUpdate
  dsimp only
  refine Keeps.trans ?_ (sync_put_keeps W _ p p _ _)
  refine (((obOnline_keeps W d p hvalid).trans (obPort_keeps _ dev)).trans
    (obAddress_keeps _ dev)).trans ?_
  exact Keeps.of_eq rfl rfl

/-- The key stays, even where the wrong node is written. -/
theorem lockLostTurn_keeps (lanHostEntry : Int) :
    Keeps (d.tab p) ((lockLostTurn W lanHostEntry d p).tab p) := by
  unfold lockLostTurn
  dsimp only
  split
  · exact Keeps.refl _
  split
  · refine Keeps.trans ?_ (setLanHostOffline_keeps W _ p lanHostEntry)
    exact put_keeps (Keeps.of_eq rfl rfl)
  · exact put_keeps (Keeps.of_eq rfl rfl)

end

end OnuFirmware.LanHost
