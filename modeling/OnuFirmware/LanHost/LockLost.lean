import OnuFirmware.LanHost.Keys
import Mathlib.Data.Finset.Card
import Mathlib.Data.Finset.Range

/-!
# The locked entries in a pass over the bridged devices

An entry of a bridged device keeps a counter `lock_lost` after its link went down. A pass of
`check_OB_lan_host_update` leaves the locked entries alone while it looks the devices up; its last
loop takes those offline that are online devices of another bridge. A pass that has to recycle a
locked entry for a new device brings it into that loop. `LockLostSafe` says of the table before the
pass and of the reported devices when this does not happen, or only to the entry of the last
device.
-/

namespace OnuFirmware.LanHost

open Clib

/-! ## The condition -/

/-- The slot is free. -/
def LanHostEntry.Free (e : LanHostEntry) : Prop := e.valid = false ∧ e.mac = []

/-- The entry is valid and has the MAC. -/
def LanHostEntry.Holds (e : LanHostEntry) (mac : Str) : Prop :=
  e.valid = true ∧ strcaseEq e.mac mac = true

instance (e : LanHostEntry) : Decidable e.Free :=
  inferInstanceAs (Decidable (e.valid = false ∧ e.mac = []))

instance (e : LanHostEntry) (mac : Str) : Decidable (e.Holds mac) :=
  inferInstanceAs (Decidable (e.valid = true ∧ strcaseEq e.mac mac = true))

/-- The free slots below a limit. -/
def freeSlots (d : Daemon) (limit : Nat) : Finset Nat :=
  (Finset.range limit).filter fun i => (d.tab i).Free

/-- The MACs of the devices that no entry below a limit has. -/
def newMacs (d : Daemon) (limit : Nat) (devices : List ObDevice) : Finset Str :=
  (devices.map ObDevice.devmac).toFinset.filter fun mac => ∀ i < limit, ¬ (d.tab i).Holds mac

/-- The new devices find a free slot, as far as the slots go that `LANHostMaxNumber` always
allows. -/
def RoomFor (W : World) (d : Daemon) (devices : List ObDevice) : Prop :=
  ∃ limit ≤ W.maxLanHostNum, (∀ t, limit ≤ (W.lanHostMaxNumber t).toNat) ∧
    (newMacs d limit devices).card ≤ (freeSlots d limit).card

/-- A full table may give the entry to a new device: it is offline, less than a day after the start
of the device, and there is a time at which `ControlStatus` does not protect it. -/
def Recyclable (W : World) (e : LanHostEntry) (i : Nat) : Prop :=
  e.active = false ∧ 0 < e.offlineTime ∧ e.offlineTime < offlineTimeMax ∧
    ∃ t, min (W.lanHostMaxNumber t) W.maxLanHostNum = W.lanHostNumber t ∧
      W.controlStatus t i = false

/-- The locked entry `i` is not recycled for one of the devices. -/
def Kept (W : World) (d : Daemon) (devices : List ObDevice) (i : Nat) : Prop :=
  ¬ Recyclable W (d.tab i) i ∨ RoomFor W d devices

/-- No other entry than `i` has the MAC of the device. -/
def Only (W : World) (d : Daemon) (dev : ObDevice) (i : Nat) : Prop :=
  ∀ j ∈ slots W, j ≠ i → strcaseEq (d.tab j).mac dev.devmac = false

/-- The last device that is reported has the MAC of entry `i` alone. -/
def IsLast (W : World) (d : Daemon) (devices : List ObDevice) (i : Nat) : Prop :=
  ∃ dev, devices.getLast? = some dev ∧ strcaseEq (d.tab i).mac dev.devmac = true ∧ Only W d dev i

/-- The locked entry `i` is not recycled before the last device is looked up, and if it is an online
device of another bridge, it is the last one. -/
structure LockLostSafe (W : World) (d : Daemon) (devices : List ObDevice) (i : Nat) : Prop where
  valid : (d.tab i).valid = true
  kept : Kept W d devices.dropLast i
  last : (d.tab i).otherBrDev = true → (d.tab i).active = true → IsLast W d devices i

/-! ## The slot for a new device -/

section

variable {W : World} {d : Daemon}

theorem findEmptyLoop_inl {p : Nat} : ∀ {is : List Nat} {acc : Nat × Int},
    findEmptyLoop W d is acc = .inl p → p ∈ is ∧ (d.tab p).valid = false
  | [], _, h => by simp [findEmptyLoop] at h
  | i :: is, acc, h => by
    unfold findEmptyLoop at h
    dsimp only at h
    split at h
    · obtain ⟨hmem, hvalid⟩ := findEmptyLoop_inl h
      exact ⟨List.mem_cons_of_mem i hmem, hvalid⟩
    · next hvalid =>
      obtain rfl := Sum.inl.inj h
      exact ⟨List.mem_cons_self, by simpa using hvalid⟩

/-- An entry that `olderInactive` picks. -/
def Idle (W : World) (d : Daemon) (i : Nat) : Prop :=
  (d.tab i).active = false ∧ 0 < (d.tab i).offlineTime ∧ (d.tab i).offlineTime < offlineTimeMax ∧
    W.controlStatus d.now i = false

theorem olderInactive_cases {acc : Nat × Int} (hacc : acc.1 ≤ offlineTimeMax) (i : Nat) :
    olderInactive W d acc i = acc ∨
      (olderInactive W d acc i = ((d.tab i).offlineTime, (i : Int)) ∧ Idle W d i) := by
  unfold olderInactive
  dsimp only
  split
  · next h =>
    simp only [Bool.and_eq_true, Bool.not_eq_true', decide_eq_true_eq] at h
    obtain ⟨⟨⟨hactive, hpos⟩, hlt⟩, hctl⟩ := h
    exact .inr ⟨rfl, hactive, hpos, Nat.lt_of_lt_of_le hlt hacc, hctl⟩
  · exact .inl rfl

theorem findEmptyLoop_inr {latest : Int} : ∀ {is : List Nat} {acc : Nat × Int},
    acc.1 ≤ offlineTimeMax → findEmptyLoop W d is acc = .inr latest →
    (∀ i ∈ is, (d.tab i).valid = true) ∧ (latest = acc.2 ∨ ∃ i ∈ is, latest = i ∧ Idle W d i)
  | [], acc, _, h => by
    obtain rfl := Sum.inr.inj h
    simp
  | i :: is, acc, hacc, h => by
    have hcases := olderInactive_cases (W := W) (d := d) hacc i
    unfold findEmptyLoop at h
    dsimp only at h
    split at h
    · next hvalid =>
      have hle : (olderInactive W d acc i).1 ≤ offlineTimeMax := by
        rcases hcases with heq | ⟨heq, hidle⟩
        · rw [heq]
          exact hacc
        · rw [heq]
          exact Nat.le_of_lt hidle.2.2.1
      obtain ⟨hall, hlatest⟩ := findEmptyLoop_inr hle h
      refine ⟨List.forall_mem_cons.mpr ⟨hvalid, hall⟩, ?_⟩
      rcases hlatest with hlatest | ⟨j, hj, hlatest⟩
      · rcases hcases with heq | ⟨heq, hidle⟩
        · exact .inl (by rw [hlatest, heq])
        · exact .inr ⟨i, List.mem_cons_self, by rw [hlatest, heq], hidle⟩
      · exact .inr ⟨j, List.mem_cons_of_mem i hj, hlatest⟩
    · exact absurd h (by simp)

/-- **The slot for a new device** is not valid, or all are and it can be recycled. -/
theorem findEmptyLanHostEntry_cases {p : Nat} (h : findEmptyLanHostEntry W d = some p) :
    (d.tab p).valid = false ∨
      (Recyclable W (d.tab p) p ∧ ∀ i ∈ usableSlots W d, (d.tab i).valid = true) := by
  unfold findEmptyLanHostEntry at h
  split at h
  · next i hloop =>
    obtain rfl := Option.some.inj h
    exact .inl (findEmptyLoop_inl hloop).2
  · next latest hloop =>
    rw [Option.ite_none_right_eq_some, Option.some.injEq] at h
    obtain ⟨⟨hfull, hge⟩, rfl⟩ := h
    obtain ⟨hall, hlatest⟩ := findEmptyLoop_inr (Nat.le_refl _) hloop
    rcases hlatest with rfl | ⟨i, -, rfl, hactive, hpos, hlt, hctl⟩
    · exact absurd hge (by decide)
    · exact .inr ⟨⟨hactive, hpos, hlt, d.now, hfull, hctl⟩, hall⟩

/-- `find_empty_lan_host_entry` leaves the index of the slot that it returns. -/
theorem findEmptyIndex_eq {p : Nat} (h : findEmptyLanHostEntry W d = some p) (found : Int) :
    findEmptyIndex W d found = p := by
  unfold findEmptyLanHostEntry at h
  unfold findEmptyIndex
  cases hloop : findEmptyLoop W d (usableSlots W d) (offlineTimeMax, -1) with
  | inl i =>
    rw [hloop] at h
    simp only [Option.some.injEq] at h
    simp only [h]
  | inr latest =>
    rw [hloop] at h
    simp only [Option.ite_none_right_eq_some, Option.some.injEq] at h
    obtain ⟨⟨hfull, hge⟩, rfl⟩ := h
    simp only [hfull, if_true]
    omega

end

/-! ## What a device does to its entry -/

/-- The MAC stays or is cleared, the counter of the lock does not grow, and unless it is cleared, an
online entry stays online and that of a bridged device stays one. -/
structure Fades (e e' : LanHostEntry) : Prop where
  mac : e'.mac = e.mac ∨ e'.mac = []
  lockLost : e'.lockLost ≤ e.lockLost
  otherBrDev : e.otherBrDev = true → e'.mac = [] ∨ e'.otherBrDev = true
  active : e.active = true → e'.mac = [] ∨ e'.active = true

namespace Fades

variable {e e' e'' : LanHostEntry}

theorem of_eq (hmac : e'.mac = e.mac) (hlock : e'.lockLost = e.lockLost)
    (hdev : e.otherBrDev = true → e'.otherBrDev = true)
    (hactive : e.active = true → e'.active = true) : Fades e e' :=
  ⟨.inl hmac, Nat.le_of_eq hlock, fun h => .inr (hdev h), fun h => .inr (hactive h)⟩

theorem refl (e : LanHostEntry) : Fades e e := of_eq rfl rfl id id

theorem mac_nil (h : Fades e e') (hmac : e.mac = []) : e'.mac = [] := by
  rcases h.mac with heq | heq
  · exact heq.trans hmac
  · exact heq

theorem trans (h : Fades e e') (h' : Fades e' e'') : Fades e e'' where
  mac := h'.mac.elim (fun heq => h.mac.imp heq.trans heq.trans) .inr
  lockLost := h'.lockLost.trans h.lockLost
  otherBrDev hdev := (h.otherBrDev hdev).elim (fun hmac => .inl (h'.mac_nil hmac)) h'.otherBrDev
  active hactive := (h.active hactive).elim (fun hmac => .inl (h'.mac_nil hmac)) h'.active

end Fades

@[simp] theorem checkIpv6DeviceInform_lockLost (e : LanHostEntry) :
    (checkIpv6DeviceInform e).2.lockLost = e.lockLost := by
  obtain ⟨flag, cnt, h⟩ := checkIpv6DeviceInform_snd e
  rw [h]

theorem inform_fades (e : LanHostEntry) : Fades e (checkIpv6DeviceInform e).2 := by
  obtain ⟨flag, cnt, h⟩ := checkIpv6DeviceInform_snd e
  rw [h]
  exact Fades.of_eq rfl rfl id id

section

variable (W : World) (d : Daemon) (p : Nat) (node : Int)

theorem syncLanHostInfo_fades (flags : List SyncFlag) :
    Fades (d.tab p) ((syncLanHostInfo W d node p flags).tab p) := by
  rcases syncLanHostInfo_tab_cases W d p node flags with h | h | ⟨mode, h⟩
  · rw [h]
    exact Fades.refl _
  · rw [h]
    exact ⟨.inr rfl, Nat.zero_le _, fun _ => .inl rfl, fun _ => .inl rfl⟩
  · rw [h]
    exact (inform_fades _).trans (Fades.of_eq rfl rfl id id)

theorem sync_put_fades (e : LanHostEntry) (flags : List SyncFlag) :
    Fades e ((syncLanHostInfo W (d.put p e) node p flags).tab p) := by
  have h := syncLanHostInfo_fades W (d.put p e) p node flags
  rwa [Daemon.tab_put_self] at h

theorem setIpFromDhcp_fades : Fades (d.tab p) ((setIpFromDhcp W d p node).2.tab p) := by
  unfold setIpFromDhcp
  dsimp only
  split
  · exact Fades.refl _
  split
  · refine Fades.trans ?_ (sync_put_fades W _ p node _ _)
    exact Fades.of_eq rfl rfl id id
  · exact Fades.refl _

theorem setIpFromArp_fades : Fades (d.tab p) ((setIpFromArp W d p node).2.tab p) := by
  unfold setIpFromArp
  dsimp only
  split
  · exact Fades.refl _
  split
  · exact Fades.refl _
  · refine Fades.trans ?_ (sync_put_fades W _ p node _ _)
    exact Fades.of_eq rfl rfl id id

theorem setLanHostEntry_fades : Fades (d.tab p) ((setLanHostEntry W d p node).2.tab p) := by
  unfold setLanHostEntry
  dsimp only
  split
  · exact setIpFromDhcp_fades W d p node
  · exact (setIpFromDhcp_fades W d p node).trans (setIpFromArp_fades W _ p node)

theorem onlineSettle_fades : Fades (d.tab p) ((onlineSettle W d p node).tab p) := by
  have hput : Fades (d.tab p)
      ((d.put p { d.tab p with active := true, exist := 1 }).tick.tab p) := by
    rw [Daemon.tab_tick, Daemon.tab_put_self]
    exact Fades.of_eq rfl rfl id fun _ => rfl
  unfold onlineSettle
  dsimp only
  split
  · exact hput
  · exact hput.trans (syncLanHostInfo_fades W _ p node _)

/-- A bridged device goes online without a look-up of its address. -/
theorem setLanHostOnline_fades :
    Fades (d.tab p) ((setLanHostOnline W d p node false).tab p) := by
  unfold setLanHostOnline
  dsimp only
  split
  · exact Fades.refl _
  split
  · exact Fades.refl _
  · rw [if_neg (by simp)]
    refine Fades.trans ?_ (onlineSettle_fades W _ p node)
    rw [Daemon.tab_put_self]
    exact (inform_fades _).trans (Fades.of_eq rfl rfl id id)

theorem claimEntry_lockLost (e : LanHostEntry) (newMac : Str) (connType : Nat) (port : Int)
    (bound ipOk : Bool) :
    (claimEntry e newMac connType port bound ipOk).lockLost = e.lockLost := by
  unfold claimEntry
  dsimp only
  split <;> split <;> (try split) <;> simp

theorem addedState_lockLost (ipOk : Bool) (e : LanHostEntry) :
    (addedState ipOk e).2.lockLost = e.lockLost := by
  unfold addedState
  dsimp only
  split <;> split <;> (try split) <;> simp

theorem addInform_lockLost (ipOk : Bool) (newMac : Str) (e : LanHostEntry) :
    (addInform ipOk newMac e).2.lockLost = e.lockLost := by
  unfold addInform
  split
  · exact checkIpv6DeviceInform_lockLost e
  · rfl

theorem addSettle_lockLost (flags : List SyncFlag) :
    ((addSettle W d p node flags).tab p).lockLost ≤ (d.tab p).lockLost := by
  refine (sync_put_fades W _ p node _ _).lockLost.trans ?_
  rw [addedState_lockLost]
  exact (setLanHostEntry_fades W d p node).lockLost

/-- `add_lan_host` does not lock its entry. -/
theorem addLanHost_lockLost (mac : Str) (connType : Nat) (port : Int) :
    ((addLanHost W d p mac node connType port).tab p).lockLost ≤ (d.tab p).lockLost := by
  have hset := (setLanHostEntry_fades W d p node).lockLost
  unfold addLanHost
  dsimp only
  split
  · exact hset
  split
  · rw [Daemon.tab_tick, Daemon.tab_put_self, claimEntry_lockLost, addInform_lockLost]
    exact hset
  · refine (addSettle_lockLost W _ p node _).trans ?_
    rw [Daemon.tab_tick, Daemon.tab_put_self, claimEntry_lockLost, addInform_lockLost]
    exact hset

theorem obOnline_fades : Fades (d.tab p) ((obOnline W d p).tab p) := by
  have hput : Fades (d.tab p) ((d.put p { d.tab p with otherBrDev := true }).tab p) := by
    rw [Daemon.tab_put_self]
    exact Fades.of_eq rfl rfl (fun _ => rfl) id
  unfold obOnline
  dsimp only
  split
  · exact hput
  · refine (hput.trans (setLanHostOnline_fades W _ p p)).trans ?_
    rw [Daemon.tab_put_self]
    exact Fades.of_eq rfl rfl id fun _ => rfl

theorem obPort_fades (e : LanHostEntry) (dev : ObDevice) : Fades e (obPort e dev).1 := by
  unfold obPort
  split
  · exact Fades.refl _
  split
  · exact Fades.of_eq rfl rfl id id
  · exact Fades.of_eq rfl rfl id id

theorem obAddress_fades (e : LanHostEntry) (dev : ObDevice) : Fades e (obAddress e dev).1 := by
  unfold obAddress
  split
  · split
    · exact Fades.refl _
    · exact Fades.of_eq rfl rfl id id
  · dsimp only
    split
    · split
      · exact Fades.of_eq rfl rfl id id
      · exact Fades.of_eq rfl rfl id id
    split
    · exact Fades.of_eq rfl rfl id id
    · exact Fades.of_eq rfl rfl id id
  · exact Fades.refl _

/-- The update of a device once it is online. -/
theorem obUpdate_fades_online (flags : List SyncFlag) (dev : ObDevice) :
    Fades ((obOnline W d p).tab p) ((obUpdate W d flags p dev).1.tab p) := by
  unfold obUpdate
  dsimp only
  refine Fades.trans ?_ (sync_put_fades W _ p p _ _)
  refine ((obPort_fades _ dev).trans (obAddress_fades _ dev)).trans ?_
  exact Fades.of_eq rfl rfl id id

theorem obUpdate_fades (flags : List SyncFlag) (dev : ObDevice) :
    Fades (d.tab p) ((obUpdate W d flags p dev).1.tab p) :=
  (obOnline_fades W d p).trans (obUpdate_fades_online W d p flags dev)

/-- After its update the device is online in its entry, unless that is cleared. -/
theorem obUpdate_online (flags : List SyncFlag) (dev : ObDevice) :
    ((obUpdate W d flags p dev).1.tab p).mac = [] ∨
      (((obUpdate W d flags p dev).1.tab p).active = true ∧
        ((obUpdate W d flags p dev).1.tab p).otherBrDev = true) := by
  have hactive : ((obOnline W d p).tab p).active = true := by
    unfold obOnline
    dsimp only
    split
    · next h => exact h
    · rw [Daemon.tab_put_self]
  have hdev : ((obOnline W d p).tab p).mac = [] ∨ ((obOnline W d p).tab p).otherBrDev = true := by
    have hput : ((d.put p { d.tab p with otherBrDev := true }).tab p).otherBrDev = true := by
      rw [Daemon.tab_put_self]
    unfold obOnline
    dsimp only
    split
    · exact .inr hput
    · rw [Daemon.tab_put_self]
      exact (setLanHostOnline_fades W _ p p).otherBrDev hput
  have hrest := obUpdate_fades_online W d p flags dev
  rcases hdev with hmac | hdev
  · exact .inl (hrest.mac_nil hmac)
  rcases hrest.active hactive with hmac | hactive'
  · exact .inl hmac
  · exact (hrest.otherBrDev hdev).imp_right fun hdev' => ⟨hactive', hdev'⟩

end

/-- **What the turn of a device does**: its entry is locked and stays, or it is updated, or there is
no entry for the device and it gets none, or it is added. -/
inductive ObTurned (W : World) (s : ObLoop) (dev : ObDevice) (s' : ObLoop) : Prop
  | locked (p : Nat) (hp : p ∈ slots W) (hmac : strcaseEq (s.d.tab p).mac dev.devmac = true)
      (hd : s'.d = s.d) (hentry : s'.lanHostEntry = p)
  | updated (p : Nat) (hp : p ∈ slots W) (hmac : strcaseEq (s.d.tab p).mac dev.devmac = true)
      (hlock : (s.d.tab p).lockLost = 0) (htouch : Touches p p s.d s'.d)
      (hfades : Fades (s.d.tab p) (s'.d.tab p))
      (hkeeps : (s.d.tab p).valid = true → Keeps (s.d.tab p) (s'.d.tab p))
      (hentry : s'.lanHostEntry = p)
  | full (hnew : ∀ j ∈ slots W, strcaseEq (s.d.tab j).mac dev.devmac = false)
      (hempty : findEmptyLanHostEntry W s.d = none) (htab : s'.d.tab = s.d.tab)
  | added (p : Nat) (hnew : ∀ j ∈ slots W, strcaseEq (s.d.tab j).mac dev.devmac = false)
      (hempty : findEmptyLanHostEntry W s.d = some p) (htouch : Touches p p s.d s'.d)
      (hlock : (s'.d.tab p).lockLost ≤ (s.d.tab p).lockLost)
      (hkey : Keeps (s.d.tab p) (s'.d.tab p) ∨
        ((s'.d.tab p).valid = true ∧ (s'.d.tab p).mac = dev.devmac))
      (hentry : s'.lanHostEntry = p)

section

variable {W : World}

theorem obTurn_turned (s : ObLoop) (dev : ObDevice) : ObTurned W s dev (obTurn W s dev) := by
  unfold obTurn
  dsimp only
  split
  · next p hp =>
    have hfound : p ∈ slots W ∧ strcaseEq (s.d.tab p).mac dev.devmac = true := by
      rcases Option.or_eq_some_iff.mp hp with hp | ⟨-, hp⟩
      · exact ⟨List.mem_of_find?_eq_some hp, findLanHostOBEntryByMac_some hp⟩
      · exact ⟨List.mem_of_find?_eq_some hp, findLanHostOBEntryByMac_some hp⟩
    split
    · exact .locked p hfound.1 hfound.2 rfl rfl
    · next hlock =>
      exact .updated p hfound.1 hfound.2 (by simpa using hlock)
        (obUpdate_touches W s.d p s.flags dev) (obUpdate_fades W s.d p s.flags dev)
        (obUpdate_keeps W s.d p s.flags dev) rfl
  · next hnone =>
    rw [Option.or_eq_none_iff] at hnone
    have hnew : ∀ j ∈ slots W, strcaseEq (s.d.tab j).mac dev.devmac = false := by
      intro j hj
      cases hdev : (s.d.tab j).otherBrDev with
      | true => exact findLanHostOBEntryByMac_none hnone.1 j hj hdev
      | false => exact findLanHostOBEntryByMac_none hnone.2 j hj hdev
    split
    · next hempty => exact .full hnew hempty rfl
    · next p hempty =>
      have hindex := findEmptyIndex_eq hempty s.lanHostEntry
      have hput : (s.d.tick.put p { s.d.tab p with otherBrDev := true }).tab p =
          { s.d.tab p with otherBrDev := true } := Daemon.tab_put_self ..
      rw [hindex]
      refine .added p hnew hempty ?_ ?_ ?_ rfl
      · exact ((Touches.refl s.d).tick.put_of _).trans (addLanHost_touches W _ p p _ _ _)
      · have hlock := addLanHost_lockLost W
          (s.d.tick.put p { s.d.tab p with otherBrDev := true }) p p dev.devmac
          (connTypeOf dev.port) dev.port
        rwa [hput] at hlock
      · have hkey := addLanHost_key W (s.d.tick.put p { s.d.tab p with otherBrDev := true }) p p
          dev.devmac (connTypeOf dev.port) dev.port
        obtain ⟨hfits, hdot⟩ := devmac_fits dev
        rw [hput, hdot, List.take_of_length_le hfits.2] at hkey
        exact hkey.imp_left (Keeps.of_eq rfl rfl).trans

/-! ## Room for the new devices -/

theorem hexByte_toLower : ∀ b : Fin 256, (hexByte b).map Char.toLower = hexByte b := by
  decide +kernel

theorem devmac_toLower (dev : ObDevice) : dev.devmac.map Char.toLower = dev.devmac := by
  simp only [ObDevice.devmac, List.map_flatMap, hexByte_toLower]

/-- The MACs of two devices are compared character by character. -/
theorem devmac_eq_of_strcaseEq {mac : Str} {dev dev' : ObDevice}
    (h : strcaseEq mac dev.devmac = true) (h' : strcaseEq mac dev'.devmac = true) :
    dev'.devmac = dev.devmac := by
  have heq : mac.map Char.toLower = dev.devmac.map Char.toLower := eq_of_beq h
  have heq' : mac.map Char.toLower = dev'.devmac.map Char.toLower := eq_of_beq h'
  rw [← devmac_toLower dev', ← heq', heq, devmac_toLower]

theorem mem_freeSlots {d : Daemon} {limit i : Nat} :
    i ∈ freeSlots d limit ↔ i < limit ∧ (d.tab i).Free := by
  rw [freeSlots, Finset.mem_filter, Finset.mem_range]

theorem mem_newMacs {d : Daemon} {limit : Nat} {devices : List ObDevice} {mac : Str} :
    mac ∈ newMacs d limit devices ↔
      (∃ dev ∈ devices, dev.devmac = mac) ∧ ∀ i < limit, ¬ (d.tab i).Holds mac := by
  rw [newMacs, Finset.mem_filter, List.mem_toFinset, List.mem_map]

/-- What the turn of a device does to the slots, as far as the room for the next devices is
concerned: a free slot is only taken by the MAC of the device, and if an entry loses its MAC, it is
this one and the slot becomes free. -/
structure KeepsRoom (dev : ObDevice) (rest : List ObDevice) (e e' : LanHostEntry) : Prop where
  free : e.Free → e'.Free ∨ e'.Holds dev.devmac
  holds : ∀ dev' ∈ rest, e.Holds dev'.devmac →
    e'.Holds dev'.devmac ∨ (e'.Free ∧ dev'.devmac = dev.devmac)

/-- A slot that becomes free makes room for the only MAC that may be new again; a slot that is taken
is taken for a MAC that is new no more. -/
theorem card_newMacs_le {d d' : Daemon} {p limit : Nat} {dev : ObDevice} {rest : List ObDevice}
    (hframe : ∀ q, q ≠ p → d'.tab q = d.tab q) (hslot : KeepsRoom dev rest (d.tab p) (d'.tab p))
    (hnew : (d.tab p).Free → ¬ (d'.tab p).Free → ∀ i < limit, ¬ (d.tab i).Holds dev.devmac)
    (hroom : (newMacs d limit (dev :: rest)).card ≤ (freeSlots d limit).card) :
    (newMacs d' limit rest).card ≤ (freeSlots d' limit).card := by
  have hmac : ∀ mac ∈ newMacs d' limit rest, mac ∈ newMacs d limit (dev :: rest) ∨
      (p < limit ∧ ¬ (d.tab p).Free ∧ (d'.tab p).Free ∧ mac = dev.devmac) := by
    intro mac hmem
    obtain ⟨⟨dev', hdev', rfl⟩, hnot⟩ := mem_newMacs.mp hmem
    by_cases hall : ∀ i < limit, ¬ (d.tab i).Holds dev'.devmac
    · exact .inl (mem_newMacs.mpr ⟨⟨dev', List.mem_cons_of_mem dev hdev', rfl⟩, hall⟩)
    simp only [not_forall, not_not] at hall
    obtain ⟨i, hi, hholds⟩ := hall
    by_cases hip : i = p
    · subst hip
      rcases hslot.holds dev' hdev' hholds with hholds' | ⟨hfree', heq⟩
      · exact absurd hholds' (hnot i hi)
      · refine .inr ⟨hi, fun hfree => ?_, hfree', heq⟩
        exact absurd hholds.1 (by simp [hfree.1])
    · rw [← hframe i hip] at hholds
      exact absurd hholds (hnot i hi)
  by_cases hgain : p < limit ∧ ¬ (d.tab p).Free ∧ (d'.tab p).Free
  · -- The slot becomes free.
    have hslots : freeSlots d' limit = insert p (freeSlots d limit) := by
      ext i
      rw [Finset.mem_insert, mem_freeSlots, mem_freeSlots]
      by_cases hip : i = p
      · subst hip
        simp [hgain]
      · simp [hip, hframe i hip]
    have hsub : newMacs d' limit rest ⊆ insert dev.devmac (newMacs d limit (dev :: rest)) := by
      intro mac hmem
      rcases hmac mac hmem with h | ⟨-, -, -, rfl⟩
      · exact Finset.mem_insert_of_mem h
      · exact Finset.mem_insert_self ..
    have hp : p ∉ freeSlots d limit := fun h => hgain.2.1 (mem_freeSlots.mp h).2
    calc (newMacs d' limit rest).card
        ≤ (insert dev.devmac (newMacs d limit (dev :: rest))).card := Finset.card_le_card hsub
      _ ≤ (newMacs d limit (dev :: rest)).card + 1 := Finset.card_insert_le ..
      _ ≤ (freeSlots d limit).card + 1 := Nat.succ_le_succ hroom
      _ = (freeSlots d' limit).card := by rw [hslots, Finset.card_insert_of_notMem hp]
  have hsub : newMacs d' limit rest ⊆ newMacs d limit (dev :: rest) := by
    intro mac hmem
    rcases hmac mac hmem with h | ⟨hp, hfree, hfree', -⟩
    · exact h
    · exact absurd ⟨hp, hfree, hfree'⟩ hgain
  by_cases hloss : p < limit ∧ (d.tab p).Free ∧ ¬ (d'.tab p).Free
  · -- The slot is taken.
    obtain ⟨hp, hfree, hfree'⟩ := hloss
    have hholds := (hslot.free hfree).resolve_left hfree'
    have hslots : freeSlots d' limit = (freeSlots d limit).erase p := by
      ext i
      rw [Finset.mem_erase, mem_freeSlots, mem_freeSlots]
      by_cases hip : i = p
      · subst hip
        simp [hfree']
      · simp [hip, hframe i hip]
    have hmem : dev.devmac ∈ newMacs d limit (dev :: rest) :=
      mem_newMacs.mpr ⟨⟨dev, List.mem_cons_self, rfl⟩, hnew hfree hfree'⟩
    have hsub' : newMacs d' limit rest ⊆ (newMacs d limit (dev :: rest)).erase dev.devmac := by
      intro mac hmac'
      refine Finset.mem_erase.mpr ⟨?_, hsub hmac'⟩
      rintro rfl
      exact (mem_newMacs.mp hmac').2 p hp hholds
    calc (newMacs d' limit rest).card
        ≤ ((newMacs d limit (dev :: rest)).erase dev.devmac).card := Finset.card_le_card hsub'
      _ = (newMacs d limit (dev :: rest)).card - 1 := Finset.card_erase_of_mem hmem
      _ ≤ (freeSlots d limit).card - 1 := Nat.sub_le_sub_right hroom 1
      _ = (freeSlots d' limit).card := by
        rw [hslots, Finset.card_erase_of_mem (mem_freeSlots.mpr ⟨hp, hfree⟩)]
  · have hslots : freeSlots d' limit = freeSlots d limit := by
      ext i
      rw [mem_freeSlots, mem_freeSlots]
      by_cases hip : i = p
      · subst hip
        exact and_congr_right fun hi =>
          ⟨fun h' => by_contra fun h => hgain ⟨hi, h, h'⟩,
            fun h => by_contra fun h' => hloss ⟨hi, h, h'⟩⟩
      · rw [hframe i hip]
    rw [hslots]
    exact (Finset.card_le_card hsub).trans hroom

/-- The room is there in the state, below the limit. -/
structure Room (W : World) (limit : Nat) (d : Daemon) (devices : List ObDevice) : Prop where
  le : limit ≤ W.maxLanHostNum
  usable : ∀ t, limit ≤ (W.lanHostMaxNumber t).toNat
  card_le : (newMacs d limit devices).card ≤ (freeSlots d limit).card

/-- As long as a new device is looked up, a usable slot is free. -/
theorem Room.exists_free {limit : Nat} {d : Daemon} {dev : ObDevice} {rest : List ObDevice}
    (h : Room W limit d (dev :: rest))
    (hnew : ∀ j ∈ slots W, strcaseEq (d.tab j).mac dev.devmac = false) :
    ∃ i ∈ usableSlots W d, (d.tab i).valid = false := by
  have hmem : dev.devmac ∈ newMacs d limit (dev :: rest) := by
    refine mem_newMacs.mpr ⟨⟨dev, List.mem_cons_self, rfl⟩, fun i hi hholds => ?_⟩
    have hmac := hnew i (List.mem_range.mpr (Nat.lt_of_lt_of_le hi h.le))
    exact absurd hholds.2 (by simp [hmac])
  obtain ⟨i, hi⟩ := Finset.card_pos.mp ((Finset.card_pos.mpr ⟨_, hmem⟩).trans_le h.card_le)
  obtain ⟨hlt, hfree⟩ := mem_freeSlots.mp hi
  refine ⟨i, List.mem_range.mpr ?_, hfree.1⟩
  have hle := h.le
  have husable := h.usable d.now
  unfold lanHostMaxNum
  omega

variable {s s' : ObLoop} {dev : ObDevice} {rest : List ObDevice}

theorem ObTurned.room (h : ObTurned W s dev s') {limit : Nat}
    (hroom : Room W limit s.d (dev :: rest)) : Room W limit s'.d rest := by
  refine ⟨hroom.le, hroom.usable, ?_⟩
  have hsame : s'.d.tab = s.d.tab →
      (newMacs s'.d limit rest).card ≤ (freeSlots s'.d limit).card := by
    intro htab
    refine card_newMacs_le (p := limit) (fun q _ => congrFun htab q) ⟨?_, ?_⟩ ?_ hroom.card_le
    · rw [htab]
      exact .inl
    · rw [htab]
      exact fun _ _ => .inl
    · rw [htab]
      exact fun hfree hfree' => absurd hfree hfree'
  cases h with
  | locked p hp hmac hd hentry => exact hsame (by rw [hd])
  | full hnew hempty htab => exact hsame htab
  | updated p hp hmac hlock htouch hfades hkeeps hentry =>
    have hnot : ¬ (s.d.tab p).Free := fun hfree =>
      ne_nil_of_strcaseEq hmac (devmac_fits dev).1.1 hfree.2
    refine card_newMacs_le htouch.frame ⟨fun hfree => absurd hfree hnot, ?_⟩
      (fun hfree => absurd hfree hnot) hroom.card_le
    intro dev' _ hholds
    rcases hkeeps hholds.1 with ⟨hvalid, hmac'⟩ | hcleared
    · exact .inl ⟨hvalid.trans hholds.1, by rw [hmac']; exact hholds.2⟩
    · exact .inr ⟨hcleared, devmac_eq_of_strcaseEq hmac hholds.2⟩
  | added p hnew hempty htouch hlock hkey hentry =>
    obtain ⟨i, hi, hvalid⟩ := hroom.exists_free hnew
    have hp : (s.d.tab p).valid = false := by
      rcases findEmptyLanHostEntry_cases hempty with hp | ⟨-, hall⟩
      · exact hp
      · exact absurd (hall i hi) (by simp [hvalid])
    refine card_newMacs_le htouch.frame ⟨fun hfree => ?_, ?_⟩ ?_ hroom.card_le
    · rcases hkey with (⟨hvalid', hmac'⟩ | hcleared) | ⟨hvalid', hmac'⟩
      · exact .inl ⟨hvalid'.trans hfree.1, hmac'.trans hfree.2⟩
      · exact .inl hcleared
      · exact .inr ⟨hvalid', by rw [hmac']; exact beq_self_eq_true _⟩
    · intro dev' _ hholds
      exact absurd hholds.1 (by simp [hp])
    · intro _ _ j hj hholds
      have hmac := hnew j (List.mem_range.mpr (Nat.lt_of_lt_of_le hj hroom.le))
      exact absurd hholds.2 (by simp [hmac])

/-! ## The locked entries -/

/-- The turn of a device leaves a locked entry alone. -/
theorem ObTurned.tab_locked (h : ObTurned W s dev s') {i : Nat} (hlock : (s.d.tab i).lockLost ≠ 0)
    (hvalid : (s.d.tab i).valid = true) (hkept : Kept W s.d (dev :: rest) i) :
    s'.d.tab i = s.d.tab i := by
  cases h with
  | locked p hp hmac hd hentry => rw [hd]
  | full hnew hempty htab => rw [htab]
  | updated p hp hmac hunlocked htouch hfades hkeeps hentry =>
    refine htouch.frame i ?_
    rintro rfl
    exact hlock hunlocked
  | added p hnew hempty htouch hle hkey hentry =>
    refine htouch.frame i ?_
    rintro rfl
    rcases findEmptyLanHostEntry_cases hempty with hp | ⟨hrec, hall⟩
    · exact absurd hvalid (by simp [hp])
    · rcases hkept with hnot | ⟨limit, hle, husable, hcard⟩
      · exact hnot hrec
      · have hroom : Room W limit s.d (dev :: rest) := ⟨hle, husable, hcard⟩
        obtain ⟨j, hj, hfree⟩ := hroom.exists_free hnew
        exact absurd (hall j hj) (by simp [hfree])

theorem ObTurned.kept (h : ObTurned W s dev s') {i : Nat} (hlock : (s.d.tab i).lockLost ≠ 0)
    (hvalid : (s.d.tab i).valid = true) (hkept : Kept W s.d (dev :: rest) i) :
    Kept W s'.d rest i := by
  have htab := h.tab_locked hlock hvalid hkept
  rcases hkept with hnot | ⟨limit, hle, husable, hcard⟩
  · exact .inl (by rw [htab]; exact hnot)
  · have hroom : Room W limit s.d (dev :: rest) := ⟨hle, husable, hcard⟩
    obtain ⟨hle', husable', hcard'⟩ := h.room hroom
    exact .inr ⟨limit, hle', husable', hcard'⟩

/-- No turn locks an entry. -/
theorem ObTurned.unlocked (h : ObTurned W s dev s') {j : Nat} (hlock : (s.d.tab j).lockLost = 0) :
    (s'.d.tab j).lockLost = 0 := by
  cases h with
  | locked p hp hmac hd hentry => rw [hd]; exact hlock
  | full hnew hempty htab => rw [htab]; exact hlock
  | updated p hp hmac hunlocked htouch hfades hkeeps hentry =>
    by_cases hjp : j = p
    · subst hjp
      exact Nat.le_zero.mp (hlock ▸ hfades.lockLost)
    · rw [htouch.frame j hjp]
      exact hlock
  | added p hnew hempty htouch hle hkey hentry =>
    by_cases hjp : j = p
    · subst hjp
      exact Nat.le_zero.mp (hlock ▸ hle)
    · rw [htouch.frame j hjp]
      exact hlock

theorem ObTurned.only (h : ObTurned W s dev s') {last : ObDevice} {i : Nat} (hi : i ∈ slots W)
    (hmac : strcaseEq (s.d.tab i).mac last.devmac = true) (honly : Only W s.d last i) :
    Only W s'.d last i := by
  have hnil : strcaseEq [] last.devmac = false := by
    by_contra h
    exact ne_nil_of_strcaseEq (by simpa using h) (devmac_fits last).1.1 rfl
  intro j hj hji
  have hold := honly j hj hji
  cases h with
  | locked p hp _ hd hentry => rw [hd]; exact hold
  | full hnew hempty htab => rw [htab]; exact hold
  | updated p hp _ hunlocked htouch hfades hkeeps hentry =>
    by_cases hjp : j = p
    · subst hjp
      rcases hfades.mac with hsame | hcleared
      · rw [hsame]
        exact hold
      · rw [hcleared]
        exact hnil
    · rw [htouch.frame j hjp]
      exact hold
  | added p hnew hempty htouch hle hkey hentry =>
    by_cases hjp : j = p
    · subst hjp
      rcases hkey with (⟨-, hsame⟩ | ⟨-, hcleared⟩) | ⟨-, hdev⟩
      · rw [hsame]
        exact hold
      · rw [hcleared]
        exact hnil
      · -- The device is new, so it is not the last one, whose MAC entry `i` has.
        by_contra hlast
        rw [hdev] at hlast
        have hnot := hnew i hi
        have hcongr := strcaseEq_congr (by simpa using hlast) (s.d.tab i).mac
        rw [hcongr, hmac] at hnot
        exact absurd hnot (by simp)
    · rw [htouch.frame j hjp]
      exact hold

/-! ## The pass -/

/-- The turns of devices for which it is kept leave a locked entry alone. -/
theorem obTurns_tab_locked {i : Nat} : ∀ (devices : List ObDevice) {s : ObLoop},
    (s.d.tab i).lockLost ≠ 0 → (s.d.tab i).valid = true → Kept W s.d devices i →
    (devices.foldl (obTurn W) s).d.tab i = s.d.tab i
  | [], _, _, _, _ => rfl
  | dev :: devices, s, hlock, hvalid, hkept => by
    have hturn := obTurn_turned (W := W) s dev
    have htab := hturn.tab_locked hlock hvalid hkept
    rw [List.foldl_cons, obTurns_tab_locked devices (by rwa [htab]) (by rwa [htab])
      (hturn.kept hlock hvalid hkept), htab]

theorem obTurns_unlocked {j : Nat} : ∀ (devices : List ObDevice) {s : ObLoop},
    (s.d.tab j).lockLost = 0 → ((devices.foldl (obTurn W) s).d.tab j).lockLost = 0
  | [], _, hlock => hlock
  | dev :: devices, s, hlock => obTurns_unlocked devices ((obTurn_turned s dev).unlocked hlock)

/-- A locked entry stays the only one with its MAC. -/
theorem obTurns_only {last : ObDevice} {i : Nat} (hi : i ∈ slots W) :
    ∀ (devices : List ObDevice) {s : ObLoop}, (s.d.tab i).lockLost ≠ 0 →
      (s.d.tab i).valid = true → Kept W s.d devices i →
      strcaseEq (s.d.tab i).mac last.devmac = true → Only W s.d last i →
      Only W (devices.foldl (obTurn W) s).d last i
  | [], _, _, _, _, _, honly => honly
  | dev :: devices, s, hlock, hvalid, hkept, hmac, honly => by
    have hturn := obTurn_turned (W := W) s dev
    have htab := hturn.tab_locked hlock hvalid hkept
    exact obTurns_only hi devices (by rwa [htab]) (by rwa [htab]) (hturn.kept hlock hvalid hkept)
      (by rwa [htab]) (hturn.only hi hmac honly)

/-- **After the device loop** a locked entry that is an online device of another bridge is the one
that was looked up last. -/
theorem obDevices_lockLost {d : Daemon} {devices : List ObDevice}
    (hsafe : ∀ i ∈ slots W, (d.tab i).lockLost ≠ 0 → LockLostSafe W d devices i) {i : Nat}
    (hi : i ∈ slots W) (hlock : ((obDevices W d devices).d.tab i).lockLost ≠ 0)
    (hdev : ((obDevices W d devices).d.tab i).otherBrDev = true)
    (hactive : ((obDevices W d devices).d.tab i).active = true) :
    (obDevices W d devices).lanHostEntry = i := by
  let s₀ : ObLoop := { d := { d with periodSec := 0 }, lanHostEntry := -1, flags := [] }
  have hlock₀ : (s₀.d.tab i).lockLost ≠ 0 := fun h => hlock (obTurns_unlocked devices h)
  obtain ⟨hvalid, hkept, hlast⟩ := hsafe i hi hlock₀
  rcases List.eq_nil_or_concat devices with rfl | ⟨init, dev, rfl⟩
  · obtain ⟨dev, hget, -⟩ := hlast hdev hactive
    exact absurd hget (by simp)
  rw [List.concat_eq_append, List.dropLast_concat] at hkept
  -- The state before the turn of the last device.
  have hinit : (init.foldl (obTurn W) s₀).d.tab i = d.tab i :=
    obTurns_tab_locked init hlock₀ hvalid hkept
  have hend : obDevices W d (init.concat dev) = obTurn W (init.foldl (obTurn W) s₀) dev := by
    rw [obDevices, List.concat_eq_append, List.foldl_append]
    rfl
  have honly : (d.tab i).otherBrDev = true → (d.tab i).active = true →
      strcaseEq (d.tab i).mac dev.devmac = true ∧ Only W (init.foldl (obTurn W) s₀).d dev i := by
    intro hdev' hactive'
    obtain ⟨dev', hget, hmac, honly⟩ := hlast hdev' hactive'
    rw [List.concat_eq_append, List.getLast?_concat, Option.some.injEq] at hget
    subst hget
    exact ⟨hmac, obTurns_only hi init hlock₀ hvalid hkept hmac honly⟩
  rw [hend] at hdev hactive ⊢
  revert hdev hactive
  generalize init.foldl (obTurn W) s₀ = s at hinit honly ⊢
  have hturn := obTurn_turned (W := W) s dev
  intro hdev hactive
  cases hturn with
  | locked p hp hmac hd hentry =>
    rw [hd, hinit] at hdev hactive
    rw [hentry]
    by_contra hpi
    exact absurd hmac (by simp [(honly hdev hactive).2 p hp (fun h => hpi (by rw [h]))])
  | updated p hp hmac hunlocked htouch hfades hkeeps hentry =>
    rw [hentry]
    by_contra hpi
    have hpi' : p ≠ i := fun h => hpi (by rw [h])
    rw [htouch.frame i hpi'.symm, hinit] at hdev hactive
    exact absurd hmac (by simp [(honly hdev hactive).2 p hp hpi'])
  | full hnew hempty htab =>
    rw [htab, hinit] at hdev hactive
    have hmac := (honly hdev hactive).1
    rw [← hinit, hnew i hi] at hmac
    exact absurd hmac (by simp)
  | added p hnew hempty htouch hle hkey hentry =>
    rw [hentry]
    by_contra hpi
    have hpi' : p ≠ i := fun h => hpi (by rw [h])
    rw [htouch.frame i hpi'.symm, hinit] at hdev hactive
    have hmac := (honly hdev hactive).1
    rw [← hinit, hnew i hi] at hmac
    exact absurd hmac (by simp)

end

end OnuFirmware.LanHost
