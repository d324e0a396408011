import OnuFirmware.LanHost.LockLost

/-!
# Entries and their nodes

Entry `i` is mirrored in node `i`. Every operation gets the slot of an entry and the index of a
node, so the two are in step exactly if each call passes the same number for both. All handlers do,
except the last loop of `check_OB_lan_host_update`, which sets entry `i` offline with the index of
the device that was looked up last (`not_nodesInStep`). No pass leaves an entry out: its loops turn
to every slot, and a device whose entry is not locked is handled (`PassComplete`).
-/

namespace OnuFirmware.LanHost

open Clib

/-! ## Statement -/

/-- Every access to a node was made for the entry with the same index. -/
def NodesInStep (d : Daemon) : Prop := ∀ a ∈ d.log, a.node = a.entry

/-- The loop turns to every entry: it finds in it what was there before the loop, and what it makes
of it stays. -/
def TurnsToAll (W : World) (turn : Daemon → Nat → Daemon) (d d' : Daemon) : Prop :=
  ∀ i ∈ slots W, ∃ dᵢ : Daemon, dᵢ.tab i = d.tab i ∧ d'.tab i = (turn dᵢ i).tab i

/-- The entry that `check_OB_lan_host_update` looks up for a device. -/
def obEntry (W : World) (d : Daemon) (dev : ObDevice) : Option Nat :=
  (findLanHostOBEntryByMac W d true dev.devmac).or (findLanHostOBEntryByMac W d false dev.devmac)

/-- A device whose entry is not locked itself is online in it after its turn, unless the node is
gone and the entry cleared. -/
def DeviceHandled (W : World) (s s' : ObLoop) (dev : ObDevice) : Prop :=
  ∀ p, obEntry W s.d dev = some p → (s.d.tab p).lockLost = 0 →
    (s'.d.tab p).mac = [] ∨ ((s'.d.tab p).active = true ∧ (s'.d.tab p).otherBrDev = true)

/-- **No entry is skipped** when the event is handled: the loops over the table turn to every slot
with its own entry, and so does the device loop for the devices of entries that are not locked. -/
def PassComplete (W : World) (d : Daemon) : HostEvent → Prop
  | .lanDown lanPort => TurnsToAll W (lanDownEntry W lanPort) d (d.handle W (.lanDown lanPort))
  | .bridgeDev macaddr ipaddr =>
    TurnsToAll W (alinkBridgeEntry W (macRmDot macaddr) ipaddr) d
      (d.handle W (.bridgeDev macaddr ipaddr))
  | .check none => TurnsToAll W clearExist d (d.handle W (.check none))
  | .check (some lines) =>
    let s := lines.foldl (stbTurn W) (stbStart W d)
    TurnsToAll W clearExist d (stbStart W d).d ∧
      TurnsToAll W (checkEntry W s.port) s.d (d.handle W (.check (some lines)))
  | .checkOB (some input) => bridgeUpdatePeriodTime ≤ d.periodSec + 1 →
      (∀ before dev after, input.devices = before ++ dev :: after →
        DeviceHandled W (obDevices W d before) (obDevices W d (before ++ [dev])) dev) ∧
      (input.aborted = false →
        TurnsToAll W (lockLostTurn W (obDevices W d input.devices).lanHostEntry)
          (obDevices W d input.devices).d (d.handle W (.checkOB (some input))))
  | _ => True

/-- The condition on an event in the state it is handled in: a pass over the bridged devices that
reaches its last loop is safe for the locked entries. -/
def EventInStep (W : World) (d : Daemon) : HostEvent → Prop
  | .checkOB (some input) => bridgeUpdatePeriodTime ≤ d.periodSec + 1 → input.aborted = false →
      ∀ i ∈ slots W, (d.tab i).lockLost ≠ 0 → LockLostSafe W d input.devices i
  | _ => True

/-- The condition on a run: each event meets it in its state. -/
def RunInStep (W : World) : Daemon → List HostEvent → Prop
  | _, [] => True
  | d, ev :: evs => EventInStep W d ev ∧ RunInStep W (d.handle W ev) evs

/-! ## Steps -/

theorem Touches.inStep {p : Nat} {d d' : Daemon} (h : Touches p p d d') (hd : NodesInStep d) :
    NodesInStep d' := by
  obtain ⟨ops, hops⟩ := h.log
  intro a ha
  rw [hops, List.mem_append] at ha
  rcases ha with ha | ha
  · exact hd a ha
  · obtain ⟨op, -, rfl⟩ := List.mem_map.mp ha
    rfl

/-- A loop that touches entry after entry. -/
theorem NodesInStep.foldl {f : Daemon → Nat → Daemon} (hf : ∀ d (i : Nat), Touches i i d (f d i)) :
    ∀ (l : List Nat) {d : Daemon}, NodesInStep d → NodesInStep (l.foldl f d)
  | [], _, hd => hd
  | i :: l, d, hd => NodesInStep.foldl hf l ((hf d i).inStep hd)

/-! ## Messages -/

section

variable {W : World} {d : Daemon}

theorem wifiAdd_inStep (hd : NodesInStep d) (newMac : Str) (oldSsidIdx : Int) :
    NodesInStep (wifiAdd W d newMac oldSsidIdx) := by
  unfold wifiAdd
  split
  · next p _ =>
    have hon := (Touches.put d { d.tab p with connType := 1 }).trans
      (setLanHostOnline_touches W _ p p true)
    exact (((hon.trans (updatePort_touches W _ p _)).trans
      (setLanHostOnline_touches W _ p p true)).trans (wifiSettle_touches _ p)).inStep hd
  split
  · exact hd
  · next p _ =>
    exact ((Touches.refl d).tick.trans ((addLanHost_touches W _ p p _ _ _).trans
      (wifiSettle_touches _ p))).inStep hd

theorem wifiDel_inStep (hd : NodesInStep d) (newMac : Str) (oldSsidIdx : Int) :
    NodesInStep (wifiDel W d newMac oldSsidIdx) := by
  unfold wifiDel
  split
  · exact hd
  · next p _ =>
    dsimp only
    split
    · exact ((Touches.put d _).trans (setLanHostOffline_touches W _ p p)).inStep hd
    · exact hd

theorem wifiUpdate_inStep (hd : NodesInStep d) (newMac : Str) (oldSsidIdx : Int) :
    NodesInStep (wifiUpdate W d newMac oldSsidIdx) := by
  unfold wifiUpdate
  split
  · exact hd
  · next p _ => exact (sync_put_touches W d p p _ _).inStep hd

theorem wifiUpdateHandler_inStep (hd : NodesInStep d) (data : Str) :
    NodesInStep (wifiUpdateHandler W d data) := by
  unfold wifiUpdateHandler
  dsimp only
  split
  · exact wifiAdd_inStep hd _ _
  split
  · exact wifiDel_inStep hd _ _
  split
  · exact wifiUpdate_inStep hd _ _
  · exact hd

theorem dhcpUpdateHander_inStep (hd : NodesInStep d) (type macaddr : Str) :
    NodesInStep (dhcpUpdateHander W d type macaddr) := by
  unfold dhcpUpdateHander
  split
  · exact hd
  · next p _ =>
    dsimp only
    split
    · exact (setLanHostOffline_touches W d p p).inStep hd
    split
    · split
      · exact ((setIpFromDhcp_touches W d p p).trans
          (setLanHostOnline_touches W _ p p false)).inStep hd
      · exact (setIpFromDhcp_touches W d p p).inStep hd
    · exact hd

theorem arpAddHandler_inStep (hd : NodesInStep d) (lladdr abuf : Str) (ipv6 : Bool) :
    NodesInStep (arpAddHandler W d lladdr abuf ipv6) := by
  unfold arpAddHandler
  split
  · exact hd
  · next p _ =>
    split
    · split
      · split
        · exact hd
        · exact ((Touches.refl d).tick.trans (sync_put_touches W _ p p _ _)).inStep hd
      · exact (arpAddIpv4_touches W d p abuf).inStep hd
    · exact hd

theorem lanHostIpv6onlyUpdate_inStep (hd : NodesInStep d) (mac ipv6addr : Str) :
    NodesInStep (lanHostIpv6onlyUpdate W d mac ipv6addr) := by
  unfold lanHostIpv6onlyUpdate
  dsimp only
  split
  · exact hd
  split
  · next p _ => exact ((Touches.refl d).tick.trans (ipv6onlyFound_touches W _ p _)).inStep hd
  split
  · exact hd
  · next p _ =>
    exact (((Touches.refl d).tick.trans (markIpv6Only_touches _ p)).trans
      (addLanHost_touches W _ p p _ _ _)).inStep hd

/-! ## The bridge table -/

theorem checkMacExist_log (mac : Str) (emptyIndex : Int) :
    (checkMacExist W d mac emptyIndex).2.log = d.log := by
  unfold checkMacExist
  dsimp only
  split <;> rfl

/-- The invariant of the loop over `stb_list`. -/
structure StbInStep (W : World) (s : StbLoop) : Prop where
  inStep : NodesInStep s.d
  index : IndexIn (slots W) s.emptyIndex

theorem stbTurn_inStep {s : StbLoop} (hs : StbInStep W s) (line : StbLine) :
    StbInStep W (stbTurn W s line) := by
  have hindex := (stbTurn_within (mem_slots_of_usable W s.d) hs.index line).1
  have hd : NodesInStep (checkMacExist W s.d (line.mac.getD s.mac) s.emptyIndex).2 := by
    intro a ha
    rw [checkMacExist_log] at ha
    exact hs.inStep a ha
  refine ⟨?_, hindex⟩
  have hcheck := (checkMacExist_within (line.mac.getD s.mac) (mem_slots_of_usable W s.d)
    hs.index).1
  unfold stbTurn
  dsimp only
  split
  · next hadd =>
    -- An index other than `-1` is that of a slot.
    obtain ⟨k, -, hk⟩ := hcheck.resolve_left hadd.2.2.2.2
    rw [hk, Int.toNat_natCast]
    exact ((Touches.refl _).tick.trans (addLanHost_touches W _ k k _ 0 _)).inStep hd
  · exact hd

theorem stbTurn_foldl_inStep : ∀ (lines : List StbLine) {s : StbLoop}, StbInStep W s →
    StbInStep W (lines.foldl (stbTurn W) s)
  | [], _, hs => hs
  | line :: lines, _, hs => stbTurn_foldl_inStep lines (stbTurn_inStep hs line)

theorem checkLanHostUpdate_inStep (hd : NodesInStep d) (stbList : Option (List StbLine)) :
    NodesInStep (checkLanHostUpdate W d stbList) := by
  have hclear : NodesInStep ((slots W).foldl clearExist d) :=
    hd.foldl clearExist_touches (slots W)
  unfold checkLanHostUpdate
  dsimp only
  split
  · exact hclear
  · next lines =>
    have hs := stbTurn_foldl_inStep (W := W) lines
      (s := { d := (slots W).foldl clearExist d, port := 0, mac := [], emptyIndex := -1 })
      ⟨hclear, .inl rfl⟩
    exact hs.inStep.foldl (fun d i => checkEntry_touches W d i _) (slots W)

/-! ## The bridged devices -/

theorem obTurn_inStep {s : ObLoop} (hs : NodesInStep s.d) (dev : ObDevice) :
    NodesInStep (obTurn W s dev).d := by
  unfold obTurn
  dsimp only
  split
  · next p _ =>
    split
    · exact hs
    · exact (obUpdate_touches W s.d p s.flags dev).inStep hs
  split
  · exact hs
  · next p hp =>
    dsimp only
    rw [findEmptyIndex_eq hp]
    exact (((Touches.refl s.d).tick.put_of _).trans (addLanHost_touches W _ p p _ _ _)).inStep hs

theorem obDevices_inStep (hd : NodesInStep d) (devices : List ObDevice) :
    NodesInStep (obDevices W d devices).d := by
  have hfold : ∀ (devices : List ObDevice) {s : ObLoop}, NodesInStep s.d →
      NodesInStep (devices.foldl (obTurn W) s).d := by
    intro devices
    induction devices with
    | nil => exact fun hs => hs
    | cons dev devices ih => exact fun hs => ih (obTurn_inStep hs dev)
  exact hfold devices hd

/-- One turn of the last loop: an entry that it takes offline is the one looked up last. -/
theorem lockLostTurn_inStep (hd : NodesInStep d) {lanHostEntry : Int} {i : Nat}
    (hsafe : (d.tab i).lockLost ≠ 0 → (d.tab i).otherBrDev = true → (d.tab i).active = true →
      lanHostEntry = i) :
    NodesInStep (lockLostTurn W lanHostEntry d i) := by
  unfold lockLostTurn
  dsimp only
  split
  · exact hd
  · next hlost =>
    split
    · next hoff =>
      rw [Bool.and_eq_true] at hoff
      rw [hsafe hlost hoff.1 hoff.2]
      exact ((Touches.put d _).trans (setLanHostOffline_touches W _ i i)).inStep hd
    · have hput : Touches i i d (d.put i { d.tab i with lockLost := (d.tab i).lockLost - 1 }) :=
        Touches.put d _
      exact hput.inStep hd

/-- A turn leaves the entries of the later turns alone, so the condition at the start of the loop is
enough. -/
theorem lockLost_foldl_inStep {lanHostEntry : Int} : ∀ (is : List Nat), is.Nodup →
    ∀ {d : Daemon}, NodesInStep d →
    (∀ i ∈ is, (d.tab i).lockLost ≠ 0 → (d.tab i).otherBrDev = true → (d.tab i).active = true →
      lanHostEntry = i) →
    NodesInStep (is.foldl (lockLostTurn W lanHostEntry) d)
  | [], _, _, hd, _ => hd
  | i :: is, hnd, d, hd, hsafe => by
    obtain ⟨hi, his⟩ := List.nodup_cons.mp hnd
    refine lockLost_foldl_inStep is his (lockLostTurn_inStep hd (hsafe i List.mem_cons_self)) ?_
    intro j hj
    have hne : j ≠ i := fun h => hi (h ▸ hj)
    rw [(lockLostTurn_touches W d i lanHostEntry).frame j hne]
    exact hsafe j (List.mem_cons_of_mem i hj)

theorem checkOBLanHostUpdate_inStep (hd : NodesInStep d) {input : Option ObInput}
    (hev : EventInStep W d (.checkOB input)) :
    NodesInStep (checkOBLanHostUpdate W d input) := by
  unfold checkOBLanHostUpdate
  split
  · exact hd
  · next hperiod =>
    cases input with
    | none => exact hd
    | some input =>
      have hs := obDevices_inStep (W := W) hd input.devices
      dsimp only
      cases hab : input.aborted with
      | true => exact hs
      | false =>
        exact lockLost_foldl_inStep (slots W) List.nodup_range hs
          (fun i hi => obDevices_lockLost (hev (by omega) hab) hi)

/-! ## No entry is skipped -/

theorem foldl_tab_of_notMem {f : Daemon → Nat → Daemon}
    (hf : ∀ d i j, j ≠ i → (f d i).tab j = d.tab j) {j : Nat} : ∀ (is : List Nat) {d : Daemon},
    j ∉ is → (is.foldl f d).tab j = d.tab j
  | [], _, _ => rfl
  | i :: is, d, hj => by
    rw [List.mem_cons, not_or] at hj
    exact (foldl_tab_of_notMem hf is hj.2).trans (hf d i j hj.1)

/-- A loop whose turns touch only their own entry. -/
theorem foldl_turnsTo {f : Daemon → Nat → Daemon} (hf : ∀ d i j, j ≠ i → (f d i).tab j = d.tab j) :
    ∀ (is : List Nat), is.Nodup → ∀ {d : Daemon}, ∀ i ∈ is,
      ∃ dᵢ : Daemon, dᵢ.tab i = d.tab i ∧ (is.foldl f d).tab i = (f dᵢ i).tab i
  | [], _, _, i, hi => absurd hi List.not_mem_nil
  | j :: is, hnd, d, i, hi => by
    obtain ⟨hj, his⟩ := List.nodup_cons.mp hnd
    by_cases hij : i = j
    · subst hij
      exact ⟨d, rfl, foldl_tab_of_notMem hf is hj⟩
    · have hmem := (List.mem_cons.mp hi).resolve_left hij
      obtain ⟨dᵢ, htab, hturn⟩ := foldl_turnsTo hf is his (d := f d j) i hmem
      exact ⟨dᵢ, htab.trans (hf d j i hij), hturn⟩

theorem turnsToAll_foldl {turn : Daemon → Nat → Daemon} {node : Nat → Int}
    (hturn : ∀ d i, Touches (node i) i d (turn d i)) (d : Daemon) :
    TurnsToAll W turn d ((slots W).foldl turn d) :=
  foldl_turnsTo (fun d i j hj => (hturn d i).frame j hj) (slots W) List.nodup_range

theorem obTurn_handled (s : ObLoop) (dev : ObDevice) : DeviceHandled W s (obTurn W s dev) dev := by
  intro p hp hlock
  have hturn : (obTurn W s dev).d = (obUpdate W s.d s.flags p dev).1 := by
    unfold obTurn
    unfold obEntry at hp
    simp only [hp]
    rw [if_neg (by simp [hlock])]
  rw [hturn]
  exact obUpdate_online W s.d p s.flags dev

/-- **No pass skips an entry**, in no state. -/
theorem handle_passComplete (d : Daemon) : ∀ ev : HostEvent, PassComplete W d ev
  | .lanDown lanPort =>
    turnsToAll_foldl (fun d i => lanDownEntry_touches W d i lanPort)
      { d with lanPortStatus := Function.update d.lanPortStatus lanPort false }
  | .bridgeDev macaddr ipaddr =>
    turnsToAll_foldl (fun d i => alinkBridgeEntry_touches W d i _ ipaddr) d
  | .check none => turnsToAll_foldl clearExist_touches d
  | .check (some lines) =>
    ⟨turnsToAll_foldl clearExist_touches d,
      turnsToAll_foldl (fun d i => checkEntry_touches W d i _) _⟩
  | .checkOB (some input) => by
    intro hperiod
    refine ⟨fun before dev after _ => ?_, fun hab => ?_⟩
    · rw [obDevices, obDevices, List.foldl_append]
      exact obTurn_handled _ dev
    · have hpass : d.handle W (.checkOB (some input)) = (slots W).foldl
          (lockLostTurn W (obDevices W d input.devices).lanHostEntry)
          (obDevices W d input.devices).d := by
        unfold Daemon.handle checkOBLanHostUpdate
        dsimp only
        rw [if_neg (by omega), if_neg (by simp [hab])]
      rw [hpass]
      exact turnsToAll_foldl (fun d i => lockLostTurn_touches W d i _) _
  | .checkOB none | .wifiUpdate _ | .dhcpUpdate _ _ | .lanUp _ | .arpAdd _ _ _ | .arpDel _ _
  | .ipv6Only _ _ => trivial

/-! ## Runs -/

theorem handle_inStep (hd : NodesInStep d) {ev : HostEvent} (hev : EventInStep W d ev) :
    NodesInStep (d.handle W ev) := by
  cases ev with
  | wifiUpdate data => exact wifiUpdateHandler_inStep hd data
  | dhcpUpdate type macaddr => exact dhcpUpdateHander_inStep hd type macaddr
  | lanUp lanPort => exact hd
  | lanDown lanPort =>
    exact NodesInStep.foldl (fun d i => lanDownEntry_touches W d i lanPort) (slots W) hd
  | arpAdd lladdr abuf ipv6 => exact arpAddHandler_inStep hd lladdr abuf ipv6
  | arpDel lladdr abuf => exact hd
  | bridgeDev macaddr ipaddr =>
    exact hd.foldl (fun d i => alinkBridgeEntry_touches W d i _ ipaddr) (slots W)
  | ipv6Only mac ipv6addr => exact lanHostIpv6onlyUpdate_inStep hd mac ipv6addr
  | check stbList => exact checkLanHostUpdate_inStep hd stbList
  | checkOB input => exact checkOBLanHostUpdate_inStep hd hev

end

theorem handleAll_inStep (W : World) : ∀ (evs : List HostEvent) {d : Daemon}, NodesInStep d →
    RunInStep W d evs → ∀ n, NodesInStep (d.handleAll W (evs.take n))
  | [], _, hd, _, n => by simpa [Daemon.handleAll] using hd
  | ev :: evs, d, hd, hrun, n => by
    cases n with
    | zero => exact hd
    | succ n => exact handleAll_inStep W evs (handle_inStep hd hrun.1) hrun.2 n

theorem initLanHostInfo_inStep (W : World) (status : Nat → Bool)
    (conf : Nat → Option LanHostEntry) : NodesInStep (initLanHostInfo W status conf) := by
  refine NodesInStep.foldl (fun d i => ?_) (slots W) (by simp [NodesInStep])
  unfold initLanHostEntry
  split
  · exact Touches.refl d
  · exact (Touches.put d _).trans (setLanHostOffline_touches W _ i i)

/-! ## The wrong index -/

/-- A bridged device. -/
def bridged (b : Fin 256) (port : Nat) : ObDevice where
  mac _ := b
  port := port
  addr := .other
  ppp := false

/-- Five periodic checks; the last one reads the devices. -/
def obPass (devices : List ObDevice) : List HostEvent :=
  List.replicate 4 (.checkOB none) ++ [.checkOB (some { devices := devices, aborted := false })]

theorem twoHosts_eventInStep {d : Daemon} {input : ObInput}
    (hroom : (newMacs d 2 input.devices.dropLast).card ≤ (freeSlots d 2).card)
    (hlocked : ∀ i ∈ slots twoHosts, (d.tab i).lockLost ≠ 0 →
      (d.tab i).valid = true ∧ (d.tab i).otherBrDev = false) :
    EventInStep twoHosts d (.checkOB (some input)) := by
  intro _ _ i hi hlock
  obtain ⟨hvalid, hdev⟩ := hlocked i hi hlock
  exact ⟨hvalid, .inr ⟨2, Nat.le_refl 2, fun _ => Nat.le_refl 2, hroom⟩,
    fun h => absurd h (by simp [hdev])⟩

/-- Two bridged devices appear, and the link of port 1 goes down. Device `1` is still reported and
left alone; then device `3` is reported after device `2` and takes the locked entry. -/
def lockedRun : List HostEvent :=
  obPass [bridged 1 1, bridged 2 2] ++ [.lanDown 0] ++ obPass [bridged 1 1, bridged 2 2] ++
    obPass [bridged 2 2, bridged 3 1]

/-- Device `1` of port 1 leaves while device `2` stays; then device `3` takes its entry. -/
def recycledRun : List HostEvent :=
  obPass [bridged 1 1, bridged 2 2] ++ [.lanDown 0] ++ obPass [bridged 3 1, bridged 2 2]

end OnuFirmware.LanHost
