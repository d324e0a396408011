import OnuFirmware.LanHost.Handlers

/-!
# What the operations on an entry touch

An operation that is called for the entry in slot `p` with the node `node` changes no other entry
and accesses no other node (`Touches`). The handlers call it with `node = p`, except the last loop
of `check_OB_lan_host_update` (`lockLostTurn_touches`).
-/

namespace OnuFirmware.LanHost

open Clib

/-! ## Entries -/

@[simp] theorem Daemon.tab_put_self (d : Daemon) (p : Nat) (e : LanHostEntry) :
    (d.put p e).tab p = e := Function.update_self ..

/-- The other entries stay. -/
theorem Daemon.tab_put_ne (d : Daemon) {p q : Nat} (e : LanHostEntry) (h : q ≠ p) :
    (d.put p e).tab q = d.tab q := Function.update_of_ne h ..

@[simp] theorem Daemon.tab_tick (d : Daemon) : d.tick.tab = d.tab := rfl

/-- An access to a node is only recorded. -/
@[simp] theorem Daemon.tab_access (d : Daemon) (node : Int) (p : Nat) (ops : List NodeOp) :
    (d.access node p ops).tab = d.tab := rfl

/-! ## The relation -/

/-- Only the entry in slot `p` changed, and only `node` was accessed, for that entry. -/
structure Touches (node : Int) (p : Nat) (d d' : Daemon) : Prop where
  frame : ∀ q, q ≠ p → d'.tab q = d.tab q
  log : ∃ ops : List NodeOp, d'.log = d.log ++ ops.map fun op => ⟨node, op, p⟩

namespace Touches

variable {node : Int} {p : Nat} {d d' d'' : Daemon}

/-- Nothing happened. -/
theorem refl (d : Daemon) : Touches node p d d := ⟨fun _ _ => rfl, [], by simp⟩

/-- Two operations on the same entry, one after the other. -/
theorem trans (h : Touches node p d d') (h' : Touches node p d' d'') : Touches node p d d'' := by
  obtain ⟨ops, hops⟩ := h.log
  obtain ⟨ops', hops'⟩ := h'.log
  refine ⟨fun q hq => (h'.frame q hq).trans (h.frame q hq), ops ++ ops', ?_⟩
  rw [hops', hops, List.map_append, List.append_assoc]

/-- The entry is written. -/
theorem put (d : Daemon) (e : LanHostEntry) : Touches node p d (d.put p e) :=
  ⟨fun _ hq => d.tab_put_ne e hq, [], by simp [Daemon.put]⟩

/-- The world is asked a question. -/
theorem tick (h : Touches node p d d') : Touches node p d d'.tick := ⟨h.frame, h.log⟩

/-- The node is accessed for the entry. -/
theorem access (node : Int) (p : Nat) (d : Daemon) (ops : List NodeOp) :
    Touches node p d (d.access node p ops) :=
  ⟨fun _ _ => rfl, ops, rfl⟩

/-- The flags of the periodic check are no part of the table. -/
theorem checkFlag (h : Touches node p d d') (flag : Nat → Int) :
    Touches node p d { d' with checkFlag := flag } := ⟨h.frame, h.log⟩

theorem put_of (h : Touches node p d d') (e : LanHostEntry) : Touches node p d (d'.put p e) :=
  h.trans (put d' e)

end Touches

/-! ## The operations -/

section

variable (W : World) (d : Daemon) (p : Nat) (node : Int)

/-- `sync_lan_host_info` is where nodes are accessed; it may clear the entry if the node is gone. -/
theorem syncLanHostInfo_touches (flags : List SyncFlag) :
    Touches node p d (syncLanHostInfo W d node p flags) := by
  unfold syncLanHostInfo
  split
  · exact Touches.refl d
  split
  · exact Touches.access node p d _
  split
  · exact (Touches.access node p d _).tick.put_of _
  · have hset := Touches.access node p d
      ((if .newEntry ∈ flags then [] else [.check]) ++
        (flags.flatMap (syncAttrs (checkIpv6DeviceInform (d.tab p)).2)).map NodeOp.set)
    dsimp only
    split
    · exact (hset.trans (Touches.access node p _ _)).tick.put_of _
    · exact hset.tick.put_of _

/-- The usual end of an operation: the entry is written, then its node. -/
theorem sync_put_touches (e : LanHostEntry) (flags : List SyncFlag) :
    Touches node p d (syncLanHostInfo W (d.put p e) node p flags) :=
  (Touches.put d e).trans (syncLanHostInfo_touches W _ p node flags)

theorem setIpFromDhcp_touches : Touches node p d (setIpFromDhcp W d p node).2 := by
  unfold setIpFromDhcp
  dsimp only
  split
  · exact (Touches.refl d).tick
  split
  · dsimp only
    exact (Touches.refl d).tick.trans (sync_put_touches W _ p node _ _)
  · exact (Touches.refl d).tick

/-- The address of the ARP table is taken only if the entry has none. -/
theorem setIpFromArp_touches : Touches node p d (setIpFromArp W d p node).2 := by
  unfold setIpFromArp
  dsimp only
  split
  · exact Touches.refl d
  split
  · exact (Touches.refl d).tick
  · dsimp only
    exact (Touches.refl d).tick.trans (sync_put_touches W _ p node _ _)

/-- The lease file is asked first, and the ARP table if it has nothing. -/
theorem setLanHostEntry_touches : Touches node p d (setLanHostEntry W d p node).2 := by
  unfold setLanHostEntry
  dsimp only
  split
  · exact setIpFromDhcp_touches W d p node
  · exact (setIpFromDhcp_touches W d p node).trans (setIpFromArp_touches W _ p node)

theorem setHostnameFromDhcp_touches : Touches node p d (setHostnameFromDhcp W d p node) := by
  unfold setHostnameFromDhcp
  dsimp only
  split
  · exact (Touches.refl d).tick.trans (sync_put_touches W _ p node _ _)
  · exact (Touches.refl d).tick

/-- The second look-up of `add_lan_host`, under the new MAC. -/
theorem addSettle_touches (flags : List SyncFlag) :
    Touches node p d (addSettle W d p node flags) :=
  (setLanHostEntry_touches W d p node).trans (sync_put_touches W _ p node _ _)

/-- The whole of `add_lan_host`, whichever way it ends. -/
theorem addLanHost_touches (mac : Str) (connType : Nat) (port : Int) :
    Touches node p d (addLanHost W d p mac node connType port) := by
  have hset := setLanHostEntry_touches W d p node
  unfold addLanHost
  dsimp only
  split
  · exact hset
  split
  · exact (hset.put_of _).tick
  · exact (hset.put_of _).tick.trans (addSettle_touches W _ p node _)

/-- The entry is cleared before its node is deleted. -/
theorem delLanHost_touches : Touches node p d (delLanHost W d p node) :=
  sync_put_touches W d p node _ _

/-- The last part of `set_lan_host_online`. -/
theorem onlineSettle_touches : Touches node p d (onlineSettle W d p node) := by
  unfold onlineSettle
  dsimp only
  split
  · exact (Touches.put d _).tick
  · exact (Touches.put d _).tick.trans (syncLanHostInfo_touches W _ p node _)

/-- An entry that is online already, or has nothing to inform about, is left as it is. -/
theorem setLanHostOnline_touches (ipFlag : Bool) :
    Touches node p d (setLanHostOnline W d p node ipFlag) := by
  unfold setLanHostOnline
  dsimp only
  split
  · exact Touches.refl d
  split
  · exact Touches.refl d
  split
  · exact ((Touches.put d _).trans (setLanHostEntry_touches W _ p node)).trans
      (onlineSettle_touches W _ p node)
  · exact (Touches.put d _).trans (onlineSettle_touches W _ p node)

/-- The time is asked for and stored with the entry. -/
theorem setLanHostOffline_touches : Touches node p d (setLanHostOffline W d p node) :=
  (Touches.refl d).tick.trans (sync_put_touches W _ p node _ _)

end

/-! ## The handlers -/

section

variable (W : World) (d : Daemon) (p : Nat)

theorem wifiSettle_touches : Touches p p d (wifiSettle d p) := by
  unfold wifiSettle
  dsimp only
  split
  · exact Touches.put d _
  · exact Touches.refl d

/-- The node is written only if the port is another one. -/
theorem updatePort_touches (port : Int) : Touches p p d (updatePort W d p port) := by
  unfold updatePort
  dsimp only
  split
  · exact sync_put_touches W d p p _ _
  · exact Touches.refl d

theorem arpTakeIp_touches (abuf : Str) (lanPort : Int) :
    Touches p p d (arpTakeIp W d p abuf lanPort) := by
  unfold arpTakeIp
  dsimp only
  split
  · exact Touches.refl d
  · exact (Touches.refl d).tick.trans (sync_put_touches W _ p p _ _)

theorem arpOnline_touches : Touches p p d (arpOnline W d p) := by
  unfold arpOnline
  split
  · exact setLanHostOnline_touches W d p p false
  · exact Touches.refl d

/-- An IPv4 address of the entry: it may be taken, and the entry may go online. -/
theorem arpAddIpv4_touches (abuf : Str) : Touches p p d (arpAddIpv4 W d p abuf) := by
  have hput : ∀ e, Touches p p d (d.tick.put p e) := fun e => (Touches.refl d).tick.put_of e
  unfold arpAddIpv4
  dsimp only
  split
  · split
    · exact ((hput _).trans (arpTakeIp_touches W _ p abuf _)).trans (arpOnline_touches W _ p)
    · exact hput _
  split
  · exact hput _
  · exact (hput _).trans (sync_put_touches W _ p p _ _)

/-- The mark starts the countdown; the flag for the next passes is no part of the table. -/
theorem markIpv6Only_touches : Touches p p d (markIpv6Only d p) := by
  unfold markIpv6Only
  dsimp only
  split
  · exact Touches.put d _
  · exact (Touches.put d _).checkFlag _

/-- An address that is new is written, and the entry may go online. -/
theorem ipv6onlyFound_touches (ipv6addr : Str) :
    Touches p p d (ipv6onlyFound W d p ipv6addr) := by
  have hmark : Touches p p d (if (d.tab p).ipv6 = ipv6addr then d
      else syncLanHostInfo W (markIpv6Only d p) p p [.updateIpv6]) := by
    split
    · exact Touches.refl d
    · exact (markIpv6Only_touches d p).trans (syncLanHostInfo_touches W _ p p _)
  unfold ipv6onlyFound
  dsimp only
  revert hmark
  generalize (if (d.tab p).ipv6 = ipv6addr then d else _) = marked
  intro hmark
  split
  · exact hmark
  · exact (hmark.trans (markIpv6Only_touches _ p)).trans (setLanHostOnline_touches W _ p p false)

/-- One turn of the loop that follows when a LAN port goes down. -/
theorem lanDownEntry_touches (lanPort : Nat) : Touches p p d (lanDownEntry W lanPort d p) := by
  unfold lanDownEntry
  dsimp only
  split
  · exact (Touches.put d _).trans (setLanHostOffline_touches W _ p p)
  · exact Touches.refl d

theorem alinkBridgeEntry_touches (mac ipaddr : Str) :
    Touches p p d (alinkBridgeEntry W mac ipaddr d p) := by
  unfold alinkBridgeEntry
  dsimp only
  split
  · split
    · exact ((Touches.refl d).tick.trans (sync_put_touches W _ p p _ _)).trans
        (setLanHostOnline_touches W _ p p false)
    · exact (Touches.refl d).tick
  · exact Touches.refl d

/-! ### The checking thread -/

/-- The first loop of the periodic check. -/
theorem clearExist_touches : Touches p p d (clearExist d p) := Touches.put d _

/-- A host at a LAN port is looked up again and may go online. -/
theorem recheckLan_touches (port : Int) : Touches p p d (recheckLan W port d p) := by
  have hset : Touches p p d (setLanHostEntry W d.tick p p).2 :=
    (Touches.refl d).tick.trans (setLanHostEntry_touches W _ p p)
  unfold recheckLan
  dsimp only
  split
  · generalize (if (_ || _) = true then (true, _) else _ : Bool × LanHostEntry) = inform
    split
    · refine Touches.checkFlag (Touches.trans ?_ (setLanHostOnline_touches W _ p p true)) _
      split
      · exact (hset.put_of _).trans (sync_put_touches W _ p p _ _)
      · exact hset.put_of _
    · exact hset
  · exact (Touches.refl d).tick

/-- The same for a station. -/
theorem recheckWifi_touches : Touches p p d (recheckWifi W d p) := by
  unfold recheckWifi
  dsimp only
  split
  · refine Touches.checkFlag (Touches.trans ?_ (setLanHostOnline_touches W _ p p false)) _
    exact (Touches.refl d).tick.trans (syncLanHostInfo_touches W _ p p _)
  · exact (Touches.refl d).tick

theorem recheckEntry_touches (port : Int) : Touches p p d (recheckEntry W port d p) := by
  unfold recheckEntry
  dsimp only
  split
  · exact Touches.refl d
  · refine Touches.checkFlag ?_ _
    split
    · exact (Touches.put d _).trans (recheckLan_touches W _ p port)
    · exact (Touches.put d _).trans (recheckWifi_touches W _ p)

/-- The counters of an online entry are written; another one may be looked up again. -/
theorem countEntry_touches (port : Int) : Touches p p d (countEntry W port d p) := by
  unfold countEntry
  split
  · exact syncLanHostInfo_touches W d p p _
  split
  · exact recheckEntry_touches W d p port
  · exact Touches.refl d

theorem tick_offline_touches : Touches p p d (setLanHostOffline W d.tick p p) :=
  (Touches.refl d).tick.trans (setLanHostOffline_touches W _ p p)

/-- A host that was not seen goes offline. -/
theorem dropLost_touches : Touches p p d (dropLost W d p) := by
  unfold dropLost
  dsimp only
  split
  · exact tick_offline_touches W d p
  · exact (Touches.refl d).tick

/-- A host that was offline for too long is deleted. -/
theorem dropOld_touches : Touches p p d (dropOld W d p) := by
  unfold dropOld
  dsimp only
  split
  · exact (Touches.refl d).tick.trans (delLanHost_touches W _ p p)
  · exact (Touches.refl d).tick

theorem ageBridged_touches : Touches p p d (ageBridged W d p) := by
  unfold ageBridged
  dsimp only
  split
  · exact tick_offline_touches W d p
  · exact (Touches.refl d).tick

theorem nameEntry_touches (online : Bool) : Touches p p d (nameEntry W online d p) := by
  unfold nameEntry
  dsimp only
  split
  · exact (setHostnameFromDhcp_touches W d p p).put_of _
  · exact Touches.refl d

theorem idleEntry_touches : Touches p p d (idleEntry d p) := by
  unfold idleEntry
  dsimp only
  split
  · exact Touches.put d _
  · exact Touches.refl d

/-- One turn of the main loop of the periodic check, from its steps. -/
theorem checkEntry_touches (port : Int) : Touches p p d (checkEntry W port d p) := by
  have hdrop : Touches p p d (dropOld W (dropLost W (countEntry W port d p) p) p) :=
    ((countEntry_touches W d p port).trans (dropLost_touches W _ p)).trans (dropOld_touches W _ p)
  exact ((hdrop.trans (ageBridged_touches W _ p)).trans (nameEntry_touches W _ p _)).trans
    (idleEntry_touches _ p)

theorem obOnline_touches : Touches p p d (obOnline W d p) := by
  unfold obOnline
  dsimp only
  split
  · exact Touches.put d _
  · exact ((Touches.put d _).trans (setLanHostOnline_touches W _ p p false)).put_of _

/-- A device of another bridge that has an entry. -/
theorem obUpdate_touches (flags : List SyncFlag) (dev : ObDevice) :
    Touches p p d (obUpdate W d flags p dev).1 :=
  (obOnline_touches W d p).tick.trans (sync_put_touches W _ p p _ _)

/-- The exception: the entry of the turn, but the node of the last device. -/
theorem lockLostTurn_touches (lanHostEntry : Int) :
    Touches lanHostEntry p d (lockLostTurn W lanHostEntry d p) := by
  unfold lockLostTurn
  dsimp only
  split
  · exact Touches.refl d
  split
  · exact (Touches.put d _).trans (setLanHostOffline_touches W _ p lanHostEntry)
  · exact Touches.put d _

end

end OnuFirmware.LanHost
