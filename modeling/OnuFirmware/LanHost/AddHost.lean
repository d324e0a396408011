import OnuFirmware.LanHost.KeyEffects

/-!
# Whose address a new host gets

`add_lan_host` looks for an address twice: first while the slot still has the MAC of its previous
owner, then with the new MAC. It clears neither the address nor the host name in between, and the
second look-up leaves alone what the first one found.
-/

namespace OnuFirmware.LanHost

open Clib

/-! ## The look-up of one slot -/

/-- What `set_lan_host_entry` reads and writes of an entry, and the time. -/
structure Slot where
  mac : Str := []
  hostName : Str := []
  ip : Str := []
  ipFlag : Bool := false
  hostNameFlag : Bool := false
  now : Nat
deriving Repr, DecidableEq

namespace Slot

variable (W : World) (node : Int) (s : Slot)

/-- Lets time pass. -/
def tick : Slot := { s with now := s.now + 1 }

/-- What is left after a write to the node: nothing if the node is gone. -/
def written : Slot := if W.hasMac s.now node then s.tick else { now := s.now + 1 }

/-- The slot has the address of its lease already. -/
def leaseKept (ip : Str) : Bool := s.hostNameFlag && strcaseEq s.ip ip && s.ipFlag

/-- The slot has an address, so the ARP table is not asked. -/
def addressKept : Bool := s.ipFlag && s.ip ≠ []

/-- The slot after the ARP table was asked for its MAC, unless it has an address. -/
def fromArp : Slot :=
  if s.addressKept then s
  else
    match W.arp s.now s.mac with
    | some ip => written W node { s.tick with ip := ip.take ipAddrLen, ipFlag := true }
    | none => s.tick

/-- The slot after the lease file and the ARP table were asked for its MAC. -/
def lookUp : Slot :=
  match W.lease s.now s.mac with
  | some ip =>
    if s.leaseKept ip then s.tick
    else
      written W node
        { s.tick with hostName := (W.leaseName s.now s.mac).take hostnameLen,
                      ip := ip.take ipAddrLen, hostNameFlag := true, ipFlag := true }
  | none => fromArp W node s.tick

/-- The slot after it was given to another MAC. -/
def reassigned (mac : Str) : Slot := { s.tick with mac := mac }

end Slot

/-- The slot that an entry describes. -/
def LanHostEntry.slot (e : LanHostEntry) (now : Nat) : Slot :=
  { mac := e.mac, hostName := e.hostName, ip := e.ip, ipFlag := e.ipFlag,
    hostNameFlag := e.hostNameFlag, now := now }

/-- The slot of an entry of the table. -/
def Daemon.slot (d : Daemon) (p : Nat) : Slot := (d.tab p).slot d.now

/-! ## Statement -/

/-- The address is one that the lease file or the ARP table lists for the MAC. -/
def Listed (W : World) (mac ip : Str) : Prop :=
  ∃ t a, (W.lease t mac = some a ∨ W.arp t mac = some a) ∧
    (ip = a.take ipAddrLen ∨ strcaseEq ip a = true)

/-- The name is one that the lease file lists for the MAC. -/
def Named (W : World) (mac name : Str) : Prop :=
  ∃ t, (W.lease t mac).isSome = true ∧ name = (W.leaseName t mac).take hostnameLen

/-- **What a slot may hold** after it was given to a MAC: an address of that MAC or none, and
nothing of another owner. -/
structure OwnData (W : World) (old new : Str) (s : Slot) : Prop where
  ip : s.ip = [] ∨ Listed W new s.ip
  mac : s.mac = [] ∨ s.mac = new
  hostName : old = new ∨ s.hostName = [] ∨ Named W new s.hostName

/-- The lease file lists an address that the slot does not have yet. -/
def LeaseTaken (W : World) (s : Slot) : Prop :=
  ∃ ip, W.lease s.now s.mac = some ip ∧ s.leaseKept ip = false

/-- The ARP table lists an address, the lease file does not, and the slot has none. -/
def ArpTaken (W : World) (s : Slot) : Prop :=
  W.lease s.now s.mac = none ∧ s.addressKept = false ∧ (W.arp (s.now + 1) s.mac).isSome = true

/-- What the slot holds belongs to its MAC or will be replaced, if an address is looked up for it at
all (`asked`). -/
structure Replaceable (W : World) (node : Int) (old : Str) (asked : Prop) (s : Slot) : Prop where
  ip : s.ip = [] ∨ Listed W s.mac s.ip ∨ (asked ∧ (LeaseTaken W s ∨ ArpTaken W s))
  hostName : old = s.mac ∨ s.hostName = [] ∨ Named W s.mac s.hostName ∨
    (asked ∧ (LeaseTaken W s ∨ (ArpTaken W s ∧ W.hasMac (s.now + 2) node = false)))

/-- The MAC as an entry stores it. -/
def storedMac (mac : Str) : Str := (macRmDot mac).take devMacAddrLen

section

variable (W : World) (d : Daemon) (p : Nat) (mac : Str) (node : Int) (connType : Nat) (port : Int)

/-- `add_lan_host` gives the slot to the MAC: it does not return at its first test. -/
def Adds : Prop :=
  (addInform (setLanHostEntry W d p node).1 (macRmDot mac)
    ((setLanHostEntry W d p node).2.tab p)).1 = true

instance : Decidable (Adds W d p mac node) := inferInstanceAs (Decidable (_ = true))

/-- What the slot brings along: what is listed for its old MAC, else what it holds. -/
def brought : Slot := (d.slot p).lookUp W node

/-- The host is not on a LAN port, or the duplex mode of the port is known. -/
def Asked : Prop := connType ≠ 0 ∨ W.lanPortDuplex (brought W d p node).now port = true

/-- **When the slot ends up with data of its new owner only**: what it brings along belongs to the
new owner too, or is replaced. -/
def BringsNothing : Prop :=
  Replaceable W node (d.tab p).mac (Asked W d p node connType port)
    ((brought W d p node).reassigned (storedMac mac))

end

/-! ## The model looks up one slot -/

section

variable (W : World) (d : Daemon) (p : Nat) (node : Int)

@[simp] theorem checkIpv6DeviceInform_slot (e : LanHostEntry) (now : Nat) :
    (checkIpv6DeviceInform e).2.slot now = e.slot now := by
  obtain ⟨flag, cnt, h⟩ := checkIpv6DeviceInform_snd e
  rw [h]
  rfl

@[simp] theorem slot_put (e : LanHostEntry) : (d.put p e).slot p = e.slot d.now := by
  simp [Daemon.slot, Daemon.put]

@[simp] theorem slot_tick : d.tick.slot p = (d.slot p).tick := rfl

@[simp] theorem slot_access (ops : List NodeOp) : (d.access node p ops).slot p = d.slot p := rfl

/-- A write to the node for flags that neither make nor remove it. -/
theorem syncLanHostInfo_slot {flags : List SyncFlag} (hne : flags ≠ [])
    (hdel : .delEntry ∉ flags) (hnew : .newEntry ∉ flags) :
    (syncLanHostInfo W d node p flags).slot p = (d.slot p).written W node := by
  unfold syncLanHostInfo Slot.written
  rw [if_neg hne, if_neg hdel]
  by_cases hmac : W.hasMac d.now node = true
  · have hnow : W.hasMac (d.slot p).now node = true := hmac
    rw [if_neg (by simp [hmac]), if_pos hnow]
    dsimp only
    split
    · rw [slot_put]
      exact checkIpv6DeviceInform_slot _ _
    · rw [slot_put]
      exact checkIpv6DeviceInform_slot _ _
  · have hnow : ¬ W.hasMac (d.slot p).now node = true := hmac
    rw [if_pos ⟨hnew, by simpa using hmac⟩, if_neg hnow, slot_put]
    rfl

/-- A write to a new node only takes time. -/
theorem syncLanHostInfo_slot_new {flags : List SyncFlag} (hdel : .delEntry ∉ flags)
    (hnew : .newEntry ∈ flags) : (syncLanHostInfo W d node p flags).slot p = (d.slot p).tick := by
  unfold syncLanHostInfo
  rw [if_neg (List.ne_nil_of_mem hnew), if_neg hdel, if_neg (by simp [hnew])]
  dsimp only
  split
  · rw [slot_put]
    exact checkIpv6DeviceInform_slot _ _
  · rw [slot_put]
    exact checkIpv6DeviceInform_slot _ _

theorem setIpFromArp_slot :
    (setIpFromArp W d p node).2.slot p = (d.slot p).fromArp W node := by
  have harp : W.arp (d.slot p).now (d.slot p).mac = W.arp d.now (d.tab p).mac := rfl
  unfold setIpFromArp Slot.fromArp
  dsimp only
  rw [harp]
  by_cases hkept : ((d.tab p).ipFlag && (d.tab p).ip ≠ []) = true
  · have hkept' : (d.slot p).addressKept = true := hkept
    rw [if_pos hkept, if_pos hkept']
  · have hkept' : ¬ (d.slot p).addressKept = true := hkept
    rw [if_neg hkept, if_neg hkept']
    cases W.arp d.now (d.tab p).mac with
    | none => rfl
    | some ip =>
      rw [syncLanHostInfo_slot W _ p node (by simp) (by simp) (by simp), slot_put]
      rfl

theorem setIpFromDhcp_none (hlease : W.lease d.now (d.tab p).mac = none) :
    setIpFromDhcp W d p node = (false, d.tick) := by
  simp [setIpFromDhcp, hlease]

theorem setIpFromDhcp_some {ip : Str} (hlease : W.lease d.now (d.tab p).mac = some ip) :
    (setIpFromDhcp W d p node).1 = true ∧
      (setIpFromDhcp W d p node).2.slot p = (d.slot p).lookUp W node := by
  have hlease' : W.lease (d.slot p).now (d.slot p).mac = some ip := hlease
  unfold setIpFromDhcp Slot.lookUp
  simp only [hlease, hlease']
  by_cases hkept : (d.slot p).leaseKept ip = true
  · have hcond : ¬ (!(d.tab p).hostNameFlag || !strcaseEq (d.tab p).ip ip || !(d.tab p).ipFlag) =
        true := by
      simpa [Slot.leaseKept, Daemon.slot, LanHostEntry.slot, and_assoc] using hkept
    rw [if_neg hcond, if_pos hkept]
    exact ⟨rfl, rfl⟩
  · have hcond : (!(d.tab p).hostNameFlag || !strcaseEq (d.tab p).ip ip || !(d.tab p).ipFlag) =
        true := by
      simpa [Slot.leaseKept, Daemon.slot, LanHostEntry.slot, or_assoc, imp_iff_not_or] using hkept
    rw [if_pos hcond, if_neg hkept]
    refine ⟨rfl, ?_⟩
    dsimp only
    rw [syncLanHostInfo_slot W _ p node (by simp) (by simp) (by simp), slot_put]
    rfl

/-- **`set_lan_host_entry` looks one slot up.** -/
theorem setLanHostEntry_slot :
    (setLanHostEntry W d p node).2.slot p = (d.slot p).lookUp W node := by
  unfold setLanHostEntry
  dsimp only
  cases hlease : W.lease d.now (d.tab p).mac with
  | none =>
    have hlease' : W.lease (d.slot p).now (d.slot p).mac = none := hlease
    rw [setIpFromDhcp_none W d p node hlease, Slot.lookUp, hlease']
    exact setIpFromArp_slot W d.tick p node
  | some ip =>
    obtain ⟨hret, hslot⟩ := setIpFromDhcp_some W d p node hlease
    rw [if_pos hret]
    exact hslot

/-! ## What `add_lan_host` leaves in the slot -/

@[simp] theorem addInform_slot (ipOk : Bool) (newMac : Str) (e : LanHostEntry) (now : Nat) :
    (addInform ipOk newMac e).2.slot now = e.slot now := by
  unfold addInform
  split
  · exact checkIpv6DeviceInform_slot e now
  · rfl

theorem informed_slot (e : LanHostEntry) (now : Nat) :
    (if (checkIpv6DeviceInform e).1 then
        { (checkIpv6DeviceInform e).2 with exist := 1, active := true }
      else (checkIpv6DeviceInform e).2 : LanHostEntry).slot now = e.slot now := by
  split
  · exact checkIpv6DeviceInform_slot e now
  · exact checkIpv6DeviceInform_slot e now

@[simp] theorem addedState_slot (ipOk : Bool) (e : LanHostEntry) (now : Nat) :
    (addedState ipOk e).2.slot now = e.slot now := by
  have hstate : (if ipOk then { e with exist := 1, active := true }
      else if e.connType = 1 then { e with exist := wifiOnlining, active := false }
      else e : LanHostEntry).slot now = e.slot now := by
    split
    · rfl
    split
    · rfl
    · rfl
  exact (informed_slot _ now).trans hstate

theorem claimEntry_slot (e : LanHostEntry) (newMac : Str) (connType : Nat) (port : Int)
    (bound ipOk : Bool) (now : Nat) :
    (claimEntry e newMac connType port bound ipOk).slot now =
      { e.slot now with mac := newMac.take devMacAddrLen } := by
  have hinform := checkIpv6DeviceInform_slot { e with valid := true, exist := 1 } now
  have hclaim : (if connType = 0 then
        let inform := checkIpv6DeviceInform { e with valid := true, exist := 1 }
        if inform.1 then { inform.2 with active := true } else inform.2
      else { e with valid := true } : LanHostEntry).slot now = e.slot now := by
    split
    · dsimp only
      split
      · exact hinform
      · exact hinform
    · rfl
  unfold claimEntry
  dsimp only
  split
  · exact congrArg (fun s : Slot => { s with mac := newMac.take devMacAddrLen }) hclaim
  · exact congrArg (fun s : Slot => { s with mac := newMac.take devMacAddrLen }) hclaim

theorem addSettle_slot {flags : List SyncFlag} (hdel : .delEntry ∉ flags) :
    (addSettle W d p node flags).slot p = ((d.slot p).lookUp W node).tick := by
  unfold addSettle
  dsimp only
  rw [syncLanHostInfo_slot_new W _ p node (by split <;> simp [hdel]) (by simp), slot_put,
    addedState_slot]
  exact congrArg Slot.tick (setLanHostEntry_slot W d p node)

/-- **What `add_lan_host` leaves in the slot**: what it brought along under the new MAC, looked up
again if the host is asked for. -/
theorem addLanHost_slot {mac : Str} {connType : Nat} {port : Int} (h : Adds W d p mac node) :
    (addLanHost W d p mac node connType port).slot p =
      if connType = 0 ∧ W.lanPortDuplex (brought W d p node).now port = false then
        (brought W d p node).reassigned (storedMac mac)
      else (((brought W d p node).reassigned (storedMac mac)).lookUp W node).tick := by
  have hbrought : (setLanHostEntry W d p node).2.slot p = brought W d p node :=
    setLanHostEntry_slot W d p node
  have hnow : (brought W d p node).now = (setLanHostEntry W d p node).2.now :=
    congrArg Slot.now hbrought.symm
  have hclaim (bound : Bool) :
      ((setLanHostEntry W d p node).2.put p (claimEntry (addInform (setLanHostEntry W d p node).1
        (macRmDot mac) ((setLanHostEntry W d p node).2.tab p)).2 (macRmDot mac) connType port bound
        (setLanHostEntry W d p node).1)).tick.slot p =
      (brought W d p node).reassigned (storedMac mac) := by
    rw [slot_tick, slot_put, claimEntry_slot, addInform_slot, ← hbrought]
    rfl
  unfold Adds at h
  unfold addLanHost
  dsimp only
  rw [if_neg (by simp [h]), hnow]
  split
  · exact hclaim _
  · have hdel : SyncFlag.delEntry ∉
        (if (((setLanHostEntry W d p node).2.tab p).port : Int) ≠ port then [.updatePort]
            else []) ++
          (if connType = 0 then [.updateNegorate, .updateDuplexmode] else []) := by
      split <;> split <;> simp
    rw [addSettle_slot W _ p node hdel, hclaim]

/-! ## The slot belongs to its new owner -/

variable {W node}

/-- The name and the address after a lease was taken over are those of the lease, or the slot is
cleared. -/
theorem lookUp_of_leaseTaken {s : Slot} (h : LeaseTaken W s) :
    ((s.lookUp W node).ip = [] ∨ Listed W s.mac (s.lookUp W node).ip) ∧
      ((s.lookUp W node).hostName = [] ∨ Named W s.mac (s.lookUp W node).hostName) ∧
      ((s.lookUp W node).mac = [] ∨ (s.lookUp W node).mac = s.mac) := by
  obtain ⟨ip, hlease, hkept⟩ := h
  unfold Slot.lookUp
  rw [hlease]
  dsimp only
  rw [if_neg (by simp [hkept]), Slot.written]
  split
  · exact ⟨.inr ⟨s.now, ip, .inl hlease, .inl rfl⟩, .inr ⟨s.now, by rw [hlease]; rfl, rfl⟩,
      .inr rfl⟩
  · exact ⟨.inl rfl, .inl rfl, .inl rfl⟩

/-- An entry of the ARP table gives the slot its address and leaves the name, unless the slot is
cleared. -/
theorem lookUp_of_arpTaken {s : Slot} (h : ArpTaken W s) :
    ((s.lookUp W node).ip = [] ∨ Listed W s.mac (s.lookUp W node).ip) ∧
      (s.lookUp W node).hostName = (if W.hasMac (s.now + 2) node then s.hostName else []) ∧
      ((s.lookUp W node).mac = [] ∨ (s.lookUp W node).mac = s.mac) := by
  obtain ⟨hlease, hkept, harp⟩ := h
  obtain ⟨ip, hip⟩ := Option.isSome_iff_exists.mp harp
  have hkept' : s.tick.addressKept = false := hkept
  have hip' : W.arp s.tick.now s.tick.mac = some ip := hip
  have hnow : ∀ a f, ({ s.tick.tick with ip := a, ipFlag := f } : Slot).now = s.now + 2 :=
    fun _ _ => rfl
  unfold Slot.lookUp
  rw [hlease]
  dsimp only
  rw [Slot.fromArp, if_neg (by simp [hkept']), hip']
  dsimp only
  rw [Slot.written, hnow]
  split
  · exact ⟨.inr ⟨s.now + 1, ip, .inr hip, .inl rfl⟩, rfl, .inr rfl⟩
  · exact ⟨.inl rfl, rfl, .inl rfl⟩

/-- Otherwise the look-up only takes time, and an address of the lease is in the slot already. -/
theorem lookUp_of_not_taken {s : Slot} (hlease : ¬ LeaseTaken W s) (harp : ¬ ArpTaken W s) :
    ∃ t, s.lookUp W node = { s with now := t } := by
  unfold Slot.lookUp
  cases h : W.lease s.now s.mac with
  | some ip =>
    dsimp only
    have hkept : s.leaseKept ip = true := by
      by_contra hkept
      exact hlease ⟨ip, h, by simpa using hkept⟩
    rw [if_pos hkept]
    exact ⟨_, rfl⟩
  | none =>
    dsimp only
    rw [Slot.fromArp]
    split
    · exact ⟨_, rfl⟩
    · rename_i hkept
      have hkept' : s.addressKept = false := by
        have : s.tick.addressKept = false := by simpa using hkept
        exact this
      have hnone : W.arp s.tick.now s.tick.mac = none := by
        by_contra hsome
        exact harp ⟨h, hkept', Option.isSome_iff_ne_none.mpr hsome⟩
      rw [hnone]
      exact ⟨_, rfl⟩

/-- After a look-up the slot holds data of its owner only, exactly if the rest was replaceable. -/
theorem ownData_lookUp_iff {old : Str} (s : Slot) :
    OwnData W old s.mac (s.lookUp W node) ↔ Replaceable W node old True s := by
  by_cases hlease : LeaseTaken W s
  · obtain ⟨hip, hname, hmac⟩ := @lookUp_of_leaseTaken W node s hlease
    constructor
    · intro _
      exact ⟨.inr (.inr ⟨trivial, .inl hlease⟩), .inr (.inr (.inr ⟨trivial, .inl hlease⟩))⟩
    · intro _
      exact ⟨hip, hmac, .inr hname⟩
  by_cases harp : ArpTaken W s
  · obtain ⟨hip, hname, hmac⟩ := @lookUp_of_arpTaken W node s harp
    by_cases hnode : W.hasMac (s.now + 2) node = true
    · rw [if_pos hnode] at hname
      constructor
      · rintro ⟨-, -, h⟩
        rw [hname] at h
        exact ⟨.inr (.inr ⟨trivial, .inr harp⟩), h.imp_right (Or.imp_right .inl)⟩
      · rintro ⟨-, h⟩
        refine ⟨hip, hmac, ?_⟩
        rw [hname]
        rcases h with h | h | h | ⟨-, h | ⟨-, h⟩⟩
        · exact .inl h
        · exact .inr (.inl h)
        · exact .inr (.inr h)
        · exact absurd h hlease
        · exact absurd (hnode.symm.trans h) (by simp)
    · rw [if_neg hnode] at hname
      constructor
      · intro _
        exact ⟨.inr (.inr ⟨trivial, .inr harp⟩),
          .inr (.inr (.inr ⟨trivial, .inr ⟨harp, by simpa using hnode⟩⟩))⟩
      · intro _
        exact ⟨hip, hmac, .inr (.inl hname)⟩
  · obtain ⟨t, ht⟩ := @lookUp_of_not_taken W node s hlease harp
    rw [ht]
    constructor
    · rintro ⟨hip, -, hname⟩
      exact ⟨hip.imp_right .inl, hname.imp_right (Or.imp_right .inl)⟩
    · rintro ⟨hip, hname⟩
      refine ⟨?_, .inr rfl, ?_⟩
      · rcases hip with hip | hip | ⟨-, h | h⟩
        · exact .inl hip
        · exact .inr hip
        · exact absurd h hlease
        · exact absurd h harp
      · rcases hname with h | h | h | ⟨-, h | ⟨h, -⟩⟩
        · exact .inl h
        · exact .inr (.inl h)
        · exact .inr (.inr h)
        · exact absurd h hlease
        · exact absurd h harp

/-- Without a look-up nothing is replaced. -/
theorem ownData_iff {old : Str} (s : Slot) :
    OwnData W old s.mac s ↔ Replaceable W node old False s := by
  constructor
  · rintro ⟨hip, -, hname⟩
    exact ⟨hip.imp_right .inl, hname.imp_right (Or.imp_right .inl)⟩
  · rintro ⟨hip, hname⟩
    refine ⟨?_, .inr rfl, ?_⟩
    · simpa using hip
    · simpa using hname

variable (W node)

/-- **`add_lan_host` leaves data of the new owner only, exactly if the slot brings nothing along**:
neither what it holds nor what is listed for its old MAC survives. -/
theorem addLanHost_ownData_iff {mac : Str} {connType : Nat} {port : Int}
    (h : Adds W d p mac node) :
    OwnData W (d.tab p).mac (storedMac mac)
        ((addLanHost W d p mac node connType port).slot p) ↔
      BringsNothing W d p mac node connType port := by
  rw [addLanHost_slot W d p node h, BringsNothing]
  split
  · next hport =>
    have hasked : Asked W d p node connType port ↔ False := by
      simp [Asked, hport]
    rw [hasked]
    exact ownData_iff ((brought W d p node).reassigned (storedMac mac))
  · next hport =>
    have hasked : Asked W d p node connType port ↔ True := by
      simpa [Asked, imp_iff_not_or] using hport
    rw [hasked]
    have htick : ∀ s : Slot, OwnData W (d.tab p).mac (storedMac mac) s.tick ↔
        OwnData W (d.tab p).mac (storedMac mac) s :=
      fun s => ⟨fun h => ⟨h.ip, h.mac, h.hostName⟩, fun h => ⟨h.ip, h.mac, h.hostName⟩⟩
    rw [htick]
    exact ownData_lookUp_iff ((brought W d p node).reassigned (storedMac mac))

end

/-! ## A recycled slot -/

/-- A lease file with one line. -/
def laptopLease (mac : Str) : Option Str :=
  if mac = "001122334455".toList then some "192.168.1.2".toList else none

/-- The lease file lists an address for one host only. -/
def oneLease : World :=
  { twoHosts with
    lease := fun _ => laptopLease
    leaseName := fun _ _ => "laptop".toList }

/-- A table whose first entry is a host that went offline. -/
def goneHost : Daemon :=
  twoHostsStart.put 0 { mac := "001122334455".toList, valid := true, offlineTime := 90 }

/-- The slot has no address when it is given to another host. -/
theorem addLanHost_ownData_iff_goneHost :
    Adds twoHosts goneHost 0 "665544332211".toList 0 ∧
      (OwnData twoHosts (goneHost.tab 0).mac (storedMac "665544332211".toList)
          ((addLanHost twoHosts goneHost 0 "665544332211".toList 0 1 1).slot 0) ↔
        BringsNothing twoHosts goneHost 0 "665544332211".toList 0 1 1) :=
  ⟨by decide, addLanHost_ownData_iff twoHosts goneHost 0 0 (by decide)⟩

theorem oneLease_ip : ((addLanHost oneLease goneHost 0 "665544332211".toList 0 1 1).slot 0).ip =
    "192.168.1.2".toList := by
  decide

theorem not_listed_oneLease (ip : Str) :
    ¬ Listed oneLease (storedMac "665544332211".toList) ip := by
  have hother : laptopLease (storedMac "665544332211".toList) = none := by decide
  rintro ⟨t, a, hlease | harp, -⟩
  · have hnone : oneLease.lease t (storedMac "665544332211".toList) = none := hother
    exact absurd (hnone.symm.trans hlease) (Option.some_ne_none a).symm
  · exact absurd harp (Option.some_ne_none a).symm

/-- The new host gets the address that is leased to the host before it. -/
theorem not_ownData : ¬ ∀ (W : World) (d : Daemon) (p : Nat) (mac : Str) (node : Int)
    (connType : Nat) (port : Int), Adds W d p mac node →
    OwnData W (d.tab p).mac (storedMac mac) ((addLanHost W d p mac node connType port).slot p) := by
  intro h
  have hown := h oneLease goneHost 0 "665544332211".toList 0 1 1 (by decide)
  rcases hown.ip with hip | hip
  · rw [oneLease_ip] at hip
    exact absurd hip (by decide)
  · exact not_listed_oneLease _ hip

end OnuFirmware.LanHost
