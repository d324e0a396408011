import OnuFirmware.LanHost.Table
import OnuFirmware.Lib.Least
import Mathlib.Data.Nat.Basic

/-!
# The entry that a new host replaces

When the table is full, `check_mac_exist` and `find_empty_lan_host_entry` look for the entry that is
offline since the earliest time and is not under control. Both loops start from `OFFLINE_TIME`,
which is one day, while `offline_time` is an uptime; so an entry that went offline later than one
day after the start of the device is never found.
-/

namespace OnuFirmware.LanHost

open Clib Lib

variable (W : World) (d : Daemon)

/-! ## Statement -/

/-- Slot `i` is used. -/
def Usable (i : Nat) : Prop := i ∈ usableSlots W d

/-- Every slot holds an entry, and so says `LANHostNumber`. -/
structure TableFull : Prop where
  valid : ∀ i, Usable W d i → (d.tab i).valid = true
  count : lanHostMaxNum W d = W.lanHostNumber d.now

/-- The entry has been offline, is not active and not under control. -/
def evictable (i : Nat) : Bool :=
  !(d.tab i).active && decide (0 < (d.tab i).offlineTime) && !W.controlStatus d.now i

/-- The entry of slot `i` may be replaced. -/
def Evictable (i : Nat) : Prop := Usable W d i ∧ evictable W d i = true

/-- No entry may be replaced before that of slot `i`. -/
def Oldest (i : Nat) : Prop :=
  Evictable W d i ∧ ∀ j, Evictable W d j → (d.tab i).offlineTime ≤ (d.tab j).offlineTime

/-- An entry of the table has the MAC. -/
def Known (mac : Str) (i : Nat) : Prop :=
  Usable W d i ∧ strcaseEq (d.tab i).mac (macRmDot mac) = true

/-- **What the two functions are to do** for a MAC: both give the same oldest entry, or both fail if
no entry may be replaced. For a MAC that is known `check_mac_exist` replaces nothing: it returns
`1`, or the index of an entry with that MAC. -/
structure EvictRight (mac : Str) (emptyIndex : Int) : Prop where
  found : ∀ i, Evictable W d i → ∃ k, Oldest W d k ∧ findEmptyLanHostEntry W d = some k ∧
    (∀ index, findEmptyIndex W d index = k) ∧
    ((∀ j, ¬ Known W d mac j) → (checkMacExist W d mac emptyIndex).1 = (true, (k : Int)))
  failed : (∀ i, ¬ Evictable W d i) → findEmptyLanHostEntry W d = none ∧
    (∀ index, findEmptyIndex W d index = -1) ∧
    ((∀ j, ¬ Known W d mac j) → (checkMacExist W d mac emptyIndex).1 = (true, -1))
  known : ∀ j, Known W d mac j → (checkMacExist W d mac emptyIndex).1.1 = false ∨
    ∃ k, Known W d mac k ∧ (checkMacExist W d mac emptyIndex).1 = (true, (k : Int))

/-! ## The search -/

/-- The variables of both loops after all slots. -/
def oldestOf : Nat × Int := (usableSlots W d).foldl (olderInactive W d) (offlineTimeMax, -1)

theorem olderInactive_eq :
    olderInactive W d = leastStep (evictable W d) (fun i => (d.tab i).offlineTime) Nat.cast := by
  funext acc i
  have hcond : (!(d.tab i).active && decide (0 < (d.tab i).offlineTime) &&
      decide ((d.tab i).offlineTime < acc.1) && !W.controlStatus d.now i) = true ↔
      evictable W d i = true ∧ (d.tab i).offlineTime < acc.1 := by
    simp only [evictable, Bool.and_eq_true, decide_eq_true_eq]
    exact and_right_comm
  exact if_congr hcond rfl rfl

/-- Nothing below `OFFLINE_TIME` is found, or the oldest entry. -/
theorem oldestOf_cases :
    ((∀ i, Evictable W d i → offlineTimeMax ≤ (d.tab i).offlineTime) ∧
        oldestOf W d = (offlineTimeMax, -1)) ∨
      ∃ i, Oldest W d i ∧ (d.tab i).offlineTime < offlineTimeMax ∧
        oldestOf W d = ((d.tab i).offlineTime, (i : Int)) := by
  rw [oldestOf, olderInactive_eq]
  rcases foldl_leastStep (evictable W d) (fun i => (d.tab i).offlineTime) (Nat.cast : Nat → Int)
    (usableSlots W d) (offlineTimeMax, -1) with ⟨hall, hfold⟩ | ⟨i, hi, hp, hlt, hleast, hfold⟩
  · exact .inl ⟨fun i hi => hall i hi.1 hi.2, hfold⟩
  · exact .inr ⟨i, ⟨⟨hi, hp⟩, fun j hj => hleast j hj.1 hj.2⟩, hlt, hfold⟩

/-- With no free slot the loop of `find_empty_lan_host_entry` runs to its end. -/
theorem findEmptyLoop_full : ∀ (l : List Nat) (acc : Nat × Int),
    (∀ i ∈ l, (d.tab i).valid = true) →
    findEmptyLoop W d l acc = .inr (l.foldl (olderInactive W d) acc).2
  | [], _, _ => rfl
  | i :: l, acc, h => by
    rw [findEmptyLoop, if_pos (h i List.mem_cons_self), List.foldl_cons]
    exact findEmptyLoop_full l _ fun j hj => h j (List.mem_cons_of_mem i hj)

/-- So does that of `check_mac_exist`, if no entry has the MAC. -/
theorem checkMacExistLoop_full (newMac : Str) : ∀ (l : List Nat) (b : Bool) (n : Int)
    (acc : Nat × Int), (∀ i ∈ l, (d.tab i).valid = true) →
    (∀ i ∈ l, strcaseEq (d.tab i).mac newMac = false) →
    checkMacExistLoop W d newMac l b n acc = .missing n (l.foldl (olderInactive W d) acc).2
  | [], _, _, _, _, _ => rfl
  | i :: l, b, n, acc, h, hmac => by
    rw [checkMacExistLoop, if_pos (h i List.mem_cons_self),
      if_neg (by simp [hmac i List.mem_cons_self]), List.foldl_cons]
    exact checkMacExistLoop_full newMac l b n _ (fun j hj => h j (List.mem_cons_of_mem i hj))
      fun j hj => hmac j (List.mem_cons_of_mem i hj)

/-- If an entry has the MAC the loop ends at such an entry. -/
theorem checkMacExistLoop_known (newMac : Str) : ∀ (l : List Nat) (b : Bool) (n : Int)
    (acc : Nat × Int), (∀ i ∈ l, (d.tab i).valid = true) →
    (∃ i ∈ l, strcaseEq (d.tab i).mac newMac = true) →
    ∃ i ∈ l, strcaseEq (d.tab i).mac newMac = true ∧
      (checkMacExistLoop W d newMac l b n acc = .noIp i ∨
        ∃ latest, checkMacExistLoop W d newMac l b n acc = .found i n latest)
  | [], _, _, _, _, h => absurd h (by simp)
  | i :: l, b, n, acc, hvalid, h => by
    rw [checkMacExistLoop, if_pos (hvalid i List.mem_cons_self)]
    by_cases hi : strcaseEq (d.tab i).mac newMac = true
    · refine ⟨i, List.mem_cons_self, hi, ?_⟩
      rw [if_pos hi]
      split
      · exact .inl rfl
      · exact .inr ⟨_, rfl⟩
    · rw [if_neg hi]
      obtain ⟨j, hj, hmac⟩ := h
      rcases List.mem_cons.mp hj with rfl | hj
      · exact absurd hmac hi
      · obtain ⟨k, hk, hres⟩ := checkMacExistLoop_known newMac l b n (olderInactive W d acc i)
          (fun m hm => hvalid m (List.mem_cons_of_mem i hm)) ⟨j, hj, hmac⟩
        exact ⟨k, List.mem_cons_of_mem i hk, hres⟩

variable {W d}

theorem TableFull.findEmptyLanHostEntry (h : TableFull W d) :
    findEmptyLanHostEntry W d =
      if 0 ≤ (oldestOf W d).2 then some (oldestOf W d).2.toNat else none := by
  rw [LanHost.findEmptyLanHostEntry, findEmptyLoop_full W d _ _ h.valid]
  simp only [h.count, true_and]
  rfl

theorem TableFull.findEmptyIndex (h : TableFull W d) (index : Int) :
    findEmptyIndex W d index = (oldestOf W d).2 := by
  rw [LanHost.findEmptyIndex, findEmptyLoop_full W d _ _ h.valid]
  simp only [h.count, if_true]
  rfl

theorem TableFull.checkMacExist (h : TableFull W d) {mac : Str} (hnew : ∀ j, ¬ Known W d mac j)
    (emptyIndex : Int) : (checkMacExist W d mac emptyIndex).1 = (true, (oldestOf W d).2) := by
  have hmac : ∀ i ∈ usableSlots W d, strcaseEq (d.tab i).mac (macRmDot mac) = false := by
    intro i hi
    by_contra hne
    exact hnew i ⟨hi, by simpa using hne⟩
  rw [LanHost.checkMacExist, checkMacExistLoop_full W d _ _ _ _ _ h.valid hmac]
  simp only [h.count, if_true]
  rfl

theorem TableFull.checkMacExist_known (h : TableFull W d) {mac : Str} {j : Nat}
    (hj : Known W d mac j) (emptyIndex : Int) :
    (LanHost.checkMacExist W d mac emptyIndex).1.1 = false ∨
      ∃ k, Known W d mac k ∧ (LanHost.checkMacExist W d mac emptyIndex).1 = (true, (k : Int)) := by
  obtain ⟨k, hk, hmac, hres | ⟨latest, hres⟩⟩ := checkMacExistLoop_known W d (macRmDot mac)
    (usableSlots W d) false emptyIndex (offlineTimeMax, -1) h.valid ⟨j, hj.1, hj.2⟩
  · refine .inr ⟨k, ⟨hk, hmac⟩, ?_⟩
    rw [LanHost.checkMacExist, hres]
  · refine .inl ?_
    rw [LanHost.checkMacExist, hres]

/-- **When the oldest entry is replaced**: if no entry may be replaced, or one that may be went
offline on the first day. -/
theorem evictRight_iff (h : TableFull W d) (mac : Str) (emptyIndex : Int) :
    EvictRight W d mac emptyIndex ↔
      ((∃ i, Evictable W d i) → ∃ i, Evictable W d i ∧ (d.tab i).offlineTime < offlineTimeMax) := by
  have hknown := fun j (hj : Known W d mac j) => h.checkMacExist_known hj emptyIndex
  rcases oldestOf_cases W d with ⟨hlate, hnone⟩ | ⟨k, hold, hlt, hfound⟩
  · -- nothing is found
    have hempty : findEmptyLanHostEntry W d = none := by
      rw [h.findEmptyLanHostEntry, hnone]
      rfl
    constructor
    · rintro hright ⟨i, hi⟩
      obtain ⟨k, -, hk, -⟩ := hright.found i hi
      rw [hempty] at hk
      cases hk
    · intro hex
      have hno : ∀ i, ¬ Evictable W d i := by
        intro i hi
        obtain ⟨j, hj, hlt⟩ := hex ⟨i, hi⟩
        exact absurd hlt (Nat.not_lt.mpr (hlate j hj))
      refine ⟨fun i hi => absurd hi (hno i), fun _ => ⟨hempty, fun index => ?_, fun hnew => ?_⟩,
        hknown⟩
      · rw [h.findEmptyIndex, hnone]
      · rw [h.checkMacExist hnew, hnone]
  · refine iff_of_true ⟨fun _ _ => ⟨k, hold, ?_, fun index => ?_, fun hnew => ?_⟩,
      fun hno => absurd hold.1 (hno k), hknown⟩ fun _ => ⟨k, hold.1, hlt⟩
    · rw [h.findEmptyLanHostEntry, hfound]
      simp
    · rw [h.findEmptyIndex, hfound]
    · rw [h.checkMacExist hnew, hfound]

/-- A table of one entry, which went offline after 25 hours. -/
def lateWorld : World where
  maxLanHostNum := 1
  hasMac _ _ := true
  lease _ _ := none
  arp _ _ := none
  leaseOrArp _ _ := false
  lanPortByMac _ _ := 1
  lanPortBind _ _ := false
  lanPortDuplex _ _ := true
  wifiExist _ _ := false
  controlStatus _ _ := false
  lanHostNumber _ := 1
  lanHostMaxNumber _ := 1
  uptime _ := 90100

/-- The daemon with that entry. -/
def lateDaemon : Daemon where
  tab _ := { valid := true, mac := "AABBCCDDEEFF".toList, exist := 1, offlineTime := 90000 }
  checkFlag _ := 0
  lanPortStatus _ := false
  periodSec := 0
  log := []
  now := 0

theorem tableFull_lateDaemon : TableFull lateWorld lateDaemon := ⟨fun _ _ => rfl, rfl⟩

/-- The entry may be replaced, and is not found. -/
theorem not_evictRight :
    TableFull lateWorld lateDaemon ∧ Evictable lateWorld lateDaemon 0 ∧
      findEmptyLanHostEntry lateWorld lateDaemon = none ∧
      ¬ EvictRight lateWorld lateDaemon "112233445566".toList (-1) := by
  have hslot : 0 ∈ usableSlots lateWorld lateDaemon := by decide
  have hmay : Evictable lateWorld lateDaemon 0 := ⟨hslot, rfl⟩
  have hnone : findEmptyLanHostEntry lateWorld lateDaemon = none := by decide
  refine ⟨tableFull_lateDaemon, hmay, hnone, fun h => ?_⟩
  obtain ⟨k, -, hk, -⟩ := h.found 0 hmay
  rw [hnone] at hk
  cases hk

/-- A table of four entries: one is online, three went offline at different times. -/
def fourWorld : World :=
  { lateWorld with
    maxLanHostNum := 4
    lanHostNumber := fun _ => 4
    lanHostMaxNumber := fun _ => 4 }

/-- The times at which the entries went offline. -/
def fourTimes : List Nat := [0, 5000, 3000, 90000]

/-- The daemon with these entries. -/
def fourDaemon : Daemon :=
  { lateDaemon with
    tab := fun i =>
      { valid := true, mac := "AABBCCDDEEF".toList ++ [Nat.digitChar i], exist := 1,
        active := i == 0, offlineTime := fourTimes.getD i 0 } }

/-- Of three entries that may be replaced both functions take the one that is offline for the
longest time, although another one is late. -/
theorem evictRight_iff_four :
    EvictRight fourWorld fourDaemon "112233445566".toList (-1) ∧
      findEmptyLanHostEntry fourWorld fourDaemon = some 2 := by
  have hfull : TableFull fourWorld fourDaemon := ⟨fun _ _ => rfl, rfl⟩
  have hslot : 1 ∈ usableSlots fourWorld fourDaemon := by decide
  have hmay : Evictable fourWorld fourDaemon 1 := ⟨hslot, by decide⟩
  exact ⟨(evictRight_iff hfull _ _).mpr fun _ => ⟨1, hmay, by decide⟩, by decide⟩

end OnuFirmware.LanHost
