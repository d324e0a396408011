import OnuFirmware.Lib.Place
import OnuFirmware.Clib.Scan
import OnuFirmware.Wan.DhcpFilter
import OnuFirmware.Wan.VlanGroup

/-!
# VLAN binding of the LAN ports (`vlan_binding.c`)

Each LAN port with VLAN binding has an attribute `mn` with items `m/n`: `m` is a VLAN id on the LAN
side and `n` the one of a WAN. `svc_wan_vlanbind_write` reads the items of all ports into an array
with 20 places for each port and computes the groups of the switch ports from it.

`sscanf` reads each item into the same variable, so an item that lacks a number gets the one of an
item before it, possibly of another port. The number of items is not checked.

The rules the function writes into a script are there as the marks of the WANs found; the traffic
classes and the commands that delete rules are left out.
-/

namespace OnuFirmware.Wan

open Lib Clib Cfg

/-- The flags and the number of PVCs of a build. -/
structure VlanBuild where
  wlanAc : Bool
  pvcNum : Nat

/-- `MAX_LAN_PORT_NUM`. -/
def VlanBuild.lanPortNum (b : VlanBuild) : Nat := if b.wlanAc then 14 else 10

/-- `vlan_map_t`. -/
structure VlanMap where
  m : Int
  n : Int
deriving Repr, DecidableEq

/-- A rule of the script: frames with id `m` that come from the port get the mark. -/
structure VlanMark where
  port : Nat
  m : Int
  mark : Nat
deriving Repr, DecidableEq

/-- A store into `vlanMapArray[port][ii]`. -/
structure VlanStore where
  port : Nat
  ii : Nat
  pair : VlanMap
deriving Repr, DecidableEq

/-- The return value of `isVlanBindActive` is 1. -/
def isVlanBindActive (cfg : Conf) (index : Nat) : Bool :=
  let got := cfgGetObjectAttr (cfg (vlanbindEntryNode (index + 1)) "Active".toList) [] 5
  decide (0 < got.1) && (got.2 == "Yes".toList || got.2 == "yes".toList)

/-- `sscanf(item, "%d/%d", &vlanMap.m, &vlanMap.n)`. -/
def scanPair (old : VlanMap) (item : Str) : VlanMap :=
  match scanD item with
  | some (m, '/' :: rest) =>
    match scanD rest with
    | some (n, _) => ⟨m, n⟩
    | none => ⟨m, old.n⟩
  | some (m, _) => ⟨m, old.n⟩
  | none => old

/-- Both ids are VLAN ids. -/
def VlanMap.valid (p : VlanMap) : Bool :=
  decide (1 ≤ p.m) && decide (p.m ≤ 4094) && decide (1 ≤ p.n) && decide (p.n ≤ 4094)

/-! ## The WAN of an item -/

/-- What a WAN entry is for the id `n`. -/
inductive EntryScan
  | error
  | other
  | route
  | bridge
deriving Repr, DecidableEq

/-- One round of the loop over the entries. -/
def scanEntry (cfg : Conf) (path : Str) (n : Int) : EntryScan :=
  let vlanMode := cfgGetObjectAttr (cfg path "VLANMode".toList) [] 15
  let vlanID := cfgGetObjectAttr (cfg path "VLANID".toList) [] 10
  let active := cfgGetObjectAttr (cfg path "Active".toList) [] 5
  let wanMode := cfgGetObjectAttr (cfg path "WanMode".toList) [] 10
  if vlanMode.1 ≤ 0 ∨ vlanMode.2 ≠ "TAG".toList ∧ vlanMode.2 ≠ "tag".toList then .other
  else if vlanID.1 ≤ 0 then .error
  else if n ≠ atoi vlanID.2 ∨ active.1 ≤ 0 then .other
  else if wanMode.1 ≤ 0 then .error
  else if active.2 ≠ "Yes".toList ∧ active.2 ≠ "yes".toList then .other
  else if wanMode.2 = "Route".toList ∨ wanMode.2 = "route".toList then .route
  else .bridge

/-- The loop over the entries of the PVC `j`: `none` is the jump to `ERROR`, and otherwise the first
entry that is found. -/
def scanEntries (cfg : Conf) (j : Nat) (n : Int) : List Nat → Option (Option (EntryScan × Nat))
  | [] => some none
  | k :: ks =>
    match scanEntry cfg (wanPvcEntryNode (j + 1) (k + 1)) n with
    | .error => none
    | .other => scanEntries cfg j n ks
    | found => some (some (found, k))

/-- The loop over the PVCs: the marks. Only a bridge entry ends it. -/
def scanPvcs (cfg : Conf) (n : Int) : List Nat → Option (List Nat)
  | [] => some []
  | j :: js =>
    match scanEntries cfg j n (List.range 8) with
    | none => none
    | some none => scanPvcs cfg n js
    | some (some (.bridge, k)) => some [(j * 8 + k + 1) * 65536]
    | some (some (_, k)) => (scanPvcs cfg n js).map ((j * 8 + k + 1) * 65536 :: ·)

/-! ## The items -/

/-- The loop over the items of a port: the stores, the marks, and the variable afterwards. -/
def parseItems (b : VlanBuild) (cfg : Conf) (port : Nat) :
    Nat → VlanMap → List Str → Option (List VlanStore × List VlanMark × VlanMap)
  | _, vlanMap, [] => some ([], [], vlanMap)
  | ii, vlanMap, item :: items =>
    let pair := scanPair vlanMap item
    if pair.valid = false then none
    else
      match scanPvcs cfg pair.n (List.range b.pvcNum) with
      | none => none
      | some marks =>
        (parseItems b cfg port (ii + 1) pair items).map fun r =>
          (⟨port, ii, pair⟩ :: r.1, marks.map (⟨port, pair.m, ·⟩) ++ r.2.1, r.2.2)

/-- The loop over the ports. -/
def parsePorts (b : VlanBuild) (cfg : Conf) :
    VlanMap → List Nat → Option (List VlanStore × List VlanMark)
  | _, [] => some ([], [])
  | vlanMap, i :: is =>
    if isVlanBindActive cfg i = false then parsePorts b cfg vlanMap is
    else
      let mn := cfgGetObjectAttr (cfg (vlanbindEntryNode (i + 1)) "mn".toList) [] 200
      if mn.1 ≤ 0 then none
      else
        match parseItems b cfg i 0 vlanMap (strtokAll ';' mn.2) with
        | none => none
        | some r => (parsePorts b cfg r.2.2 is).map fun t => (r.1 ++ t.1, r.2.1 ++ t.2)

/-- `vlanMapArray` after the stores, as one array with 20 places for each port. -/
def vlanMapArray (stores : List VlanStore) : Nat → VlanMap :=
  stores.foldl (fun arr s => Function.update arr (s.port * 20 + s.ii) s.pair) fun _ => ⟨0, 0⟩

/-- The LAN side of a row. -/
def arrayRow (arr : Nat → VlanMap) (i : Nat) : List Int :=
  (List.range 20).map fun j => (arr (i * 20 + j)).m

/-- `checkVlanBindGroup` on the array for the switch ports. -/
def arrayRel (arr : Nat → VlanMap) : PortRel := fun i j =>
  checkVlanBindGroup (arrayRow arr i) (arrayRow arr j)

/-- What `svc_wan_vlanbind_write` does when it gets to the groups. -/
structure VlanResult where
  stores : List VlanStore
  marks : List VlanMark
  /-- The ports of the mask that is written for each port. -/
  masks : List (List Nat)
  portGroup : List Int

/-- `svc_wan_vlanbind_write`; `none` is the return value -1. -/
def svcWanVlanbindWrite (b : VlanBuild) (cfg : Conf) : Option VlanResult :=
  (parsePorts b cfg ⟨0, 0⟩ (List.range b.lanPortNum)).map fun r =>
    let arr := vlanMapArray r.1
    { stores := r.1
      marks := r.2
      masks := (List.range b.lanPortNum).map fun i => (List.range b.lanPortNum).filter fun j =>
        checkVlanBindGroup (arrayRow arr i) (arrayRow arr j)
      portGroup := portGroup (arrayRel arr) }

/-! ## What the texts say -/

/-- The text of a port. -/
def mnText (cfg : Conf) (i : Nat) : Str := (cfg (vlanbindEntryNode (i + 1)) "mn".toList).getD []

/-- The pair of an item with two numbers. -/
def wholePair (item : Str) : Option VlanMap :=
  match scanD item with
  | some (m, '/' :: rest) => (scanD rest).map fun r => ⟨m, r.1⟩
  | _ => none

/-- The pairs that are written in the text of a port. -/
def textPairs (cfg : Conf) (i : Nat) : List VlanMap :=
  (strtokAll ';' (mnText cfg i)).filterMap wholePair

/-- The items that are read of a port: those of the first 199 characters, if its binding is on. -/
def readItems (cfg : Conf) (i : Nat) : List Str :=
  if isVlanBindActive cfg i then strtokAll ';' ((mnText cfg i).take 199) else []

/-- What the variable holds after each item. -/
def readPairs : VlanMap → List Str → List VlanMap
  | _, [] => []
  | old, item :: items => scanPair old item :: readPairs (scanPair old item) items

/-- The last numbers of the items before port `i`. -/
def carriedMap (cfg : Conf) (i : Nat) : VlanMap :=
  ((List.range i).flatMap (readItems cfg)).foldl scanPair ⟨0, 0⟩

/-- The pairs of the items of port `i`, with the numbers an item lacks taken from items before. -/
def portPairs (cfg : Conf) (i : Nat) :
    List VlanMap := readPairs (carriedMap cfg i) (readItems cfg i)

/-- The stores are within the rows, the pairs are those of the port's own text, and the groups let
two ports talk that may talk, and only ports in a chain of such ports. -/
structure VlanRight (cfg : Conf) (r : VlanResult) : Prop where
  rows : ∀ s ∈ r.stores, s.ii < 20
  own : ∀ s ∈ r.stores, s.pair ∈ textPairs cfg s.port
  join : ∀ i j, arrayRel (vlanMapArray r.stores) i j = true →
    groupAt r.portGroup i = groupAt r.portGroup j ∨ groupAt r.portGroup i = 0 ∨
      groupAt r.portGroup j = 0
  chain : ∀ i j, groupAt r.portGroup i = groupAt r.portGroup j → groupAt r.portGroup i ≠ 0 →
    Relation.ReflTransGen (fun x y => arrayRel (vlanMapArray r.stores) x y = true) i j

/-- Two ports share an id of the LAN side, or one has none. -/
def linked (cfg : Conf) : PortRel := fun i j =>
  let ids (k : Nat) := (portPairs cfg k).map VlanMap.m
  decide (ids i = [] ∨ ids j = [] ∨ ∃ m ∈ ids i, m ∈ ids j)

/-- The condition on the texts. -/
structure VlanCond (b : VlanBuild) (cfg : Conf) : Prop where
  /-- No port has more than 20 items. -/
  count : ∀ i < b.lanPortNum, (readItems cfg i).length ≤ 20
  /-- The pair that an item without two numbers is completed to is written in the text of its port. -/
  reuse : ∀ i < b.lanPortNum, ∀ before item after, readItems cfg i = before ++ item :: after →
    wholePair item = none →
    scanPair (before.foldl scanPair (carriedMap cfg i)) item ∈ textPairs cfg i
  /-- The item at which a long text is cut is one of the text. -/
  cut : ∀ i < b.lanPortNum, 199 < (mnText cfg i).length →
    ∀ item ∈ (readItems cfg i).getLast?, ∀ p ∈ wholePair item, p ∈ textPairs cfg i
  /-- Sharing an id is transitive as far as the groups need it. -/
  groups : GroupCond (linked cfg)

/-! ## What the loops store -/

/-- The stores of the items of a port. -/
def portStores (cfg : Conf) (i : Nat) : List VlanStore :=
  (portPairs cfg i).zipIdx.map fun p => ⟨i, p.2, p.1⟩

theorem readPairs_append (old : VlanMap) (l₁ l₂ : List Str) :
    readPairs old (l₁ ++ l₂) = readPairs old l₁ ++ readPairs (l₁.foldl scanPair old) l₂ := by
  induction l₁ generalizing old with
  | nil => rfl
  | cons item items ih => simp [readPairs, ih]

@[simp] theorem length_readPairs (old : VlanMap) (items : List Str) :
    (readPairs old items).length = items.length := by
  induction items generalizing old with
  | nil => rfl
  | cons item items ih => simp [readPairs, ih]

/-- The pairs are what the variable holds after each item. -/
theorem mem_readPairs {old p : VlanMap} {items : List Str} :
    p ∈ readPairs old items ↔ ∃ before item after, items = before ++ item :: after ∧
      p = scanPair (before.foldl scanPair old) item := by
  constructor
  · intro hp
    induction items generalizing old with
    | nil => exact absurd hp (by simp [readPairs])
    | cons item items ih =>
      rcases List.mem_cons.mp hp with rfl | hp
      · exact ⟨[], item, items, rfl, rfl⟩
      · obtain ⟨before, x, after, rfl, rfl⟩ := ih hp
        exact ⟨item :: before, x, after, rfl, rfl⟩
  · rintro ⟨before, item, after, rfl, rfl⟩
    rw [readPairs_append]
    simp [readPairs]

/-- The loop over the items stores the pairs of the items one after the other. -/
theorem parseItems_some {b : VlanBuild} {cfg : Conf} {port : Nat} {items : List Str} {ii : Nat}
    {old : VlanMap} {r : List VlanStore × List VlanMark × VlanMap}
    (h : parseItems b cfg port ii old items = some r) :
    r.1 = ((readPairs old items).zipIdx ii).map (fun p => ⟨port, p.2, p.1⟩) ∧
      r.2.2 = items.foldl scanPair old ∧ ∀ p ∈ readPairs old items, p.valid = true := by
  induction items generalizing ii old r with
  | nil =>
    cases h
    exact ⟨rfl, rfl, by simp [readPairs]⟩
  | cons item items ih =>
    simp only [parseItems] at h
    split at h
    · cases h
    · rename_i hvalid
      split at h
      · cases h
      · obtain ⟨t, ht, rfl⟩ := Option.map_eq_some_iff.mp h
        obtain ⟨hst, hlast, hall⟩ := ih ht
        refine ⟨?_, hlast, ?_⟩
        · rw [readPairs, List.zipIdx_cons, List.map_cons, hst]
        · intro p hp
          rcases List.mem_cons.mp hp with rfl | hp
          · simpa using hvalid
          · exact hall p hp

theorem carriedMap_succ (cfg : Conf) (i : Nat) :
    carriedMap cfg (i + 1) = (readItems cfg i).foldl scanPair (carriedMap cfg i) := by
  simp [carriedMap, List.range_succ, List.flatMap_append]

/-- **The loop over the ports stores the pairs of each port.** -/
theorem parsePorts_some {b : VlanBuild} {cfg : Conf} {n k : Nat}
    {r : List VlanStore × List VlanMark}
    (h : parsePorts b cfg (carriedMap cfg k) (List.range' k n) = some r) :
    r.1 = (List.range' k n).flatMap (portStores cfg) ∧
      ∀ i ∈ List.range' k n, ∀ p ∈ portPairs cfg i, p.valid = true := by
  induction n generalizing k r with
  | zero =>
    cases h
    exact ⟨rfl, by simp⟩
  | succ n ih =>
    rw [List.range'_succ, parsePorts] at h
    split at h
    · -- the binding of the port is off
      rename_i hoff
      have hitems : readItems cfg k = [] := by rw [readItems, hoff]; rfl
      have hpairs : portPairs cfg k = [] := by rw [portPairs, hitems]; rfl
      have hcarry : carriedMap cfg (k + 1) = carriedMap cfg k := by
        rw [carriedMap_succ, hitems]
        rfl
      rw [← hcarry] at h
      obtain ⟨hst, hall⟩ := ih h
      refine ⟨?_, ?_⟩
      · rw [List.range'_succ, List.flatMap_cons, portStores, hpairs, hst]
        rfl
      · intro i hi p hp
        rw [List.range'_succ, List.mem_cons] at hi
        rcases hi with rfl | hi
        · rw [hpairs] at hp
          exact absurd hp List.not_mem_nil
        · exact hall i hi p hp
    · rename_i hon
      simp only at h
      split at h
      · cases h
      · have htext : (cfgGetObjectAttr (cfg (vlanbindEntryNode (k + 1)) "mn".toList) [] 200).2 =
            (mnText cfg k).take 199 := by
          rw [mnText]
          cases cfg (vlanbindEntryNode (k + 1)) "mn".toList <;> rfl
        have hitems : strtokAll ';'
            (cfgGetObjectAttr (cfg (vlanbindEntryNode (k + 1)) "mn".toList) [] 200).2 =
              readItems cfg k := by
          rw [htext, readItems, if_pos (by simpa using hon)]
        rw [hitems] at h
        split at h
        · cases h
        · rename_i t ht
          obtain ⟨hst, hlast, hvalid⟩ := parseItems_some ht
          rw [hlast, ← carriedMap_succ] at h
          obtain ⟨u, hu, rfl⟩ := Option.map_eq_some_iff.mp h
          obtain ⟨hrest, hall⟩ := ih hu
          refine ⟨?_, ?_⟩
          · rw [List.range'_succ, List.flatMap_cons, hst, hrest]
            rfl
          · intro i hi p hp
            rw [List.range'_succ, List.mem_cons] at hi
            rcases hi with rfl | hi
            · exact hvalid p hp
            · exact hall i hi p hp

/-! ## The array -/

/-- The stores for the ports `0 .. n - 1`. -/
theorem mem_stores {cfg : Conf} {n : Nat} {s : VlanStore} :
    s ∈ (List.range n).flatMap (portStores cfg) ↔
      s.port < n ∧ (portPairs cfg s.port)[s.ii]? = some s.pair := by
  simp only [List.mem_flatMap, List.mem_range, portStores, List.mem_map]
  constructor
  · rintro ⟨i, hi, ⟨p, j⟩, hp, rfl⟩
    exact ⟨hi, List.mem_zipIdx_iff_getElem?.mp hp⟩
  · rintro ⟨hi, hp⟩
    exact ⟨s.port, hi, (s.pair, s.ii), List.mem_zipIdx_iff_getElem?.mpr hp, rfl⟩

/-- **Within the rows the array holds the pairs of each port, and zeros behind them.** -/
theorem vlanMapArray_apply {cfg : Conf} {n : Nat}
    (hcount : ∀ i < n, (portPairs cfg i).length ≤ 20) {i j : Nat} (hi : i < n) (hj : j < 20) :
    vlanMapArray ((List.range n).flatMap (portStores cfg)) (i * 20 + j) =
      (portPairs cfg i)[j]?.getD ⟨0, 0⟩ := by
  -- a store at this place is the one of the pair `j` of port `i`
  have hplace : ∀ t ∈ (List.range n).flatMap (portStores cfg), t.port * 20 + t.ii = i * 20 + j →
      t.port = i ∧ t.ii = j := by
    intro t ht heq
    obtain ⟨hport, hpair⟩ := mem_stores.mp ht
    obtain ⟨hii, -⟩ := List.getElem?_eq_some_iff.mp hpair
    have hlen := hcount t.port hport
    omega
  rw [vlanMapArray, foldl_update_apply (fun s : VlanStore => s.port * 20 + s.ii) VlanStore.pair _ _
    (v := (portPairs cfg i)[j]?.getD ⟨0, 0⟩)]
  · split
    · rfl
    · rename_i hnot
      cases hget : (portPairs cfg i)[j]? with
      | none => rfl
      | some p =>
        have hstore : VlanStore.mk i j p ∈ (List.range n).flatMap (portStores cfg) :=
          mem_stores.mpr ⟨hi, hget⟩
        exact absurd (List.mem_map_of_mem (f := fun s => s.port * 20 + s.ii) hstore) hnot
  · intro t ht heq
    obtain ⟨hport, hii⟩ := hplace t ht heq
    obtain ⟨-, hpair⟩ := mem_stores.mp ht
    rw [hport, hii] at hpair
    rw [hpair]
    rfl

/-- The ids of a row are those of the pairs of the port. -/
theorem rowIds_arrayRow {cfg : Conf} {n : Nat} (hcount : ∀ i < n, (portPairs cfg i).length ≤ 20)
    (hvalid : ∀ i < n, ∀ p ∈ portPairs cfg i, p.valid = true) {i : Nat} (hi : i < n) :
    rowIds (arrayRow (vlanMapArray ((List.range n).flatMap (portStores cfg))) i) =
      (portPairs cfg i).map VlanMap.m := by
  have hrow : arrayRow (vlanMapArray ((List.range n).flatMap (portStores cfg))) i =
      (portPairs cfg i).map VlanMap.m ++ List.replicate (20 - (portPairs cfg i).length) 0 := by
    have hlen := hcount i hi
    refine List.ext_getElem? fun j => ?_
    rw [arrayRow, List.getElem?_map]
    rcases lt_or_ge j 20 with hj | hj
    · rw [List.getElem?_range hj, Option.map_some, vlanMapArray_apply hcount hi hj]
      rcases lt_or_ge j (portPairs cfg i).length with hlt | hge
      · rw [List.getElem?_append_left (by simpa using hlt), List.getElem?_map,
          List.getElem?_eq_getElem hlt]
        rfl
      · rw [List.getElem?_append_right (by simpa using hge), List.length_map,
          List.getElem?_eq_none hge, List.getElem?_replicate, if_pos (by omega)]
        rfl
    · rw [List.getElem?_eq_none (by simpa using hj), List.getElem?_eq_none (by simp; omega)]
      rfl
  rw [hrow, rowIds, List.takeWhile_append_of_pos]
  · cases 20 - (portPairs cfg i).length <;> simp [List.replicate_succ]
  · intro m hm
    obtain ⟨p, hp, rfl⟩ := List.mem_map.mp hm
    have hp := hvalid i hi p hp
    simp only [VlanMap.valid, Bool.and_eq_true] at hp
    exact hp.1.1.1

theorem arrayRow_ne_nil (arr : Nat → VlanMap) (i : Nat) : arrayRow arr i ≠ [] := by
  rw [arrayRow, List.range_succ_eq_map]
  exact List.cons_ne_nil _ _

/-- **Within the rows the array says of the switch ports which texts share an id.** -/
theorem arrayRel_eq_linked {cfg : Conf} {n : Nat} (hn : 4 ≤ n)
    (hcount : ∀ i < n, (portPairs cfg i).length ≤ 20)
    (hvalid : ∀ i < n, ∀ p ∈ portPairs cfg i, p.valid = true) :
    arrayRel (vlanMapArray ((List.range n).flatMap (portStores cfg))) = linked cfg := by
  funext i j
  rw [Bool.eq_iff_iff, arrayRel, checkVlanBindGroup_iff (arrayRow_ne_nil _ _) (arrayRow_ne_nil _ _),
    rowIds_arrayRow hcount hvalid (by omega), rowIds_arrayRow hcount hvalid (by omega), linked,
    decide_eq_true_iff]

theorem arrayRel_self (arr : Nat → VlanMap) (i : Fin 4) : arrayRel arr i i = true :=
  checkVlanBindGroup_self (arrayRow_ne_nil arr i)

theorem arrayRel_comm (arr : Nat → VlanMap) (i j : Fin 4) : arrayRel arr i j = arrayRel arr j i :=
  checkVlanBindGroup_comm (arrayRow_ne_nil arr i) (arrayRow_ne_nil arr j)

/-! ## The result -/

/-- An item with both numbers is read as its pair. -/
theorem scanPair_of_wholePair {item : Str} {p : VlanMap} (h : wholePair item = some p)
    (old : VlanMap) : scanPair old item = p := by
  unfold wholePair at h
  unfold scanPair
  split at h
  · rename_i m rest hm
    obtain ⟨r, hr, rfl⟩ := Option.map_eq_some_iff.mp h
    simp only [hm, hr]
  · cases h

/-- The result in terms of the pairs of the ports. -/
theorem svcWanVlanbindWrite_some {b : VlanBuild} {cfg : Conf} {r : VlanResult}
    (h : svcWanVlanbindWrite b cfg = some r) :
    r.stores = (List.range b.lanPortNum).flatMap (portStores cfg) ∧
      r.portGroup = portGroup (arrayRel (vlanMapArray r.stores)) ∧
      ∀ i < b.lanPortNum, ∀ p ∈ portPairs cfg i, p.valid = true := by
  obtain ⟨t, ht, rfl⟩ := Option.map_eq_some_iff.mp h
  have hcarry : carriedMap cfg 0 = ⟨0, 0⟩ := rfl
  rw [← hcarry, List.range_eq_range'] at ht
  obtain ⟨hst, hall⟩ := parsePorts_some ht
  rw [← List.range_eq_range'] at hst hall
  exact ⟨hst, rfl, fun i hi => hall i (List.mem_range.mpr hi)⟩

/-- The items of a port are items of its text, up to the last one of a long text. -/
theorem readItems_own (cfg : Conf) (i : Nat) {item : Str} (h : item ∈ readItems cfg i) :
    item ∈ strtokAll ';' (mnText cfg i) ∨
      199 < (mnText cfg i).length ∧ item ∈ (readItems cfg i).getLast? := by
  have hread : readItems cfg i = strtokAll ';' ((mnText cfg i).take 199) := by
    rw [readItems]
    split
    · rfl
    · rename_i hoff
      rw [readItems, if_neg hoff] at h
      exact absurd h List.not_mem_nil
  rcases le_or_gt (mnText cfg i).length 199 with hlen | hlen
  · rw [hread, List.take_of_length_le hlen] at h
    exact .inl h
  · have hne : readItems cfg i ≠ [] := List.ne_nil_of_mem h
    rw [← List.dropLast_append_getLast hne, List.mem_append, List.mem_singleton] at h
    rcases h with hinit | hlast
    · rw [hread] at hinit
      rw [← List.take_append_drop 199 (mnText cfg i)]
      exact .inl (mem_strtokAll_append _ hinit)
    · rw [List.getLast?_eq_getLast_of_ne_nil hne]
      exact .inr ⟨hlen, hlast ▸ rfl⟩

/-- The pairs of a port are written in its text exactly under the two conditions on its items. -/
theorem portPairs_own_iff (cfg : Conf) (i : Nat) :
    (∀ p ∈ portPairs cfg i, p ∈ textPairs cfg i) ↔
      (∀ before item after, readItems cfg i = before ++ item :: after → wholePair item = none →
        scanPair (before.foldl scanPair (carriedMap cfg i)) item ∈ textPairs cfg i) ∧
      (199 < (mnText cfg i).length →
        ∀ item ∈ (readItems cfg i).getLast?, ∀ p ∈ wholePair item, p ∈ textPairs cfg i) := by
  constructor
  · intro hown
    refine ⟨fun before item after hsplit _ => hown _ ?_, fun _ item hitem p hp => hown p ?_⟩
    · exact mem_readPairs.mpr ⟨before, item, after, hsplit, rfl⟩
    · obtain ⟨before, after, hsplit⟩ := List.append_of_mem (List.mem_of_getLast? hitem)
      exact mem_readPairs.mpr ⟨before, item, after, hsplit, (scanPair_of_wholePair hp _).symm⟩
  · rintro ⟨hreuse, hcut⟩ p hp
    obtain ⟨before, item, after, hsplit, rfl⟩ := mem_readPairs.mp hp
    cases hwhole : wholePair item with
    | none => exact hreuse before item after hsplit hwhole
    | some q =>
      rw [scanPair_of_wholePair hwhole]
      have hitem : item ∈ readItems cfg i := by simp [hsplit]
      rcases readItems_own cfg i hitem with hfull | ⟨hlen, hlast⟩
      · exact List.mem_filterMap.mpr ⟨item, hfull, hwhole⟩
      · exact hcut hlen item hlast q hwhole

/-- **The stores, the pairs and the groups are right exactly under the condition on the texts.** -/
theorem vlanBind_right_iff {b : VlanBuild} {cfg : Conf} {r : VlanResult}
    (h : svcWanVlanbindWrite b cfg = some r) : VlanRight cfg r ↔ VlanCond b cfg := by
  obtain ⟨hst, hgroup, hvalid⟩ := svcWanVlanbindWrite_some h
  have hports : 4 ≤ b.lanPortNum := by
    rw [VlanBuild.lanPortNum]
    split <;> decide
  have hlen : ∀ i, (portPairs cfg i).length = (readItems cfg i).length := fun i =>
    length_readPairs _ _
  have hrows : (∀ s ∈ r.stores, s.ii < 20) ↔
      ∀ i < b.lanPortNum, (portPairs cfg i).length ≤ 20 := by
    rw [hst]
    constructor
    · intro hlt i hi
      by_contra hmore
      have h20 : 20 < (portPairs cfg i).length := not_le.mp hmore
      have hstore : VlanStore.mk i 20 (portPairs cfg i)[20] ∈
          (List.range b.lanPortNum).flatMap (portStores cfg) :=
        mem_stores.mpr ⟨hi, List.getElem?_eq_getElem _⟩
      exact absurd (hlt _ hstore) (lt_irrefl 20)
    · intro hle s hs
      obtain ⟨hi, hpair⟩ := mem_stores.mp hs
      obtain ⟨hii, -⟩ := List.getElem?_eq_some_iff.mp hpair
      exact lt_of_lt_of_le hii (hle _ hi)
  have hown : (∀ s ∈ r.stores, s.pair ∈ textPairs cfg s.port) ↔
      ∀ i < b.lanPortNum, ∀ p ∈ portPairs cfg i, p ∈ textPairs cfg i := by
    rw [hst]
    constructor
    · intro hs i hi p hp
      obtain ⟨j, hj⟩ := List.mem_iff_getElem?.mp hp
      exact hs ⟨i, j, p⟩ (mem_stores.mpr ⟨hi, hj⟩)
    · intro hp s hs
      obtain ⟨hi, hpair⟩ := mem_stores.mp hs
      exact hp _ hi _ (List.mem_iff_getElem?.mpr ⟨_, hpair⟩)
  -- the chain is there for every relation, and the groups are right under the last condition
  have hjoin : (∀ i < b.lanPortNum, (portPairs cfg i).length ≤ 20) →
      (GroupsJoin (arrayRel (vlanMapArray r.stores)) ↔ GroupCond (linked cfg)) := by
    intro hcount
    rw [groupsJoin_iff (arrayRel_self _) (arrayRel_comm _), hst,
      arrayRel_eq_linked hports hcount hvalid]
  constructor
  · rintro ⟨h1, h2, h3, -⟩
    have hcount := hrows.mp h1
    rw [hgroup] at h3
    refine ⟨fun i hi => hlen i ▸ hcount i hi, ?_, ?_, (hjoin hcount).mp h3⟩
    · exact fun i hi => ((portPairs_own_iff cfg i).mp (hown.mp h2 i hi)).1
    · exact fun i hi => ((portPairs_own_iff cfg i).mp (hown.mp h2 i hi)).2
  · rintro ⟨h1, h2, h3, h4⟩
    have hcount : ∀ i < b.lanPortNum, (portPairs cfg i).length ≤ 20 := fun i hi =>
      (hlen i).symm ▸ h1 i hi
    refine ⟨hrows.mpr hcount, hown.mpr fun i hi => ?_, ?_, ?_⟩
    · exact (portPairs_own_iff cfg i).mpr ⟨h2 i hi, h3 i hi⟩
    · rw [hgroup]
      exact (hjoin hcount).mpr h4
    · rw [hgroup]
      exact fun i j => chain_of_group_eq (arrayRel_self _) (arrayRel_comm _)

/-- The binding is on for the first ports, with these texts, and there is no WAN. -/
def bindTexts (texts : List String) : Conf := fun path name =>
  ((List.range texts.length).find? fun i => path == vlanbindEntryNode (i + 1)).bind fun i =>
    if name = "Active".toList then some "Yes".toList
    else if name = "mn".toList then (texts[i]?).map String.toList
    else none

/-- The item of the second port lacks its second number. -/
def reusedNumber : Conf := bindTexts ["5/10", "6"]

/-- The second port shares an id with the first one and another with the third one. -/
def sharedIds : Conf := bindTexts ["5/10", "5/10;6/11", "6/11", "7/12"]

theorem vlanBind_right_iff_sharedIds : ∃ r, svcWanVlanbindWrite ⟨false, 1⟩ sharedIds = some r ∧
    (VlanRight sharedIds r ↔ VlanCond ⟨false, 1⟩ sharedIds) := by
  have hsome : (svcWanVlanbindWrite ⟨false, 1⟩ sharedIds).isSome = true := by decide +kernel
  obtain ⟨r, hr⟩ := Option.isSome_iff_exists.mp hsome
  exact ⟨r, hr, vlanBind_right_iff hr⟩

/-- The second port gets a pair with the number of the first port, and two ports that share an id
get different groups. -/
theorem vlanBind_fails :
    (∃ r, svcWanVlanbindWrite ⟨false, 1⟩ reusedNumber = some r ∧ ¬ VlanRight reusedNumber r) ∧
      ∃ r, svcWanVlanbindWrite ⟨false, 1⟩ sharedIds = some r ∧ ¬ VlanRight sharedIds r := by
  constructor
  · have hstores : (svcWanVlanbindWrite ⟨false, 1⟩ reusedNumber).map VlanResult.stores =
        some [⟨0, 0, ⟨5, 10⟩⟩, ⟨1, 0, ⟨6, 10⟩⟩] := by decide +kernel
    obtain ⟨r, hr, hst⟩ := Option.map_eq_some_iff.mp hstores
    refine ⟨r, hr, fun h => ?_⟩
    have hown : VlanMap.mk 6 10 ∈ textPairs reusedNumber 1 :=
      h.own ⟨1, 0, ⟨6, 10⟩⟩ (by rw [hst]; decide)
    exact absurd hown (by decide +kernel)
  · have hgroups : (svcWanVlanbindWrite ⟨false, 1⟩ sharedIds).map
        (fun r => (r.portGroup, arrayRel (vlanMapArray r.stores) 1 2)) =
          some ([1, 1, 2, 3], true) := by decide +kernel
    obtain ⟨r, hr, hpair⟩ := Option.map_eq_some_iff.mp hgroups
    obtain ⟨hgroup, hrel⟩ := Prod.mk.inj hpair
    refine ⟨r, hr, fun h => ?_⟩
    have hjoin := h.join 1 2 hrel
    rw [hgroup] at hjoin
    exact absurd hjoin (by decide)

end OnuFirmware.Wan
