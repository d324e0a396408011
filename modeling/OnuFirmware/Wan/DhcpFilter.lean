import OnuFirmware.Cfg.ReadAttr
import OnuFirmware.Clib.Hex
import OnuFirmware.Clib.Shift
import OnuFirmware.Lib.Blocks
import OnuFirmware.Wan.Manager

/-!
# DHCP filters of bridge WANs (`port_binding.c`)

`pre_check_lanport_bind` walks over all entries and sets up two `ebtables` chains for each bridge
WAN that does not serve DHCP to the LAN. The rules for messages from the LAN name the ports that are
bound to the WAN; the rule for router advertisements to the LAN names the port with the number of
the PVC instead. A 64-bit word records the WANs that have been set up, but its bits are made by
shifting an `int`.
-/

namespace OnuFirmware.Wan

open Lib Clib Cfg

/-- The options of the build that the function depends on. -/
structure FilterBuild where
  cmcc : Bool
  cmccv2 : Bool
  wlanAc : Bool

/-- `SVC_WAN_MAX_PVC_NUM`. -/
def FilterBuild.pvcNum (b : FilterBuild) : Nat := if b.cmcc then 1 else 8

/-! ## Commands -/

/-- The two chains of an entry. -/
inductive FilterChain
  | input (pvc entry : Nat)
  | output (pvc entry : Nat)
deriving Repr, DecidableEq

/-- What a drop rule is about: requests for an address of either family, router solicitations and
router advertisements. -/
inductive DropKind
  | dhcp4
  | dhcp6
  | solicit
  | advert
deriving Repr, DecidableEq

/-- The commands of the function; a port is its index in `bl_map_data`. -/
inductive FilterCmd
  | new (chain : FilterChain)
  | policy (chain : FilterChain)
  | jump (chain : FilterChain)
  | mark (chain : FilterChain) (v6 : Bool) (mark : Nat)
  | drop (chain : FilterChain) (kind : DropKind) (port : Nat)
deriving Repr, DecidableEq

/-- The name of a chain. -/
def FilterChain.name : FilterChain → Str
  | .input i k => snprintf 32 ("DhcpFilterInput".toList ++ nasName i k)
  | .output i k => snprintf 32 ("DhcpFilterOutput".toList ++ nasName i k)

/-- The options of a drop rule behind the chain. -/
def DropKind.options (kind : DropKind) (realif : Str) : Str :=
  match kind with
  | .dhcp4 => " -i ".toList ++ realif ++ " -p IPv4 --ip-proto 17 --ip-dport 67 -j DROP".toList
  | .dhcp6 => " -i ".toList ++ realif ++ " -p IPv6 --ip6-proto 17 --ip6-dport 547 -j DROP".toList
  | .solicit =>
    " -i ".toList ++ realif ++ " -p IPv6 --ip6-proto 58 --ip6-icmpv6type 133 -j DROP".toList
  | .advert =>
    " -o ".toList ++ realif ++ " -p IPv6 --ip6-proto 58 --ip6-icmpv6type 134 -j DROP".toList

/-- The text handed to `svc_wan_execute_cmd`, without the limit of the buffer. -/
def FilterCmd.text (b : FilterBuild) : FilterCmd → Str
  | .new c => "ebtables -t filter -N ".toList ++ c.name ++ " 2>/dev/null".toList
  | .policy c => "ebtables -t filter -P ".toList ++ c.name ++ " RETURN".toList
  | .jump (.input i k) =>
    "ebtables -t filter -A INPUT -j ".toList ++ (FilterChain.input i k).name
  | .jump (.output i k) =>
    "ebtables -t filter -A OUTPUT -j ".toList ++ (FilterChain.output i k).name
  | .mark c v6 m =>
    "ebtables -t filter -M mark_m -A ".toList ++ c.name ++
      (if v6 then " -p IPv6 --ip6-proto udp --ip6-dport 547 --mark 0x".toList
        else " -p IPv4 --ip-proto udp --ip-dport 67 --mark 0x".toList) ++
      fmtHex m ++ "/0x7F0000 -j DROP\n".toList
  | .drop c kind j =>
    "ebtables -t filter -A ".toList ++ c.name ++
      kind.options (((blMapData b.wlanAc)[j]?.map Prod.snd).getD [])

/-! ## The function -/

/-- The commands so far, and `bindrule_mark`. -/
structure FilterState where
  cmds : List FilterCmd
  bindruleMark : BitVec 64

/-- `set_port_bind_mask`. -/
def setPortBindMask (sh : Shifter) (bindruleMark : BitVec 64) (index : Nat) : BitVec 64 :=
  bindruleMark ||| sh.shl64 index

/-- `check_port_bind_mask`. -/
def checkPortBindMask (sh : Shifter) (bindruleMark : BitVec 64) (index : Nat) : Int :=
  if bindruleMark &&& sh.shl64 index ≠ 0 then 1 else 0

/-- `VLANBIND_ENTRY_NODE` in a 32-byte buffer. -/
def vlanbindEntryNode (n : Nat) : Str := snprintf 32 ("root.vlanbind.entry.".toList ++ fmtNat n)

/-- The services of a bridge WAN that is filtered. -/
def filteredServices : List Str :=
  ["INTERNET".toList, "OTHER".toList, "IPTV".toList, "OTT".toList]

/-- The mark of the packets that come from the WAN. -/
def FilterBuild.markOf (b : FilterBuild) (i k : Nat) : Nat :=
  if b.cmccv2 then (i * 8 + k + 1) <<< 16 else (i * 8 + 1) <<< 16

/-- The loop over the ports, for the port `j` with the attribute `bindif`. -/
def preCheckPort (cfg : Conf) (path : Str) (i k j : Nat) (bindif : Str) : List FilterCmd :=
  let active := cfgGetObjectAttr (cfg (vlanbindEntryNode (j + 1)) "Active".toList) [] 16
  let vlanbindActive := if active.1 < 0 then "No".toList else active.2
  let tmp := (cfgGetObjectAttr (cfg path bindif) [] 16).2
  if tmp = "Yes".toList ∧ vlanbindActive = "No".toList then
    [.drop (.input i k) .dhcp4 j, .drop (.input i k) .dhcp6 j, .drop (.input i k) .solicit j,
      -- the source has `bl_map_data[i]` here
      .drop (.output i k) .advert i]
  else []

/-- The body of the two outer loops. -/
def preCheckEntry (b : FilterBuild) (sh : Shifter) (cfg : Conf) (i k : Nat) (s : FilterState) :
    FilterState :=
  let path := wanPvcEntryNode (i + 1) (k + 1)
  if (cfgGetObjectAttr (cfg path "Active".toList) [] 8).2 ≠ "Yes".toList then s
  else
    let serviceList := (cfgGetObjectAttr (cfg path "ServiceList".toList) [] 32).2
    let dhcpEnable := (cfgGetObjectAttr (cfg path "DHCPEnable".toList) [] 8).2
    let wanmode := (cfgGetObjectAttr (cfg path "WanMode".toList) [] 16).2
    if dhcpEnable = "0".toList ∧ wanmode = "Bridge".toList ∧ serviceList ∈ filteredServices then
      { cmds := s.cmds ++
          ([.new (.input i k), .policy (.input i k), .jump (.input i k), .new (.output i k),
            .policy (.output i k), .jump (.output i k),
            .mark (.input i k) false (b.markOf i k), .mark (.input i k) true (b.markOf i k)] ++
          (blMapData b.wlanAc).zipIdx.flatMap fun e => preCheckPort cfg path i k e.2 e.1.1)
        bindruleMark := setPortBindMask sh s.bindruleMark (i * 8 + k) }
    else s

/-- `pre_check_lanport_bind` (build with `TCSUPPORT_CT_VLAN_BIND`). -/
def preCheckLanportBind (b : FilterBuild) (sh : Shifter) (cfg : Conf) (s : FilterState) :
    FilterState :=
  (List.range b.pvcNum).foldl (fun s i =>
    (List.range 8).foldl (fun s k => preCheckEntry b sh cfg i k s) s) s

/-! ## What it should set up -/

/-- The entry is an active bridge WAN with `DHCPEnable` 0 and one of the four services. -/
def Qualifies (b : FilterBuild) (cfg : Conf) (i k : Nat) : Prop :=
  i < b.pvcNum ∧ k < 8 ∧
    cfg (wanPvcEntryNode (i + 1) (k + 1)) "Active".toList = some "Yes".toList ∧
    cfg (wanPvcEntryNode (i + 1) (k + 1)) "DHCPEnable".toList = some "0".toList ∧
    cfg (wanPvcEntryNode (i + 1) (k + 1)) "WanMode".toList = some "Bridge".toList ∧
    ∃ srv ∈ filteredServices,
      cfg (wanPvcEntryNode (i + 1) (k + 1)) "ServiceList".toList = some srv

/-- The VLAN binding of the port `j` is off: the attribute says so or is missing. -/
def VlanBindOff (cfg : Conf) (j : Nat) : Prop :=
  cfg (vlanbindEntryNode (j + 1)) "Active".toList = none ∨
    cfg (vlanbindEntryNode (j + 1)) "Active".toList = some "No".toList

instance (b : FilterBuild) (cfg : Conf) (i k : Nat) : Decidable (Qualifies b cfg i k) :=
  inferInstanceAs (Decidable (_ ∧ _ ∧ _ ∧ _ ∧ _ ∧ _))

instance (cfg : Conf) (j : Nat) : Decidable (VlanBindOff cfg j) :=
  inferInstanceAs (Decidable (_ ∨ _))

/-- The ports that are bound to the WAN and whose VLAN binding is off. -/
def filteredPorts (b : FilterBuild) (cfg : Conf) (i k : Nat) : List Nat :=
  ((blMapData b.wlanAc).zipIdx.filter fun e =>
    cfg (wanPvcEntryNode (i + 1) (k + 1)) e.1.1 = some "Yes".toList ∧
      VlanBindOff cfg e.2).map Prod.snd

/-- The rules of the chains of an entry: two mark rules, and for each port one drop rule of each
kind. -/
def expectedRules (b : FilterBuild) (cfg : Conf) (i k : Nat) : List FilterCmd :=
  if Qualifies b cfg i k then
    [.mark (.input i k) false (b.markOf i k), .mark (.input i k) true (b.markOf i k)] ++
      (filteredPorts b cfg i k).flatMap fun j =>
        [.drop (.input i k) .dhcp4 j, .drop (.input i k) .dhcp6 j,
          .drop (.input i k) .solicit j, .drop (.output i k) .advert j]
  else []

/-- The command adds a rule to a chain of the entry. -/
def FilterCmd.addsRule (i k : Nat) : FilterCmd → Bool
  | .mark c _ _ => c = .input i k ∨ c = .output i k
  | .drop c _ _ => c = .input i k ∨ c = .output i k
  | _ => false

/-- The rules are the expected ones, and the word records the WANs that qualify. -/
structure FilterOk (b : FilterBuild) (sh : Shifter) (cfg : Conf) (s : FilterState) : Prop where
  rules : ∀ i k, (s.cmds.filter (FilterCmd.addsRule i k)).Perm (expectedRules b cfg i k)
  mask : ∀ idx < 64, checkPortBindMask sh s.bindruleMark idx = 1 ↔
    Qualifies b cfg (idx / 8) (idx % 8)

/-- The condition on the configuration: a port that is filtered for a WAN has the number of its PVC,
each WAN that qualifies has a bit, and this bit is not one of a WAN that does not qualify. -/
structure FilterCond (b : FilterBuild) (sh : Shifter) (cfg : Conf) : Prop where
  ports : ∀ i k, Qualifies b cfg i k → ∀ j ∈ filteredPorts b cfg i k, j = i
  bit : ∀ idx < 64, Qualifies b cfg (idx / 8) (idx % 8) → sh.shl64 idx ≠ 0
  apart : ∀ idx < 64, ∀ other < 64, Qualifies b cfg (idx / 8) (idx % 8) →
    ¬ Qualifies b cfg (other / 8) (other % 8) → sh.shl64 idx &&& sh.shl64 other = 0

/-! ## What one entry adds -/

/-- The conditions that the code checks are the ones on the attributes. -/
theorem qualifies_iff (b : FilterBuild) (cfg : Conf) {i k : Nat} (hi : i < b.pvcNum) (hk : k < 8) :
    Qualifies b cfg i k ↔
      (cfgGetObjectAttr (cfg (wanPvcEntryNode (i + 1) (k + 1)) "Active".toList) [] 8).2 =
        "Yes".toList ∧
      (cfgGetObjectAttr (cfg (wanPvcEntryNode (i + 1) (k + 1)) "DHCPEnable".toList) [] 8).2 =
        "0".toList ∧
      (cfgGetObjectAttr (cfg (wanPvcEntryNode (i + 1) (k + 1)) "WanMode".toList) [] 16).2 =
        "Bridge".toList ∧
      (cfgGetObjectAttr (cfg (wanPvcEntryNode (i + 1) (k + 1)) "ServiceList".toList) [] 32).2 ∈
        filteredServices := by
  have hsrv : ∀ a : Option Str, attrText a 32 [] ∈ filteredServices ↔
      ∃ srv ∈ filteredServices, a = some srv := by
    intro a
    have hall : ∀ srv ∈ filteredServices, srv.length + 1 < 32 ∧ srv ≠ [] := by decide
    constructor
    · intro h
      exact ⟨_, h, (attrText_nil_eq_iff (hall _ h).1 (hall _ h).2).mp rfl⟩
    · rintro ⟨srv, hsrv, ha⟩
      rw [(attrText_nil_eq_iff (hall srv hsrv).1 (hall srv hsrv).2).mpr ha]
      exact hsrv
  rw [Qualifies]
  simp only [cfgGetObjectAttr_snd, hsrv]
  rw [attrText_nil_eq_iff (by decide) (by decide), attrText_nil_eq_iff (by decide) (by decide),
    attrText_nil_eq_iff (by decide) (by decide)]
  simp only [hi, hk, true_and]

/-- The rules for one port. -/
theorem preCheckPort_eq (cfg : Conf) (i k j : Nat) (bindif : Str) :
    preCheckPort cfg (wanPvcEntryNode (i + 1) (k + 1)) i k j bindif =
      if cfg (wanPvcEntryNode (i + 1) (k + 1)) bindif = some "Yes".toList ∧ VlanBindOff cfg j then
        [.drop (.input i k) .dhcp4 j, .drop (.input i k) .dhcp6 j, .drop (.input i k) .solicit j,
          .drop (.output i k) .advert i]
      else [] := by
  have hoff : (if (cfgGetObjectAttr (cfg (vlanbindEntryNode (j + 1)) "Active".toList) [] 16).1 < 0
      then "No".toList
      else (cfgGetObjectAttr (cfg (vlanbindEntryNode (j + 1)) "Active".toList) [] 16).2) =
      "No".toList ↔ VlanBindOff cfg j := by
    rw [VlanBindOff]
    cases hv : cfg (vlanbindEntryNode (j + 1)) "Active".toList with
    | none => simp
    | some v =>
      have hread := @attrText_nil_eq_iff (some v) 16 "No".toList (by decide) (by decide)
      rw [cfgGetObjectAttr_some, if_neg (by simp)]
      simpa [attrText] using hread
  have hbound : (cfgGetObjectAttr (cfg (wanPvcEntryNode (i + 1) (k + 1)) bindif) [] 16).2 =
      "Yes".toList ↔ cfg (wanPvcEntryNode (i + 1) (k + 1)) bindif = some "Yes".toList := by
    rw [cfgGetObjectAttr_snd, attrText_nil_eq_iff (by decide) (by decide)]
  rw [preCheckPort]
  simp only [hoff, hbound]

/-- The rules of an entry, as the code makes them. -/
def entryRules (b : FilterBuild) (cfg : Conf) (i k : Nat) : List FilterCmd :=
  [.mark (.input i k) false (b.markOf i k), .mark (.input i k) true (b.markOf i k)] ++
    (filteredPorts b cfg i k).flatMap fun j =>
      [.drop (.input i k) .dhcp4 j, .drop (.input i k) .dhcp6 j, .drop (.input i k) .solicit j,
        .drop (.output i k) .advert i]

/-- The commands for an entry. -/
def entryCmds (b : FilterBuild) (cfg : Conf) (e : Nat × Nat) : List FilterCmd :=
  if Qualifies b cfg e.1 e.2 then
    [.new (.input e.1 e.2), .policy (.input e.1 e.2), .jump (.input e.1 e.2),
      .new (.output e.1 e.2), .policy (.output e.1 e.2), .jump (.output e.1 e.2)] ++
    entryRules b cfg e.1 e.2
  else []

theorem preCheckEntry_eq (b : FilterBuild) (sh : Shifter) (cfg : Conf) {i k : Nat}
    (hi : i < b.pvcNum) (hk : k < 8) (s : FilterState) :
    preCheckEntry b sh cfg i k s =
      { cmds := s.cmds ++ entryCmds b cfg (i, k)
        bindruleMark := if Qualifies b cfg i k then s.bindruleMark ||| sh.shl64 (i * 8 + k)
          else s.bindruleMark } := by
  have hports : ((blMapData b.wlanAc).zipIdx.flatMap fun e =>
      preCheckPort cfg (wanPvcEntryNode (i + 1) (k + 1)) i k e.2 e.1.1) =
      (filteredPorts b cfg i k).flatMap fun j =>
        [.drop (.input i k) .dhcp4 j, .drop (.input i k) .dhcp6 j,
          .drop (.input i k) .solicit j, .drop (.output i k) .advert i] := by
    rw [filteredPorts, List.flatMap_map, ← flatMap_ite]
    simp only [preCheckPort_eq, decide_eq_true_eq]
  have hq := qualifies_iff b cfg hi hk
  rw [preCheckEntry, entryCmds, entryRules]
  dsimp only
  rw [hports]
  split
  · next hact =>
    rw [if_neg fun h => hact (hq.mp h).1, if_neg fun h => hact (hq.mp h).1, List.append_nil]
  · next hact =>
    split
    · next hrest =>
      have hqual := hq.mpr ⟨not_not.mp hact, hrest⟩
      rw [if_pos hqual, if_pos hqual]
      rfl
    · next hrest =>
      rw [if_neg fun h => hrest (hq.mp h).2, if_neg fun h => hrest (hq.mp h).2, List.append_nil]

/-! ## The walk over the entries -/

/-- The entries, in the order of the two loops. -/
def FilterBuild.entries (b : FilterBuild) : List (Nat × Nat) :=
  (List.range b.pvcNum).flatMap fun i => (List.range 8).map fun k => (i, k)

theorem FilterBuild.mem_entries (b : FilterBuild) {e : Nat × Nat} :
    e ∈ b.entries ↔ e.1 < b.pvcNum ∧ e.2 < 8 := by
  obtain ⟨i, k⟩ := e
  simp [FilterBuild.entries]

theorem FilterBuild.nodup_entries (b : FilterBuild) : b.entries.Nodup := by
  obtain ⟨_ | _, _, _⟩ := b
  · show List.Nodup ((List.range 8).flatMap fun i => (List.range 8).map fun k => (i, k))
    decide
  · show List.Nodup ((List.range 1).flatMap fun i => (List.range 8).map fun k => (i, k))
    decide

/-- The union of the bits of the entries that qualify. -/
def markAll (b : FilterBuild) (sh : Shifter) (cfg : Conf) (m : BitVec 64) (l : List (Nat × Nat)) :
    BitVec 64 :=
  l.foldl (fun m e => if Qualifies b cfg e.1 e.2 then m ||| sh.shl64 (e.1 * 8 + e.2) else m) m

/-- **The walk adds the commands and the bit of each entry.** -/
theorem preCheckLanportBind_eq (b : FilterBuild) (sh : Shifter) (cfg : Conf) (s : FilterState) :
    preCheckLanportBind b sh cfg s =
      { cmds := s.cmds ++ b.entries.flatMap (entryCmds b cfg)
        bindruleMark := markAll b sh cfg s.bindruleMark b.entries } := by
  have hfold : preCheckLanportBind b sh cfg s =
      b.entries.foldl (fun s e => preCheckEntry b sh cfg e.1 e.2 s) s := by
    rw [preCheckLanportBind, FilterBuild.entries, List.foldl_flatMap]
    simp only [List.foldl_map]
  rw [hfold]
  clear hfold
  have hvalid : ∀ e ∈ b.entries, e.1 < b.pvcNum ∧ e.2 < 8 := fun e he => b.mem_entries.mp he
  generalize b.entries = l at hvalid
  induction l generalizing s with
  | nil => simp [markAll]
  | cons e l ih =>
    obtain ⟨hi, hk⟩ := hvalid e List.mem_cons_self
    rw [List.foldl_cons, preCheckEntry_eq b sh cfg hi hk, ih _ fun x hx =>
      hvalid x (List.mem_cons_of_mem e hx), List.flatMap_cons, ← List.append_assoc]
    rfl

/-! ## The commands fit their buffer -/

theorem length_fmtNat_digit {n : Nat} (h : n < 10) : (fmtNat n).length = 1 := by
  have hle := (length_fmtNat_le (n := n) (k := 1) (by decide)).mpr (by omega)
  have hpos := List.length_pos_iff.mpr (fmtNat_ne_nil n)
  omega

theorem length_nasName {i k : Nat} (hi : i < 8) (hk : k < 8) : (nasName i k).length = 6 := by
  rw [nasName, List.length_append, List.length_append, List.length_cons,
    length_fmtNat_digit (show i < 10 by omega), length_fmtNat_digit (show k < 10 by omega)]
  rfl

theorem FilterChain.length_input_name_le {i k : Nat} (hi : i < 8) (hk : k < 8) :
    (FilterChain.input i k).name.length ≤ 21 := by
  rw [FilterChain.name, snprintf, List.length_take, List.length_append, length_nasName hi hk,
    show "DhcpFilterInput".toList.length = 15 from rfl]
  omega

theorem FilterChain.length_output_name_le {i k : Nat} (hi : i < 8) (hk : k < 8) :
    (FilterChain.output i k).name.length ≤ 22 := by
  rw [FilterChain.name, snprintf, List.length_take, List.length_append, length_nasName hi hk,
    show "DhcpFilterOutput".toList.length = 16 from rfl]
  omega

theorem FilterBuild.length_realif_le (b : FilterBuild) (j : Nat) :
    (((blMapData b.wlanAc)[j]?.map Prod.snd).getD []).length ≤ 6 := by
  cases hj : (blMapData b.wlanAc)[j]? with
  | none => simp
  | some e =>
    have hall : ∀ e ∈ (blMapData b.wlanAc), e.2.length ≤ 6 := by
      rcases b with ⟨_, _, _ | _⟩
      · show ∀ e ∈ blMapData false, e.2.length ≤ 6
        decide
      · show ∀ e ∈ blMapData true, e.2.length ≤ 6
        decide
    exact hall e (List.mem_of_getElem? hj)

theorem FilterBuild.length_fmtHex_markOf_le (b : FilterBuild) {i k : Nat}
    (hi : i < 8) (hk : k < 8) :
    (fmtHex (b.markOf i k)).length ≤ 6 := by
  rw [length_fmtHex_le (by decide), FilterBuild.markOf, Nat.shiftLeft_eq, Nat.shiftLeft_eq]
  split <;> omega

theorem DropKind.length_options_le (kind : DropKind) {realif : Str} (h : realif.length ≤ 6) :
    (kind.options realif).length ≤ 62 := by
  -- each kind has its own literals around the interface
  obtain ⟨head, tail, hlen, heq⟩ : ∃ head tail : Str, head.length + tail.length ≤ 56 ∧
      kind.options realif = head ++ realif ++ tail := by
    cases kind with
    | dhcp4 => exact ⟨_, _, by decide, rfl⟩
    | dhcp6 => exact ⟨_, _, by decide, rfl⟩
    | solicit => exact ⟨_, _, by decide, rfl⟩
    | advert => exact ⟨_, _, by decide, rfl⟩
  rw [heq, List.length_append, List.length_append]
  omega

theorem length_drop_lt (b : FilterBuild) {c : FilterChain} (hc : c.name.length ≤ 22)
    (kind : DropKind) (j : Nat) : ((FilterCmd.drop c kind j).text b).length < 128 := by
  have htext : (FilterCmd.drop c kind j).text b = "ebtables -t filter -A ".toList ++ c.name ++
      kind.options (((blMapData b.wlanAc)[j]?.map Prod.snd).getD []) := rfl
  have hopt := kind.length_options_le (b.length_realif_le j)
  rw [htext]
  simp only [List.length_append, String.reduceToList, List.length_cons, List.length_nil]
  omega

theorem length_mark_lt (b : FilterBuild) {c : FilterChain} (hc : c.name.length ≤ 21) (v6 : Bool)
    {m : Nat} (hm : (fmtHex m).length ≤ 6) : ((FilterCmd.mark c v6 m).text b).length < 128 := by
  obtain ⟨opt, hopt, htext⟩ : ∃ opt : Str, opt.length ≤ 50 ∧ (FilterCmd.mark c v6 m).text b =
      "ebtables -t filter -M mark_m -A ".toList ++ c.name ++ opt ++ fmtHex m ++
        "/0x7F0000 -j DROP\n".toList := by
    cases v6 with
    | true => exact ⟨_, by decide, rfl⟩
    | false => exact ⟨_, by decide, rfl⟩
  rw [htext]
  simp only [List.length_append, String.reduceToList, List.length_cons, List.length_nil]
  omega

theorem length_chain_lt (b : FilterBuild) {c : FilterChain} (hc : c.name.length ≤ 22) :
    ((FilterCmd.new c).text b).length < 128 ∧ ((FilterCmd.policy c).text b).length < 128 ∧
      ((FilterCmd.jump c).text b).length < 128 := by
  have hnew : (FilterCmd.new c).text b =
      "ebtables -t filter -N ".toList ++ c.name ++ " 2>/dev/null".toList := rfl
  have hpolicy : (FilterCmd.policy c).text b =
      "ebtables -t filter -P ".toList ++ c.name ++ " RETURN".toList := rfl
  have hjump : (FilterCmd.jump c).text b = "ebtables -t filter -A INPUT -j ".toList ++ c.name ∨
      (FilterCmd.jump c).text b = "ebtables -t filter -A OUTPUT -j ".toList ++ c.name := by
    cases c with
    | input i k => exact .inl rfl
    | output i k => exact .inr rfl
  rw [hnew, hpolicy]
  simp only [List.length_append, String.reduceToList, List.length_cons, List.length_nil]
  refine ⟨by omega, by omega, ?_⟩
  rcases hjump with hj | hj <;> rw [hj] <;>
    simp only [List.length_append, String.reduceToList, List.length_cons, List.length_nil] <;>
    omega

/-- **No command is longer than its buffer of 128 bytes.** -/
theorem length_text_lt (b : FilterBuild) (cfg : Conf) {i k : Nat} (hi : i < 8) (hk : k < 8)
    {c : FilterCmd} (hc : c ∈ entryCmds b cfg (i, k)) : (c.text b).length < 128 := by
  have hin := FilterChain.length_input_name_le hi hk
  have hin' : (FilterChain.input i k).name.length ≤ 22 := Nat.le_succ_of_le hin
  have hout := FilterChain.length_output_name_le hi hk
  have hmark := b.length_fmtHex_markOf_le hi hk
  obtain ⟨hnewI, hpolicyI, hjumpI⟩ := length_chain_lt b hin'
  obtain ⟨hnewO, hpolicyO, hjumpO⟩ := length_chain_lt b hout
  rw [entryCmds] at hc
  split at hc
  · simp only [entryRules, List.mem_append, List.mem_flatMap, List.mem_cons, List.not_mem_nil,
      or_false] at hc
    rcases hc with (rfl | rfl | rfl | rfl | rfl | rfl) | (rfl | rfl) | ⟨j, _, rfl | rfl | rfl | rfl⟩
    · exact hnewI
    · exact hpolicyI
    · exact hjumpI
    · exact hnewO
    · exact hpolicyO
    · exact hjumpO
    · exact length_mark_lt b hin false hmark
    · exact length_mark_lt b hin true hmark
    · exact length_drop_lt b hin' _ _
    · exact length_drop_lt b hin' _ _
    · exact length_drop_lt b hin' _ _
    · exact length_drop_lt b hout _ _
  · exact absurd hc (by simp)

/-! ## The rules of one entry -/

theorem filter_addsRule_entryCmds (b : FilterBuild) (cfg : Conf) (i k : Nat) (e : Nat × Nat) :
    (entryCmds b cfg e).filter (FilterCmd.addsRule i k) =
      if e = (i, k) then (if Qualifies b cfg i k then entryRules b cfg i k else []) else [] := by
  obtain ⟨i', k'⟩ := e
  by_cases he : (i', k') = (i, k)
  · obtain ⟨rfl, rfl⟩ := Prod.mk.inj he
    rw [if_pos he, entryCmds]
    split
    · rw [List.filter_append]
      have hrules : (entryRules b cfg i' k').filter (FilterCmd.addsRule i' k') =
          entryRules b cfg i' k' := by
        rw [List.filter_eq_self]
        intro c hc
        simp only [entryRules, List.mem_append, List.mem_flatMap, List.mem_cons, List.not_mem_nil,
          or_false] at hc
        rcases hc with (rfl | rfl) | ⟨j, _, rfl | rfl | rfl | rfl⟩ <;> simp [FilterCmd.addsRule]
      rw [hrules]
      simp [FilterCmd.addsRule]
    · rfl
  · rw [if_neg he, List.filter_eq_nil_iff, entryCmds]
    have hne : i' = i → k' ≠ k := fun h1 h2 => he (by rw [h1, h2])
    intro c hc
    split at hc
    · simp only [entryRules, List.mem_append, List.mem_flatMap, List.mem_cons, List.not_mem_nil,
        or_false] at hc
      rcases hc with (rfl | rfl | rfl | rfl | rfl | rfl) | (rfl | rfl) |
        ⟨j, _, rfl | rfl | rfl | rfl⟩ <;> simp [FilterCmd.addsRule] <;> exact hne
    · exact absurd hc (by simp)

/-- **The rules of the chains of an entry.** -/
theorem preCheckLanportBind_rules (b : FilterBuild) (sh : Shifter) (cfg : Conf) (i k : Nat) :
    ((preCheckLanportBind b sh cfg ⟨[], 0⟩).cmds.filter (FilterCmd.addsRule i k)) =
      if Qualifies b cfg i k then entryRules b cfg i k else [] := by
  rw [preCheckLanportBind_eq, List.nil_append, List.filter_flatMap]
  simp only [filter_addsRule_entryCmds]
  rw [flatMap_single b.nodup_entries]
  by_cases hq : Qualifies b cfg i k
  · rw [if_pos (b.mem_entries.mpr ⟨hq.1, hq.2.1⟩)]
  · simp [hq]

/-- The rules that the code makes are the expected ones exactly if each port has the number of the
PVC. -/
theorem entryRules_perm_iff (b : FilterBuild) (cfg : Conf) {i k : Nat} (hq : Qualifies b cfg i k) :
    (entryRules b cfg i k).Perm (expectedRules b cfg i k) ↔ ∀ j ∈ filteredPorts b cfg i k,
    j = i := by
  rw [entryRules, expectedRules, if_pos hq]
  constructor
  · intro h j hj
    have hmem : FilterCmd.drop (.output i k) .advert j ∈
        [FilterCmd.mark (.input i k) false (b.markOf i k),
          .mark (.input i k) true (b.markOf i k)] ++
        (filteredPorts b cfg i k).flatMap fun j =>
          [.drop (.input i k) .dhcp4 j, .drop (.input i k) .dhcp6 j,
            .drop (.input i k) .solicit j, .drop (.output i k) .advert j] :=
      List.mem_append_right _ (List.mem_flatMap.mpr ⟨j, hj, by simp⟩)
    have hcode := h.mem_iff.mpr hmem
    simp only [List.mem_append, List.mem_flatMap, List.mem_cons, List.not_mem_nil, or_false,
      reduceCtorEq, false_or, FilterCmd.drop.injEq, true_and, false_and] at hcode
    obtain ⟨_, _, hj'⟩ := hcode
    exact hj'
  · intro h
    have hsame : ((filteredPorts b cfg i k).flatMap fun j =>
        [FilterCmd.drop (.input i k) .dhcp4 j, .drop (.input i k) .dhcp6 j,
          .drop (.input i k) .solicit j, .drop (.output i k) .advert i]) =
        (filteredPorts b cfg i k).flatMap fun j =>
          [FilterCmd.drop (.input i k) .dhcp4 j, .drop (.input i k) .dhcp6 j,
            .drop (.input i k) .solicit j, .drop (.output i k) .advert j] := by
      refine List.flatMap_congr fun j hj => ?_
      rw [h j hj]
    rw [hsame]

/-! ## The word -/

theorem markAll_and_eq_zero_iff (b : FilterBuild) (sh : Shifter) (cfg : Conf) (x : BitVec 64) :
    ∀ (l : List (Nat × Nat)) (m : BitVec 64), markAll b sh cfg m l &&& x = 0 ↔
      m &&& x = 0 ∧ ∀ e ∈ l, Qualifies b cfg e.1 e.2 → sh.shl64 (e.1 * 8 + e.2) &&& x = 0
  | [], m => by simp [markAll]
  | e :: l, m => by
    have ih := markAll_and_eq_zero_iff b sh cfg x l
    rw [markAll, List.foldl_cons]
    split
    · next hq =>
      rw [show List.foldl _ _ l = markAll b sh cfg (m ||| sh.shl64 (e.1 * 8 + e.2)) l from rfl, ih,
        BitVec.and_or_distrib_right]
      have hor : (m &&& x ||| sh.shl64 (e.1 * 8 + e.2) &&& x) = 0 ↔
          m &&& x = 0 ∧ sh.shl64 (e.1 * 8 + e.2) &&& x = 0 := BitVec.or_eq_zero_iff
      rw [hor]
      simp [hq, and_assoc]
    · next hq =>
      rw [show List.foldl _ _ l = markAll b sh cfg m l from rfl, ih]
      simp [hq]

/-- The bit of a WAN is found in the word exactly if a WAN that qualifies shares a bit with it. -/
theorem checkPortBindMask_iff (b : FilterBuild) (sh : Shifter) (cfg : Conf) (idx : Nat) :
    checkPortBindMask sh (preCheckLanportBind b sh cfg ⟨[], 0⟩).bindruleMark idx = 1 ↔
      ∃ q < 64, Qualifies b cfg (q / 8) (q % 8) ∧ sh.shl64 q &&& sh.shl64 idx ≠ 0 := by
  have hcheck : ∀ m : BitVec 64, checkPortBindMask sh m idx = 1 ↔ ¬ m &&& sh.shl64 idx = 0 := by
    intro m
    rw [checkPortBindMask]
    split
    · next h => simpa using h
    · next h => simpa using h
  rw [preCheckLanportBind_eq, hcheck, markAll_and_eq_zero_iff]
  constructor
  · intro h
    by_contra hn
    push Not at hn
    refine h ⟨by simp, fun e he hq => ?_⟩
    obtain ⟨hi, hk⟩ := b.mem_entries.mp he
    have hpvc : b.pvcNum ≤ 8 := by
      rw [FilterBuild.pvcNum]
      split <;> omega
    have h1 : (e.1 * 8 + e.2) / 8 = e.1 := by omega
    have h2 : (e.1 * 8 + e.2) % 8 = e.2 := by omega
    exact hn (e.1 * 8 + e.2) (by omega) (by rw [h1, h2]; exact hq)
  · rintro ⟨q, _, hq, hne⟩ ⟨_, hall⟩
    have hz := hall (q / 8, q % 8) (b.mem_entries.mpr ⟨hq.1, hq.2.1⟩) hq
    rw [show q / 8 * 8 + q % 8 = q by omega] at hz
    exact hne hz

/-- **The set-up is right exactly under the condition on the configuration.** -/
theorem preCheckLanportBind_ok_iff (b : FilterBuild) (sh : Shifter) (cfg : Conf) :
    FilterOk b sh cfg (preCheckLanportBind b sh cfg ⟨[], 0⟩) ↔ FilterCond b sh cfg := by
  constructor
  · intro h
    refine ⟨fun i k hq => ?_, fun idx hidx hq hzero => ?_, fun idx hidx other ho hq hn => ?_⟩
    · have hrules := h.rules i k
      rw [preCheckLanportBind_rules, if_pos hq] at hrules
      exact (entryRules_perm_iff b cfg hq).mp hrules
    · obtain ⟨q, _, _, hne⟩ := (checkPortBindMask_iff b sh cfg idx).mp ((h.mask idx hidx).mpr hq)
      exact hne (by rw [hzero]; exact BitVec.and_zero)
    · by_contra hne
      exact hn ((h.mask other ho).mp ((checkPortBindMask_iff b sh cfg other).mpr
        ⟨idx, hidx, hq, hne⟩))
  · intro h
    refine ⟨fun i k => ?_, fun idx hidx => ?_⟩
    · rw [preCheckLanportBind_rules]
      split
      · next hq => exact (entryRules_perm_iff b cfg hq).mpr (h.ports i k hq)
      · next hq => rw [expectedRules, if_neg hq]
    · rw [checkPortBindMask_iff]
      constructor
      · rintro ⟨q, hqlt, hq, hne⟩
        by_contra hn
        exact hne (h.apart q hqlt idx hidx hq hn)
      · intro hq
        refine ⟨idx, hidx, hq, ?_⟩
        rw [BitVec.and_self]
        exact h.bit idx hidx hq

/-- One bridge WAN, bound to the second LAN port. -/
def boundToLan2 : Conf := fun path name =>
  if path = wanPvcEntryNode 1 1 then
    cfgXmlGetAttr [("Active".toList, "Yes".toList), ("DHCPEnable".toList, "0".toList),
      ("WanMode".toList, "Bridge".toList), ("ServiceList".toList, "INTERNET".toList),
      ("LAN2".toList, "Yes".toList)] name
  else none

/-- The rule for router advertisements names the first port. -/
theorem filter_fails :
    ¬ FilterOk ⟨false, false, false⟩ .mips boundToLan2
        (preCheckLanportBind ⟨false, false, false⟩ .mips boundToLan2 ⟨[], 0⟩) ∧
      ¬ FilterOk ⟨false, false, false⟩ .arm boundToLan2
        (preCheckLanportBind ⟨false, false, false⟩ .arm boundToLan2 ⟨[], 0⟩) := by
  have hall : ∀ sh : Shifter, ¬ FilterOk ⟨false, false, false⟩ sh boundToLan2
      (preCheckLanportBind ⟨false, false, false⟩ sh boundToLan2 ⟨[], 0⟩) := by
    intro sh h
    have hq : Qualifies ⟨false, false, false⟩ boundToLan2 0 0 := by decide
    have hrules := h.rules 0 0
    rw [preCheckLanportBind_rules, if_pos hq, entryRules_perm_iff _ _ hq] at hrules
    exact absurd (hrules 1 (by decide)) (by decide)
  exact ⟨hall _, hall _⟩

end OnuFirmware.Wan
