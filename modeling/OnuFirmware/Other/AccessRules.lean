import OnuFirmware.Cfg.ReadAttr
import OnuFirmware.Clib.Hex

/-!
# The access rules of a LAN host (`lanhost2_mgr.c`)

A host whose attribute `InternetAccess` is 0 or 1, or whose `StorageAccess` is 0, is blocked by
rules for its MAC address. The address may be written with colons or without them.
-/

namespace OnuFirmware.Other

open Clib Cfg

/-- `if (cfg_obj_get_object_attr(path, name, ..) > 0) val = atoi(buf)`: the new value, if there is
one. -/
def numAttr (cfg : Conf) (path name : Str) : Option Int :=
  let got := cfgGetObjectAttr (cfg path name) [] 32
  if 0 < got.1 then some (atoi got.2) else none

theorem numAttr_congr {cfg cfg' : Conf} {path name : Str} (h : cfg' path name = cfg path name) :
    numAttr cfg' path name = numAttr cfg path name := by
  rw [numAttr, numAttr, h]

theorem numAttr_le {cfg : Conf} {path name : Str} {v : Int} (h : numAttr cfg path name = some v) :
    v ≤ intMax := by
  simp only [numAttr] at h
  split at h
  · exact Option.some.inj h ▸ atoi_le _
  · cases h

/-- `cfg_obj_set_object_attr` on an object that exists. -/
def setAttr (cfg : Conf) (path name val : Str) : Conf := fun p n =>
  if p = path ∧ n = name then some val else cfg p n

theorem setAttr_of_ne {cfg : Conf} {path name val p n : Str} (h : p ≠ path ∨ n ≠ name) :
    setAttr cfg path name val p n = cfg p n := by
  rw [setAttr, if_neg]
  rintro ⟨hp, hn⟩
  exact h.elim (· hp) (· hn)

theorem setAttr_self (cfg : Conf) (path name val : Str) :
    setAttr cfg path name val path name = some val := if_pos ⟨rfl, rfl⟩

/-! ## The MAC address -/

/-- The rounds of `mac_add_dot` that are left, from index `i` of the old text on. The buffers are
filled up with NULs. -/
def macAddDotFrom (oldMac : Str) : Nat → Nat → Str
  | 0, _ => []
  | 1, i => [oldMac.getD i '\x00', oldMac.getD (i + 1) '\x00']
  | rounds + 1, i =>
    oldMac.getD i '\x00' :: oldMac.getD (i + 1) '\x00' :: ':' ::
      macAddDotFrom oldMac rounds (if oldMac.getD (i + 2) '\x00' = ':' then i + 3 else i + 2)

/-- `mac_add_dot`. -/
def macAddDot (oldMac : Str) : Str := (macAddDotFrom oldMac 6 0).takeWhile (· ≠ '\x00')

/-- `%02X` of `sscanf`: an item of at most two characters behind the blanks. -/
def scanX2 (s : Str) : Option (Word × Str) :=
  match s.dropWhile isSpace with
  | [] => none
  | [c] => (hexVal c).map fun v => (BitVec.ofNat 32 v, [])
  | c :: d :: r =>
    match hexVal c, hexVal d with
    | some v, some w => some (BitVec.ofNat 32 (16 * v + w), r)
    | some v, none =>
      if c = '0' ∧ (d = 'x' ∨ d = 'X') then none else some (BitVec.ofNat 32 v, d :: r)
    | none, some w =>
      if c = '-' then some (-BitVec.ofNat 32 w, r)
      else if c = '+' then some (BitVec.ofNat 32 w, r)
      else none
    | none, none => none

/-- `sscanf(s, "%02X:%02X:..", ..)` into fields that are 0. -/
def scanMac : Nat → Str → List Word
  | 0, _ => []
  | fields + 1, s =>
    match scanX2 s with
    | none => List.replicate (fields + 1) 0
    | some (v, ':' :: r) => v :: scanMac fields r
    | some (v, _) => v :: List.replicate fields 0

/-! ## The access rules -/

/-- The flags of the file and the commands that were run. -/
structure AccessState where
  internet0Flag : Bool
  internet1Flag : Bool
  storageFlag : Bool
  cmds : List Str

/-- `system` on each of the commands. -/
def AccessState.system (a : AccessState) (cmds : List Str) : AccessState :=
  { a with cmds := a.cmds ++ cmds }

/-- `clean_access_rule`. -/
def cleanAccessRule (a : AccessState) : AccessState :=
  { a.system ["iptables -t filter -F internet_chain 2>/dev/null".toList,
      "iptables -t filter -D FORWARD -j internet_chain 2>/dev/null".toList,
      "ip6tables -t filter -F internet_chain 2>/dev/null".toList,
      "ip6tables -t filter -D FORWARD -j internet_chain 2>/dev/null".toList,
      "iptables -t filter -F storage_chain 2>/dev/null".toList,
      "iptables -t filter -D INPUT -j storage_chain 2>/dev/null".toList,
      "ebtables -t filter -F Station_Limit 2>/dev/null".toList,
      "ebtables -t filter -D INPUT -j Station_Limit 2>/dev/null".toList,
      "ebtables -t filter -D FORWARD -j Station_Limit 2>/dev/null".toList] with
    internet0Flag := false
    internet1Flag := false
    storageFlag := false }

/-- A rule with a MAC address in a buffer of `size` bytes. -/
def macRule (size : Nat) (head : String) (mac : Str) (tail : String) : Str :=
  snprintf size (head.toList ++ mac ++ tail.toList)

/-- `set_internet_access_rule`: the return value and the state. -/
def setInternetAccessRule (cfg : Conf) (path mac : Str) (a : AccessState) : Int × AccessState :=
  match numAttr cfg path "InternetAccess".toList with
  | none => (2, a)
  | some internet =>
    if internet = 0 then
      let chain :=
        if a.internet0Flag then a
        else
          { a.system ["ebtables -N Station_Limit 2>/dev/null".toList,
              "ebtables -A INPUT -j Station_Limit 2>/dev/null".toList,
              "ebtables -I FORWARD -j Station_Limit 2>/dev/null".toList] with
            internet0Flag := true }
      (internet, chain.system
        [macRule 256 "ebtables -A Station_Limit -s " mac " -j DROP 2>/dev/null"])
    else if internet = 1 then
      let first := a.system [macRule 128
        "iptables -t filter -A internet_chain -i br0 -m mac --mac-source " mac
        " -j DROP 2>/dev/null"]
      let chain :=
        if a.internet1Flag then first
        else
          { first.system ["iptables -t filter -A FORWARD -j internet_chain 2>/dev/null".toList,
              "ip6tables -t filter -I FORWARD -j internet_chain 2>/dev/null".toList] with
            internet1Flag := true }
      (internet, chain.system
        [macRule 256 "ebtables -A F_Station_Limit -o nas+ -s " mac " -j DROP 2>/dev/null",
          macRule 128 "iptables -t filter -A internet_chain -i br0 -o nas+ -m mac --mac-source " mac
            " -j DROP 2>/dev/null",
          macRule 128 "iptables -t filter -A internet_chain -i br0 -o ppp+ -m mac --mac-source " mac
            " -j DROP 2>/dev/null",
          macRule 128 "ip6tables -t filter -A internet_chain -i br0 -o nas+ -m mac --mac-source " mac
            " -j DROP 2>/dev/null",
          macRule 128 "ip6tables -t filter -A internet_chain -i br0 -o ppp+ -m mac --mac-source " mac
            " -j DROP 2>/dev/null"])
    else (internet, a)

/-- `set_storage_access_rule`. -/
def setStorageAccessRule (cfg : Conf) (path mac : Str) (a : AccessState) : Int × AccessState :=
  match numAttr cfg path "StorageAccess".toList with
  | none => (1, a)
  | some storage =>
    if storage = 0 then
      let rules := a.system
        [macRule 512 "iptables -t filter -A storage_chain -i br0 -m mac --mac-source " mac
            " -p TCP -m multiport --dport 21,445,139,389,901 -j DROP 2>/dev/null",
          macRule 512 "iptables -t filter -A storage_chain -i br0 -m mac --mac-source " mac
            " -p UDP -m multiport --dport 137,138 -j DROP 2>/dev/null"]
      (storage,
        if a.storageFlag then rules
        else
          { rules.system ["iptables -t filter -A INPUT -j storage_chain 2>/dev/null".toList] with
            storageFlag := true })
    else (storage, a)

theorem setInternetAccessRule_fst (cfg : Conf) (path mac : Str) (a : AccessState) :
    (setInternetAccessRule cfg path mac a).1 =
      (numAttr cfg path "InternetAccess".toList).getD 2 := by
  unfold setInternetAccessRule
  split
  · next h => rw [h]; rfl
  · next internet h =>
    rw [h]
    split
    · rfl
    · split <;> rfl

theorem setStorageAccessRule_fst (cfg : Conf) (path mac : Str) (a : AccessState) :
    (setStorageAccessRule cfg path mac a).1 = (numAttr cfg path "StorageAccess".toList).getD 1 := by
  unfold setStorageAccessRule
  split
  · next h => rw [h]; rfl
  · next storage h =>
    rw [h]
    split <;> rfl

end OnuFirmware.Other
