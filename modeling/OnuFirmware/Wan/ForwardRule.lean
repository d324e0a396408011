import OnuFirmware.Clib.Inet
import OnuFirmware.Clib.Num
import Mathlib.Data.List.Infix

/-!
# The rules of the forward list (`full_route.c`)

`ipv4_rule_exec` and `ipv6_rule_exec` turn one item of the forward list into a command, either for
one address or for a range with a minus sign between the two ends. They do the same steps for the
two families: read the ends with `sscanf` into local arrays, convert them with `inet_pton`, compare
them and print the command into an array of 128 bytes.

The IPv4 ends are compared as words that were loaded from the bytes of the addresses, so the result
depends on the byte order of the processor. The IPv6 ends are compared byte by byte.
-/

namespace OnuFirmware.Wan

open Lib Clib

/-- What `ipv4_rule_exec` and `ipv6_rule_exec` differ in. -/
structure RuleFamily (n : Nat) where
  tool : Str
  /-- The greatest length of the text of one address. -/
  maxText : Nat
  pton : Str → Option (InAddr n)
  /-- The comparison of the two ends. -/
  gt : InAddr n → InAddr n → Bool
  /-- The text of an address fits into the local arrays and is one word without a minus sign. -/
  text : ∀ s x, pton s = some x → s ≠ [] ∧ s.length < 80 ∧ ∀ c ∈ s, c ≠ '-' ∧ isSpace c = false

/-- `s_addr` of an address as a word. -/
def sAddr (bigEndian : Bool) (a : InAddr 4) : Nat := if bigEndian then beVal a.val else leVal a.val

/-- The characters of addresses are no minus signs and no blanks. -/
theorem isAddrChar_plain {c : Char} (h : isAddrChar c = true) : c ≠ '-' ∧ isSpace c = false := by
  refine ⟨fun hc => absurd h (by rw [hc]; decide), ?_⟩
  simp only [isAddrChar, Bool.or_eq_true, decide_eq_true_eq, Option.isSome_iff_exists] at h
  rcases h with (⟨v, hv⟩ | rfl) | rfl
  · exact isSpace_eq_false_of_hexVal hv
  · rfl
  · rfl

/-- The family of `ipv4_rule_exec`. -/
def ipv4Family (bigEndian : Bool) : RuleFamily 4 where
  tool := "iptables".toList
  maxText := 15
  pton := inetPton4
  gt a b := decide (sAddr bigEndian b < sAddr bigEndian a)
  text s x h := by
    obtain ⟨hlen, hc⟩ := inetPton4_some h
    refine ⟨?_, by omega, fun c hcs => isAddrChar_plain ?_⟩
    · rintro rfl
      exact absurd h (by simp [show inetPton4 [] = none from rfl])
    · rw [isAddrChar]
      rcases hc c hcs with hd | rfl
      · rw [hexVal_of_isDigit hd]
        rfl
      · rfl

/-- The family of `ipv6_rule_exec`. -/
def ipv6Family : RuleFamily 16 where
  tool := "ip6tables".toList
  maxText := 39
  pton := inetPton6
  gt a b := decide (0 < memcmp a.val b.val)
  text s x h := by
    obtain ⟨hlen, hc⟩ := inetPton6_some h
    refine ⟨?_, by omega, fun c hcs => isAddrChar_plain (hc c hcs)⟩
    rintro rfl
    exact absurd h (by simp [show inetPton6 [] = none from rfl])

variable {n : Nat}

/-- `(if_index + 1) << 16`. -/
def ruleMark (ifIndex : Nat) : Word := BitVec.ofNat 32 (ifIndex + 1) <<< 16

/-- The text of the command for the destination `dest`, without the newline. -/
def ruleText (f : RuleFamily n) (ifIndex : Nat) (dest : Str) : Str :=
  f.tool ++ (" -A full_route_".toList ++ (fmtNat ifIndex ++ (" -t mangle ".toList ++ (dest ++
    (" -j MARK --set-mark 0x".toList ++ (fmtHex (ruleMark ifIndex).toNat ++ "/0x7f0000".toList))))))

def rangeDest (ipAddr : Str) : Str := "-m iprange --dst-range ".toList ++ ipAddr

/-- `sscanf(ipAddr, "%[^-]-%s", start_addr, end_addr)` into arrays of 80 zeros. -/
def scanRange (ipAddr : Str) : Except Fault (Str × Str) :=
  let start := ipAddr.takeWhile (· != '-')
  let stop := ((ipAddr.drop (start.length + 1)).dropWhile isSpace).takeWhile (!isSpace ·)
  if start = [] then .ok ([], [])
  else if 80 ≤ start.length ∨ 80 ≤ stop.length then .error .overrun
  else .ok (start, stop)

/-- The return value and the commands of `ipv4_rule_exec` and `ipv6_rule_exec`. -/
def ruleExec (f : RuleFamily n) (ifIndex : Nat) (ipAddr : Str) : Except Fault (Int × List Str) :=
  if hasStr ipAddr "-".toList = false then
    if f.maxText < ipAddr.length then .ok (-1, [])
    else
      match f.pton ipAddr with
      | none => .ok (1, [])
      | some _ =>
        .ok (0, [snprintf 128 (ruleText f ifIndex ("-d ".toList ++ ipAddr) ++ ['\n'])])
  else
    match scanRange ipAddr with
    | .error e => .error e
    | .ok (start, stop) =>
      match f.pton start with
      | none => .ok (1, [])
      | some s =>
        match f.pton stop with
        | none => .ok (1, [])
        | some e =>
          if f.gt s e then .ok (-1, [])
          else .ok (0, [snprintf 128 (ruleText f ifIndex (rangeDest ipAddr) ++ ['\n'])])

def ipv4RuleExec (bigEndian : Bool) (ifIndex : Nat) (ip4Addr : Str) :
    Except Fault (Int × List Str) :=
  ruleExec (ipv4Family bigEndian) ifIndex ip4Addr

def ipv6RuleExec (ifIndex : Nat) (ip6Addr : Str) : Except Fault (Int × List Str) :=
  ruleExec ipv6Family ifIndex ip6Addr

/-! ## What the functions should do -/

/-- The text is a range from `x` to `y`. -/
def IsRange (f : RuleFamily n) (ipAddr : Str) (x y : InAddr n) : Prop :=
  ∃ a b, ipAddr = a ++ '-' :: b ∧ f.pton a = some x ∧ f.pton b = some y

/-- The command is the rule, with or without the newline at the end. -/
def IsCommand (cmd rule : Str) : Prop := cmd = rule ∨ cmd = rule ++ ['\n']

/-- A range issues its rule exactly if it goes upwards, and only addresses and ranges issue one. -/
structure RuleRight (f : RuleFamily n) (ifIndex : Nat) (ipAddr : Str) : Prop where
  up : ∀ x y, IsRange f ipAddr x y → beVal x.val ≤ beVal y.val →
    ∃ cmd, ruleExec f ifIndex ipAddr = .ok (0, [cmd]) ∧
      IsCommand cmd (ruleText f ifIndex (rangeDest ipAddr))
  down : ∀ x y, IsRange f ipAddr x y → beVal y.val < beVal x.val →
    ruleExec f ifIndex ipAddr = .ok (-1, [])
  other : f.pton ipAddr = none → (∀ x y, ¬ IsRange f ipAddr x y) →
    ∃ r, ruleExec f ifIndex ipAddr = .ok (r, [])

/-- A text that is read as a range although there are blanks before the second address or something
behind it. -/
def IsLoose (f : RuleFamily n) (ipAddr : Str) (x y : InAddr n) : Prop :=
  ∃ a blanks b rest, ipAddr = a ++ '-' :: (blanks ++ (b ++ rest)) ∧
    (∀ c ∈ blanks, isSpace c = true) ∧ (∀ c ∈ rest.head?, isSpace c = true) ∧
    (blanks ≠ [] ∨ rest ≠ []) ∧ f.pton a = some x ∧ f.pton b = some y

/-- The condition on a text that is read as a range. -/
structure ScanCond (f : RuleFamily n) (ipAddr : Str) : Prop where
  loose : ∀ x y, IsLoose f ipAddr x y → f.gt x y = true
  fits : ∀ a b, ipAddr = a ++ '-' :: b → '-' ∉ a → a ≠ [] →
    a.length < 80 ∧ ((b.dropWhile isSpace).takeWhile (!isSpace ·)).length < 80

/-! ## Reading the two ends -/

theorem hasStr_minus {s : Str} : hasStr s "-".toList = true ↔ '-' ∈ s :=
  hasStr_iff.trans (List.singleton_infix_iff '-' s)

/-- What is read from a text with a minus sign. -/
theorem scanRange_eq {a b : Str} (ha : '-' ∉ a) :
    scanRange (a ++ '-' :: b) =
      if a = [] then .ok ([], [])
      else if 80 ≤ a.length ∨ 80 ≤ ((b.dropWhile isSpace).takeWhile (!isSpace ·)).length then
        .error .overrun
      else .ok (a, (b.dropWhile isSpace).takeWhile (!isSpace ·)) := by
  have hstart : (a ++ '-' :: b).takeWhile (· != '-') = a :=
    takeWhile_run (fun c hc => by simpa using fun h : c = '-' => ha (h ▸ hc)) (by simp)
  have hrest : (a ++ '-' :: b).drop (a.length + 1) = b := by
    rw [List.drop_append]
    simp
  rw [scanRange, hstart, hrest]

/-- The word behind the minus sign, with the blanks around it. -/
theorem scanRange_word {a blanks b rest : Str} (ha : '-' ∉ a) (hne : a ≠ []) (hlen : a.length < 80)
    (hblanks : ∀ c ∈ blanks, isSpace c = true) (hb : b ≠ []) (hblen : b.length < 80)
    (hword : ∀ c ∈ b, isSpace c = false) (hrest : ∀ c ∈ rest.head?, isSpace c = true) :
    scanRange (a ++ '-' :: (blanks ++ (b ++ rest))) = .ok (a, b) := by
  have hhead : ∀ c ∈ (b ++ rest).head?, isSpace c = false := by
    intro c hc
    rcases b with _ | ⟨d, b⟩
    · exact absurd rfl hb
    · obtain rfl : d = c := by simpa using hc
      exact hword d List.mem_cons_self
  have hread : ((blanks ++ (b ++ rest)).dropWhile isSpace).takeWhile (!isSpace ·) = b := by
    rw [dropWhile_run hblanks hhead]
    exact takeWhile_run (fun c hc => by simp [hword c hc]) fun c hc => by simp [hrest c hc]
  rw [scanRange_eq ha, hread, if_neg hne, if_neg (by omega)]

/-- The parts of a text behind its first minus sign. -/
theorem word_parts (b : Str) : ∃ blanks word rest, b = blanks ++ (word ++ rest) ∧
    (∀ c ∈ blanks, isSpace c = true) ∧ word = (b.dropWhile isSpace).takeWhile (!isSpace ·) ∧
    ∀ c ∈ rest.head?, isSpace c = true := by
  refine ⟨b.takeWhile isSpace, _, (b.dropWhile isSpace).dropWhile (!isSpace ·), ?_, ?_, rfl, ?_⟩
  · rw [List.takeWhile_append_dropWhile, List.takeWhile_append_dropWhile]
  · exact fun c hc => List.all_eq_true.mp List.all_takeWhile c hc
  · intro c hc
    have h := List.head?_dropWhile_not (!isSpace ·) (b.dropWhile isSpace)
    rw [Option.mem_def.mp hc] at h
    simpa using h

theorem RuleFamily.minus_notMem (f : RuleFamily n) {s : Str} {x : InAddr n}
    (h : f.pton s = some x) : '-' ∉ s := fun hc => ((f.text s x h).2.2 _ hc).1 rfl

/-- The two ends of a range are read. -/
theorem scanRange_loose (f : RuleFamily n) {a blanks b rest : Str} {x y : InAddr n}
    (hblanks : ∀ c ∈ blanks, isSpace c = true) (hrest : ∀ c ∈ rest.head?, isSpace c = true)
    (ha : f.pton a = some x) (hb : f.pton b = some y) :
    scanRange (a ++ '-' :: (blanks ++ (b ++ rest))) = .ok (a, b) := by
  obtain ⟨hane, halen, -⟩ := f.text a x ha
  obtain ⟨hbne, hblen, hword⟩ := f.text b y hb
  exact scanRange_word (f.minus_notMem ha) hane halen hblanks hbne hblen
    (fun c hc => (hword c hc).2) hrest

/-! ## What is issued -/

theorem ruleExec_loose (f : RuleFamily n) (ifIndex : Nat) {a blanks b rest : Str} {x y : InAddr n}
    (hblanks : ∀ c ∈ blanks, isSpace c = true) (hrest : ∀ c ∈ rest.head?, isSpace c = true)
    (ha : f.pton a = some x) (hb : f.pton b = some y) :
    ruleExec f ifIndex (a ++ '-' :: (blanks ++ (b ++ rest))) =
      if f.gt x y then .ok (-1, [])
      else .ok (0, [snprintf 128
        (ruleText f ifIndex (rangeDest (a ++ '-' :: (blanks ++ (b ++ rest)))) ++ ['\n'])]) := by
  have hminus : hasStr (a ++ '-' :: (blanks ++ (b ++ rest))) "-".toList = true :=
    hasStr_minus.mpr (by simp)
  rw [ruleExec, hminus, if_neg (by decide), scanRange_loose f hblanks hrest ha hb]
  simp only [ha, hb]

theorem ruleExec_range (f : RuleFamily n) (ifIndex : Nat) {s : Str} {x y : InAddr n}
    (h : IsRange f s x y) :
    ruleExec f ifIndex s =
      if f.gt x y then .ok (-1, [])
      else .ok (0, [snprintf 128 (ruleText f ifIndex (rangeDest s) ++ ['\n'])]) := by
  obtain ⟨a, b, rfl, ha, hb⟩ := h
  have hexec := @ruleExec_loose n f ifIndex a [] b [] x y (by simp) (by simp) ha hb
  rwa [List.append_nil, List.nil_append] at hexec

/-- A text with a minus sign is not an address. -/
theorem RuleFamily.pton_minus (f : RuleFamily n) {s : Str} (h : '-' ∈ s) : f.pton s = none := by
  cases hs : f.pton s with
  | none => rfl
  | some x => exact absurd h (f.minus_notMem hs)

/-- A text that is only read as a range is none. -/
theorem not_isRange_of_isLoose (f : RuleFamily n) {s : Str} {x y : InAddr n}
    (h : IsLoose f s x y) (x' y' : InAddr n) : ¬ IsRange f s x' y' := by
  obtain ⟨a, blanks, b, rest, rfl, hblanks, hrest, hne, ha, hb⟩ := h
  rintro ⟨a', b', heq, ha', hb'⟩
  -- both cuts are at the first minus sign, and the second address of the range has no blanks
  have hcut := (List.append_cons_inj_of_notMem (f.minus_notMem ha') (f.minus_notMem hb')).mp
    heq.symm
  have hword : ∀ c ∈ blanks ++ (b ++ rest), isSpace c = false := by
    rw [← hcut.2.2]
    exact fun c hc => ((f.text b' y' hb').2.2 c hc).2
  rcases hne with hne | hne
  · obtain ⟨c, hc⟩ := List.exists_mem_of_ne_nil blanks hne
    have hsp := hword c (by simp [hc])
    rw [hblanks c hc] at hsp
    exact absurd hsp (by decide)
  · rcases rest with _ | ⟨c, rest⟩
    · exact hne rfl
    · have hsp := hword c (by simp)
      rw [hrest c (by simp)] at hsp
      exact absurd hsp (by decide)

/-- **When a command in an array of 128 bytes is the rule.** -/
theorem isCommand_snprintf_iff (rule : Str) :
    IsCommand (snprintf 128 (rule ++ ['\n'])) rule ↔ rule.length ≤ 127 := by
  have hlen : (rule ++ ['\n']).length = rule.length + 1 := by simp
  constructor
  · intro h
    have hcmd : (snprintf 128 (rule ++ ['\n'])).length ≤ 127 := by
      rw [snprintf, List.length_take]
      omega
    rcases h with h | h
    · rwa [h] at hcmd
    · rw [h, hlen] at hcmd
      omega
  · intro h
    by_cases h127 : rule.length = 127
    · left
      rw [snprintf, show 128 - 1 = rule.length by omega, List.take_left]
    · right
      exact snprintf_eq (by rw [hlen]; omega)

/-- **When the functions do what they should.** -/
theorem ruleRight_iff (f : RuleFamily n) (ifIndex : Nat) (s : Str) :
    RuleRight f ifIndex s ↔
      (∀ x y, IsRange f s x y → (f.gt x y = true ↔ beVal y.val < beVal x.val)) ∧
      (∀ x y, IsRange f s x y → beVal x.val ≤ beVal y.val →
        (ruleText f ifIndex (rangeDest s)).length ≤ 127) ∧ ScanCond f s := by
  constructor
  · intro h
    refine ⟨fun x y hr => ?_, fun x y hr hle => ?_, ⟨fun x y hl => ?_, fun a b hs ha hne => ?_⟩⟩
    · have hexec := ruleExec_range f ifIndex hr
      rcases Nat.lt_or_ge (beVal y.val) (beVal x.val) with hlt | hge
      · refine iff_of_true ?_ hlt
        rw [h.down x y hr hlt] at hexec
        by_contra hgt
        rw [if_neg hgt] at hexec
        exact absurd hexec (by simp)
      · refine iff_of_false ?_ (by omega)
        obtain ⟨cmd, hcmd, -⟩ := h.up x y hr hge
        intro hgt
        rw [hcmd, if_pos hgt] at hexec
        exact absurd hexec (by simp)
    · obtain ⟨cmd, hcmd, hrule⟩ := h.up x y hr hle
      rw [ruleExec_range f ifIndex hr] at hcmd
      split at hcmd
      · exact absurd hcmd (by simp)
      · simp only [Except.ok.injEq, Prod.mk.injEq, List.cons.injEq, and_true, true_and] at hcmd
        rw [← hcmd] at hrule
        exact (isCommand_snprintf_iff _).mp hrule
    · by_contra hgt
      have hnone := not_isRange_of_isLoose f hl
      obtain ⟨a, blanks, b, rest, rfl, hblanks, hrest, -, ha, hb⟩ := hl
      obtain ⟨r, hr⟩ := h.other (f.pton_minus (by simp)) hnone
      rw [ruleExec_loose f ifIndex hblanks hrest ha hb, if_neg hgt] at hr
      exact absurd hr (by simp)
    · subst hs
      by_contra hlong
      have hfault : scanRange (a ++ '-' :: b) = .error .overrun := by
        rw [scanRange_eq ha, if_neg hne, if_pos (by omega)]
      have hexec : ruleExec f ifIndex (a ++ '-' :: b) = .error .overrun := by
        rw [ruleExec, hasStr_minus.mpr (by simp), if_neg (by decide), hfault]
      obtain ⟨r, hr⟩ := h.other (f.pton_minus (by simp)) fun x y hr => by
        rw [ruleExec_range f ifIndex hr] at hexec
        split at hexec <;> exact absurd hexec (by simp)
      rw [hexec] at hr
      exact absurd hr (by simp)
  · rintro ⟨hgt, hfits, hscan⟩
    refine ⟨fun x y hr hle => ?_, fun x y hr hlt => ?_, fun hone hnone => ?_⟩
    · refine ⟨_, ?_, (isCommand_snprintf_iff _).mpr (hfits x y hr hle)⟩
      rw [ruleExec_range f ifIndex hr, if_neg]
      rw [hgt x y hr]
      omega
    · rw [ruleExec_range f ifIndex hr, if_pos ((hgt x y hr).mpr hlt)]
    · rw [ruleExec]
      split
      · split
        · exact ⟨-1, rfl⟩
        · exact ⟨1, by rw [hone]⟩
      · next hminus =>
        obtain ⟨a, b, rfl, ha⟩ := List.eq_append_cons_of_mem
          (hasStr_minus.mp (Bool.eq_true_of_not_eq_false hminus))
        rw [scanRange_eq ha]
        by_cases hne : a = []
        · have hnil : f.pton [] = none := by
            cases hp : f.pton [] with
            | none => rfl
            | some x => exact absurd rfl (f.text _ _ hp).1
          rw [if_pos hne]
          exact ⟨1, by simp only [hnil]⟩
        · have hlen := hscan.fits a b rfl ha hne
          rw [if_neg hne, if_neg (by omega)]
          obtain ⟨blanks, word, rest, hb, hblanks, hword, hrest⟩ := word_parts b
          rw [← hword]
          cases hx : f.pton a with
          | none => exact ⟨1, by simp only [hx]⟩
          | some x =>
            cases hy : f.pton word with
            | none => exact ⟨1, by simp only [hx, hy]⟩
            | some y =>
              have hloose : blanks ≠ [] ∨ rest ≠ [] := by
                by_contra hno
                rw [not_or, not_not, not_not] at hno
                rw [hno.1, hno.2, List.nil_append, List.append_nil] at hb
                exact hnone x y ⟨a, b, rfl, hx, hb ▸ hy⟩
              have hup := hscan.loose x y
                ⟨a, blanks, word, rest, by rw [← hb], hblanks, hrest, hloose, hx, hy⟩
              exact ⟨-1, by simp only [hx, hy, hup, if_true]⟩

/-! ## The two families -/

/-- The condition on an IPv4 item: on a little-endian processor the words of the two ends are
ordered as the addresses. -/
structure Ipv4Cond (bigEndian : Bool) (ip4Addr : Str) : Prop where
  order : bigEndian = false → ∀ x y, IsRange (ipv4Family bigEndian) ip4Addr x y →
    (leVal y.val < leVal x.val ↔ beVal y.val < beVal x.val)
  scan : ScanCond (ipv4Family bigEndian) ip4Addr

/-- The condition on an IPv6 item: the rule of a range fits into the array. -/
structure Ipv6Cond (ifIndex : Nat) (ip6Addr : Str) : Prop where
  length : ∀ x y, IsRange ipv6Family ip6Addr x y → beVal x.val ≤ beVal y.val →
    (ruleText ipv6Family ifIndex (rangeDest ip6Addr)).length ≤ 127
  scan : ScanCond ipv6Family ip6Addr

theorem length_ruleText_eq (f : RuleFamily n) (ifIndex : Nat) (dest : Str) :
    (ruleText f ifIndex dest).length = f.tool.length + dest.length + (fmtNat ifIndex).length +
      (fmtHex (ruleMark ifIndex).toNat).length + 57 := by
  simp only [ruleText, List.length_append, String.reduceToList, List.length_cons, List.length_nil]
  omega

theorem length_ruleText (f : RuleFamily n) (ifIndex : Fin 64) (dest : Str) :
    (ruleText f ifIndex dest).length ≤ f.tool.length + dest.length + 65 := by
  have hidx := ifIndex.isLt
  have hnum : (fmtNat ifIndex).length ≤ 2 := (length_fmtNat_le (by decide)).mpr (by omega)
  have hmark : (ruleMark ifIndex).toNat < 16 ^ 6 := by
    rw [ruleMark, BitVec.toNat_shiftLeft, BitVec.toNat_ofNat, Nat.shiftLeft_eq]
    omega
  have hhex := (length_fmtHex_le (by decide)).mpr hmark
  rw [length_ruleText_eq]
  omega

theorem length_rangeDest (s : Str) : (rangeDest s).length = 23 + s.length := List.length_append

/-- The rule of an IPv4 range always fits. -/
theorem length_ipv4Rule (bigEndian : Bool) (ifIndex : Fin 64) {ip4Addr : Str} {x y : InAddr 4}
    (h : IsRange (ipv4Family bigEndian) ip4Addr x y) :
    (ruleText (ipv4Family bigEndian) ifIndex (rangeDest ip4Addr)).length ≤ 127 := by
  obtain ⟨a, b, rfl, ha, hb⟩ := h
  have hla := (inetPton4_some ha).1
  have hlb := (inetPton4_some hb).1
  have hrule := length_ruleText (ipv4Family bigEndian) ifIndex (rangeDest (a ++ '-' :: b))
  rw [length_rangeDest, List.length_append] at hrule
  refine hrule.trans ?_
  show 8 + (23 + (a.length + (b.length + 1))) + 65 ≤ 127
  omega

/-- **An IPv4 item of a WAN issues what it should exactly under its condition.** -/
theorem ipv4Rule_right_iff (bigEndian : Bool) (ifIndex : Fin 64) (ip4Addr : Str) :
    RuleRight (ipv4Family bigEndian) ifIndex ip4Addr ↔ Ipv4Cond bigEndian ip4Addr := by
  rw [ruleRight_iff]
  constructor
  · rintro ⟨hgt, -, hscan⟩
    refine ⟨fun hle x y hr => ?_, hscan⟩
    subst hle
    rw [← hgt x y hr]
    exact decide_eq_true_iff.symm
  · rintro ⟨horder, hscan⟩
    refine ⟨fun x y hr => ?_, fun x y hr _ => length_ipv4Rule bigEndian ifIndex hr, hscan⟩
    cases bigEndian with
    | true => exact decide_eq_true_iff
    | false => exact decide_eq_true_iff.trans (horder rfl x y hr)

/-- **The same for an IPv6 item.** -/
theorem ipv6Rule_right_iff (ifIndex : Fin 64) (ip6Addr : Str) :
    RuleRight ipv6Family ifIndex ip6Addr ↔ Ipv6Cond ifIndex ip6Addr := by
  rw [ruleRight_iff]
  constructor
  · rintro ⟨-, hfits, hscan⟩
    exact ⟨hfits, hscan⟩
  · rintro ⟨hfits, hscan⟩
    refine ⟨fun x y _ => ?_, hfits, hscan⟩
    exact decide_eq_true_iff.trans (memcmp_pos_iff (x.property.trans y.property.symm))

end OnuFirmware.Wan
