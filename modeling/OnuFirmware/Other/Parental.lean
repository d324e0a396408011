import OnuFirmware.Other.AccessRules
import OnuFirmware.Lib.Blocks
import OnuFirmware.Lib.Place
import OnuFirmware.Lib.Take

/-!
# Parental control (`parental_common.c`)

There are eight entries with switches, policies, durations and URLs, and 32 MAC entries, each with
the number of the entry it belongs to. `startParental` adds rules for the first four MAC addresses
of an entry to the chains of that entry: the mode depends on whether the time is in one of the
durations.

The loop over the MAC entries keeps the number of the last one that has one, and the loop over the
URLs has one counter for all entries. A row of the array with the addresses has 20 bytes, of which
the last one is never written.
-/

namespace OnuFirmware.Other

open Lib Clib Cfg

/-- `cfg_get_object_attr` into a cleared buffer, where an empty text counts as none. -/
def textAttr (cfg : Conf) (path name : Str) (size : Nat) : Option Str :=
  let got := cfgGetObjectAttr (cfg path name) [] size
  if 0 < got.1 then some got.2 else none

/-- The node of the entry with number `nodeIdx`. -/
def parentalEntryNode (nodeIdx : Nat) : Str :=
  snprintf 32 ("root.parental.entry.".toList ++ fmtNat (nodeIdx + 1))

/-- The node of the MAC entry with number `idx`. -/
def parentalMacEntryNode (idx : Nat) : Str :=
  snprintf 32 ("root.parentalmac.entry.".toList ++ fmtNat (idx + 1))

/-- An attribute of an entry has this text. -/
def entryAttrIs (cfg : Conf) (nodeIdx : Nat) (name text : String) : Bool :=
  textAttr cfg (parentalEntryNode nodeIdx) name.toList 32 == some text.toList

/-- `isParentalEntryNodeActive`. -/
def isParentalEntryNodeActive (cfg : Conf) (idx : Nat) : Bool := entryAttrIs cfg idx "Active" "Yes"

/-- `isParentalEntryNodeDurationActive`. -/
def isParentalEntryNodeDurationActive (cfg : Conf) (idx : Nat) : Bool :=
  entryAttrIs cfg idx "DurationActive" "Yes"

/-- `getDuationType`: true is black. -/
def getDuationType (cfg : Conf) (idx : Nat) : Bool := !entryAttrIs cfg idx "DurationPolicy" "White"

/-- `getFilterType`: true is black. -/
def getFilterType (cfg : Conf) (idx : Nat) : Bool := !entryAttrIs cfg idx "Policy" "White"

/-! ## The URLs -/

/-- `createL7Rules`. -/
def createL7Rules (url : Str) : Str :=
  let base := ((strstrRest "https://".toList url).or (strstrRest "http://".toList url)).getD url
  let host :=
    match strstrRest "www.".toList base with
    | some rest => if 4 < base.length then rest else base
    | none => base
  snprintf 126 ("(Host:[\\x09-\\x0d ]* .*".toList ++ host ++ "|Refer:[\\x09-\\x0d ]* .*".toList ++
    host ++ ")".toList)

/-- The texts of the URLs of an entry. -/
def entryUrls (cfg : Conf) (nodeIdx : Nat) : List Str :=
  (List.range 10).filterMap fun urlIdx =>
    textAttr cfg (parentalEntryNode nodeIdx) (snprintf 33 ("URL".toList ++ fmtNat urlIdx)) 512

/-- The configuration, the patterns that were appended to the file of an entry, and the counter. -/
structure UrlState where
  conf : Conf
  files : List (Nat × Str)
  urlNum : Nat

/-- One round of the loop over the entries. -/
def initUrlEntry (s : UrlState) (nodeIdx : Nat) : UrlState :=
  let path := parentalEntryNode nodeIdx
  if textAttr s.conf path "Active".toList 128 = none then s
  else
    let urls := if isParentalEntryNodeActive s.conf nodeIdx then entryUrls s.conf nodeIdx else []
    let urlNum := s.urlNum + urls.length
    { conf := setAttr s.conf path "urlNum".toList (snprintf 128 (fmtNat urlNum))
      files := s.files ++ urls.map fun url => (nodeIdx, createL7Rules url)
      urlNum := urlNum }

/-- `initParentalUrlfilter`. -/
def initParentalUrlfilter (cfg : Conf) : UrlState :=
  let s := (List.range 8).foldl initUrlEntry ⟨cfg, [], 0⟩
  { s with files := s.files ++ [(999, "(Host:[\\x09-\\x0d ]*)".toList)] }

/-! ## The MAC addresses -/

/-- The loop of `getParentalMac` over the MAC entries, from the number and the rows so far.
`strncpy` copies at most 19 characters. A row is kept with its MAC entry. -/
def parentalMacFrom (cfg : Conf) (nodeIdx : Nat) :
    Int → List (Nat × Str) → List Nat → List (Nat × Str)
  | _, rows, [] => rows
  | nodeVal, rows, idx :: idxs =>
    if rows.length < 4 then
      let path := parentalMacEntryNode idx
      let nodeVal := ((textAttr cfg path "ParentalID".toList 32).map atoi).getD nodeVal
      let row :=
        if (nodeIdx : Int) = nodeVal then
          ((textAttr cfg path "Mac".toList 32).map fun mac => (idx, mac.take 19)).toList
        else []
      parentalMacFrom cfg nodeIdx nodeVal (rows ++ row) idxs
    else rows

/-- `getParentalMac`: the rows and the configuration. -/
def getParentalMac (cfg : Conf) (nodeIdx : Nat) : List (Nat × Str) × Conf :=
  let rows := parentalMacFrom cfg nodeIdx 0 [] (List.range 32)
  (rows, setAttr cfg (parentalEntryNode nodeIdx) "macNum".toList
    (snprintf 4 (fmtNat rows.length)))

/-- Reading the rows as strings: one with 19 characters has no NUL. -/
def readRows (rows : List (Nat × Str)) : Except Fault (List (Nat × Str)) :=
  if rows.all fun row => row.2.length < 19 then .ok rows else .error .uninit

/-! ## The rules -/

/-- `filter_type`. -/
inductive FilterMode
  | macFilter
  | urlFilter
  | internetCrl
deriving Repr, DecidableEq

/-- A rule that is appended to the chain for `INPUT` or `FORWARD` of an entry. -/
structure ParentalRule where
  fwd : Bool
  nodeIdx : Nat
  spec : Str
deriving DecidableEq

/-- The command that is executed. -/
def ParentalRule.text (r : ParentalRule) : Str :=
  "iptables -t filter -A parental_black_chain_".toList ++
    (if r.fwd then "fwd" else "in").toList ++ fmtNat r.nodeIdx ++ " ".toList ++ r.spec

/-- `addParentalRule`: the rules it adds. -/
def addParentalRule (nodeIdx : Nat) (mac : Str) (filterType : FilterMode) (isBlackType : Bool) :
    List ParentalRule :=
  if mac = [] then []
  else
    let macRule := snprintf 64 ("-m mac --mac-source ".toList ++ mac)
    let urlRule (n : Nat) := snprintf 64 ("-m layer7 --l7proto parental_url_".toList ++ fmtNat n)
    match filterType with
    | .macFilter =>
      if isBlackType then
        [⟨false, nodeIdx, macRule ++ " -p udp --dport 53 -j DROP".toList⟩,
          ⟨true, nodeIdx, macRule ++ " -p tcp --dport 80 -j DROP".toList⟩,
          ⟨true, nodeIdx, macRule ++ " -p tcp --dport 443 -j DROP".toList⟩]
      else []
    | .internetCrl => [⟨true, nodeIdx, "-i br0 ".toList ++ macRule ++ " -j DROP".toList⟩]
    | .urlFilter =>
      if isBlackType then
        [⟨true, nodeIdx, macRule ++ " ".toList ++ urlRule nodeIdx ++ " -j DROP".toList⟩]
      else
        [⟨true, nodeIdx, macRule ++ " ".toList ++ urlRule nodeIdx ++ " -j ACCEPT".toList⟩,
          ⟨true, nodeIdx, macRule ++ " ".toList ++ urlRule 999 ++ " -j DROP".toList⟩]

/-- A rule is for the chains of its entry, and its matches and its target are short. -/
theorem spec_of_mem_addParentalRule {n : Nat} {mac : Str} {mode : FilterMode} {black : Bool}
    {rule : ParentalRule} (h : rule ∈ addParentalRule n mac mode black) :
    rule.nodeIdx = n ∧ rule.spec.length ≤ 140 := by
  have hmac := length_snprintf_lt 63 ("-m mac --mac-source ".toList ++ mac)
  have hown := length_snprintf_lt 63 ("-m layer7 --l7proto parental_url_".toList ++ fmtNat n)
  have hall := length_snprintf_lt 63 ("-m layer7 --l7proto parental_url_".toList ++ fmtNat 999)
  rw [addParentalRule] at h
  split at h
  · exact absurd h List.not_mem_nil
  simp only at h
  generalize snprintf 64 ("-m mac --mac-source ".toList ++ mac) = macRule at h hmac
  generalize snprintf 64 ("-m layer7 --l7proto parental_url_".toList ++ fmtNat n) = own at h hown
  generalize snprintf 64 ("-m layer7 --l7proto parental_url_".toList ++ fmtNat 999) = all at h hall
  have hblank : " ".toList.length = 1 := by decide
  have hbr0 : "-i br0 ".toList.length = 7 := by decide
  have hmatch : ∀ rest : Str, rest.length ≤ 27 → (macRule ++ rest).length ≤ 140 := by
    intro rest hrest
    rw [List.length_append]
    omega
  have hurl : ∀ url rest : Str, url.length ≤ 63 → rest.length ≤ 10 →
      (macRule ++ " ".toList ++ url ++ rest).length ≤ 140 := by
    intro url rest hu hrest
    rw [List.length_append, List.length_append, List.length_append, hblank]
    omega
  cases mode with
  | macFilter =>
    cases black with
    | false => exact absurd h List.not_mem_nil
    | true =>
      simp only [if_true, List.mem_cons, List.not_mem_nil, or_false] at h
      rcases h with rfl | rfl | rfl
      · exact ⟨rfl, hmatch _ (by decide)⟩
      · exact ⟨rfl, hmatch _ (by decide)⟩
      · exact ⟨rfl, hmatch _ (by decide)⟩
  | urlFilter =>
    cases black with
    | false =>
      simp only [Bool.false_eq_true, if_false, List.mem_cons, List.not_mem_nil, or_false] at h
      rcases h with rfl | rfl
      · exact ⟨rfl, hurl own _ hown (by decide)⟩
      · exact ⟨rfl, hurl all _ hall (by decide)⟩
    | true =>
      obtain rfl := List.mem_singleton.mp h
      exact ⟨rfl, hurl own _ hown (by decide)⟩
  | internetCrl =>
    obtain rfl := List.mem_singleton.mp h
    refine ⟨rfl, ?_⟩
    have hdrop : " -j DROP".toList.length = 8 := by decide
    have hlen : ("-i br0 ".toList ++ macRule ++ " -j DROP".toList).length =
        7 + macRule.length + 8 := by
      rw [List.length_append, List.length_append, hbr0, hdrop]
    exact hlen ▸ (show 7 + macRule.length + 8 ≤ 140 by omega)

theorem length_command_lt (fwd : Bool) {num spec : Str} (hnum : num.length ≤ 1)
    (hspec : spec.length ≤ 140) :
    ("iptables -t filter -A parental_black_chain_".toList ++
      (if fwd then "fwd" else "in").toList ++ num ++ " ".toList ++ spec).length < 200 := by
  have hhead : "iptables -t filter -A parental_black_chain_".toList.length = 43 := by decide
  have hfwd : (if fwd then "fwd" else "in").toList.length ≤ 3 := by
    cases fwd <;> decide
  have hblank : " ".toList.length = 1 := by decide
  simp only [List.length_append, hhead, hblank]
  omega

/-- Every command fits into the buffer of 200 bytes. -/
theorem length_text_lt {n : Nat} (hn : n < 8) {mac : Str} {mode : FilterMode} {black : Bool}
    {rule : ParentalRule} (h : rule ∈ addParentalRule n mac mode black) :
    rule.text.length < 200 := by
  obtain ⟨rfl, hspec⟩ := spec_of_mem_addParentalRule h
  have hnum : (fmtNat rule.nodeIdx).length ≤ 1 :=
    (length_fmtNat_le (by decide)).mpr (lt_trans hn (by decide))
  exact length_command_lt rule.fwd hnum hspec

/-- The mode that `startParental` chooses; `none` is the value 99. The flag `cuc` is
`TCSUPPORT_CUC`. -/
def useFilterMode (cuc macRuleActive durationActive durationType durationIn : Bool) :
    Option FilterMode :=
  if durationActive then
    if durationType then
      if durationIn then
        if cuc then if macRuleActive then some .urlFilter else none
        else some .macFilter
      else if cuc then some .internetCrl
      else if macRuleActive then some .urlFilter
      else none
    else if durationIn then
      if macRuleActive then some .urlFilter else none
    else if cuc then some .internetCrl
    else some .macFilter
  else if macRuleActive then some .urlFilter
  else none

/-- The type that the rules of a mode are added with. -/
def blackType (urlType : Bool) : FilterMode → Bool
  | .macFilter => true
  | .urlFilter => urlType
  | .internetCrl => false

/-- `isDurationMatched`, from the flags `matched_stat` of the durations: the return value and the
configuration. -/
def isDurationMatched (cfg : Conf) (matched : Nat → Nat → Bool) (nodeIdx : Nat) : Bool × Conf :=
  let path := parentalEntryNode nodeIdx
  let out := setAttr cfg path "induration".toList "0".toList
  if (List.range 4).any (matched nodeIdx) then
    (true, setAttr out path "induration".toList "1".toList)
  else (false, out)

/-- The configuration, and the rules with the MAC entries they are for. -/
structure ParentalState where
  conf : Conf
  rules : List (Nat × ParentalRule)

/-- One round of the loop over the entries. -/
def startEntry (cuc : Bool) (matched : Nat → Nat → Bool) (s : ParentalState) (nodeIdx : Nat) :
    Except Fault ParentalState :=
  let durationActive := isParentalEntryNodeDurationActive s.conf nodeIdx
  let macRuleActive := isParentalEntryNodeActive s.conf nodeIdx
  if !macRuleActive && !durationActive then .ok s
  else
    let durationIn := isDurationMatched s.conf matched nodeIdx
    let durationType := getDuationType durationIn.2 nodeIdx
    let urlType := getFilterType durationIn.2 nodeIdx
    let mode := useFilterMode cuc macRuleActive (cuc || durationActive)
      (if cuc then urlType else durationType) durationIn.1
    let macs := getParentalMac durationIn.2 nodeIdx
    match mode with
    | none => .ok { s with conf := macs.2 }
    | some mode =>
      (readRows macs.1).map fun rows =>
        { conf := macs.2
          rules := s.rules ++ rows.flatMap fun row =>
            (addParentalRule nodeIdx row.2 mode (blackType urlType mode)).map (row.1, ·) }

/-- `startParental`. -/
def startParental (cuc : Bool) (matched : Nat → Nat → Bool) (cfg : Conf) :
    Except Fault ParentalState :=
  (List.range 8).foldlM (startEntry cuc matched) ⟨cfg, []⟩

/-- The two functions as `restartParental` calls them. -/
def restartParental (cuc : Bool) (matched : Nat → Nat → Bool) (cfg : Conf) :
    Except Fault ParentalState :=
  startParental cuc matched (initParentalUrlfilter cfg).conf

/-! ## What the entries say -/

/-- The number in a MAC entry. -/
def idOf (cfg : Conf) (idx : Nat) : Option Int :=
  (textAttr cfg (parentalMacEntryNode idx) "ParentalID".toList 32).map atoi

/-- The address in a MAC entry. -/
def macOf (cfg : Conf) (idx : Nat) : Option Str :=
  textAttr cfg (parentalMacEntryNode idx) "Mac".toList 32

/-- The MAC entry has an address and belongs to the entry `n`. -/
def ownMac (cfg : Conf) (n idx : Nat) :
    Bool := idOf cfg idx == some (n : Int) && (macOf cfg idx).isSome

/-- The first four MAC entries of the entry `n`. -/
def ownMacs (cfg : Conf) (n : Nat) : List Nat := ((List.range 32).filter (ownMac cfg n)).take 4

/-- One of the switches of the entry is on. -/
def SwitchOn (cfg : Conf) (n : Nat) : Prop :=
  isParentalEntryNodeActive cfg n = true ∨ isParentalEntryNodeDurationActive cfg n = true

instance (cfg : Conf) (n : Nat) : Decidable (SwitchOn cfg n) :=
  inferInstanceAs (Decidable (_ ∨ _))

/-- The mode that the switches, the policies and the durations of an entry prescribe. Without
`TCSUPPORT_CUC` the time blocks everything if it is in a black duration or outside a white one. With
it, it blocks the internet outside the durations. Otherwise the URLs are filtered, if they
should. -/
def prescribedMode (cuc : Bool) (matched : Nat → Nat → Bool) (cfg : Conf) (n : Nat) :
    Option FilterMode :=
  let inTime := (List.range 4).any (matched n)
  let urls := if isParentalEntryNodeActive cfg n then some FilterMode.urlFilter else none
  if cuc then if inTime then urls else some .internetCrl
  else if isParentalEntryNodeDurationActive cfg n && (getDuationType cfg n == inTime) then
    some .macFilter
  else urls

/-- The rules of an entry for the addresses in these MAC entries. -/
def rulesFor (cuc : Bool) (matched : Nat → Nat → Bool) (cfg : Conf) (n : Nat) (macs : List Nat) :
    List (Nat × ParentalRule) :=
  match prescribedMode cuc matched cfg n with
  | none => []
  | some mode =>
    macs.flatMap fun idx =>
      (addParentalRule n ((macOf cfg idx).getD []) mode
        (blackType (getFilterType cfg n) mode)).map (idx, ·)

/-- The number of URLs of an entry. -/
def ownUrls (cfg : Conf) (n : Nat) : Nat :=
  if isParentalEntryNodeActive cfg n then (entryUrls cfg n).length else 0

/-- The rules are those of the entries' own addresses in the mode they prescribe, and the numbers
that are stored are those of their own addresses and URLs. -/
structure ParentalRight (cuc : Bool) (matched : Nat → Nat → Bool) (cfg : Conf) (s : ParentalState) :
    Prop where
  rules : ∀ n < 8, s.rules.filter (·.2.nodeIdx = n) =
    if SwitchOn cfg n then rulesFor cuc matched cfg n (ownMacs cfg n) else []
  macNum : ∀ n < 8, SwitchOn cfg n →
    s.conf (parentalEntryNode n) "macNum".toList = some (fmtNat (ownMacs cfg n).length)
  urlNum : ∀ n < 8, textAttr cfg (parentalEntryNode n) "Active".toList 128 ≠ none →
    s.conf (parentalEntryNode n) "urlNum".toList = some (fmtNat (ownUrls cfg n))

/-! ## The condition -/

/-- The number of the last MAC entry before this one that has a number. -/
def idBefore (cfg : Conf) (idx : Nat) : Int :=
  (List.range idx).foldl (fun v i => (idOf cfg i).getD v) 0

/-- The number of the last MAC entry up to this one that has a number. -/
def carriedId (cfg : Conf) (idx : Nat) : Int := (idOf cfg idx).getD (idBefore cfg idx)

/-- The condition on the entries. -/
structure ParentalCond (cuc : Bool) (matched : Nat → Nat → Bool) (cfg : Conf) : Prop where
  /-- A MAC entry without a number comes after four addresses of the last number before it, as far as
  the rules of that entry are concerned. -/
  ids : ∀ n < 8, SwitchOn cfg n → ∀ idx < 32, idOf cfg idx = none → macOf cfg idx ≠ none →
    carriedId cfg idx = n → 4 ≤ (List.range 32).countP (ownMac cfg n) ∧
      (prescribedMode cuc matched cfg n ≠ none → 4 ≤ (List.range idx).countP (ownMac cfg n))
  /-- An address that rules are added for has fewer than 19 characters. -/
  short : ∀ n < 8, SwitchOn cfg n → prescribedMode cuc matched cfg n ≠ none →
    ∀ idx ∈ ownMacs cfg n, ((macOf cfg idx).getD []).length < 19
  /-- Only the last entry that has the attribute `Active` may filter URLs. -/
  urls : ∀ m n, m < n → n < 8 → textAttr cfg (parentalEntryNode n) "Active".toList 128 ≠ none →
    isParentalEntryNodeActive cfg m = true → entryUrls cfg m = []

/-! ## Reading the entries -/

/-- The attributes that the two functions write. -/
def writtenNames : List Str := ["urlNum".toList, "induration".toList, "macNum".toList]

/-- The configuration differs at most in the attributes that are written. -/
def ParentalFrame (cfg conf : Conf) : Prop :=
  ∀ path name, name ∉ writtenNames → conf path name = cfg path name

theorem textAttr_congr {cfg conf : Conf} (h : ParentalFrame cfg conf) (path : Str) {name : Str}
    (hname : name ∉ writtenNames) (size : Nat) :
    textAttr conf path name size = textAttr cfg path name size := by
  rw [textAttr, textAttr, h path name hname]

theorem entryAttrIs_congr {cfg conf : Conf} (h : ParentalFrame cfg conf) (n : Nat) {name : String}
    (hname : name.toList ∉ writtenNames) (text : String) :
    entryAttrIs conf n name text = entryAttrIs cfg n name text := by
  rw [entryAttrIs, entryAttrIs, textAttr_congr h _ hname]

theorem ParentalFrame.trans {cfg conf out : Conf} (h : ParentalFrame cfg conf)
    (h' : ParentalFrame conf out) : ParentalFrame cfg out := fun path name hname =>
  (h' path name hname).trans (h path name hname)

theorem parentalFrame_setAttr (cfg : Conf) (path : Str) {name : Str} (val : Str)
    (hname : name ∈ writtenNames) : ParentalFrame cfg (setAttr cfg path name val) := by
  intro p n hn
  refine setAttr_of_ne (.inr ?_)
  rintro rfl
  exact hn hname

/-- An attribute is read as none if it is absent or empty. -/
theorem textAttr_eq_none_iff {cfg : Conf} {path name : Str} {size : Nat} (hsize : 2 ≤ size) :
    textAttr cfg path name size = none ↔ (cfg path name).getD [] = [] := by
  rw [textAttr]
  simp only [cfgGetObjectAttr_pos, ite_eq_right_iff, reduceCtorEq, imp_false, not_not]
  cases cfg path name with
  | none => simp [attrText]
  | some v =>
    obtain ⟨k, rfl⟩ : ∃ k, size = k + 2 := ⟨size - 2, by omega⟩
    cases v <;> simp [attrText, snprintf]

/-- Different entries have different paths. -/
theorem parentalEntryNode_inj {m n : Nat} (hm : m < 8) (hn : n < 8) :
    parentalEntryNode m = parentalEntryNode n ↔ m = n := by
  have hdigit : ∀ k < 8, k + 1 < 10 ^ 1 := fun k hk => by omega
  rw [parentalEntryNode, parentalEntryNode, snprintf_append_fmtNat_inj (hdigit m hm)
    (hdigit n hn) (by decide), Nat.succ_inj]

/-! ## The addresses -/

/-- The MAC entry has an address and counts for the entry `n`. -/
def counted (cfg : Conf) (n idx : Nat) : Bool :=
  carriedId cfg idx == (n : Int) && (macOf cfg idx).isSome

/-- The MAC entries whose addresses an entry gets. -/
def gotMacs (cfg : Conf) (n : Nat) : List Nat := ((List.range 32).filter (counted cfg n)).take 4

/-- The row for a MAC entry. -/
def rowOf (cfg : Conf) (idx : Nat) : Nat × Str := (idx, ((macOf cfg idx).getD []).take 19)

theorem idBefore_succ (cfg : Conf) (idx : Nat) : idBefore cfg (idx + 1) = carriedId cfg idx := by
  rw [idBefore, List.range_succ, List.foldl_append]
  rfl

/-- The loop takes the entries that count until there are four rows. -/
theorem parentalMacFrom_eq (cfg : Conf) (n m k : Nat) (rows : List (Nat × Str))
    (hrows : rows.length ≤ 4) :
    parentalMacFrom cfg n (idBefore cfg k) rows (List.range' k m) =
      (rows ++ ((List.range' k m).filter (counted cfg n)).map (rowOf cfg)).take 4 := by
  induction m generalizing k rows with
  | zero => simpa [parentalMacFrom] using hrows
  | succ m ih =>
    rw [List.range'_succ, parentalMacFrom]
    by_cases hlen : rows.length < 4
    · -- the row of the entry `k`
      have hrow : (if (n : Int) = carriedId cfg k then
          ((macOf cfg k).map fun mac => (k, mac.take 19)).toList else []) =
            (if counted cfg n k = true then [rowOf cfg k] else []) := by
        rw [counted, rowOf]
        by_cases hid : (n : Int) = carriedId cfg k
        · cases macOf cfg k <;> simp [hid]
        · simp [hid, Ne.symm hid]
      have hcons : ((k :: List.range' (k + 1) m).filter (counted cfg n)).map (rowOf cfg) =
          (if counted cfg n k = true then [rowOf cfg k] else []) ++
            ((List.range' (k + 1) m).filter (counted cfg n)).map (rowOf cfg) := by
        by_cases hc : counted cfg n k = true
        · rw [List.filter_cons_of_pos hc, if_pos hc]
          rfl
        · rw [List.filter_cons_of_neg hc, if_neg hc]
          rfl
      rw [if_pos hlen, hcons, ← List.append_assoc, ← hrow]
      have hle : (if (n : Int) = carriedId cfg k then
          ((macOf cfg k).map fun mac => (k, mac.take 19)).toList else []).length ≤ 1 := by
        split
        · cases macOf cfg k <;> simp
        · simp
      rw [← ih (k + 1) _ (by rw [List.length_append]; omega), idBefore_succ]
      rfl
    · rw [if_neg hlen, List.take_append_of_le_length (by omega), List.take_of_length_le hrows]

theorem getParentalMac_fst (cfg : Conf) (n : Nat) :
    (getParentalMac cfg n).1 = (gotMacs cfg n).map (rowOf cfg) := by
  have h := parentalMacFrom_eq cfg n 32 0 [] (by decide)
  rw [List.nil_append, ← List.range_eq_range', ← List.map_take] at h
  exact h

theorem macOf_of_mem_gotMacs {cfg : Conf} {n idx : Nat} (h : idx ∈ gotMacs cfg n) :
    (macOf cfg idx).isSome = true := by
  have hc := (List.mem_filter.mp (List.mem_of_mem_take h)).2
  exact (Bool.and_eq_true_iff.mp hc).2

/-- The addresses can be read. -/
def Readable (cfg : Conf) (n : Nat) : Prop :=
  ∀ idx ∈ gotMacs cfg n, ((macOf cfg idx).getD []).length < 19

instance (cfg : Conf) (n : Nat) : Decidable (Readable cfg n) :=
  inferInstanceAs (Decidable (∀ idx ∈ gotMacs cfg n, _))

/-- Reading the rows gives the addresses, if they are short. -/
theorem readRows_rowOf (cfg : Conf) (n : Nat) :
    readRows ((gotMacs cfg n).map (rowOf cfg)) =
      if Readable cfg n then .ok ((gotMacs cfg n).map fun idx => (idx, (macOf cfg idx).getD []))
      else .error .uninit := by
  have hall : (((gotMacs cfg n).map (rowOf cfg)).all fun row => row.2.length < 19) = true ↔
      Readable cfg n := by
    simp only [List.all_eq_true, List.mem_map, forall_exists_index, and_imp,
      forall_apply_eq_imp_iff₂, decide_eq_true_eq, rowOf, List.length_take, Readable]
    refine forall₂_congr fun idx _ => ?_
    omega
  rw [readRows]
  by_cases hread : Readable cfg n
  · rw [if_pos (hall.mpr hread), if_pos hread]
    congr 1
    refine List.map_congr_left fun idx hidx => ?_
    rw [rowOf, List.take_of_length_le (by have := hread idx hidx; omega)]
  · rw [if_neg fun h => hread (hall.mp h), if_neg hread]

/-! ## One entry -/

/-- The mode that is chosen is the one that is prescribed. -/
theorem useFilterMode_eq (cuc : Bool) (matched : Nat → Nat → Bool) (cfg : Conf) (n : Nat)
    (hon : SwitchOn cfg n) :
    useFilterMode cuc (isParentalEntryNodeActive cfg n)
        (cuc || isParentalEntryNodeDurationActive cfg n)
        (if cuc then getFilterType cfg n else getDuationType cfg n)
        ((List.range 4).any (matched n)) =
      prescribedMode cuc matched cfg n := by
  rw [prescribedMode, SwitchOn] at *
  generalize isParentalEntryNodeActive cfg n = active at *
  generalize isParentalEntryNodeDurationActive cfg n = timed at *
  generalize (List.range 4).any (matched n) = inTime
  generalize getFilterType cfg n = urlType
  generalize getDuationType cfg n = timeType
  revert hon
  cases cuc <;> cases active <;> cases timed <;> cases inTime <;> cases urlType <;> cases timeType <;>
    decide

theorem isDurationMatched_fst (cfg : Conf) (matched : Nat → Nat → Bool) (n : Nat) :
    (isDurationMatched cfg matched n).1 = (List.range 4).any (matched n) := by
  rw [isDurationMatched]
  cases (List.range 4).any (matched n) <;> rfl

/-- Only the attribute `induration` of the entry is written. -/
theorem isDurationMatched_snd {cfg : Conf} {matched : Nat → Nat → Bool} {n : Nat} {path name : Str}
    (h : path ≠ parentalEntryNode n ∨ name ≠ "induration".toList) :
    (isDurationMatched cfg matched n).2 path name = cfg path name := by
  rw [isDurationMatched]
  cases (List.range 4).any (matched n)
  · exact setAttr_of_ne h
  · exact (setAttr_of_ne h).trans (setAttr_of_ne h)

theorem length_gotMacs_le (cfg : Conf) (n : Nat) : (gotMacs cfg n).length ≤ 4 :=
  List.length_take_le 4 _

/-- The number of addresses is written. -/
theorem getParentalMac_snd (cfg : Conf) (n : Nat) :
    (getParentalMac cfg n).2 = setAttr cfg (parentalEntryNode n) "macNum".toList
      (fmtNat (gotMacs cfg n).length) := by
  have hlen := length_gotMacs_le cfg n
  have hfit : snprintf 4 (fmtNat (gotMacs cfg n).length) = fmtNat (gotMacs cfg n).length :=
    snprintf_eq (lt_of_le_of_lt ((length_fmtNat_le (by decide)).mpr
      (show (gotMacs cfg n).length < 10 ^ 1 by omega)) (by decide))
  have hrows : (getParentalMac cfg n).1.length = (gotMacs cfg n).length := by
    rw [getParentalMac_fst, List.length_map]
  rw [← hfit, ← hrows]
  rfl

/-- What is read of the addresses is the same in a configuration that differs in what is written. -/
theorem gotMacs_congr {cfg conf : Conf} (h : ParentalFrame cfg conf) (n : Nat) :
    gotMacs conf n = gotMacs cfg n ∧ ∀ idx, macOf conf idx = macOf cfg idx := by
  have hmac : ∀ idx, macOf conf idx = macOf cfg idx := fun idx =>
    textAttr_congr h _ (by decide) 32
  have hid : ∀ idx, idOf conf idx = idOf cfg idx := fun idx => by
    rw [idOf, textAttr_congr h _ (by decide), idOf]
  refine ⟨?_, hmac⟩
  rw [gotMacs, gotMacs]
  congr 2
  funext idx
  rw [counted, counted, carriedId, carriedId, idBefore, idBefore, hmac]
  simp only [hid]

/-- An entry with both switches off is passed over. -/
theorem startEntry_off {cuc : Bool} {matched : Nat → Nat → Bool} {cfg : Conf} {s : ParentalState}
    {n : Nat} (hframe : ParentalFrame cfg s.conf) (hoff : ¬ SwitchOn cfg n) :
    startEntry cuc matched s n = .ok s := by
  rw [SwitchOn, not_or] at hoff
  have hactive : isParentalEntryNodeActive s.conf n = false :=
    (entryAttrIs_congr hframe n (by decide) _).trans (Bool.not_eq_true _ ▸ hoff.1)
  have hduration : isParentalEntryNodeDurationActive s.conf n = false :=
    (entryAttrIs_congr hframe n (by decide) _).trans (Bool.not_eq_true _ ▸ hoff.2)
  rw [startEntry]
  simp only [hactive, hduration]
  rfl

/-- The configuration behind an entry with a switch on. -/
structure EntryConf (cfg : Conf) (n : Nat) (conf out : Conf) : Prop where
  frame : ParentalFrame conf out
  macNum : out (parentalEntryNode n) "macNum".toList = some (fmtNat (gotMacs cfg n).length)
  other : ∀ path name, path ≠ parentalEntryNode n ∨ name = "urlNum".toList →
    out path name = conf path name

/-- An entry with a switch on adds its rules, if it can read the addresses that it needs. -/
theorem startEntry_on {cuc : Bool} {matched : Nat → Nat → Bool} {cfg : Conf} {s : ParentalState}
    {n : Nat} (hframe : ParentalFrame cfg s.conf) (hon : SwitchOn cfg n) :
    ∃ out, EntryConf cfg n s.conf out ∧ startEntry cuc matched s n =
      if prescribedMode cuc matched cfg n = none ∨ Readable cfg n then
        .ok ⟨out, s.rules ++ rulesFor cuc matched cfg n (gotMacs cfg n)⟩
      else .error .uninit := by
  have hin : ParentalFrame s.conf (isDurationMatched s.conf matched n).2 := fun path name hname =>
    isDurationMatched_snd (.inr fun he => hname (by rw [he]; decide))
  have hframe' := hframe.trans hin
  have hgot := (gotMacs_congr hframe' n).1
  have hmac := (gotMacs_congr hframe' n).2
  have hactive : isParentalEntryNodeActive s.conf n = isParentalEntryNodeActive cfg n :=
    entryAttrIs_congr hframe n (by decide) _
  have hduration : isParentalEntryNodeDurationActive s.conf n =
      isParentalEntryNodeDurationActive cfg n := entryAttrIs_congr hframe n (by decide) _
  have hdtype : getDuationType (isDurationMatched s.conf matched n).2 n = getDuationType cfg n := by
    rw [getDuationType, entryAttrIs_congr hframe' n (by decide), getDuationType]
  have hutype : getFilterType (isDurationMatched s.conf matched n).2 n = getFilterType cfg n := by
    rw [getFilterType, entryAttrIs_congr hframe' n (by decide), getFilterType]
  refine ⟨(getParentalMac (isDurationMatched s.conf matched n).2 n).2, ⟨?_, ?_, ?_⟩, ?_⟩
  · exact hin.trans (parentalFrame_setAttr _ _ _ (by decide))
  · rw [getParentalMac_snd, hgot, setAttr_self]
  · intro path name h
    have hne : path ≠ parentalEntryNode n ∨ name ≠ "macNum".toList :=
      h.imp id fun he => by rw [he]; decide
    have hne' : path ≠ parentalEntryNode n ∨ name ≠ "induration".toList :=
      h.imp id fun he => by rw [he]; decide
    rw [getParentalMac_snd, setAttr_of_ne hne, isDurationMatched_snd hne']
  · have hsome : (!isParentalEntryNodeActive cfg n && !isParentalEntryNodeDurationActive cfg n) =
        false := by
      rw [SwitchOn] at hon
      revert hon
      cases isParentalEntryNodeActive cfg n <;> cases isParentalEntryNodeDurationActive cfg n <;>
        decide
    have hreadable : Readable (isDurationMatched s.conf matched n).2 n ↔ Readable cfg n := by
      rw [Readable, hgot, Readable]
      simp only [hmac]
    have hread := readRows_rowOf (isDurationMatched s.conf matched n).2 n
    rw [← getParentalMac_fst] at hread
    simp only [hreadable, hgot, hmac] at hread
    rw [startEntry]
    simp only [hactive, hduration, hsome, hdtype, hutype, isDurationMatched_fst,
      useFilterMode_eq cuc matched cfg n hon, hread, Bool.false_eq_true, if_false]
    cases hmode : prescribedMode cuc matched cfg n with
    | none =>
      simp only [true_or, if_true, rulesFor, hmode, List.append_nil]
    | some mode =>
      by_cases hr : Readable cfg n
      · simp only [hr, if_true, or_true, Except.map, rulesFor, hmode, List.flatMap_map]
      · simp only [hr, if_false, or_false, Except.map, reduceCtorEq]

/-! ## All entries -/

/-- The rules that an entry gets. -/
def gotRules (cuc : Bool) (matched : Nat → Nat → Bool) (cfg : Conf) (n : Nat) :
    List (Nat × ParentalRule) :=
  if SwitchOn cfg n then rulesFor cuc matched cfg n (gotMacs cfg n) else []

/-- The addresses of an entry are not read, or can be read. -/
def EntryOk (cuc : Bool) (matched : Nat → Nat → Bool) (cfg : Conf) (n : Nat) : Prop :=
  SwitchOn cfg n → prescribedMode cuc matched cfg n = none ∨ Readable cfg n

/-- The state after these entries, from the configuration `conf`. -/
structure ParentalInv (cuc : Bool) (matched : Nat → Nat → Bool) (cfg conf : Conf) (l : List Nat)
    (s : ParentalState) : Prop where
  frame : ParentalFrame conf s.conf
  rules : s.rules = l.flatMap (gotRules cuc matched cfg)
  macNum : ∀ n ∈ l, SwitchOn cfg n →
    s.conf (parentalEntryNode n) "macNum".toList = some (fmtNat (gotMacs cfg n).length)
  urlNum : ∀ path, s.conf path "urlNum".toList = conf path "urlNum".toList

/-- One entry keeps the invariant, if it can read what it reads. -/
theorem startEntry_inv {cuc : Bool} {matched : Nat → Nat → Bool} {cfg conf : Conf} {l : List Nat}
    {s : ParentalState} {n : Nat} (hframe : ParentalFrame cfg conf)
    (hinv : ParentalInv cuc matched cfg conf l s) (hl : ∀ m ∈ l, m < 8) (hn : n < 8) (hnew : n ∉ l)
    (hok : EntryOk cuc matched cfg n) :
    ∃ s', startEntry cuc matched s n = .ok s' ∧ ParentalInv cuc matched cfg conf (l ++ [n]) s' := by
  by_cases hon : SwitchOn cfg n
  · obtain ⟨out, hout, hstep⟩ :=
      @startEntry_on cuc matched cfg s n (hframe.trans hinv.frame) hon
    rw [if_pos (hok hon)] at hstep
    refine ⟨_, hstep, hinv.frame.trans hout.frame, ?_, ?_, ?_⟩
    · show s.rules ++ _ = _
      rw [List.flatMap_append, ← hinv.rules, List.flatMap_singleton, gotRules, if_pos hon]
    · intro m hm hmon
      rcases List.mem_append.mp hm with hm | hm
      · have hpath : parentalEntryNode m ≠ parentalEntryNode n := fun he =>
          hnew ((parentalEntryNode_inj (hl m hm) hn).mp he ▸ hm)
        exact (hout.other _ _ (.inl hpath)).trans (hinv.macNum m hm hmon)
      · rw [List.mem_singleton.mp hm]
        exact hout.macNum
    · exact fun path => (hout.other _ _ (.inr rfl)).trans (hinv.urlNum path)
  · refine ⟨s, startEntry_off (hframe.trans hinv.frame) hon, hinv.frame, ?_, ?_, hinv.urlNum⟩
    · rw [List.flatMap_append, ← hinv.rules, List.flatMap_singleton, gotRules, if_neg hon,
        List.append_nil]
    · intro m hm hmon
      rcases List.mem_append.mp hm with hm | hm
      · exact hinv.macNum m hm hmon
      · rw [List.mem_singleton.mp hm] at hmon
        exact absurd hmon hon

/-- **The loop over the entries ends exactly if it can read what it reads.** -/
theorem startEntries_spec {cuc : Bool} {matched : Nat → Nat → Bool} {cfg conf : Conf}
    (hframe : ParentalFrame cfg conf) (l : List Nat) (hl : ∀ n ∈ l, n < 8) (hnodup : l.Nodup) :
    ((∀ n ∈ l, EntryOk cuc matched cfg n) →
      ∃ s, l.foldlM (startEntry cuc matched) ⟨conf, []⟩ = .ok s ∧
        ParentalInv cuc matched cfg conf l s) ∧
    ((∃ n ∈ l, ¬ EntryOk cuc matched cfg n) →
      l.foldlM (startEntry cuc matched) ⟨conf, []⟩ = .error .uninit) := by
  induction l using List.reverseRecOn with
  | nil =>
    refine ⟨fun _ => ⟨⟨conf, []⟩, rfl, fun _ _ _ => rfl, rfl, by simp, fun _ => rfl⟩, ?_⟩
    rintro ⟨n, hn, -⟩
    exact absurd hn List.not_mem_nil
  | append_singleton l n ih =>
    obtain ⟨hnd, -, hdisj⟩ := List.nodup_append.mp hnodup
    have hnew : n ∉ l := fun hn => hdisj n hn n (List.mem_singleton_self n) rfl
    have hl' : ∀ m ∈ l, m < 8 := fun m hm => hl m (List.mem_append_left _ hm)
    obtain ⟨hok, herr⟩ := ih hl' hnd
    have hsingle : ∀ s, [n].foldlM (startEntry cuc matched) s = startEntry cuc matched s n := by
      intro s
      rw [List.foldlM_cons]
      exact bind_pure _
    rw [List.foldlM_append]
    by_cases hall : ∀ m ∈ l, EntryOk cuc matched cfg m
    · obtain ⟨s, hs, hinv⟩ := hok hall
      rw [hs]
      show (_ → ∃ s', [n].foldlM (startEntry cuc matched) s = .ok s' ∧ _) ∧
        (_ → [n].foldlM (startEntry cuc matched) s = .error .uninit)
      rw [hsingle]
      refine ⟨fun h => ?_, fun h => ?_⟩
      · exact startEntry_inv hframe hinv hl' (hl n (by simp)) hnew (h n (by simp))
      · obtain ⟨m, hm, hbad⟩ := h
        rcases List.mem_append.mp hm with hm | hm
        · exact absurd (hall m hm) hbad
        · rw [List.mem_singleton.mp hm, EntryOk, Classical.not_imp] at hbad
          obtain ⟨out, -, hstep⟩ :=
            @startEntry_on cuc matched cfg s n (hframe.trans hinv.frame) hbad.1
          rw [hstep, if_neg hbad.2]
    · have hbad : ∃ m ∈ l, ¬ EntryOk cuc matched cfg m := by
        by_contra hnone
        exact hall fun m hm => by_contra fun h => hnone ⟨m, hm, h⟩
      rw [herr hbad]
      exact ⟨fun h => absurd (fun m hm => h m (List.mem_append_left _ hm)) hall, fun _ => rfl⟩

/-! ## The URLs -/

/-- The state after these entries. -/
structure UrlInv (cfg : Conf) (l : List Nat) (s : UrlState) : Prop where
  frame : ParentalFrame cfg s.conf
  urlNum : s.urlNum = (l.map (ownUrls cfg)).sum
  stored : ∀ before n after, l = before ++ n :: after →
    textAttr cfg (parentalEntryNode n) "Active".toList 128 ≠ none →
    s.conf (parentalEntryNode n) "urlNum".toList =
      some (fmtNat ((before.map (ownUrls cfg)).sum + ownUrls cfg n))

theorem ownUrls_le (cfg : Conf) (n : Nat) : ownUrls cfg n ≤ 10 := by
  rw [ownUrls]
  split
  · exact (List.length_filterMap_le _ _).trans (by simp)
  · exact Nat.zero_le 10

theorem sum_ownUrls_le (cfg : Conf) (l : List Nat) : (l.map (ownUrls cfg)).sum ≤ 10 * l.length := by
  induction l with
  | nil => simp
  | cons n l ih =>
    have hn := ownUrls_le cfg n
    rw [List.map_cons, List.sum_cons, List.length_cons]
    omega

/-- An entry without the attribute `Active` has no URLs. -/
theorem ownUrls_eq_zero {cfg : Conf} {n : Nat}
    (h : textAttr cfg (parentalEntryNode n) "Active".toList 128 = none) : ownUrls cfg n = 0 := by
  rw [textAttr_eq_none_iff (by decide), ← @textAttr_eq_none_iff _ _ _ 32 (by decide)] at h
  have hoff : isParentalEntryNodeActive cfg n = false := by
    rw [isParentalEntryNodeActive, entryAttrIs, h]
    rfl
  rw [ownUrls, hoff]
  rfl

/-- The URLs are the same in a configuration that differs in what is written. -/
theorem entryUrls_congr {cfg conf : Conf} (h : ParentalFrame cfg conf) (n : Nat) :
    entryUrls conf n = entryUrls cfg n := by
  rw [entryUrls, entryUrls]
  refine List.filterMap_congr fun k hk => textAttr_congr h _ ?_ _
  have hall : ∀ k ∈ List.range 10, snprintf 33 ("URL".toList ++ fmtNat k) ∉ writtenNames := by
    decide
  exact hall k hk

/-- An entry with the attribute `Active` stores the number of URLs so far. -/
theorem initUrlEntry_eq {cfg : Conf} {s : UrlState} {n : Nat} (hframe : ParentalFrame cfg s.conf)
    (hsmall : s.urlNum ≤ 70)
    (hactive : textAttr cfg (parentalEntryNode n) "Active".toList 128 ≠ none) :
    ∃ files, initUrlEntry s n =
      ⟨setAttr s.conf (parentalEntryNode n) "urlNum".toList (fmtNat (s.urlNum + ownUrls cfg n)),
        files, s.urlNum + ownUrls cfg n⟩ := by
  have hread : textAttr s.conf (parentalEntryNode n) "Active".toList 128 ≠ none := by
    rwa [textAttr_congr hframe _ (by decide)]
  have hurls : (if isParentalEntryNodeActive s.conf n then entryUrls s.conf n else []).length =
      ownUrls cfg n := by
    rw [isParentalEntryNodeActive, entryAttrIs_congr hframe n (by decide),
      entryUrls_congr hframe, ← isParentalEntryNodeActive, ownUrls]
    split <;> rfl
  have hfit : snprintf 128 (fmtNat (s.urlNum + ownUrls cfg n)) =
      fmtNat (s.urlNum + ownUrls cfg n) := by
    have hown := ownUrls_le cfg n
    exact snprintf_eq (lt_of_le_of_lt ((length_fmtNat_le (by decide)).mpr
      (show s.urlNum + ownUrls cfg n < 10 ^ 2 by omega)) (by decide))
  rw [← hfit, ← hurls, initUrlEntry, if_neg hread]
  exact ⟨_, rfl⟩

/-- One entry keeps the invariant. -/
theorem initUrlEntry_inv {cfg : Conf} {l : List Nat} {s : UrlState} {n : Nat}
    (hinv : UrlInv cfg l s) (hl : ∀ m ∈ l, m < 8) (hn : n < 8) (hnew : n ∉ l)
    (hlen : l.length < 8) : UrlInv cfg (l ++ [n]) (initUrlEntry s n) := by
  have hsum : s.urlNum ≤ 70 := by
    have hle := sum_ownUrls_le cfg l
    rw [hinv.urlNum]
    omega
  by_cases hactive : textAttr cfg (parentalEntryNode n) "Active".toList 128 = none
  · have hskip : initUrlEntry s n = s := by
      rw [initUrlEntry, if_pos]
      rwa [textAttr_congr hinv.frame _ (by decide)]
    rw [hskip]
    refine ⟨hinv.frame, ?_, fun before m after h hm => ?_⟩
    · rw [hinv.urlNum, List.map_append, List.sum_append, List.map_singleton, List.sum_singleton,
        ownUrls_eq_zero hactive, Nat.add_zero]
    · rcases place_concat h with ⟨rest, hold⟩ | ⟨-, rfl⟩
      · exact hinv.stored before m rest hold hm
      · exact absurd hactive hm
  · obtain ⟨files, heq⟩ := initUrlEntry_eq hinv.frame hsum hactive
    rw [heq]
    refine ⟨hinv.frame.trans (parentalFrame_setAttr _ _ _ (by decide)), ?_,
      fun before m after h hm => ?_⟩
    · show s.urlNum + ownUrls cfg n = _
      rw [hinv.urlNum, List.map_append, List.sum_append, List.map_singleton, List.sum_singleton]
    · show setAttr s.conf _ _ _ (parentalEntryNode m) _ = _
      rcases place_concat h with ⟨rest, hold⟩ | ⟨rfl, rfl⟩
      · have hmem : m ∈ l := by simp [hold]
        have hpath : parentalEntryNode m ≠ parentalEntryNode n := fun he =>
          hnew ((parentalEntryNode_inj (hl m hmem) hn).mp he ▸ hmem)
        rw [setAttr_of_ne (.inl hpath)]
        exact hinv.stored before m rest hold hm
      · rw [setAttr_self, hinv.urlNum]

/-- **The counter is one for all entries.** -/
theorem initParentalUrlfilter_inv (cfg : Conf) :
    UrlInv cfg (List.range 8) (initParentalUrlfilter cfg) := by
  have hrun : ∀ k ≤ 8,
    UrlInv cfg (List.range k) ((List.range k).foldl initUrlEntry ⟨cfg, [], 0⟩) := by
    intro k hk
    induction k with
    | zero => exact ⟨fun _ _ _ => rfl, rfl, fun before n after h => by simp at h⟩
    | succ k ih =>
      rw [List.range_succ, List.foldl_append]
      refine initUrlEntry_inv (ih (by omega)) (fun m hm => ?_) (by omega) (by simp)
        (by rw [List.length_range]; omega)
      have := List.mem_range.mp hm
      omega
  obtain ⟨hframe, hnum, hstored⟩ := hrun 8 (le_refl 8)
  exact ⟨hframe, hnum, hstored⟩

/-! ## The result -/

/-- The MAC entries that only count for the entry `n` are those that lack a number. -/
theorem stray_iff (cfg : Conf) (n idx : Nat) : Stray (ownMac cfg n) (counted cfg n) idx ↔
    idOf cfg idx = none ∧ macOf cfg idx ≠ none ∧ carriedId cfg idx = n := by
  rw [Stray, ownMac, counted, carriedId]
  cases hid : idOf cfg idx with
  | none =>
    cases macOf cfg idx <;> simp
  | some v =>
    cases macOf cfg idx <;> simp

theorem counted_of_ownMac {cfg : Conf} {n idx : Nat} (h : ownMac cfg n idx = true) :
    counted cfg n idx = true := by
  rw [ownMac, Bool.and_eq_true, beq_iff_eq] at h
  rw [counted, carriedId, h.1, h.2]
  simp

/-- The addresses are the right ones, if each stray one comes after four of them. -/
theorem gotMacs_eq_iff (cfg : Conf) (n : Nat) : gotMacs cfg n = ownMacs cfg n ↔
    ∀ idx < 32, idOf cfg idx = none → macOf cfg idx ≠ none → carriedId cfg idx = n →
      4 ≤ (List.range idx).countP (ownMac cfg n) := by
  rw [gotMacs, ownMacs, take_filter_eq_iff fun _ => counted_of_ownMac]
  constructor
  · intro h idx hidx hid hmac hcarry
    obtain ⟨a, b, hsplit⟩ := List.append_of_mem (List.mem_range.mpr hidx)
    obtain ⟨rfl, -⟩ := range_eq_append hsplit
    exact h _ idx b hsplit ((stray_iff cfg n idx).mpr ⟨hid, hmac, hcarry⟩)
  · intro h a idx b hsplit hstray
    obtain ⟨rfl, hidx⟩ := range_eq_append hsplit
    obtain ⟨hid, hmac, hcarry⟩ := (stray_iff cfg n idx).mp hstray
    exact h idx hidx hid hmac hcarry

/-- The number of addresses is right, if there is no stray one or there are four right ones. -/
theorem length_gotMacs_eq_iff (cfg : Conf) (n : Nat) :
    (gotMacs cfg n).length = (ownMacs cfg n).length ↔
      ∀ idx < 32, idOf cfg idx = none → macOf cfg idx ≠ none → carriedId cfg idx = n →
        4 ≤ (List.range 32).countP (ownMac cfg n) := by
  rw [gotMacs, ownMacs, List.length_take, List.length_take, ← List.countP_eq_length_filter,
    ← List.countP_eq_length_filter, min_countP_eq_iff fun _ => counted_of_ownMac]
  simp only [List.mem_range, stray_iff, and_imp]

/-- The number of rules for an address. -/
def ruleCount (urlType : Bool) : FilterMode → Nat
  | .macFilter => 3
  | .urlFilter => if urlType then 1 else 2
  | .internetCrl => 1

theorem length_addParentalRule {n : Nat} {mac : Str} (hmac : mac ≠ []) (urlType : Bool)
    (mode : FilterMode) :
    (addParentalRule n mac mode (blackType urlType mode)).length = ruleCount urlType mode := by
  rw [addParentalRule, if_neg hmac]
  cases mode <;> cases urlType <;> rfl

theorem macOf_ne_nil {cfg : Conf} {idx : Nat} (h : (macOf cfg idx).isSome = true) :
    (macOf cfg idx).getD [] ≠ [] := by
  obtain ⟨v, hv⟩ := Option.isSome_iff_exists.mp h
  rw [hv, Option.getD_some]
  rintro rfl
  rw [macOf, textAttr] at hv
  split at hv
  · next hpos =>
    rw [cfgGetObjectAttr_pos, ← cfgGetObjectAttr_snd] at hpos
    exact hpos (Option.some.inj hv)
  · cases hv

/-- The rules show which MAC entries they are for. -/
theorem rulesFor_inj {cuc : Bool} {matched : Nat → Nat → Bool} {cfg : Conf} {n : Nat}
    {mode : FilterMode} (hmode : prescribedMode cuc matched cfg n = some mode) {l₁ l₂ : List Nat}
    (h₁ : ∀ idx ∈ l₁, (macOf cfg idx).isSome = true)
    (h₂ : ∀ idx ∈ l₂, (macOf cfg idx).isSome = true) :
    rulesFor cuc matched cfg n l₁ = rulesFor cuc matched cfg n l₂ ↔ l₁ = l₂ := by
  have htags : ∀ l : List Nat, (∀ idx ∈ l, (macOf cfg idx).isSome = true) →
      (rulesFor cuc matched cfg n l).map Prod.fst =
        l.flatMap fun idx => List.replicate (ruleCount (getFilterType cfg n) mode) idx := by
    intro l hl
    rw [rulesFor, hmode]
    simp only [List.map_flatMap, List.map_map]
    refine List.flatMap_congr fun idx hidx => ?_
    rw [← length_addParentalRule (n := n) (macOf_ne_nil (hl idx hidx)), ← List.map_const']
    rfl
  refine ⟨fun h => ?_, fun h => h ▸ rfl⟩
  have hpos : 0 < ruleCount (getFilterType cfg n) mode := by
    cases mode <;> cases getFilterType cfg n <;> decide
  rw [← flatMap_replicate_inj hpos, ← htags l₁ h₁, ← htags l₂ h₂, h]

/-- The rules of an entry are for the chains of that entry. -/
theorem nodeIdx_of_mem_gotRules {cuc : Bool} {matched : Nat → Nat → Bool} {cfg : Conf} {n : Nat}
    {r : Nat × ParentalRule} (h : r ∈ gotRules cuc matched cfg n) : r.2.nodeIdx = n := by
  rw [gotRules] at h
  split at h
  · rw [rulesFor] at h
    split at h
    · exact absurd h List.not_mem_nil
    · obtain ⟨idx, -, hr⟩ := List.mem_flatMap.mp h
      obtain ⟨rule, hrule, rfl⟩ := List.mem_map.mp hr
      exact (spec_of_mem_addParentalRule hrule).1
  · exact absurd h List.not_mem_nil

/-- An entry gets the right rules and the right number exactly under the condition on the MAC
entries without a number. -/
theorem gotRules_right_iff {cuc : Bool} {matched : Nat → Nat → Bool} {cfg : Conf} {n : Nat}
    (hon : SwitchOn cfg n) :
    (gotRules cuc matched cfg n = rulesFor cuc matched cfg n (ownMacs cfg n) ∧
        (gotMacs cfg n).length = (ownMacs cfg n).length) ↔
      ∀ idx < 32, idOf cfg idx = none → macOf cfg idx ≠ none → carriedId cfg idx = n →
        4 ≤ (List.range 32).countP (ownMac cfg n) ∧
          (prescribedMode cuc matched cfg n ≠ none →
            4 ≤ (List.range idx).countP (ownMac cfg n)) := by
  rw [gotRules, if_pos hon, length_gotMacs_eq_iff]
  have hrules : rulesFor cuc matched cfg n (gotMacs cfg n) =
      rulesFor cuc matched cfg n (ownMacs cfg n) ↔
        (prescribedMode cuc matched cfg n ≠ none → gotMacs cfg n = ownMacs cfg n) := by
    cases hmode : prescribedMode cuc matched cfg n with
    | none => simp [rulesFor, hmode]
    | some mode =>
      have hown : ∀ idx ∈ ownMacs cfg n, (macOf cfg idx).isSome = true := fun idx hidx =>
        (Bool.and_eq_true_iff.mp (List.mem_filter.mp (List.mem_of_mem_take hidx)).2).2
      rw [rulesFor_inj hmode (fun idx => macOf_of_mem_gotMacs) hown]
      simp
  rw [hrules, gotMacs_eq_iff]
  constructor
  · rintro ⟨hmode, hcount⟩ idx hidx hid hmac hcarry
    exact ⟨hcount idx hidx hid hmac hcarry, fun hne => hmode hne idx hidx hid hmac hcarry⟩
  · intro h
    refine ⟨fun hne idx hidx hid hmac hcarry => ?_, fun idx hidx hid hmac hcarry => ?_⟩
    · exact (h idx hidx hid hmac hcarry).2 hne
    · exact (h idx hidx hid hmac hcarry).1

/-- The number of URLs that is stored is the entry's own exactly if no entry before has URLs. -/
theorem urlSum_eq_iff (cfg : Conf) (n : Nat) :
    ((List.range n).map (ownUrls cfg)).sum + ownUrls cfg n = ownUrls cfg n ↔
      ∀ m < n, isParentalEntryNodeActive cfg m = true → entryUrls cfg m = [] := by
  have hown : ∀ m, ownUrls cfg m = 0 ↔
      (isParentalEntryNodeActive cfg m = true → entryUrls cfg m = []) := by
    intro m
    rw [ownUrls]
    split
    · next hactive => simp [hactive]
    · next hactive => simp [hactive]
  rw [Nat.add_eq_right, List.sum_eq_zero_iff_forall_eq_nat]
  simp only [List.mem_map, List.mem_range, forall_exists_index, and_imp, forall_apply_eq_imp_iff₂,
    hown]

/-- **The rules and the numbers are right exactly under the condition on the entries.** -/
theorem parental_right_iff (cuc : Bool) (matched : Nat → Nat → Bool) (cfg : Conf) :
    (∃ s, restartParental cuc matched cfg = .ok s ∧ ParentalRight cuc matched cfg s) ↔
      ParentalCond cuc matched cfg := by
  have hurl := initParentalUrlfilter_inv cfg
  have hlt : ∀ n ∈ List.range 8, n < 8 := fun n hn => List.mem_range.mp hn
  obtain ⟨hok, herr⟩ := @startEntries_spec cuc matched cfg (initParentalUrlfilter cfg).conf
    hurl.frame (List.range 8) hlt List.nodup_range
  -- what the state says of each entry
  have hstate : ∀ s, ParentalInv cuc matched cfg (initParentalUrlfilter cfg).conf (List.range 8) s →
      (ParentalRight cuc matched cfg s ↔
        (∀ n < 8, SwitchOn cfg n →
          gotRules cuc matched cfg n = rulesFor cuc matched cfg n (ownMacs cfg n) ∧
            (gotMacs cfg n).length = (ownMacs cfg n).length) ∧
        ∀ n < 8, textAttr cfg (parentalEntryNode n) "Active".toList 128 ≠ none →
          ((List.range n).map (ownUrls cfg)).sum + ownUrls cfg n = ownUrls cfg n) := by
    intro s hinv
    have hrules : ∀ n < 8, s.rules.filter (fun r => r.2.nodeIdx = n) =
      gotRules cuc matched cfg n := by
      intro n hn
      rw [hinv.rules, filter_flatMap_key List.nodup_range fun m _ r hr =>
        nodeIdx_of_mem_gotRules hr, if_pos (List.mem_range.mpr hn)]
    have hnum : ∀ n < 8, SwitchOn cfg n →
        (s.conf (parentalEntryNode n) "macNum".toList = some (fmtNat (ownMacs cfg n).length) ↔
          (gotMacs cfg n).length = (ownMacs cfg n).length) := by
      intro n hn hon
      rw [hinv.macNum n (List.mem_range.mpr hn) hon, Option.some_inj, fmtNat_inj]
    have hurls : ∀ n < 8, textAttr cfg (parentalEntryNode n) "Active".toList 128 ≠ none →
        (s.conf (parentalEntryNode n) "urlNum".toList = some (fmtNat (ownUrls cfg n)) ↔
          ((List.range n).map (ownUrls cfg)).sum + ownUrls cfg n = ownUrls cfg n) := by
      intro n hn hactive
      obtain ⟨a, b, hsplit⟩ := List.append_of_mem (List.mem_range.mpr hn)
      obtain ⟨rfl, -⟩ := range_eq_append hsplit
      rw [hinv.urlNum, hurl.stored _ n b hsplit hactive, Option.some_inj, fmtNat_inj]
    constructor
    · rintro ⟨h1, h2, h3⟩
      refine ⟨fun n hn hon => ⟨?_, (hnum n hn hon).mp (h2 n hn hon)⟩, fun n hn hactive => ?_⟩
      · rw [← hrules n hn, h1 n hn, if_pos hon]
      · exact (hurls n hn hactive).mp (h3 n hn hactive)
    · rintro ⟨h1, h2⟩
      refine ⟨fun n hn => ?_, fun n hn hon => (hnum n hn hon).mpr (h1 n hn hon).2,
        fun n hn hactive => (hurls n hn hactive).mpr (h2 n hn hactive)⟩
      rw [hrules n hn]
      split
      · next hon => exact (h1 n hn hon).1
      · next hoff => rw [gotRules, if_neg hoff]
  -- the addresses can be read if the right ones are short
  have hread : ∀ n, SwitchOn cfg n → prescribedMode cuc matched cfg n ≠ none →
      (∀ idx < 32, idOf cfg idx = none → macOf cfg idx ≠ none → carriedId cfg idx = n →
        4 ≤ (List.range idx).countP (ownMac cfg n)) →
      (EntryOk cuc matched cfg n ↔
        ∀ idx ∈ ownMacs cfg n, ((macOf cfg idx).getD []).length < 19) := by
    intro n hon hmode hstray
    rw [EntryOk, Readable, (gotMacs_eq_iff cfg n).mpr hstray]
    simp only [hon, hmode, false_or, true_implies]
  constructor
  · rintro ⟨s, hrun, hright⟩
    have hall : ∀ n ∈ List.range 8, EntryOk cuc matched cfg n := by
      by_contra hbad
      simp only [not_forall] at hbad
      obtain ⟨n, hn, hbad⟩ := hbad
      have herror : restartParental cuc matched cfg = .error .uninit := herr ⟨n, hn, hbad⟩
      rw [herror] at hrun
      cases hrun
    obtain ⟨s', hrun', hinv⟩ := hok hall
    obtain rfl : s = s' := Except.ok.inj (hrun.symm.trans hrun')
    obtain ⟨hrules, hurls⟩ := (hstate s hinv).mp hright
    have hids := fun n hn hon => (gotRules_right_iff hon).mp (hrules n hn hon)
    refine ⟨hids, fun n hn hon hmode => ?_, fun m n hmn hn hactive => ?_⟩
    · refine (hread n hon hmode fun idx hidx hid hmac hcarry => ?_).mp
        (hall n (List.mem_range.mpr hn))
      exact (hids n hn hon idx hidx hid hmac hcarry).2 hmode
    · exact (urlSum_eq_iff cfg n).mp (hurls n hn hactive) m hmn
  · rintro ⟨hids, hshort, hurls⟩
    have hall : ∀ n ∈ List.range 8, EntryOk cuc matched cfg n := by
      intro n hn hon
      by_cases hmode : prescribedMode cuc matched cfg n = none
      · exact .inl hmode
      · refine (hread n hon hmode fun idx hidx hid hmac hcarry => ?_).mpr
          (hshort n (hlt n hn) hon hmode) hon
        exact (hids n (hlt n hn) hon idx hidx hid hmac hcarry).2 hmode
    obtain ⟨s, hrun, hinv⟩ := hok hall
    refine ⟨s, hrun, (hstate s hinv).mpr ⟨fun n hn hon => ?_, fun n hn hactive => ?_⟩⟩
    · exact (gotRules_right_iff hon).mpr (hids n hn hon)
    · exact (urlSum_eq_iff cfg n).mpr fun m hmn => hurls m n hmn hn hactive

/-- The first entries and the first MAC entries have these attributes, and there are no more. -/
def parentalConf (entries macs : List (List (String × String))) : Conf := fun path name =>
  let look (l : List (List (String × String))) (node : Nat → Str) :=
    ((List.range l.length).find? fun i => path == node i).bind fun i =>
      ((l.getD i []).find? fun e => e.1.toList == name).map fun e => e.2.toList
  (look entries parentalEntryNode).or (look macs parentalMacEntryNode)

/-- The second MAC entry has no number. -/
def strayMac : Conf := parentalConf [[("Active", "Yes")]]
  [[("ParentalID", "0"), ("Mac", "00:11:22:33:44:55")], [("Mac", "00:11:22:33:44:66")]]

/-- Both entries have one URL. -/
def twoUrls : Conf := parentalConf [[("Active", "Yes"), ("URL0", "a.com")],
  [("Active", "Yes"), ("URL0", "b.com")]] []

/-- The entry gets the address of a MAC entry that lacks its number, or the URL of the entry before
it is counted too. -/
theorem parental_fails :
    (¬ ∃ s, restartParental false (fun _ _ => false) strayMac = .ok s ∧
        ParentalRight false (fun _ _ => false) strayMac s) ∧
      ¬ ∃ s, restartParental false (fun _ _ => false) twoUrls = .ok s ∧
        ParentalRight false (fun _ _ => false) twoUrls s := by
  constructor
  · rintro ⟨s, hrun, hright⟩
    have htwo : (restartParental false (fun _ _ => false) strayMac).toOption.bind
        (fun s => s.conf (parentalEntryNode 0) "macNum".toList) = some "2".toList := by
      decide +kernel
    have hown : fmtNat (ownMacs strayMac 0).length = "1".toList := by decide +kernel
    have hone := hright.macNum 0 (by decide) (.inl (by decide +kernel))
    rw [hrun] at htwo
    rw [hown] at hone
    exact absurd (htwo.symm.trans hone) (by decide)
  · rintro ⟨s, hrun, hright⟩
    have htwo : (restartParental false (fun _ _ => false) twoUrls).toOption.bind
        (fun s => s.conf (parentalEntryNode 1) "urlNum".toList) = some "2".toList := by
      decide +kernel
    have hown : fmtNat (ownUrls twoUrls 1) = "1".toList := by decide +kernel
    have hone := hright.urlNum 1 (by decide) (by decide +kernel)
    rw [hrun] at htwo
    rw [hown] at hone
    exact absurd (htwo.symm.trans hone) (by decide)

end OnuFirmware.Other
