import OnuFirmware.Clib.Buf
import OnuFirmware.Clib.Inet
import OnuFirmware.Clib.Num
import OnuFirmware.Clib.Scan

/-!
# The allow list of a guest SSID (`commit_one_node`)

With `AccessRule` 2 only the addresses and ports in `AllowedIPPort` can be reached. The items of the
text are taken apart with `sscanf`, which leaves the variables as they were for what does not match.
So an item without a port gets the one of an item before it. The scan has no width, and what follows
`]` is read two bytes further without a look at the byte between.
-/

namespace OnuFirmware.Wlan

open Clib Lib

/-! ## The loop -/

/-- Two rules that accept a destination, one for TCP and one for UDP. -/
structure AllowRule where
  v6 : Bool
  dst : Str
  dport : Int
deriving Repr, DecidableEq

/-- The variables that live from one item to the next. -/
structure ItemVars where
  ipStr : Str
  iPort : Int
deriving Repr, DecidableEq

/-- `sscanf(ipport_p, "%[^:]:%d", ip_str, &i_port)`, with `char ip_str[128]`. -/
def scanItem (item : Str) (v : ItemVars) : Except Fault ItemVars :=
  let ip := item.takeWhile (· != ':')
  if ip = [] then .ok v
  else if 128 ≤ ip.length then .error .overrun
  else
    match item.dropWhile (· != ':') with
    | _ :: r => .ok ⟨ip, (scanD r).elim v.iPort (·.1)⟩
    | [] => .ok ⟨ip, v.iPort⟩

/-- An item is taken apart. Behind `]` a terminator is written, and the port is read behind it: if
`]` is the last character, that is behind the item. -/
def parseItem (item : Str) (v : ItemVars) : Except Fault ItemVars :=
  if ']' ∈ item then
    let pos := item.idxOf ']'
    if pos + 1 < item.length then
      .ok ⟨snprintf 128 (item.take (pos + 1)), atoi (item.drop (pos + 2))⟩
    else .error .overrun
  else scanItem item v

/-- The brackets are replaced by blanks. -/
def blankBrackets (ip : Str) : Str := ip.map fun c => if c = '[' ∨ c = ']' then ' ' else c

/-- The rules that are added, and the variables afterwards. -/
def addRule (v : ItemVars) : Option AllowRule × ItemVars :=
  if v.ipStr ≠ [] ∧ v.iPort ≠ 0 then
    if ']' ∈ v.ipStr then
      (some ⟨true, blankBrackets v.ipStr, v.iPort⟩, ⟨blankBrackets v.ipStr, v.iPort⟩)
    else (some ⟨false, v.ipStr, v.iPort⟩, v)
  else (none, v)

/-- The loop over the items: what each of them adds. -/
def ipportLoop : ItemVars → List Str → Except Fault (List (Option AllowRule))
  | _, [] => .ok []
  | v, item :: items =>
    match parseItem item v with
    | .error e => .error e
    | .ok w =>
      match ipportLoop (addRule w).2 items with
      | .error e => .error e
      | .ok outs => .ok ((addRule w).1 :: outs)

/-- The accept rules that `commit_one_node` adds for `AllowedIPPort`, which it reads into 1024
bytes. -/
def allowedRules (allowedIPPort : Str) : Except Fault (List (Option AllowRule)) :=
  ipportLoop ⟨[], 0⟩ (strtokAll ',' (snprintf 1024 allowedIPPort))

/-! ## Statement -/

/-- The decimal number of a port. -/
def IsPort (d : Str) : Prop := (∀ c ∈ d, isDigit c = true) ∧ 1 ≤ atoi d ∧ atoi d ≤ 65535

/-- The item is an address with a port, for which the rule is due. -/
inductive IsItem : Str → AllowRule → Prop
  | v4 {a d : Str} (ha : (inetPton4 a).isSome = true) (hd : IsPort d) :
      IsItem (a ++ ':' :: d) ⟨false, a, atoi d⟩
  | v6 {a d : Str} (ha : (inetPton6 a).isSome = true) (hd : IsPort d) :
      IsItem ('[' :: a ++ ']' :: ':' :: d) ⟨true, ' ' :: a ++ [' '], atoi d⟩

/-- No item makes the code read or store out of bounds, and each adds its own rule, if it is an
address with a port, and no rule otherwise. -/
def AllowRight (text : Str) : Prop :=
  ∃ outs, allowedRules text = .ok outs ∧
    ∀ (k : Nat) r, outs[k]?.join = some r ↔
      ∃ item, (strtokAll ',' text)[k]? = some item ∧ IsItem item r

/-- The item can be taken apart within its bounds: what stands before the first colon fits the
buffer, or `]` is not the last character. -/
def InBounds (item : Str) : Prop :=
  if ']' ∈ item then item.idxOf ']' + 1 < item.length
  else (item.takeWhile (· != ':')).length < 128

/-- The number in an item: what `atoi` reads from the second character behind `]`, or what follows
the first colon. -/
def itemNumber (item : Str) : Option Int :=
  if ']' ∈ item then some (atoi (item.drop (item.idxOf ']' + 2)))
  else if item.takeWhile (· != ':') = [] then none
  else
    match item.dropWhile (· != ':') with
    | _ :: r => (scanD r).map (·.1)
    | [] => none

/-- The number of the last item that has one. -/
def lastNumber (items : List Str) : Int := items.foldl (fun n item => (itemNumber item).getD n) 0

/-- The number of an item, or of the last one before it. -/
def numberFrom (n : Int) (item : Str) : Int := (itemNumber item).getD n

/-- The item is an IPv4 address with a port, cut before the port, and `n` is the port. -/
def CutBeforePort (n : Int) (item full : Str) : Prop :=
  ∃ a d, (inetPton4 a).isSome = true ∧ IsPort d ∧ full = a ++ ':' :: d ∧
    (item = a ∨ item = a ++ [':']) ∧ n = atoi d

/-- When an item is treated right: it is an address with a port and has been read completely, or
it is none and there is no number to take for its port. -/
def ItemCond (n : Int) (item full : Str) : Prop :=
  InBounds item ∧
    (((∃ r, IsItem full r) ∧ (item = full ∨ CutBeforePort n item full)) ∨
      ((¬ ∃ r, IsItem full r) ∧ numberFrom n item = 0))

/-- When the allow list is right. -/
structure AllowCond (text : Str) : Prop where
  read : ∀ k item full, (strtokAll ',' (snprintf 1024 text))[k]? = some item →
    (strtokAll ',' text)[k]? = some full →
    ItemCond (lastNumber ((strtokAll ',' (snprintf 1024 text)).take k)) item full
  notRead : ∀ k full, (strtokAll ',' (snprintf 1024 text)).length ≤ k →
    (strtokAll ',' text)[k]? = some full → ¬ ∃ r, IsItem full r

/-! ## Items -/

section Items

variable {v w : ItemVars} {item full a d ip r : Str} {n : Int} {rule : AllowRule}

/-- The variables after an item that is within its bounds. -/
def itemVars (item : Str) (v : ItemVars) : ItemVars :=
  if ']' ∈ item then
    ⟨snprintf 128 (item.take (item.idxOf ']' + 1)), atoi (item.drop (item.idxOf ']' + 2))⟩
  else if item.takeWhile (· != ':') = [] then v
  else ⟨item.takeWhile (· != ':'), numberFrom v.iPort item⟩

theorem parseItem_eq : (InBounds item → parseItem item v = .ok (itemVars item v)) ∧
    (¬ InBounds item → ∃ e, parseItem item v = .error e) := by
  rw [InBounds, parseItem, itemVars]
  by_cases hb : ']' ∈ item
  · simp only [if_pos hb]
    exact ⟨fun h => if_pos h, fun h => ⟨_, if_neg h⟩⟩
  · simp only [if_neg hb, scanItem]
    by_cases hip : item.takeWhile (· != ':') = []
    · simp only [if_pos hip]
      exact ⟨fun _ => trivial, fun h => absurd (by rw [hip]; decide) h⟩
    · simp only [if_neg hip]
      refine ⟨fun h => ?_, fun h => ⟨_, if_pos (Nat.le_of_not_lt h)⟩⟩
      rw [if_neg (Nat.not_le.mpr h), numberFrom, itemNumber, if_neg hb, if_neg hip]
      cases hdrop : item.dropWhile (· != ':') with
      | nil => rfl
      | cons c rest =>
        simp only
        cases scanD rest <;> rfl

/-- The variables before an item: the number of the last one, and an address if it is not 0. -/
structure ItemVars.At (v : ItemVars) (n : Int) : Prop where
  port : v.iPort = n
  ip : n ≠ 0 → v.ipStr ≠ []

theorem snprintf_take_ne_nil (h : ']' ∈ item) :
    snprintf 128 (item.take (item.idxOf ']' + 1)) ≠ [] := by
  obtain ⟨c, rest, rfl⟩ := List.exists_cons_of_ne_nil (List.ne_nil_of_mem h)
  exact List.cons_ne_nil _ _

theorem ItemVars.At.parsed (h : v.At n) : (itemVars item v).At (numberFrom n item) := by
  rw [itemVars]
  by_cases hb : ']' ∈ item
  · rw [if_pos hb, numberFrom, itemNumber, if_pos hb, Option.getD_some]
    exact ⟨rfl, fun _ => snprintf_take_ne_nil hb⟩
  · rw [if_neg hb]
    by_cases hip : item.takeWhile (· != ':') = []
    · rw [if_pos hip, numberFrom, itemNumber, if_neg hb, if_pos hip, Option.getD_none]
      exact h
    · rw [if_neg hip]
      exact ⟨by rw [h.port], fun _ => hip⟩

theorem ItemVars.At.added (h : v.At n) : (addRule v).2.At n := by
  rw [addRule]
  split
  · split
    · exact ⟨h.port, fun hn => by simpa [blankBrackets] using h.ip hn⟩
    · exact h
  · exact h

/-- There is a rule exactly if there is a number. -/
theorem ItemVars.At.rule_eq_none (h : v.At n) : (addRule v).1 = none ↔ n = 0 := by
  rw [addRule, h.port]
  by_cases hn : n = 0
  · rw [if_neg fun hc => hc.2 hn]
    exact iff_of_true rfl hn
  · rw [if_pos ⟨h.ip hn, hn⟩]
    refine iff_of_false ?_ hn
    split <;> exact Option.some_ne_none _

/-! ## What an item adds -/

/-- An item without `]` and with something before the first colon. -/
theorem itemVars_colon (hip : ip ≠ []) (hcolon : ':' ∉ ip) (hb : ']' ∉ ip ++ ':' :: r) :
    itemVars (ip ++ ':' :: r) v = ⟨ip, (scanD r).elim v.iPort (·.1)⟩ := by
  have hall : ∀ c ∈ ip, (c != ':') = true := fun c hc => by
    rw [bne_iff_ne]
    exact fun he => hcolon (he ▸ hc)
  have htake : (ip ++ ':' :: r).takeWhile (· != ':') = ip := takeWhile_run hall (by simp)
  have hdrop : (ip ++ ':' :: r).dropWhile (· != ':') = ':' :: r := dropWhile_run hall (by simp)
  rw [itemVars, if_neg hb, htake, if_neg hip, numberFrom, itemNumber, if_neg hb, htake, if_neg hip,
    hdrop]
  simp only
  cases scanD r <;> rfl

theorem itemVars_address (hip : ip ≠ []) (hcolon : ':' ∉ ip) (hb : ']' ∉ ip) :
    itemVars ip v = ⟨ip, v.iPort⟩ := by
  have hall : ∀ c ∈ ip, (c != ':') = true := fun c hc => by
    rw [bne_iff_ne]
    exact fun he => hcolon (he ▸ hc)
  have hdrop := @dropWhile_run _ ip [] hall (by simp)
  rw [List.append_nil] at hdrop
  rw [itemVars, if_neg hb, takeWhile_all hall, if_neg hip, numberFrom, itemNumber, if_neg hb,
    takeWhile_all hall, if_neg hip, hdrop]
  rfl

theorem itemVars_bracket (hb : ']' ∉ ip) (hlen : ip.length < 127) (c : Char) :
    itemVars (ip ++ ']' :: c :: d) v = ⟨ip ++ [']'], atoi d⟩ := by
  have hidx : (ip ++ ']' :: c :: d).idxOf ']' = ip.length := by
    rw [List.idxOf_append_of_notMem hb, List.idxOf_cons_self, Nat.add_zero]
  have htake : (ip ++ ']' :: c :: d).take (ip.length + 1) = ip ++ [']'] := by
    rw [List.take_append]
    simp
  have hdrop : (ip ++ ']' :: c :: d).drop (ip.length + 2) = d := by
    rw [List.drop_append]
    simp
  rw [itemVars, if_pos (by simp), hidx, htake, hdrop, snprintf_eq]
  rw [List.length_append, List.length_singleton]
  omega

theorem addRule_v4 (hip : ip ≠ []) (hb : ']' ∉ ip) :
    (addRule ⟨ip, n⟩).1 = if n ≠ 0 then some ⟨false, ip, n⟩ else none := by
  rw [addRule]
  by_cases hn : n = 0
  · rw [if_neg fun h => h.2 hn, if_neg fun h => h hn]
  · rw [if_pos ⟨hip, hn⟩, if_neg hb, if_pos hn]

theorem isPort_ne_nil (hd : IsPort d) : d ≠ [] := fun h => by
  have hpos := hd.2.1
  rw [h] at hpos
  exact absurd hpos (by decide)

theorem IsPort.scanD (hd : IsPort d) : scanD d = some (atoi d, []) :=
  scanD_digits hd.1 (isPort_ne_nil hd)

/-- The characters of an IPv4 address, and its length. -/
theorem v4_chars (ha : (inetPton4 a).isSome = true) :
    a ≠ [] ∧ a.length < 128 ∧ ':' ∉ a ∧ ']' ∉ a ∧ '[' ∉ a := by
  obtain ⟨x, hx⟩ := Option.isSome_iff_exists.mp ha
  obtain ⟨hlen, hc⟩ := inetPton4_some hx
  have hnot : ∀ c, isDigit c = false → c ≠ '.' → c ∉ a := fun c hd hdot hmem => by
    rcases hc c hmem with h | h
    · rw [hd] at h
      exact Bool.false_ne_true h
    · exact hdot h
  refine ⟨fun hnil => ?_, by omega, hnot ':' (by decide) (by decide),
    hnot ']' (by decide) (by decide), hnot '[' (by decide) (by decide)⟩
  rw [hnil] at ha
  exact absurd ha (by decide)

theorem v6_chars (ha : (inetPton6 a).isSome = true) :
    a.length ≤ 51 ∧ ']' ∉ a ∧ '[' ∉ a := by
  obtain ⟨x, hx⟩ := Option.isSome_iff_exists.mp ha
  obtain ⟨hlen, hc⟩ := inetPton6_some hx
  have hnot : ∀ c, isAddrChar c = false → c ∉ a := fun c hd hmem => by
    have h := hc c hmem
    rw [hd] at h
    exact Bool.false_ne_true h
  exact ⟨hlen, hnot ']' (by decide), hnot '[' (by decide)⟩

theorem digits_not {c : Char} (hd : IsPort d) (hc : isDigit c = false) : c ∉ d := fun hmem => by
  have h := hd.1 c hmem
  rw [hc] at h
  exact Bool.false_ne_true h

theorem blankBrackets_eq (h1 : ']' ∉ a) (h2 : '[' ∉ a) :
    blankBrackets ('[' :: a ++ [']']) = ' ' :: a ++ [' '] := by
  have hmap : a.map (fun c => if c = '[' ∨ c = ']' then ' ' else c) = a := by
    refine (List.map_congr_left fun c hc => if_neg ?_).trans (List.map_id a)
    rintro (rfl | rfl)
    · exact h2 hc
    · exact h1 hc
  rw [blankBrackets, List.map_append, List.map_cons, hmap]
  rfl

/-- **An address with a port adds its own rule.** -/
theorem addRule_isItem (h : IsItem full rule) (v : ItemVars) :
    InBounds full ∧ (addRule (itemVars full v)).1 = some rule := by
  cases h with
  | @v4 a d ha hd =>
    obtain ⟨hne, hlen, hcolon, hb, -⟩ := v4_chars ha
    have hbd : ']' ∉ a ++ ':' :: d := by
      simp only [List.mem_append, List.mem_cons, not_or]
      exact ⟨hb, by decide, digits_not hd (by decide)⟩
    have hpos := hd.2.1
    refine ⟨?_, ?_⟩
    · rw [InBounds, if_neg hbd, takeWhile_run (r := ':' :: d) (fun c hc => ?_) (by simp)]
      · exact hlen
      · rw [bne_iff_ne]
        exact fun he => hcolon (he ▸ hc)
    · rw [itemVars_colon hne hcolon hbd, hd.scanD, Option.elim_some, addRule_v4 hne hb,
        if_pos (by omega)]
  | @v6 a d ha hd =>
    obtain ⟨hlen, hb, hb'⟩ := v6_chars ha
    have hba : ']' ∉ '[' :: a := by
      rw [List.mem_cons, not_or]
      exact ⟨by decide, hb⟩
    have hpos := hd.2.1
    refine ⟨?_, ?_⟩
    · rw [InBounds, if_pos (by simp), List.idxOf_append_of_notMem hba, List.idxOf_cons_self]
      simp
    · rw [itemVars_bracket hba (by rw [List.length_cons]; omega), addRule,
        if_pos ⟨by simp, by simp only; omega⟩, if_pos (by simp), blankBrackets_eq hb hb']

theorem IsItem.unique {rule' : AllowRule} (h : IsItem full rule) (h' : IsItem full rule') :
    rule = rule' :=
  Option.some.inj ((addRule_isItem h ⟨[], 0⟩).2.symm.trans (addRule_isItem h' ⟨[], 0⟩).2)

/-! ## Items that have been cut -/

theorem prefix_cases {t : Str} {c : Char} (h : t <+: a ++ c :: d) :
    t <+: a ∨ ∃ d', t = a ++ c :: d' ∧ d' <+: d := by
  obtain ⟨s, hs⟩ := h
  rcases List.append_eq_append_iff.mp hs with ⟨a', ha, -⟩ | ⟨c', ht, hc⟩
  · exact .inl ⟨a', ha.symm⟩
  · cases c' with
    | nil => exact .inl ⟨[], by rw [List.append_nil, ht, List.append_nil]⟩
    | cons x d' =>
      obtain ⟨rfl, hd⟩ := List.cons.inj hc
      exact .inr ⟨d', ht, s, hd.symm⟩

/-- A port that has been cut is another number. -/
theorem atoi_cut {d' : Str} (hd : IsPort d) (hpre : d' <+: d) (hne : d' ≠ d) :
    atoi d' ≠ atoi d := by
  obtain ⟨e, rfl⟩ := hpre
  obtain ⟨hdigit, hpos, hle⟩ := hd
  cases d' with
  | nil =>
    have hzero : atoi [] = 0 := by decide
    omega
  | cons c s =>
    have hc : isDigit c = true := hdigit c (by simp)
    obtain ⟨x, e, rfl⟩ := List.exists_cons_of_ne_nil (l := e) fun he => hne (by rw [he]; simp)
    have hs : ∀ y ∈ c :: s, isDigit y = true := fun y hy => hdigit y (List.mem_append_left _ hy)
    have hx : isDigit x = true := hdigit x (by simp)
    have hval := digitsVal_append_digits hs 0 (x :: e)
    rw [digitsVal, if_pos hx] at hval
    have hge := digitsVal_ge e (10 * digitsVal 0 (c :: s) + (x.toNat - '0'.toNat))
    rw [← hval] at hge
    rw [List.cons_append] at hpos hle hge ⊢
    rw [atoi_of_isDigit hc] at hpos hle ⊢
    rw [atoi_of_isDigit hc]
    have hmax : (65535 : Int) < intMax := by decide
    omega

theorem cutBeforePort_v4 (ha : (inetPton4 a).isSome = true) (hd : IsPort d) :
    CutBeforePort n item (a ++ ':' :: d) ↔ (item = a ∨ item = a ++ [':']) ∧ n = atoi d := by
  constructor
  · rintro ⟨a', d', ha', -, heq, hitem, hn⟩
    obtain ⟨rfl, hde⟩ := append_cons_unique (v4_chars ha).2.2.1 (v4_chars ha').2.2.1 heq
    exact ⟨hitem, hde ▸ hn⟩
  · rintro ⟨hitem, hn⟩
    exact ⟨a, d, ha, hd, rfl, hitem, hn⟩

theorem not_cutBeforePort_v6 : ¬ CutBeforePort n item ('[' :: a) := by
  rintro ⟨a', d', ha', -, heq, -⟩
  obtain ⟨hne, -, -, -, hopen⟩ := v4_chars ha'
  obtain ⟨x, s, rfl⟩ := List.exists_cons_of_ne_nil hne
  exact hopen ((List.cons.inj heq).1 ▸ List.mem_cons_self)

theorem addRule_cut_v4 (ha : (inetPton4 a).isSome = true) (hd : IsPort d)
    (hpre : item <+: a ++ ':' :: d) (hne : item ≠ a ++ ':' :: d) (hnil : item ≠ [])
    (hv : v.iPort = n) : (addRule (itemVars item v)).1 = some ⟨false, a, atoi d⟩ ↔
      (item = a ∨ item = a ++ [':']) ∧ n = atoi d := by
  obtain ⟨hane, -, hcolon, hb, -⟩ := v4_chars ha
  have hpos := hd.2.1
  have hcarry : ∀ ip : Str, ip ≠ [] → ']' ∉ ip →
      ((addRule ⟨ip, n⟩).1 = some ⟨false, a, atoi d⟩ ↔ ip = a ∧ n = atoi d) := fun ip hip hipb => by
    rw [addRule_v4 hip hipb]
    split
    · simp
    · next h0 =>
      refine iff_of_false (Option.some_ne_none _).symm fun h => ?_
      rw [Decidable.not_not] at h0
      omega
  rcases prefix_cases hpre with ha' | ⟨d', rfl, hd'⟩
  · have hcolon' : ':' ∉ item := fun h => hcolon (ha'.subset h)
    have hb' : ']' ∉ item := fun h => hb (ha'.subset h)
    rw [itemVars_address hnil hcolon' hb', hv, hcarry item hnil hb']
    refine and_congr_left fun _ => (or_iff_left fun h => hcolon' ?_).symm
    rw [h]
    simp
  · have hbd : ']' ∉ a ++ ':' :: d' := by
      simp only [List.mem_append, List.mem_cons, not_or]
      exact ⟨hb, by decide, fun h => digits_not hd (by decide) (hd'.subset h)⟩
    by_cases hempty : d' = []
    · subst hempty
      rw [itemVars_colon hane hcolon hbd]
      have hscan : scanD [] = none := by decide
      rw [hscan, Option.elim_none, hv, hcarry a hane hb]
      simp
    · have hdigits : ∀ c ∈ d', isDigit c = true := fun c hc => hd.1 c (hd'.subset hc)
      have hother : atoi d' ≠ atoi d := atoi_cut hd hd' fun he => hne (he ▸ rfl)
      rw [itemVars_colon hane hcolon hbd, scanD_digits hdigits hempty, Option.elim_some,
        addRule_v4 hane hb]
      refine iff_of_false (fun h => ?_) fun h => ?_
      · split at h
        · exact hother (AllowRule.mk.inj (Option.some.inj h)).2.2
        · exact Option.some_ne_none _ h.symm
      · rcases h.1 with he | he
        · exact absurd (congrArg List.length he) (by simp)
        · exact hempty (List.cons.inj (List.append_cancel_left he)).2

theorem addRule_cut_v6 (ha : (inetPton6 a).isSome = true) (hd : IsPort d)
    (hpre : item <+: '[' :: a ++ ']' :: ':' :: d) (hne : item ≠ '[' :: a ++ ']' :: ':' :: d)
    (hnil : item ≠ []) (hin : InBounds item) :
    (addRule (itemVars item v)).1 ≠ some ⟨true, ' ' :: a ++ [' '], atoi d⟩ := by
  obtain ⟨hlen, hb, -⟩ := v6_chars ha
  have hba : ']' ∉ '[' :: a := by
    rw [List.mem_cons, not_or]
    exact ⟨by decide, hb⟩
  intro h
  rcases prefix_cases hpre with ha' | ⟨e, rfl, he⟩
  · -- without `]` the rule is one for IPv4
    have hb' : ']' ∉ item := fun hm => hba (ha'.subset hm)
    obtain ⟨c, s, rfl⟩ := List.exists_cons_of_ne_nil hnil
    obtain ⟨rfl, -⟩ := List.cons_prefix_cons.mp ha'
    have hip : ('[' :: s).takeWhile (· != ':') ≠ [] := by
      rw [List.takeWhile_cons_of_pos (by decide)]
      exact List.cons_ne_nil _ _
    rw [itemVars, if_neg hb', if_neg hip,
      addRule_v4 hip fun hm => hb' ((List.takeWhile_prefix _).subset hm)] at h
    split at h
    · exact Bool.false_ne_true (AllowRule.mk.inj (Option.some.inj h)).1
    · exact Option.some_ne_none _ h.symm
  · cases e with
    | nil =>
      rw [InBounds, if_pos (by simp), List.idxOf_append_of_notMem hba, List.idxOf_cons_self] at hin
      simp at hin
    | cons c d' =>
      obtain ⟨rfl, hd'⟩ := List.cons_prefix_cons.mp he
      have hother : atoi d' ≠ atoi d := atoi_cut hd hd' fun heq => hne (heq ▸ rfl)
      rw [itemVars_bracket hba (by rw [List.length_cons]; omega), addRule] at h
      split at h
      · rw [if_pos (by simp)] at h
        exact hother (AllowRule.mk.inj (Option.some.inj h)).2.2
      · exact Option.some_ne_none _ h.symm

/-- **What an item adds of which only the beginning has been read.** -/
theorem addRule_cut (h : IsItem full rule) (hpre : item <+: full) (hne : item ≠ full)
    (hnil : item ≠ []) (hin : InBounds item) (hv : v.iPort = n) :
    (addRule (itemVars item v)).1 = some rule ↔ CutBeforePort n item full := by
  cases h with
  | v4 ha hd => rw [addRule_cut_v4 ha hd hpre hne hnil hv, cutBeforePort_v4 ha hd]
  | v6 ha hd =>
    exact iff_of_false (addRule_cut_v6 ha hd hpre hne hnil hin) not_cutBeforePort_v6

/-- **When an item adds what it is to add.** -/
theorem item_right (hat : v.At n) (hpre : item <+: full) (hnil : item ≠ []) :
    InBounds item ∧ (∀ r, (addRule (itemVars item v)).1 = some r ↔ IsItem full r) ↔
      ItemCond n item full := by
  refine and_congr_right fun hin => ?_
  by_cases hitem : ∃ r, IsItem full r
  · obtain ⟨r₀, hr₀⟩ := hitem
    have hone : (∀ r, (addRule (itemVars item v)).1 = some r ↔ IsItem full r) ↔
        (addRule (itemVars item v)).1 = some r₀ := by
      refine ⟨fun h => (h r₀).mpr hr₀, fun h r => ?_⟩
      rw [h, Option.some_inj]
      exact ⟨fun he => he ▸ hr₀, fun hr => hr₀.unique hr⟩
    rw [hone, or_iff_left fun h => h.1 ⟨r₀, hr₀⟩, and_iff_right ⟨r₀, hr₀⟩]
    by_cases heq : item = full
    · subst heq
      exact iff_of_true (addRule_isItem hr₀ v).2 (.inl rfl)
    · rw [or_iff_right heq]
      exact addRule_cut hr₀ hpre heq hnil hin hat.port
  · rw [or_iff_right fun h => hitem h.1, and_iff_right hitem, ← hat.parsed.rule_eq_none]
    constructor
    · intro h
      by_contra hsome
      obtain ⟨r, hr⟩ := Option.ne_none_iff_exists'.mp hsome
      exact hitem ⟨r, (h r).mp hr⟩
    · intro h r
      rw [h]
      exact iff_of_false (Option.some_ne_none r).symm fun hr => hitem ⟨r, hr⟩

end Items

/-! ## The loop and the text -/

section Loop

variable {v : ItemVars} {items : List Str} {outs : List (Option AllowRule)} {n : Int} {k : Nat}
  {item : Str}

/-- What the items add, if they are within their bounds. -/
def outsFrom : ItemVars → List Str → List (Option AllowRule)
  | _, [] => []
  | v, item :: items =>
    (addRule (itemVars item v)).1 :: outsFrom (addRule (itemVars item v)).2 items

theorem ipportLoop_eq_ok :
    ipportLoop v items = .ok outs ↔ (∀ item ∈ items, InBounds item) ∧ outs = outsFrom v items := by
  induction items generalizing v outs with
  | nil =>
    rw [ipportLoop, outsFrom, Except.ok.injEq]
    exact ⟨fun h => ⟨fun _ hm => absurd hm List.not_mem_nil, h.symm⟩, fun h => h.2.symm⟩
  | cons item items ih =>
    rw [ipportLoop, outsFrom, List.forall_mem_cons]
    by_cases hin : InBounds item
    · rw [(parseItem_eq).1 hin, and_iff_right hin]
      simp only
      cases hrest : ipportLoop (addRule (itemVars item v)).2 items with
      | error e =>
        refine iff_of_false (by simp) fun h => ?_
        have hok := (@ih (addRule (itemVars item v)).2 _).mpr ⟨h.1, rfl⟩
        rw [hrest] at hok
        exact absurd hok (by simp)
      | ok rest =>
        obtain ⟨hall, rfl⟩ := ih.mp hrest
        rw [Except.ok.injEq]
        exact ⟨fun h => ⟨hall, h.symm⟩, fun h => h.2.symm⟩
    · obtain ⟨e, he⟩ := (@parseItem_eq v item).2 hin
      rw [he]
      exact iff_of_false (by simp) fun h => hin h.1.1

theorem length_outsFrom : ∀ {items : List Str} {v : ItemVars},
    (outsFrom v items).length = items.length
  | [], _ => rfl
  | item :: items, v => by rw [outsFrom, List.length_cons, List.length_cons, length_outsFrom]

/-- What one of the items adds, with the number before it. -/
theorem outsFrom_getElem? (hat : v.At n) (h : items[k]? = some item) :
    ∃ w : ItemVars, w.At ((items.take k).foldl (fun n item => (itemNumber item).getD n) n) ∧
      (outsFrom v items)[k]? = some (addRule (itemVars item w)).1 := by
  induction items generalizing v n k with
  | nil => exact absurd h.symm (Option.some_ne_none item)
  | cons t items ih =>
    cases k with
    | zero =>
      obtain rfl := Option.some.inj h
      exact ⟨v, hat, rfl⟩
    | succ k => exact ih hat.parsed.added h

end Loop

/-- **The allow list is right exactly under that condition.** -/
theorem allowedRules_right_iff (text : Str) : AllowRight text ↔ AllowCond text := by
  have hstart : (⟨[], 0⟩ : ItemVars).At 0 := ⟨rfl, fun h => absurd rfl h⟩
  have hfull : ∀ {k item}, (strtokAll ',' (snprintf 1024 text))[k]? = some item →
      ∃ full, (strtokAll ',' text)[k]? = some full ∧ item <+: full := fun h => by
    obtain ⟨full, hf, hpre⟩ := strtokAll_prefix (text.drop (1024 - 1)) h
    rw [snprintf, List.take_append_drop] at hf
    exact ⟨full, hf, hpre⟩
  rw [AllowRight, allowedRules]
  constructor
  · rintro ⟨outs, hok, hright⟩
    obtain ⟨hin, rfl⟩ := ipportLoop_eq_ok.mp hok
    constructor
    · intro k item full hitem hfitem
      obtain ⟨full', hf', hpre⟩ := hfull hitem
      obtain rfl := Option.some.inj (hfitem.symm.trans hf')
      obtain ⟨w, hw, hout⟩ := outsFrom_getElem? hstart hitem
      have hmem := List.mem_of_getElem? hitem
      refine (item_right hw hpre (ne_nil_of_mem_strtokAll hmem)).mp ⟨hin item hmem, fun r => ?_⟩
      have hr := hright k r
      rw [hout, Option.join_some, hfitem] at hr
      rw [hr]
      simp
    · rintro k full hk hfitem ⟨r, hr⟩
      have hnone : (outsFrom ⟨[], 0⟩ (strtokAll ',' (snprintf 1024 text)))[k]? = none :=
        List.getElem?_eq_none (by rwa [length_outsFrom])
      have hsome := (hright k r).mpr ⟨full, hfitem, hr⟩
      rw [hnone] at hsome
      exact absurd hsome.symm (Option.some_ne_none r)
  · intro h
    refine ⟨_, ipportLoop_eq_ok.mpr ⟨fun item hmem => ?_, rfl⟩, fun k r => ?_⟩
    · obtain ⟨k, hk⟩ := List.mem_iff_getElem?.mp hmem
      obtain ⟨full, hf, -⟩ := hfull hk
      exact (h.read k item full hk hf).1
    · by_cases hk : k < (strtokAll ',' (snprintf 1024 text)).length
      · have hitem := List.getElem?_eq_getElem hk
        obtain ⟨full, hf, hpre⟩ := hfull hitem
        obtain ⟨w, hw, hout⟩ := outsFrom_getElem? hstart hitem
        have hmem := List.mem_of_getElem? hitem
        have hright := ((item_right hw hpre (ne_nil_of_mem_strtokAll hmem)).mpr
          (h.read k _ full hitem hf)).2 r
        rw [hout, Option.join_some, hright, hf]
        simp
      · have hlen := Nat.le_of_not_lt hk
        rw [List.getElem?_eq_none (by rwa [length_outsFrom])]
        refine iff_of_false (Option.some_ne_none r).symm ?_
        rintro ⟨full, hf, hr⟩
        exact h.notRead k full hlen hf ⟨r, hr⟩

theorem colon_mem_of_isItem {item : Str} {r : AllowRule} (h : IsItem item r) : ':' ∈ item := by
  cases h <;> simp

/-- An item without a port adds a rule with the port of the item before it. And the port of an
address in brackets without one is read behind the item. -/
theorem allowedRules_wrong : ¬ AllowRight "192.168.1.5:80,192.168.1.6".toList ∧
    allowedRules "[fe80::1]".toList = .error .overrun := by
  refine ⟨?_, by decide⟩
  rintro ⟨outs, hok, h⟩
  have houts : allowedRules "192.168.1.5:80,192.168.1.6".toList =
      .ok [some ⟨false, "192.168.1.5".toList, 80⟩, some ⟨false, "192.168.1.6".toList, 80⟩] := by
    decide
  obtain rfl := Except.ok.inj (hok.symm.trans houts)
  obtain ⟨item, hitem, hr⟩ := (h 1 ⟨false, "192.168.1.6".toList, 80⟩).mp rfl
  have hsecond : item = "192.168.1.6".toList :=
    Option.some.inj (hitem.symm.trans (by decide))
  rw [hsecond] at hr
  exact absurd (colon_mem_of_isItem hr) (by decide)

end OnuFirmware.Wlan
