import OnuFirmware.Mesh.BssFile

/-!
# The rows of the BSS file

An entry of a radio is shown in the file under one class or two. The loader gives the entries in use
rows of the array, one after the other, and the writer writes the lines of the rows up to the first
one without an SSID.
-/

namespace OnuFirmware.Mesh

open Clib Cfg Lib

/-! ## What the file should show -/

/-- A radio and the number of an object, from 0. -/
abbrev Slot := Radio × Nat

/-- The entries of both radios. -/
def slots : List Slot :=
  [Radio.radio2G, Radio.radio5GL].flatMap fun r =>
    (List.range (maxRadioBssInfoNum - 1)).map fun k => (r, k)

def MeshConf.entry (c : MeshConf) (s : Slot) : WlanEntry := (c.radio s.1).entries s.2

def MeshConf.bss (c : MeshConf) (s : Slot) : BssEntry := (c.radio s.1).bssEntries s.2

/-- The items of `NonMapIface`. -/
def MeshConf.items (c : MeshConf) : List Str := strtokAll ';' (c.nonMapIface.getD [])

/-- The interface of an entry. -/
def ifaceName : Slot → Str
  | (.radio2G, k) => "ra".toList ++ fmtNat k
  | (.radio5GL, k) => "rai".toList ++ fmtNat k

/-- The texts that are promised. -/
structure ValidConf (c : MeshConf) : Prop where
  mac (r : Radio) : (scanMac (text (c.radio r).alMAC)).isSome = true
  ssid (s : Slot) (t : Str) : (c.entry s).ssid = some t → t.length ≤ 32 ∧ '\n' ∉ t
  key (s : Slot) (t : Str) : (c.entry s).wpapsk = some t → t.length ≤ 63 ∧ '\n' ∉ t
  items : ∀ item ∈ c.items, ∃ s : Slot, s.2 < 15 ∧ item = ifaceName s
  nonMapIface : (c.nonMapIface.getD []).length ≤ 64

/-- The authentication of an entry, if it is recognised. -/
def WlanEntry.auth (e : WlanEntry) : Option Nat := convertAuthmodString (text e.authMode)

/-- The encryption of an entry, if it is recognised. -/
def WlanEntry.encryption (e : WlanEntry) : Option Nat :=
  if e.auth = some authmodeOpen then some 0x1 else convertEncryptypeString (text e.encrypType)

/-- The key that is shown for an entry. -/
def WlanEntry.shownKey (e : WlanEntry) : Str :=
  if e.auth = some authmodeOpen then bssinfoDefKey else e.wpapsk.getD []

/-- Enabled, not listed, and of a known kind. -/
def MeshConf.InUse (c : MeshConf) (s : Slot) : Prop :=
  (c.radio s.1).SwitchedOn ∧ atoi (text (c.entry s).enableSSID) ≠ 0 ∧ ifaceName s ∉ c.items ∧
    (c.entry s).auth.isSome = true ∧ (c.entry s).encryption.isSome = true

instance (c : MeshConf) (s : Slot) : Decidable (c.InUse s) :=
  inferInstanceAs (Decidable (_ ∧ _))

/-- In use, with an SSID that is there and empty. -/
def MeshConf.Blank (c : MeshConf) (s : Slot) : Prop := c.InUse s ∧ (c.entry s).ssid = some []

instance (c : MeshConf) (s : Slot) : Decidable (c.Blank s) := inferInstanceAs (Decidable (_ ∧ _))

/-- The front-haul or the back-haul flag is 1. -/
def MeshConf.Haul (c : MeshConf) (s : Slot) : Prop :=
  flagByte (c.bss s).frontHaul = 1 ∨ flagByte (c.bss s).backHaul = 1

instance (c : MeshConf) (s : Slot) : Decidable (c.Haul s) := inferInstanceAs (Decidable (_ ∨ _))

/-- To be shown in the file. -/
def MeshConf.Shown (c : MeshConf) (s : Slot) : Prop :=
  c.InUse s ∧ (c.entry s).ssid.getD [] ≠ [] ∧ c.Haul s

instance (c : MeshConf) (s : Slot) : Decidable (c.Shown s) := inferInstanceAs (Decidable (_ ∧ _))

/-- The classes an entry is shown under. -/
def MeshConf.classes (c : MeshConf) : Radio → List Str
  | .radio2G => ["8x".toList]
  | .radio5GL =>
    if atoi (text c.wlan11ac.channel) < 100 then ["11x".toList, "12x".toList]
    else ["12x".toList, "11x".toList]

/-- The fields that come after the hidden flag. -/
def MeshConf.lastFields (c : MeshConf) (s : Slot) : Bool → List Str
  | true =>
    let v := vlanInfo (c.bss s)
    [fmtNat v.vlanId, if v.primaryVlan = 1 then "pvid".toList else "N/A".toList,
      if v.defaultPCP = -1 then "N/A".toList else fmtInt v.defaultPCP]
  | false => ["0x".toList ++ hexDigits 2 (bandWidth (c.radio s.1) s.1)]

/-- The fields of line `n`, which shows an entry under a class. -/
def MeshConf.fields (r2 : Bool) (c : MeshConf) (s : Slot) (cls : Str) (n : Nat) : List Str :=
  let e := c.entry s
  let b := c.bss s
  [fmtNat n ++ ',' :: fmtMac ((scanMac (text (c.radio s.1).alMAC)).getD []), cls, e.ssid.getD [],
    "0x".toList ++ hexDigits 4 (e.auth.getD 0), "0x".toList ++ hexDigits 4 (e.encryption.getD 0),
    e.shownKey, fmtNat (flagByte b.backHaul), fmtNat (flagByte b.frontHaul),
    convertHiddenString (flagByte e.hideSSID)] ++ c.lastFields s r2

/-- The lines of some entries, each with its class. -/
def MeshConf.shownAs (c : MeshConf) (l : List Slot) : List (Slot × Str) :=
  l.flatMap fun s => (c.classes s.1).map (s, ·)

/-- The fields of the lines of some entries, numbered from 1. -/
def MeshConf.lines (r2 : Bool) (c : MeshConf) (l : List Slot) : List (List Str) :=
  ((c.shownAs l).zipIdx 1).map fun p => c.fields r2 p.1.1 p.1.2 p.2

/-- The fields of all lines the file should have. -/
def bssLines (r2 : Bool) (c : MeshConf) : List (List Str) :=
  c.lines r2 (slots.filter (c.Shown ·))

/-- The fields of the lines of a file: lines are cut at blanks without a backslash. -/
def readBssFile (content : Str) : List (List Str) :=
  (content.splitOn '\n').dropLast.map (splitFields ' ' '\\')

/-- The file shows the entries it should show. -/
def Right (r2 : Bool) (c : MeshConf) : Prop :=
  ∃ content, bssFile r2 c = .ok (some content) ∧ readBssFile content = bssLines r2 c

/-! ## Names of interfaces -/

theorem scanIface_digits (name : Str) (k idx : Nat) :
    scanIface name (name ++ fmtNat k) idx = .error .overrun := by
  rw [scanIface, if_pos (List.isPrefixOf_iff_prefix.mpr (List.prefix_append name _)),
    List.drop_left, scanD_digits (fun c hc => isDigit_of_mem_fmtNat hc) (fmtNat_ne_nil k)]

theorem not_hasStr_rai (k : Nat) : hasStr ("ra".toList ++ fmtNat k) "rai".toList = false := by
  rw [Bool.eq_false_iff, ne_eq, hasStr_iff]
  intro h
  have hmem : 'i' ∈ "ra".toList ++ fmtNat k := h.subset (by decide)
  rcases List.mem_append.mp hmem with hr | hd
  · exact absurd hr (by decide)
  · exact absurd (isDigit_of_mem_fmtNat hd) (by decide)

/-- **The number of an interface does not fit the byte it is stored in.** -/
theorem insertToken_ifaceName (st : Word × Word × Nat) (s : Slot) :
    insertToken st (ifaceName s) = .error .overrun := by
  obtain ⟨r, k⟩ := s
  cases r with
  | radio2G =>
    have hra : hasStr ("ra".toList ++ fmtNat k) "ra".toList = true :=
      hasStr_iff.mpr (List.prefix_append _ _).isInfix
    rw [insertToken, ifaceName, if_neg (Bool.eq_false_iff.mp (not_hasStr_rai k)),
      if_pos hra, scanIface_digits]
    rfl
  | radio5GL =>
    have hrai : hasStr ("rai".toList ++ fmtNat k) "rai".toList = true :=
      hasStr_iff.mpr (List.prefix_append _ _).isInfix
    rw [insertToken, ifaceName, if_pos hrai, scanIface_digits]
    rfl

variable {c : MeshConf} {r2 : Bool}

theorem ValidConf.itemsRead (hc : ValidConf c) :
    strtokAll ';' ((text c.nonMapIface).take 64) = c.items := by
  have hlen := hc.nonMapIface
  rw [MeshConf.items, text, attrText_getD, snprintf_eq (by omega), List.take_of_length_le hlen]

theorem insertNonMapIfaceIDX_eq (hc : ValidConf c) :
    insertNonMapIfaceIDX ((text c.nonMapIface).take 64) =
      if c.items = [] then .ok (0, 0, 0) else .error .overrun := by
  rw [insertNonMapIfaceIDX, hc.itemsRead]
  cases hi : c.items with
  | nil => rfl
  | cons item items =>
    obtain ⟨s, -, rfl⟩ := hc.items item (hi ▸ List.mem_cons_self)
    rw [List.foldlM_cons, insertToken_ifaceName]
    rfl

/-! ## The loader -/

/-- The row of an entry. -/
def ownRow (r2 : Bool) (c : MeshConf) (s : Slot) : BssInfo where
  alMac := (scanMac (text (c.radio s.1).alMAC)).getD []
  operClass := operClass (c.radio s.1) s.1
  ssid := (c.entry s).ssid.getD []
  authMode := (c.entry s).auth.getD 0
  encryptType := (c.entry s).encryption.getD 0
  key := (c.entry s).shownKey
  frontHaul := flagByte (c.bss s).frontHaul
  backHaul := flagByte (c.bss s).backHaul
  hiddenSsid := flagByte (c.entry s).hideSSID
  bandWidth := bandWidth (c.radio s.1) s.1
  vlan := if r2 then some (vlanInfo (c.bss s)) else none

/-- An entry that takes a row of the array. -/
def MeshConf.Loaded (c : MeshConf) (s : Slot) : Prop := c.InUse s ∧ (c.entry s).ssid.isSome = true

instance (c : MeshConf) (s : Slot) : Decidable (c.Loaded s) :=
  inferInstanceAs (Decidable (_ ∧ _))

/-- The entry of row `i` of the configuration; there is no entry 0. -/
def slotOf (i : Nat) : Option Slot :=
  match i % maxRadioBssInfoNum with
  | 0 => none
  | k + 1 => (radioOf i).map (·, k)

theorem slots_eq : (List.range maxBssInfoNum).filterMap slotOf = slots := by decide

/-- The row that row `i` of the configuration gives. -/
def rowAt (r2 : Bool) (c : MeshConf) (i : Nat) : Option BssInfo :=
  (slotOf i).bind fun s => if c.Loaded s then some (ownRow r2 c s) else none

theorem ValidConf.text_ssid (hc : ValidConf c) (s : Slot) :
    snprintf 65 (text (c.entry s).ssid) = (c.entry s).ssid.getD [] := by
  cases h : (c.entry s).ssid with
  | none => rfl
  | some t =>
    have hlen := (hc.ssid s t h).1
    rw [text, attrText_getD, Option.getD_some, snprintf_eq (by omega : t.length < 128),
      snprintf_eq (by omega)]

theorem ValidConf.text_key (hc : ValidConf c) (s : Slot) :
    snprintf 129 (text (c.entry s).wpapsk) = (c.entry s).wpapsk.getD [] := by
  cases h : (c.entry s).wpapsk with
  | none => rfl
  | some t =>
    have hlen := (hc.key s t h).1
    rw [text, attrText_getD, Option.getD_some, snprintf_eq (by omega : t.length < 128),
      snprintf_eq (by omega)]

theorem nonMapped_zero (r : Radio) (i : Nat) : nonMapped (0, 0, 0) r i = false := by
  cases r <;> exact BitVec.getLsbD_zero

theorem wlanEntry_zero (rc : RadioConf) : rc.wlanEntry 0 = {} := by
  rw [RadioConf.wlanEntry]
  split <;> rfl

theorem rowAt_zero {i : Nat} (hi : i % maxRadioBssInfoNum = 0) : rowAt r2 c i = none := by
  rw [rowAt, slotOf, hi]
  rfl

theorem rowAt_succ {i k : Nat} {r : Radio} (hr : radioOf i = some r)
    (hi : i % maxRadioBssInfoNum = k + 1) :
    rowAt r2 c i = if c.Loaded (r, k) then some (ownRow r2 c (r, k)) else none := by
  rw [rowAt, slotOf, hi, hr]
  rfl

/-- The row of an entry, as the loop fills it in. -/
theorem ownRow_eq (hc : ValidConf c) {r : Radio} {k auth enc : Nat} {mac : List UInt8}
    (hon : (c.radio r).SwitchedOn) (hmac : scanMac (text (c.radio r).alMAC) = some mac)
    (hauth : (c.entry (r, k)).auth = some auth) (henc : (c.entry (r, k)).encryption = some enc) :
    ownRow r2 c (r, k) =
      { alMac := mac
        operClass := operClass (c.radio r) r
        ssid := snprintf 65 (text (c.entry (r, k)).ssid)
        authMode := auth
        encryptType := enc
        key := if auth = authmodeOpen then bssinfoDefKey
          else snprintf 129 (text (c.entry (r, k)).wpapsk)
        frontHaul := flagByte ((c.radio r).bssEntry (k + 1)).frontHaul
        backHaul := flagByte ((c.radio r).bssEntry (k + 1)).backHaul
        hiddenSsid := flagByte (c.entry (r, k)).hideSSID
        bandWidth := bandWidth (c.radio r) r
        vlan := if r2 then some (vlanInfo ((c.radio r).bssEntry (k + 1))) else none } := by
  have hb : (c.radio r).bssEntry (k + 1) = c.bss (r, k) := if_pos hon
  rw [ownRow, hmac, hauth, henc, hc.text_ssid, hc.text_key, hb, WlanEntry.shownKey, hauth]
  simp only [Option.getD_some, Option.some_inj]

/-- What the body of the loop does with an entry. -/
theorem loadRow_spec (r2 : Bool) (hc : ValidConf c) (hitems : c.items = []) {i : Nat} {r : Radio}
    (hr : radioOf i = some r) {row : BssInfo} (hrow : row.ssid = []) :
    (∃ row', loadRow r2 c (0, 0, 0) i row = .skip row' ∧ row'.ssid = [] ∧ rowAt r2 c i = none) ∨
      ∃ row', loadRow r2 c (0, 0, 0) i row = .take row' ∧ rowAt r2 c i = some row' := by
  simp only [loadRow, hr, nonMapped_zero, Bool.false_eq_true, if_false]
  cases hi : i % maxRadioBssInfoNum with
  | zero =>
    refine .inl ⟨row, ?_, hrow, rowAt_zero hi⟩
    rw [wlanEntry_zero, if_pos (.inl rfl)]
  | succ k =>
    rw [rowAt_succ hr hi]
    by_cases hon : (c.radio r).SwitchedOn
    · have he : (c.radio r).wlanEntry (k + 1) = c.entry (r, k) := if_pos hon
      have hmacAttr : (c.radio r).alMacAttr = (c.radio r).alMAC := if_pos hon
      obtain ⟨mac, hmac⟩ := Option.isSome_iff_exists.mp (hc.mac r)
      have hunlisted : ifaceName (r, k) ∉ c.items := by
        rw [hitems]
        exact List.not_mem_nil
      rw [he, hmacAttr, hmac]
      by_cases hen : atoi (text (c.entry (r, k)).enableSSID) = 0
      · refine .inl ⟨row, if_pos (.inr hen), hrow, if_neg fun h => h.1.2.1 hen⟩
      have hsome : (c.entry (r, k)).enableSSID ≠ none := fun h => hen (by rw [h]; rfl)
      rw [if_neg (not_or.mpr ⟨hsome, hen⟩)]
      by_cases hssid : (c.entry (r, k)).ssid = none
      · refine .inl ⟨row, if_pos hssid, hrow, if_neg fun h => ?_⟩
        rw [MeshConf.Loaded, hssid] at h
        exact absurd h.2 Bool.false_ne_true
      rw [if_neg hssid]
      cases hauth : convertAuthmodString (text (c.entry (r, k)).authMode) with
      | none =>
        refine .inl ⟨_, rfl, ?_, if_neg fun h => ?_⟩
        · rfl
        have h := h.1.2.2.2.1
        rw [WlanEntry.auth, hauth] at h
        exact absurd h Bool.false_ne_true
      | some auth =>
        have hencEq : (c.entry (r, k)).encryption = encryptType auth (c.entry (r, k)) := by
          rw [WlanEntry.encryption, WlanEntry.auth, hauth, encryptType]
          simp only [Option.some_inj]
        cases henc : encryptType auth (c.entry (r, k)) with
        | none =>
          simp only [henc]
          refine .inl ⟨_, rfl, ?_, if_neg fun h => ?_⟩
          · rfl
          have h := h.1.2.2.2.2
          rw [hencEq, henc] at h
          exact absurd h Bool.false_ne_true
        | some enc =>
          simp only [henc]
          rw [henc] at hencEq
          have hloaded : c.Loaded (r, k) :=
            ⟨⟨hon, hen, hunlisted, by rw [WlanEntry.auth, hauth]; rfl, by rw [hencEq]; rfl⟩,
              Option.isSome_iff_ne_none.mpr hssid⟩
          refine .inr ⟨_, rfl, ?_⟩
          rw [if_pos hloaded, ownRow_eq hc hon hmac hauth hencEq]
    · have he : (c.radio r).wlanEntry (k + 1) = {} := if_neg hon
      refine .inl ⟨row, ?_, hrow, if_neg fun h => hon h.1.1⟩
      rw [he, if_pos (.inl rfl)]

/-- **The loader fills the rows of the array one after the other.** -/
theorem loadFrom_spec (r2 : Bool) (hc : ValidConf c) (hitems : c.items = []) {is : List Nat}
    (hr : ∀ i ∈ is, radioOf i ≠ none) (filled rest : List BssInfo) (hlen : is.length ≤ rest.length)
    (hrest : ∀ row ∈ rest, row.ssid = []) :
    ∃ l rest', loadFrom r2 c (0, 0, 0) is (filled ++ rest) filled.length = .ok l ∧ l.ret = 0 ∧
      l.info = filled ++ is.filterMap (rowAt r2 c) ++ rest' ∧ ∀ row ∈ rest', row.ssid = [] := by
  induction is generalizing filled rest with
  | nil => exact ⟨_, rest, rfl, rfl, by rw [List.filterMap_nil, List.append_nil], hrest⟩
  | cons i is ih =>
    cases rest with
    | nil => exact absurd hlen (Nat.not_succ_le_zero _)
    | cons row rest =>
      have hr' : ∀ i ∈ is, radioOf i ≠ none := fun i hi => hr i (List.mem_cons_of_mem _ hi)
      have hlen' : is.length ≤ rest.length := Nat.le_of_succ_le_succ hlen
      have hrest' : ∀ row ∈ rest, row.ssid = [] := fun x hx => hrest x (List.mem_cons_of_mem _ hx)
      obtain ⟨r, hri⟩ := Option.ne_none_iff_exists'.mp (hr i List.mem_cons_self)
      have hget : (filled ++ row :: rest)[filled.length]? = some row := by simp
      have hset : ∀ x, (filled ++ row :: rest).set filled.length x = filled ++ x :: rest := by simp
      rw [loadFrom, hget]
      rcases loadRow_spec r2 hc hitems hri (hrest row List.mem_cons_self) with
        ⟨row', hload, hrow', hat⟩ | ⟨row', hload, hat⟩
      · simp only [hload, hset]
        obtain ⟨l, rest', hl⟩ := ih hr' filled (row' :: rest) (Nat.le_succ_of_le hlen') (by
            intro x hx
            rcases List.mem_cons.mp hx with rfl | hx
            · exact hrow'
            · exact hrest' x hx)
        rw [List.filterMap_cons_none hat]
        exact ⟨l, rest', hl⟩
      · simp only [hload, hset]
        obtain ⟨l, rest', hl⟩ := ih hr' (filled ++ [row']) rest hlen' hrest'
        rw [List.filterMap_cons_some hat]
        refine ⟨l, rest', ?_⟩
        simpa using hl

/-- The entries that take a row. -/
def MeshConf.loaded (c : MeshConf) : List Slot := slots.filter (c.Loaded ·)

theorem filterMap_rowAt :
    (List.range maxBssInfoNum).filterMap (rowAt r2 c) = c.loaded.map (ownRow r2 c) := by
  have hguard : ∀ l : List Slot,
      l.filterMap (fun s => if c.Loaded s then some (ownRow r2 c s) else none) =
        (l.filter (c.Loaded ·)).map (ownRow r2 c) := fun l => by
    induction l with
    | nil => rfl
    | cons s l ih =>
      by_cases h : c.Loaded s
      · rw [List.filter_cons_of_pos (by simp [h]), List.map_cons, ← ih, List.filterMap_cons]
        simp only [if_pos h]
      · rw [List.filter_cons_of_neg (by simp [h]), ← ih, List.filterMap_cons]
        simp only [if_neg h]
  rw [MeshConf.loaded, ← hguard, ← slots_eq, List.filterMap_filterMap]
  rfl

theorem loadWtsBssInfo_spec (r2 : Bool) (hc : ValidConf c) (hitems : c.items = []) :
    ∃ l rest, loadWtsBssInfo r2 c (List.replicate maxBssInfoNum (zeroRow r2)) maxBssInfoNum =
      .ok l ∧ l.ret = 0 ∧ l.info = c.loaded.map (ownRow r2 c) ++ rest ∧
        ∀ row ∈ rest, row.ssid = [] := by
  have hradio : ∀ i ∈ List.range maxBssInfoNum, radioOf i ≠ none := by decide
  have hblank : ∀ row ∈ List.replicate maxBssInfoNum (zeroRow r2), row.ssid = [] := by
    intro row hrow
    rw [List.eq_of_mem_replicate hrow]
    rfl
  obtain ⟨l, rest, hl⟩ := loadFrom_spec r2 hc hitems hradio [] _
    (by rw [List.length_range, List.length_replicate]) hblank
  rw [List.nil_append, List.nil_append, filterMap_rowAt] at hl
  refine ⟨l, rest, ?_, hl.2⟩
  rw [loadWtsBssInfo, insertNonMapIfaceIDX_eq hc, if_pos hitems]
  exact hl.1

/-! ## The writer -/

/-- The row of an entry with its texts escaped. -/
def escapedRow (row : BssInfo) : BssInfo :=
  { row with
    ssid := ssidTransferForSpaceBackslash row.ssid
    key := ssidTransferForSpaceBackslash row.key }

/-- A row with the classes of its lines. -/
def rowItems (row : BssInfo) : List (BssInfo × Str) :=
  if row.backHaul = 1 ∨ row.frontHaul = 1 then (lineClasses row.operClass).map (row, ·) else []

/-- The lines of some rows, numbered from `j`. -/
def rowLines (rows : List BssInfo) (j : Nat) : List Str :=
  ((rows.flatMap rowItems).zipIdx j).map fun p => bssLine (escapedRow p.1.1) p.2 p.1.2

theorem escapeMember_ok {size : Nat} {s : Str} (h : 2 * s.length < size) (hsize : size ≤ 129) :
    escapeMember size s = .ok (ssidTransferForSpaceBackslash s) := by
  rw [escapeMember]
  split
  · have hlen := length_escapeBy (p := spaceOrBackslash) (e := '\\') s
    have hcount := List.countP_le_length (p := spaceOrBackslash) (l := s)
    refine if_pos ?_
    rw [ssidTransferForSpaceBackslash, hlen]
    omega
  · next hany =>
    rw [ssidTransferForSpaceBackslash, escapeBy_eq_self]
    intro ch hch
    rw [Bool.eq_false_iff]
    exact fun hsp => hany (List.any_eq_true.mpr ⟨ch, hch, hsp⟩)

theorem rowLines_cons (row : BssInfo) (rows : List BssInfo) (j : Nat) :
    rowLines (row :: rows) j =
      (rowItems row).zipIdx.map (fun p => bssLine (escapedRow p.1.1) (j + p.2) p.1.2) ++
        rowLines rows (j + (rowItems row).length) := by
  rw [rowLines, List.flatMap_cons, List.zipIdx_append, List.map_append, rowLines,
    List.zipIdx_eq_map_add (l := rowItems row), List.map_map]
  refine congrArg (· ++ _) (List.map_congr_left ?_)
  rintro ⟨x, i⟩ -
  rw [Function.comp_apply]

theorem fileText_append (a b : List Str) : fileText (a ++ b) = fileText a ++ fileText b :=
  List.flatMap_append

/-- **The writer writes the lines of the rows up to the first one without an SSID.** -/
theorem writeRows_spec {rows : List BssInfo}
    (hfit : ∀ row ∈ rows, row.ssid ≠ [] → row.ssid.length ≤ 32 ∧ row.key.length ≤ 63) (j : Nat) :
    writeRows rows j = .ok (fileText (rowLines (rows.takeWhile (·.ssid ≠ [])) j)) := by
  induction rows generalizing j with
  | nil => rfl
  | cons row rows ih =>
    have ih := ih fun x hx => hfit x (List.mem_cons_of_mem _ hx)
    by_cases hblank : row.ssid = []
    · rw [writeRows, if_pos hblank, List.takeWhile_cons_of_neg (by simp [hblank])]
      rfl
    · obtain ⟨hs, hk⟩ := hfit row List.mem_cons_self hblank
      rw [writeRows, if_neg hblank, escapeMember_ok (by omega) (by omega),
        escapeMember_ok (by omega) (by omega), List.takeWhile_cons_of_pos (by simp [hblank]),
        rowLines_cons, fileText_append, rowItems]
      show (if row.backHaul = 1 ∨ row.frontHaul = 1 then _ else writeRows rows j) = _
      by_cases hhaul : row.backHaul = 1 ∨ row.frontHaul = 1
      · simp only [if_pos hhaul, ih, List.length_map, List.zipIdx_map, List.map_map,
          Function.comp_def, Prod.map_fst, Prod.map_snd, id_eq]
        rfl
      · simp only [if_neg hhaul, ih, List.length_nil, List.zipIdx_nil, List.map_nil]
        rfl

end OnuFirmware.Mesh
