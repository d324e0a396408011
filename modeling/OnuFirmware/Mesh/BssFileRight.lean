import OnuFirmware.Clib.Inet
import OnuFirmware.Lib.Take
import OnuFirmware.Mesh.BssRows
import Mathlib.Data.List.TakeWhile

/-!
# When the BSS file shows the entries in use

The file is right if it has a line for each entry to be shown and its lines read back as the fields
of these entries. It is not if `NonMapIface` has an item, since `idx` is too small for what
`sscanf` stores; if an entry in use has an empty SSID, which ends the writer's loop, and one to be
shown comes after it; or if a line does not fit the buffer, which is long enough without
`TCSUPPORT_MAP_R2`.
-/

namespace OnuFirmware.Mesh

open Clib Cfg Lib

variable {c : MeshConf} {r2 : Bool}

/-! ## Plain fields -/

/-- Neither a blank nor a backslash nor a line break. -/
def plainChar (ch : Char) : Bool := !spaceOrBackslash ch && ch ≠ '\n'

def Plain (s : Str) : Prop := s.all plainChar = true

instance (s : Str) : Decidable (Plain s) := inferInstanceAs (Decidable (_ = true))

theorem Plain.append {a b : Str} (ha : Plain a) (hb : Plain b) : Plain (a ++ b) := by
  rw [Plain, List.all_append, Bool.and_eq_true]
  exact ⟨ha, hb⟩

theorem Plain.cons {ch : Char} {s : Str} (hch : plainChar ch = true) (hs : Plain s) :
    Plain (ch :: s) := by
  rw [Plain, List.all_cons, Bool.and_eq_true]
  exact ⟨hch, hs⟩

theorem Plain.noLineBreak {s : Str} (h : Plain s) : '\n' ∉ s := fun hmem =>
  absurd (List.all_eq_true.mp h _ hmem) (by decide)

theorem Plain.escape {s : Str} (h : Plain s) : escapeBy (isSpecial ' ' '\\') '\\' s = s := by
  refine escapeBy_eq_self fun ch hch => ?_
  have hp := List.all_eq_true.mp h ch hch
  rw [plainChar, Bool.and_eq_true, Bool.not_eq_true'] at hp
  exact hp.1

theorem plainChar_of_hexVal {ch : Char} (h : (hexVal ch).isSome = true) : plainChar ch = true := by
  by_contra hn
  simp only [plainChar, spaceOrBackslash, isSpecial, Bool.and_eq_true, Bool.not_eq_true',
    Bool.or_eq_false_iff, decide_eq_false_iff_not, decide_eq_true_eq, not_and_or, not_not] at hn
  rcases hn with (rfl | rfl) | rfl
  · exact absurd h (by decide)
  · exact absurd h (by decide)
  · exact absurd h (by decide)

theorem plain_fmtNat (n : Nat) : Plain (fmtNat n) :=
  List.all_eq_true.mpr fun _ hc =>
    plainChar_of_hexVal (hexVal_of_isDigit (isDigit_of_mem_fmtNat hc))

theorem plain_fmtInt (i : Int) : Plain (fmtInt i) := by
  rw [fmtInt]
  split
  · exact Plain.cons (by decide) (plain_fmtNat _)
  · exact plain_fmtNat _

theorem plain_hexDigits (n v : Nat) : Plain (hexDigits n v) := by
  refine List.all_eq_true.mpr fun ch hch => ?_
  rw [hexDigits, List.leftpad] at hch
  rcases List.mem_append.mp hch with h | h
  · rw [List.eq_of_mem_replicate h]
    decide
  · obtain ⟨d, hd⟩ := hexVal_of_mem_fmtHex h
    exact plainChar_of_hexVal (by rw [hd]; rfl)

theorem plain_fmtMac (mac : List UInt8) : Plain (fmtMac mac) := by
  refine List.all_eq_true.mpr fun ch hch => ?_
  rcases mem_intercalate hch with rfl | ⟨l, hl, hch⟩
  · decide
  · obtain ⟨b, -, rfl⟩ := List.mem_map.mp hl
    exact List.all_eq_true.mp (plain_hexDigits 2 b.toNat) ch hch

theorem plain_hidden (n : Nat) : Plain (convertHiddenString n) := by
  rw [convertHiddenString]
  split <;> decide

theorem mem_classes {r : Radio} {cls : Str} (h : cls ∈ c.classes r) :
    cls = "8x".toList ∨ cls = "11x".toList ∨ cls = "12x".toList := by
  cases r with
  | radio2G => exact .inl (List.mem_singleton.mp h)
  | radio5GL =>
    rw [MeshConf.classes] at h
    refine .inr ?_
    split at h
    · simpa only [List.mem_cons, List.not_mem_nil, or_false] using h
    · exact Or.symm (by simpa only [List.mem_cons, List.not_mem_nil, or_false] using h)

theorem plain_classes {r : Radio} {cls : Str} (h : cls ∈ c.classes r) : Plain cls := by
  rcases mem_classes h with rfl | rfl | rfl <;> decide

theorem plain_lastFields {s : Slot} {f : Str} (h : f ∈ c.lastFields s r2) : Plain f := by
  cases r2 with
  | false =>
    rw [MeshConf.lastFields, List.mem_singleton] at h
    rw [h]
    exact Plain.append (by decide) (plain_hexDigits _ _)
  | true =>
    simp only [MeshConf.lastFields, List.mem_cons, List.not_mem_nil, or_false] at h
    rcases h with rfl | rfl | rfl
    · exact plain_fmtNat _
    · split <;> decide
    · split
      · decide
      · exact plain_fmtInt _

/-- All fields but the SSID and the key are plain. -/
theorem mem_fields {s : Slot} {cls : Str} (hcls : cls ∈ c.classes s.1) {n : Nat} {f : Str}
    (h : f ∈ c.fields r2 s cls n) : Plain f ∨ f = (c.entry s).ssid.getD [] ∨
      f = (c.entry s).shownKey := by
  rw [MeshConf.fields] at h
  rcases List.mem_append.mp h with h | h
  · simp only [List.mem_cons, List.not_mem_nil, or_false] at h
    rcases h with rfl | rfl | rfl | rfl | rfl | rfl | rfl | rfl | rfl
    · exact .inl ((plain_fmtNat _).append (Plain.cons (by decide) (plain_fmtMac _)))
    · exact .inl (plain_classes hcls)
    · exact .inr (.inl rfl)
    · exact .inl (Plain.append (by decide) (plain_hexDigits _ _))
    · exact .inl (Plain.append (by decide) (plain_hexDigits _ _))
    · exact .inr (.inr rfl)
    · exact .inl (plain_fmtNat _)
    · exact .inl (plain_fmtNat _)
    · exact .inl (plain_hidden _)
  · exact .inl (plain_lastFields h)

theorem ValidConf.noLineBreak (hc : ValidConf c) {s : Slot} {cls : Str} (hcls : cls ∈ c.classes s.1)
    {n : Nat} {f : Str} (h : f ∈ c.fields r2 s cls n) : '\n' ∉ f := by
  rcases mem_fields hcls h with h | rfl | rfl
  · exact h.noLineBreak
  · cases ht : (c.entry s).ssid with
    | none => exact List.not_mem_nil
    | some t => exact (hc.ssid s t ht).2
  · rw [WlanEntry.shownKey]
    split
    · decide
    · cases ht : (c.entry s).wpapsk with
      | none => exact List.not_mem_nil
      | some t => exact (hc.key s t ht).2

/-! ## Lines -/

theorem snprintf_short (n : Int) :
    snprintf 10 (fmtInt (shortOfInt n)) = fmtInt (shortOfInt n) := by
  have hlo := BitVec.le_toInt (BitVec.ofInt 16 n)
  have hhi := BitVec.toInt_lt (x := BitVec.ofInt 16 n)
  refine snprintf_eq ?_
  rw [fmtInt]
  split
  · have h : (fmtNat (shortOfInt n).natAbs).length ≤ 5 :=
      (length_fmtNat_le (by decide)).mpr (by rw [shortOfInt]; omega)
    rw [List.length_cons]
    omega
  · have h : (fmtNat (shortOfInt n).natAbs).length ≤ 5 :=
      (length_fmtNat_le (by decide)).mpr (by rw [shortOfInt]; omega)
    omega

theorem snprintf_defaultPCP (b : BssEntry) :
    snprintf 10 (fmtInt (vlanInfo b).defaultPCP) = fmtInt (vlanInfo b).defaultPCP := by
  simp only [vlanInfo]
  split
  · rfl
  · exact snprintf_short _

/-- A line is the beginning of its fields, joined. -/
theorem bssLine_eq {s : Slot} {cls : Str} (hcls : cls ∈ c.classes s.1) (n : Nat) :
    bssLine (escapedRow (ownRow r2 c s)) n cls =
      (joinFields ' ' '\\' (c.fields r2 s cls n)).take 255 := by
  have hlast : ∀ f ∈ c.lastFields s r2, escapeBy (isSpecial ' ' '\\') '\\' f = f :=
    fun f hf => (plain_lastFields hf).escape
  have hfirst := ((plain_fmtNat n).append (Plain.cons (by decide : plainChar ',' = true)
    (plain_fmtMac ((scanMac (text (c.radio s.1).alMAC)).getD [])))).escape
  have hhex : ∀ v, escapeBy (isSpecial ' ' '\\') '\\' ("0x".toList ++ hexDigits 4 v) =
      "0x".toList ++ hexDigits 4 v := fun v =>
    (Plain.append (by decide) (plain_hexDigits 4 v)).escape
  have h0x : " 0x".toList = ' ' :: "0x".toList := rfl
  rw [bssLine, snprintf, MeshConf.fields]
  refine congrArg (List.take 255) ?_
  cases r2 with
  | false =>
    rw [MeshConf.lastFields] at hlast
    simp only [MeshConf.lastFields, List.cons_append, List.nil_append, joinFields, hfirst, hhex,
      (plain_classes hcls).escape, (plain_fmtNat _).escape, (plain_hidden _).escape,
      hlast _ List.mem_cons_self]
    simp only [escapedRow, ownRow, lineTail, Bool.false_eq_true, if_false, h0x, List.append_assoc,
      List.cons_append]
    rfl
  | true =>
    rw [MeshConf.lastFields] at hlast
    simp only [List.mem_cons, List.not_mem_nil, or_false, forall_eq_or_imp, forall_eq] at hlast
    simp only [MeshConf.lastFields, List.cons_append, List.nil_append, joinFields, hfirst, hhex,
      (plain_classes hcls).escape, (plain_fmtNat _).escape, (plain_hidden _).escape, hlast]
    simp only [escapedRow, ownRow, lineTail, if_true, h0x, snprintf_defaultPCP, List.append_assoc,
      List.cons_append]
    rfl

theorem lineClasses_operClass (r : Radio) :
    lineClasses (operClass (c.radio r) r) = c.classes r := by
  cases r with
  | radio2G => rfl
  | radio5GL =>
    rw [operClass, MeshConf.classes]
    show lineClasses (if atoi (text c.wlan11ac.channel) < 100 then _ else _) = _
    split <;> rfl

theorem rowItems_ownRow (s : Slot) : rowItems (ownRow r2 c s) =
    if c.Haul s then (c.classes s.1).map (ownRow r2 c s, ·) else [] := by
  rw [rowItems, ← lineClasses_operClass]
  by_cases h : c.Haul s
  · rw [if_pos h]
    exact if_pos (Or.symm h)
  · rw [if_neg h]
    exact if_neg fun hh => h (Or.symm hh)

/-- The lines of the rows of some entries are those of their fields. -/
theorem rowLines_ownRow (l : List Slot) : rowLines (l.map (ownRow r2 c)) 1 =
    (c.lines r2 (l.filter (c.Haul ·))).map fun fs => (joinFields ' ' '\\' fs).take 255 := by
  have hitems : (l.map (ownRow r2 c)).flatMap rowItems =
      (c.shownAs (l.filter (c.Haul ·))).map fun p => (ownRow r2 c p.1, p.2) := by
    induction l with
    | nil => rfl
    | cons s l ih =>
      rw [List.map_cons, List.flatMap_cons, ih, rowItems_ownRow]
      by_cases h : c.Haul s
      · rw [if_pos h, List.filter_cons_of_pos (by simp [h])]
        refine Eq.trans ?_ List.map_append.symm
        rw [List.map_map]
        rfl
      · rw [if_neg h, List.filter_cons_of_neg (by simp [h]), List.nil_append]
  rw [rowLines, hitems, List.zipIdx_map, List.map_map, MeshConf.lines, List.map_map]
  refine List.map_congr_left fun p hp => ?_
  obtain ⟨s, -, hs⟩ := List.mem_flatMap.mp (List.fst_mem_of_mem_zipIdx hp)
  obtain ⟨cls, hcls, hpcls⟩ := List.mem_map.mp hs
  obtain ⟨⟨s', cls'⟩, n⟩ := p
  obtain ⟨rfl, rfl⟩ := Prod.mk.inj hpcls
  rw [Function.comp_apply, Function.comp_apply]
  exact bssLine_eq hcls n

/-! ## The file -/

/-- The SSID of an entry is not empty. -/
def MeshConf.named (c : MeshConf) (s : Slot) : Bool := (c.entry s).ssid.getD [] ≠ []

/-- The entries whose lines are written: the writer stops at the first one without a name. -/
def MeshConf.written (c : MeshConf) : List Slot :=
  (c.loaded.takeWhile c.named).filter (c.Haul ·)

/-- The entries behind that are to be shown as well. -/
def MeshConf.lost (c : MeshConf) : List Slot := (c.loaded.dropWhile c.named).filter (c.Shown ·)

theorem ValidConf.length_ssid_le (hc : ValidConf c) (s : Slot) :
    ((c.entry s).ssid.getD []).length ≤ 32 := by
  cases ht : (c.entry s).ssid with
  | none => exact Nat.zero_le _
  | some t => exact (hc.ssid s t ht).1

theorem ValidConf.length_key_le (hc : ValidConf c) (s : Slot) :
    (c.entry s).shownKey.length ≤ 63 := by
  rw [WlanEntry.shownKey]
  split
  · decide
  · cases ht : (c.entry s).wpapsk with
    | none => exact Nat.zero_le _
    | some t => exact (hc.key s t ht).1

/-- **What the file has.** -/
theorem bssFile_spec (hc : ValidConf c) (hitems : c.items = []) :
    bssFile r2 c = .ok (some (fileText ((c.lines r2 c.written).map fun fs =>
      (joinFields ' ' '\\' fs).take 255))) := by
  obtain ⟨l, rest, hl, hret, hinfo, hrest⟩ := loadWtsBssInfo_spec r2 hc hitems
  have hfit : ∀ row ∈ l.info, row.ssid ≠ [] → row.ssid.length ≤ 32 ∧ row.key.length ≤ 63 := by
    intro row hrow hne
    rw [hinfo] at hrow
    rcases List.mem_append.mp hrow with h | h
    · obtain ⟨s, -, rfl⟩ := List.mem_map.mp h
      exact ⟨hc.length_ssid_le s, hc.length_key_le s⟩
    · exact absurd (hrest row h) hne
  have htake : l.info.takeWhile (·.ssid ≠ []) =
      (c.loaded.takeWhile c.named).map (ownRow r2 c) := by
    rw [hinfo, takeWhile_append_of_neg fun row hrow => by simp [hrest row hrow],
      List.takeWhile_map]
    rfl
  rw [bssFile, hl]
  show (if l.ret = 0 then some <$> writeFileMeshWtsBssInfoConfig l.info else _) = _
  rw [if_pos hret, writeFileMeshWtsBssInfoConfig, writeRows_spec hfit, htake, rowLines_ownRow]
  rfl

theorem bssFile_listed (hc : ValidConf c) (hitems : c.items ≠ []) :
    bssFile r2 c = .error .overrun := by
  rw [bssFile, loadWtsBssInfo, insertNonMapIfaceIDX_eq hc, if_neg hitems]
  rfl

theorem readBssFile_fileText {ls : List Str} (h : ∀ l ∈ ls, '\n' ∉ l) :
    readBssFile (fileText ls) = ls.map (splitFields ' ' '\\') := by
  have hsplit : (fileText ls).splitOn '\n' = ls ++ [[]] := by
    induction ls with
    | nil => rfl
    | cons l ls ih =>
      have ih := ih fun x hx => h x (List.mem_cons_of_mem _ hx)
      rw [fileText, List.flatMap_cons, List.append_assoc, List.singleton_append,
        List.splitOn_append_cons_self_of_not_mem (h l List.mem_cons_self)]
      exact congrArg (l :: ·) ih
  rw [readBssFile, hsplit, List.dropLast_concat]

theorem shownAs_append (a b : List Slot) : c.shownAs (a ++ b) = c.shownAs a ++ c.shownAs b :=
  List.flatMap_append

theorem length_lines (l : List Slot) : (c.lines r2 l).length = (c.shownAs l).length := by
  rw [MeshConf.lines, List.length_map, List.length_zipIdx]

theorem shownAs_eq_nil_iff (l : List Slot) : c.shownAs l = [] ↔ l = [] := by
  have hclasses : ∀ r, c.classes r ≠ [] := fun r => by
    cases r with
    | radio2G => exact List.cons_ne_nil _ _
    | radio5GL =>
      rw [MeshConf.classes]
      split <;> exact List.cons_ne_nil _ _
  cases l with
  | nil => exact iff_of_true rfl rfl
  | cons s l =>
    refine iff_of_false (fun h => ?_) (List.cons_ne_nil s l)
    have h := (List.append_eq_nil_iff.mp h).1
    exact hclasses s.1 (List.map_eq_nil_iff.mp h)

theorem MeshConf.Shown.loaded {s : Slot} (h : c.Shown s) : c.Loaded s := by
  refine ⟨h.1, ?_⟩
  cases ht : (c.entry s).ssid with
  | none => exact absurd (by rw [ht]; rfl) h.2.1
  | some t => rfl

theorem shown_eq_written_append_lost :
    slots.filter (c.Shown ·) = c.written ++ c.lost := by
  have hloaded : slots.filter (c.Shown ·) = c.loaded.filter (c.Shown ·) := by
    rw [MeshConf.loaded, List.filter_filter]
    refine List.filter_congr fun s _ => ?_
    by_cases h : c.Shown s
    · simp [h, h.loaded]
    · simp [h]
  rw [hloaded, ← List.takeWhile_append_dropWhile (p := c.named) (l := c.loaded),
    List.filter_append, MeshConf.written, MeshConf.lost]
  congr 1
  refine List.filter_congr fun s hs => ?_
  have hnamed : c.named s = true := List.mem_takeWhile_imp hs
  have hin : c.Loaded s := by
    simpa using (List.mem_filter.mp ((List.takeWhile_sublist _).subset hs)).2
  have hiff : c.Shown s ↔ c.Haul s :=
    ⟨fun h => h.2.2, fun h => ⟨hin.1, by simpa [MeshConf.named] using hnamed, h⟩⟩
  simp [hiff]

/-- Nothing is lost if no entry to be shown comes after a blank one. -/
theorem lost_eq_nil_iff : c.lost = [] ↔ slots.Pairwise fun s t => c.Blank s → ¬ c.Shown t := by
  have hnamed : ∀ s, decide (c.Shown s) = true → c.named s = true := fun s h =>
    decide_eq_true (of_decide_eq_true h).2.1
  rw [MeshConf.lost, filter_dropWhile_eq_nil_iff hnamed, MeshConf.loaded, List.pairwise_filter]
  refine List.Pairwise.iff fun s t => ?_
  simp only [decide_eq_true_eq, decide_eq_false_iff_not, MeshConf.named, ne_eq, not_not]
  constructor
  · intro h hblank hshown
    have hs : c.Loaded s := ⟨hblank.1, by rw [hblank.2]; rfl⟩
    exact h hs hshown.loaded (by rw [hblank.2]; rfl) hshown
  · intro h hs _ hempty
    refine h ⟨hs.1, ?_⟩
    obtain ⟨t', ht'⟩ := Option.isSome_iff_exists.mp hs.2
    rw [ht', Option.getD_some] at hempty
    rw [ht', hempty]

/-- The records of the lines of some entries. -/
theorem mem_lines {l : List Slot} {fs : List Str} (h : fs ∈ c.lines r2 l) :
    ∃ s cls n, cls ∈ c.classes s.1 ∧ n ≤ (c.shownAs l).length ∧ fs = c.fields r2 s cls n := by
  obtain ⟨⟨⟨s, cls⟩, n⟩, hp, rfl⟩ := List.mem_map.mp h
  obtain ⟨s', -, hs'⟩ := List.mem_flatMap.mp (List.fst_mem_of_mem_zipIdx hp)
  obtain ⟨cls', hcls', heq⟩ := List.mem_map.mp hs'
  obtain ⟨rfl, rfl⟩ := Prod.mk.inj heq
  have hn := List.snd_lt_add_of_mem_zipIdx hp
  exact ⟨s', cls', n, hcls', by omega, rfl⟩

/-- What is read from the lines that are written. -/
theorem readBssFile_lines (hc : ValidConf c) (l : List Slot) :
    readBssFile (fileText ((c.lines r2 l).map fun fs => (joinFields ' ' '\\' fs).take 255)) =
      (c.lines r2 l).map fun fs => splitFields ' ' '\\' ((joinFields ' ' '\\' fs).take 255) := by
  have hbreak : ∀ line ∈ (c.lines r2 l).map fun fs => (joinFields ' ' '\\' fs).take 255,
      '\n' ∉ line := by
    intro line hline hn
    obtain ⟨fs, hfs, rfl⟩ := List.mem_map.mp hline
    obtain ⟨s, cls, n, hcls, -, rfl⟩ := mem_lines hfs
    rcases mem_joinFields (List.mem_of_mem_take hn) with h | h | ⟨f, hf, h⟩
    · exact absurd h (by decide)
    · exact absurd h (by decide)
    · exact hc.noLineBreak hcls hf h
  rw [readBssFile_fileText hbreak, List.map_map]
  rfl

/-- **The fields that are written are read back exactly if every line fits the buffer.** -/
theorem readBssFile_eq_lines_iff (hc : ValidConf c) (l : List Slot) :
    readBssFile (fileText ((c.lines r2 l).map fun fs => (joinFields ' ' '\\' fs).take 255)) =
      c.lines r2 l ↔ ∀ fs ∈ c.lines r2 l, (joinFields ' ' '\\' fs).length ≤ 255 := by
  rw [readBssFile_lines hc]
  nth_rewrite 2 [← List.map_id (c.lines r2 l)]
  rw [List.map_inj_left]
  refine forall₂_congr fun fs hfs => ?_
  obtain ⟨s, cls, n, -, -, rfl⟩ := mem_lines hfs
  exact splitFields_take_iff (by decide) (List.cons_ne_nil _ _) 255

/-! ## Lines that fit the buffer -/

theorem Plain.countP {s : Str} (h : Plain s) : s.countP (isSpecial ' ' '\\') = 0 := by
  have hlen := length_escapeBy (p := isSpecial ' ' '\\') (e := '\\') s
  rw [h.escape] at hlen
  omega

theorem convertAuthmodString_le {s : Str} {a : Nat} (h : convertAuthmodString s = some a) :
    a ≤ 0x60 := by
  unfold convertAuthmodString at h
  split_ifs at h <;> · obtain rfl := Option.some.inj h; decide

theorem auth_le (e : WlanEntry) : e.auth.getD 0 ≤ 0x60 := by
  cases h : e.auth with
  | none => exact Nat.zero_le _
  | some a => exact convertAuthmodString_le h

theorem encryption_le (e : WlanEntry) : e.encryption.getD 0 ≤ 0xc := by
  cases h : e.encryption with
  | none => exact Nat.zero_le _
  | some a =>
    unfold WlanEntry.encryption convertEncryptypeString at h
    split_ifs at h <;> · obtain rfl := Option.some.inj h; decide

theorem bandWidth_le (rc : RadioConf) (r : Radio) : bandWidth rc r ≤ 0xe := by
  cases r with
  | radio2G =>
    rw [bandWidth, convertBandwidth24G]
    split_ifs <;> decide
  | radio5GL =>
    rw [bandWidth, convertBandwidth5G]
    split_ifs <;> decide

theorem length_hexDigits_le {n v : Nat} (hn : 0 < n) (hv : v < 16 ^ n) :
    (hexDigits n v).length ≤ n := by
  have h := (length_fmtHex_le hn).mpr hv
  rw [hexDigits, List.length_leftpad]
  omega

theorem length_scanBytes {n : Nat} {s : Str} {l : List UInt8} (h : scanBytes n s = some l) :
    l.length = n + 1 := by
  induction n generalizing s l with
  | zero =>
    obtain ⟨p, -, rfl⟩ := Option.map_eq_some_iff.mp h
    rfl
  | succ n ih =>
    rw [scanBytes] at h
    split at h
    · obtain ⟨l', hl', rfl⟩ := Option.map_eq_some_iff.mp h
      rw [List.length_cons, ih hl']
    · cases h

theorem ValidConf.length_mac_le (hc : ValidConf c) (r : Radio) :
    (fmtMac ((scanMac (text (c.radio r).alMAC)).getD [])).length ≤ 17 := by
  obtain ⟨mac, hmac⟩ := Option.isSome_iff_exists.mp (hc.mac r)
  have hlen := length_scanBytes hmac
  rw [hmac, Option.getD_some, fmtMac]
  have h := @length_intercalate_le Char ':' 2 (mac.map fun b => hexDigits 2 b.toNat) (by
      intro hnil
      rw [List.map_eq_nil_iff.mp hnil] at hlen
      exact absurd hlen (by decide)) (by
      intro l hl
      obtain ⟨b, -, rfl⟩ := List.mem_map.mp hl
      exact length_hexDigits_le (by decide) b.toNat_lt)
  rw [List.length_map, hlen] at h
  omega

theorem length_fmtNat_flagByte_le (attr : Option Str) : (fmtNat (flagByte attr)).length ≤ 3 :=
  (length_fmtNat_le (by decide)).mpr (by rw [flagByte]; omega)

theorem length_shownAs_le (l : List Slot) : (c.shownAs l).length ≤ 2 * l.length := by
  induction l with
  | nil => exact Nat.le_refl 0
  | cons s l ih =>
    have hclasses : (c.classes s.1).length ≤ 2 := by
      rcases s with ⟨_ | _, k⟩
      · exact Nat.le_succ 1
      · show (if _ then _ else _ : List Str).length ≤ 2
        split <;> exact Nat.le_refl 2
    rw [← List.singleton_append, shownAs_append, List.length_append, List.length_append]
    have hone : (c.shownAs [s]).length ≤ 2 := by
      rw [MeshConf.shownAs, List.flatMap_singleton, List.length_map]
      exact hclasses
    rw [List.length_singleton]
    omega

/-- **Without `TCSUPPORT_MAP_R2` every line fits the buffer.** -/
theorem length_line_le (hc : ValidConf c) {fs : List Str} (h : fs ∈ bssLines false c) :
    (joinFields ' ' '\\' fs).length ≤ 255 := by
  obtain ⟨s, cls, n, hcls, hn, rfl⟩ := mem_lines h
  have hslots : (slots.filter (c.Shown ·)).length ≤ 30 :=
    (List.length_filter_le _ _).trans (by decide)
  have hcount := length_shownAs_le (c := c) (slots.filter (c.Shown ·))
  have hnum : (fmtNat n).length ≤ 2 := (length_fmtNat_le (by decide)).mpr (by omega)
  have hmac := hc.length_mac_le s.1
  have hclass : cls.length ≤ 3 := by rcases mem_classes hcls with rfl | rfl | rfl <;> decide
  have hauth := length_hexDigits_le (n := 4) (by decide)
    (lt_of_le_of_lt (auth_le (c.entry s)) (by decide))
  have henc := length_hexDigits_le (n := 4) (by decide)
    (lt_of_le_of_lt (encryption_le (c.entry s)) (by decide))
  have hbw := length_hexDigits_le (n := 2) (by decide)
    (lt_of_le_of_lt (bandWidth_le (c.radio s.1) s.1) (by decide))
  have hback := length_fmtNat_flagByte_le (c.bss s).backHaul
  have hfront := length_fmtNat_flagByte_le (c.bss s).frontHaul
  have hhidden : (convertHiddenString (flagByte (c.entry s).hideSSID)).length = 8 := by
    rw [convertHiddenString]
    split <;> rfl
  have hssid := hc.length_ssid_le s
  have hkey := hc.length_key_le s
  have hssidMarks := List.countP_le_length (p := isSpecial ' ' '\\')
    (l := (c.entry s).ssid.getD [])
  have hkeyMarks := List.countP_le_length (p := isSpecial ' ' '\\') (l := (c.entry s).shownKey)
  have hfirst := ((plain_fmtNat n).append (Plain.cons (by decide : plainChar ',' = true)
    (plain_fmtMac ((scanMac (text (c.radio s.1).alMAC)).getD [])))).countP
  have hhex : ∀ k v, ("0x".toList ++ hexDigits k v).countP (isSpecial ' ' '\\') = 0 :=
    fun k v => (Plain.append (by decide) (plain_hexDigits k v)).countP
  have h0x : "0x".toList.length = 2 := rfl
  have hne : c.fields false s cls n ≠ [] := List.cons_ne_nil _ _
  have hlen := length_joinFields (s := ' ') (e := '\\') hne
  simp only [MeshConf.fields, MeshConf.lastFields, List.cons_append, List.nil_append,
    List.map_cons, List.map_nil, List.sum_cons, List.sum_nil, hfirst, hhex,
    (plain_classes hcls).countP, (plain_fmtNat _).countP, (plain_hidden _).countP] at hlen
  simp only [MeshConf.fields, MeshConf.lastFields, List.cons_append, List.nil_append]
  simp only [List.length_append, List.length_cons, h0x] at hlen
  omega

/-- **The file shows the entries it should show exactly if `NonMapIface` has no item, no entry to
be shown comes after a blank one, and no line is longer than 255 bytes.** -/
theorem right_iff (r2 : Bool) (c : MeshConf) (hc : ValidConf c) :
    Right r2 c ↔ c.items = [] ∧ (slots.Pairwise fun s t => c.Blank s → ¬ c.Shown t) ∧
      ∀ fs ∈ bssLines r2 c, (joinFields ' ' '\\' fs).length ≤ 255 := by
  by_cases hitems : c.items = []
  · rw [Right, bssFile_spec hc hitems]
    simp only [Except.ok.injEq, Option.some_inj, exists_eq_left', hitems, true_and,
      ← lost_eq_nil_iff, bssLines, shown_eq_written_append_lost]
    constructor
    · intro hread
      have hlost : c.lost = [] := by
        have hlen := congrArg List.length hread
        rw [readBssFile_lines hc, List.length_map, length_lines, length_lines, shownAs_append,
          List.length_append] at hlen
        rw [← shownAs_eq_nil_iff (c := c), ← List.length_eq_zero_iff]
        omega
      rw [hlost, List.append_nil] at hread ⊢
      exact ⟨rfl, (readBssFile_eq_lines_iff hc _).mp hread⟩
    · rintro ⟨hlost, hshort⟩
      rw [hlost, List.append_nil] at hshort ⊢
      exact (readBssFile_eq_lines_iff hc _).mpr hshort
  · refine iff_of_false ?_ fun h => hitems h.1
    rintro ⟨content, hfile, -⟩
    rw [bssFile_listed hc hitems] at hfile
    exact absurd hfile (by simp)

/-! ## A home with one radio -/

/-- An enabled entry. -/
def homeEntry (ssid : Str) : WlanEntry where
  enableSSID := some "1".toList
  ssid := some ssid
  authMode := some "WPA2PSK".toList
  encrypType := some "AES".toList
  wpapsk := some "12345678".toList

/-- The 5 GHz radio with entries for some SSIDs, all of them front-haul. -/
def homeConf (ssids : List Str) : MeshConf where
  wlan := { apOn := some "0".toList, alMAC := some "00:11:22:33:44:55".toList }
  wlan11ac :=
    { apOn := some "1".toList
      channel := some "36".toList
      alMAC := some "00:11:22:33:44:55".toList
      entries := fun k => (ssids.map homeEntry).getD k {}
      bssEntries := fun _ => { frontHaul := some "1".toList } }

theorem homeConf_valid {ssids : List Str} (h : ∀ t ∈ ssids, t.length ≤ 32 ∧ '\n' ∉ t) :
    ValidConf (homeConf ssids) := by
  have hentry : ∀ s, (homeConf ssids).entry s = {} ∨
      ∃ t ∈ ssids, (homeConf ssids).entry s = homeEntry t := by
    rintro ⟨r, k⟩
    cases r with
    | radio2G => exact .inl rfl
    | radio5GL =>
      show (ssids.map homeEntry).getD k {} = {} ∨ _
      rw [List.getD_eq_getElem?_getD, List.getElem?_map]
      cases hk : ssids[k]? with
      | none => exact .inl rfl
      | some t =>
        refine .inr ⟨t, List.mem_of_getElem? hk, ?_⟩
        show (ssids.map homeEntry).getD k {} = homeEntry t
        rw [List.getD_eq_getElem?_getD, List.getElem?_map, hk]
        rfl
  constructor
  case mac =>
    intro r
    cases r <;> rfl
  case ssid =>
    intro s t ht
    rcases hentry s with he | ⟨t', ht', he⟩
    · rw [he] at ht
      exact absurd ht (by simp)
    · rw [he] at ht
      exact Option.some.inj ht ▸ h t' ht'
  case key =>
    intro s t ht
    rcases hentry s with he | ⟨t', -, he⟩
    · rw [he] at ht
      exact absurd ht (by simp)
    · rw [he] at ht
      rw [← Option.some.inj ht]
      exact ⟨by decide, by decide⟩
  case items =>
    intro item hitem
    exact absurd (show item ∈ [] from hitem) List.not_mem_nil
  case nonMapIface => exact Nat.zero_le 64

theorem right_iff_one : Right true (homeConf ["my home".toList]) := by
  have hshort : (bssLines true (homeConf ["my home".toList])).all
      (fun fs => (joinFields ' ' '\\' fs).length ≤ 255) = true := by decide +kernel
  refine (right_iff true _ (homeConf_valid (by decide))).mpr ⟨rfl, ?_, fun fs hfs => ?_⟩
  · decide +kernel
  · simpa using List.all_eq_true.mp hshort fs hfs

/-- An entry whose SSID is empty hides the one behind it. -/
theorem right_wrong : ValidConf (homeConf [[], "home".toList]) ∧
    bssLines false (homeConf [[], "home".toList]) ≠ [] ∧
      ¬ Right false (homeConf [[], "home".toList]) := by
  have hfile : bssFile false (homeConf [[], "home".toList]) = .ok (some []) := by rfl
  have hlines : bssLines false (homeConf [[], "home".toList]) ≠ [] := by decide +kernel
  refine ⟨homeConf_valid (by decide), hlines, ?_⟩
  rintro ⟨content, hcontent, hread⟩
  rw [hfile] at hcontent
  obtain rfl := Option.some.inj (Except.ok.inj hcontent)
  exact hlines hread.symm

end OnuFirmware.Mesh
