import OnuFirmware.Cfg.Save
import OnuFirmware.Cfg.Load

/-!
# Reading XML

The romfile is read by mxml, which is not part of the firmware source. `xmlRead` says what standard
XML prescribes for the texts that matter here: characters of XML in UTF-8, one root element, ASCII
names, elements with attributes in double quotes, the five predefined entities, blanks between
elements. For any other text it returns `none`, so nothing is assumed about it; this includes
control characters in attribute values, which XML either forbids or normalises to blanks.

The rest of the module shows that the elements `cfg_obj_save_tree` writes are read back.
-/

namespace OnuFirmware.Cfg

open Lib Clib

/-! ## UTF-8 -/

/-- What has been read of a character: nothing, all but the last `n` bytes, or a first byte after
which not every byte may follow. -/
inductive Utf8State
  | start
  | tail (n : Nat)
  | e0
  | ed
  | ef
  | efbf
  | f0
  | f4
deriving Repr, DecidableEq

/-- One more byte. `U+FFFE` and `U+FFFF` are no characters of XML. -/
def Utf8State.next (q : Utf8State) (c : Char) : Option Utf8State :=
  let b := c.toNat
  match q with
  | .start =>
    if b < 0x80 then some .start
    else if 0xc2 ≤ b ∧ b ≤ 0xdf then some (.tail 1)
    else if b = 0xe0 then some .e0
    else if b = 0xed then some .ed
    else if b = 0xef then some .ef
    else if 0xe1 ≤ b ∧ b ≤ 0xee then some (.tail 2)
    else if b = 0xf0 then some .f0
    else if 0xf1 ≤ b ∧ b ≤ 0xf3 then some (.tail 3)
    else if b = 0xf4 then some .f4
    else none
  | .tail n =>
    if 0x80 ≤ b ∧ b ≤ 0xbf then some (if n ≤ 1 then .start else .tail (n - 1)) else none
  | .e0 => if 0xa0 ≤ b ∧ b ≤ 0xbf then some (.tail 1) else none
  | .ed => if 0x80 ≤ b ∧ b ≤ 0x9f then some (.tail 1) else none
  | .ef =>
    if 0x80 ≤ b ∧ b ≤ 0xbe then some (.tail 1) else if b = 0xbf then some .efbf else none
  | .efbf => if 0x80 ≤ b ∧ b ≤ 0xbd then some .start else none
  | .f0 => if 0x90 ≤ b ∧ b ≤ 0xbf then some (.tail 2) else none
  | .f4 => if 0x80 ≤ b ∧ b ≤ 0x8f then some (.tail 2) else none

/-- The text goes on with bytes that make characters of XML. -/
def utf8From : Utf8State → Str → Bool
  | q, [] => decide (q = .start)
  | q, c :: s =>
    match q.next c with
    | none => false
    | some q => utf8From q s

/-! ## The reader -/

def isXmlSpace (c : Char) : Bool := c = ' ' || c = '\t' || c = '\n' || c = '\r'

def isNameStart (c : Char) : Bool :=
  ('a' ≤ c && c ≤ 'z') || ('A' ≤ c && c ≤ 'Z') || c = '_' || c = ':'

def isNameChar (c : Char) : Bool := isNameStart c || isDigit c || c = '-' || c = '.'

/-- The text is an XML name. -/
def isXmlName (s : Str) : Bool := s.head?.any isNameStart && s.all isNameChar

/-- A name, and the text behind it. -/
def xmlName (s : Str) : Option (Str × Str) :=
  if s.head?.any isNameStart then some (s.takeWhile isNameChar, s.dropWhile isNameChar) else none

/-- The text behind `lit`. -/
def expect : Str → Str → Option Str
  | [], s => some s
  | c :: lit, d :: s => if c = d then expect lit s else none
  | _ :: _, [] => none

/-- An attribute value up to its closing quote, and the text behind that. -/
def xmlValue : Str → Option (Str × Str)
  | [] => none
  | '"' :: s => some ([], s)
  | '&' :: 'a' :: 'm' :: 'p' :: ';' :: s => (xmlValue s).map fun r => ('&' :: r.1, r.2)
  | '&' :: 'l' :: 't' :: ';' :: s => (xmlValue s).map fun r => ('<' :: r.1, r.2)
  | '&' :: 'g' :: 't' :: ';' :: s => (xmlValue s).map fun r => ('>' :: r.1, r.2)
  | '&' :: 'q' :: 'u' :: 'o' :: 't' :: ';' :: s => (xmlValue s).map fun r => ('"' :: r.1, r.2)
  | '&' :: 'a' :: 'p' :: 'o' :: 's' :: ';' :: s => (xmlValue s).map fun r => ('\x27' :: r.1, r.2)
  | c :: s =>
    if c = '&' ∨ c = '<' ∨ c < ' ' then none else (xmlValue s).map fun r => (c :: r.1, r.2)

/-- The attributes of a start tag, and the text from the end of the tag on. -/
def xmlAttrs : Nat → Str → Option (List (Str × Str) × Str)
  | 0, _ => none
  | fuel + 1, s =>
    match s.dropWhile isXmlSpace with
    | '/' :: r => some ([], '/' :: r)
    | '>' :: r => some ([], '>' :: r)
    | r =>
      -- a blank has to stand before an attribute, and no name may come twice
      if r.length = s.length then none
      else do
        let name ← xmlName r
        let r ← expect "=\"".toList name.2
        let value ← xmlValue r
        let rest ← xmlAttrs fuel value.2
        if rest.1.any fun a => a.1 == name.1 then none
        else some ((name.1, value.1) :: rest.1, rest.2)

/-- Elements up to an end tag or the end of the text, and the text from there on. -/
def xmlNodes : Nat → Str → Option (MxmlNode × Str)
  | 0, _ => none
  | fuel + 1, s =>
    match s.dropWhile isXmlSpace with
    | [] => some (.nil, [])
    | '<' :: '/' :: r => some (.nil, '<' :: '/' :: r)
    | '<' :: r => do
      let name ← xmlName r
      let attrs ← xmlAttrs fuel name.2
      match attrs.2 with
      | '/' :: r => do
        let r ← expect [ '>' ] r
        let next ← xmlNodes fuel r
        some (.node { name := name.1, attrs := attrs.1 } .nil next.1, next.2)
      | '>' :: r => do
        let child ← xmlNodes fuel r
        let r ← expect ('<' :: '/' :: name.1) child.2
        let r ← expect [ '>' ] (r.dropWhile isXmlSpace)
        let next ← xmlNodes fuel r
        some (.node { name := name.1, attrs := attrs.1 } child.1 next.1, next.2)
      | _ => none
    | _ => none

/-- **The document that standard XML prescribes for a text.** -/
def xmlRead (text : Str) : Option MxmlNode :=
  if utf8From .start text then
    match xmlNodes (text.length + 1) text with
    | some (.node e child .nil, []) => some (.node e child .nil)
    | _ => none
  else none

/-! ## Reading back values and attributes -/

/-- A value that `checkvalue` writes as a whole and that XML reads back. -/
def valueOk (val : Str) : Bool :=
  decide ((escape val).length < replacedstrLen - 1) && val.all (fun c => !decide (c < ' ')) &&
    utf8From .start val

/-- Attributes that are written and read back. -/
structure AttrsOk (attrs : List (Str × Str)) : Prop where
  names : ∀ a ∈ attrs, isXmlName a.1 = true
  distinct : (attrs.map Prod.fst).Nodup
  values : ∀ a ∈ attrs, valueOk a.2 = true

theorem xmlValue_cons {c : Char} (h : escapeChar c = [c]) (hc : ¬ c < ' ') (s : Str) :
    xmlValue (c :: s) = (xmlValue s).map fun r => (c :: r.1, r.2) := by
  have hamp : c ≠ '&' := by rintro rfl; exact absurd h (by decide)
  have hlt : c ≠ '<' := by rintro rfl; exact absurd h (by decide)
  have hquot : c ≠ '"' := by rintro rfl; exact absurd h (by decide)
  have hguard : ¬ (c = '&' ∨ c = '<' ∨ c < ' ') := by simp [hamp, hlt, hc]
  rw [xmlValue.eq_def]
  split
  case h_8 heq =>
    obtain ⟨rfl, rfl⟩ := List.cons.inj heq
    rw [if_neg hguard]
  all_goals simp_all

/-- **Escaped values are read back.** -/
theorem xmlValue_escape (r : Str) : ∀ {v : Str}, (∀ c ∈ v, ¬ c < ' ') →
    xmlValue (escape v ++ '"' :: r) = some (v, r)
  | [], _ => rfl
  | c :: v, h => by
    have ih := xmlValue_escape r fun d hd => h d (List.mem_cons_of_mem c hd)
    have hc := h c List.mem_cons_self
    have hsplit : escape (c :: v) = escapeChar c ++ escape v := List.flatMap_cons
    rw [hsplit, List.append_assoc]
    by_cases h1 : c = '&'
    · subst h1
      simp [escapeChar, xmlValue, ih]
    by_cases h2 : c = '<'
    · subst h2
      simp [escapeChar, xmlValue, ih]
    by_cases h3 : c = '>'
    · subst h3
      simp [escapeChar, xmlValue, ih]
    by_cases h4 : c = '"'
    · subst h4
      simp [escapeChar, xmlValue, ih]
    have hplain : escapeChar c = [c] := by simp [escapeChar, h1, h2, h3, h4]
    rw [hplain, List.singleton_append, xmlValue_cons hplain hc, ih]
    rfl

theorem xmlName_append {name : Str} (h : isXmlName name = true) {c : Char}
    (hc : isNameChar c = false) (r : Str) : xmlName (name ++ c :: r) = some (name, c :: r) := by
  obtain ⟨hstart, hall⟩ := Bool.and_eq_true_iff.mp h
  rw [List.all_eq_true] at hall
  cases name with
  | nil => simp at hstart
  | cons d name =>
    rw [xmlName, if_pos (by simpa using hstart), List.takeWhile_append_of_pos hall,
      List.dropWhile_append_of_pos hall]
    simp [hc]

theorem expect_append : ∀ lit s : Str, expect lit (lit ++ s) = some s
  | [], _ => rfl
  | c :: lit, s => by
    rw [List.cons_append, expect, if_pos rfl]
    exact expect_append lit s

theorem not_isXmlSpace_of_isNameStart {c : Char} (h : isNameStart c = true) :
    isXmlSpace c = false ∧ c ≠ '/' ∧ c ≠ '>' := by
  refine ⟨?_, ?_, ?_⟩
  · rw [Bool.eq_false_iff]
    intro hs
    simp only [isXmlSpace, Bool.or_eq_true, decide_eq_true_eq] at hs
    rcases hs with ((rfl | rfl) | rfl) | rfl <;> exact absurd h (by decide)
  · rintro rfl
    exact absurd h (by decide)
  · rintro rfl
    exact absurd h (by decide)

theorem checkvalue_ok {val : Str} (h : valueOk val = true) : checkvalue val = .ok (escape val) := by
  simp only [valueOk, Bool.and_eq_true, decide_eq_true_eq] at h
  rw [checkvalue, if_neg (by omega)]

/-- What `saveAttrs` writes for attributes that fit. -/
def attrsText : List (Str × Str) → Str
  | [] => []
  | a :: attrs => ' ' :: a.1 ++ "=\"".toList ++ escape a.2 ++ '"' :: attrsText attrs

theorem saveAttrs_ok : ∀ {attrs : List (Str × Str)}, (∀ a ∈ attrs, valueOk a.2 = true) →
    saveAttrs attrs = .ok (attrsText attrs)
  | [], _ => rfl
  | a :: attrs, h => by
    rw [saveAttrs, checkvalue_ok (h a List.mem_cons_self),
      saveAttrs_ok fun b hb => h b (List.mem_cons_of_mem a hb)]
    rfl

theorem AttrsOk.tail {a : Str × Str} {attrs : List (Str × Str)} (h : AttrsOk (a :: attrs)) :
    AttrsOk attrs where
  names := fun b hb => h.names b (List.mem_cons_of_mem a hb)
  distinct := (List.nodup_cons.mp h.distinct).2
  values := fun b hb => h.values b (List.mem_cons_of_mem a hb)

/-- **The attributes of an element are read back**, up to the `/` or `>` behind them. -/
theorem xmlAttrs_attrsText {c : Char} (hc : c = '/' ∨ c = '>') (r : Str) {sp : Str}
    (hsp : ∀ d ∈ sp, isXmlSpace d = true) : ∀ {attrs : List (Str × Str)} {fuel : Nat},
    AttrsOk attrs → attrs.length < fuel →
    xmlAttrs fuel (attrsText attrs ++ (sp ++ c :: r)) = some (attrs, c :: r)
  | _, 0, _, hf => absurd hf (Nat.not_lt_zero _)
  | [], fuel + 1, _, _ => by
    have hdrop : (sp ++ c :: r).dropWhile isXmlSpace = c :: r := by
      rw [List.dropWhile_append_of_pos hsp]
      rcases hc with rfl | rfl <;> rfl
    rw [attrsText, List.nil_append, xmlAttrs, hdrop]
    rcases hc with rfl | rfl <;> rfl
  | a :: attrs, fuel + 1, h, hf => by
    have hname := h.names a List.mem_cons_self
    have hval := h.values a List.mem_cons_self
    have hfuel : attrs.length < fuel := by
      rw [List.length_cons] at hf
      omega
    have ih := xmlAttrs_attrsText hc r hsp h.tail hfuel
    have hdup : (attrs.any fun b => b.1 == a.1) = false := by
      rw [List.any_eq_false]
      intro b hb
      have hnot := (List.nodup_cons.mp h.distinct).1
      rw [beq_iff_eq]
      exact fun he => hnot (he ▸ List.mem_map_of_mem hb)
    have hplain : ∀ d ∈ a.2, ¬ d < ' ' := by
      simp only [valueOk, Bool.and_eq_true, List.all_eq_true] at hval
      simpa using hval.1.2
    generalize hrest : attrsText attrs ++ (sp ++ c :: r) = rest at ih
    have htext : attrsText (a :: attrs) ++ (sp ++ c :: r)
        = ' ' :: (a.1 ++ '=' :: '"' :: (escape a.2 ++ '"' :: rest)) := by
      rw [← hrest]
      simp [attrsText]
    have hread := xmlName_append hname (c := '=') (by decide)
      ('"' :: (escape a.2 ++ '"' :: rest))
    rw [htext]
    -- the name starts with a character that is neither a blank nor an end of the tag
    obtain ⟨d, ds, hds⟩ : ∃ d ds, a.1 = d :: ds := by
      cases ha : a.1 with
      | nil => simp [ha, isXmlName] at hname
      | cons d ds => exact ⟨d, ds, rfl⟩
    have hstart : isNameStart d = true := by
      rw [hds] at hname
      exact (Bool.and_eq_true_iff.mp hname).1
    obtain ⟨hd, hslash, hgt⟩ := not_isXmlSpace_of_isNameStart hstart
    have hdrop : (' ' :: (a.1 ++ '=' :: '"' :: (escape a.2 ++ '"' :: rest))).dropWhile isXmlSpace
        = a.1 ++ '=' :: '"' :: (escape a.2 ++ '"' :: rest) := by
      rw [List.dropWhile_cons_of_pos (by decide), hds, List.cons_append,
        List.dropWhile_cons_of_neg (by simp [hd])]
    rw [xmlAttrs, hdrop]
    split
    · next heq =>
      rw [hds, List.cons_append] at heq
      exact absurd (List.cons.inj heq).1 hslash
    · next heq =>
      rw [hds, List.cons_append] at heq
      exact absurd (List.cons.inj heq).1 hgt
    · rw [if_neg (by simp), hread]
      simp only [Option.bind_eq_bind, Option.bind_some]
      rw [show ('=' :: '"' :: (escape a.2 ++ '"' :: rest))
        = "=\"".toList ++ (escape a.2 ++ '"' :: rest) from rfl, expect_append, Option.bind_some,
        xmlValue_escape rest hplain, Option.bind_some, ih, Option.bind_some, hdup]
      rfl

end OnuFirmware.Cfg
