import OnuFirmware.Cfg.Xml

/-!
# Reading back what is saved

`cfg_obj_save_tree` writes nothing for an object of a `MEMORY` type and what is below it, and stops
at an object without a type. `xmlDoc` is the document of the other objects. The text that is saved
is an XML document, and it is this one, if the names are ASCII names of XML and the attributes can
be written and read (`Writable`), and in no other case (`savedRight_iff`).
-/

namespace OnuFirmware.Cfg

open Lib Clib

/-- The elements for the objects that are saved. -/
def xmlDoc (tt : TypeTree) : CfgNodeObj → MxmlNode
  | .nil => .nil
  | .node o child brother =>
    match cfgTypeFindById tt (cfgOidToTid o.id) with
    | none => .nil
    | some type =>
      if type.1.hasFlag cfgTypeFlagMemory then xmlDoc tt brother
      else .node ⟨saveName type.1 o, o.priv⟩ (xmlDoc tt child) (xmlDoc tt brother)

/-- Every object that is saved has a name that is an XML name, and attributes that can be written
and read. -/
def Writable (tt : TypeTree) : CfgNodeObj → Prop
  | .nil => True
  | .node o child brother =>
    match cfgTypeFindById tt (cfgOidToTid o.id) with
    | none => True
    | some type =>
      if type.1.hasFlag cfgTypeFlagMemory then Writable tt brother
      else isXmlName (saveName type.1 o) = true ∧ AttrsOk o.priv ∧ Writable tt child ∧
        Writable tt brother

/-! ## UTF-8 -/

theorem utf8From_append {q : Utf8State} {s u : Str} (h : utf8From q s = true) :
    utf8From q (s ++ u) = utf8From .start u := by
  induction s generalizing q with
  | nil =>
    rw [utf8From, decide_eq_true_eq] at h
    rw [h, List.nil_append]
  | cons c s ih =>
    rw [List.cons_append]
    rw [utf8From] at h ⊢
    cases hnext : q.next c with
    | none =>
      rw [hnext] at h
      cases h
    | some q =>
      rw [hnext] at h
      exact ih h

theorem utf8From_append_true {s u : Str} (hs : utf8From .start s = true)
    (hu : utf8From .start u = true) : utf8From .start (s ++ u) = true :=
  (utf8From_append hs).trans hu

/-- A byte below 0x80 is a character of its own. -/
theorem Utf8State.next_start {c : Char} (hc : c.toNat < 0x80) : next .start c = some .start :=
  if_pos hc

/-- No such byte stands inside a character. -/
theorem Utf8State.next_of_lt {q : Utf8State} (hq : q ≠ .start) {c : Char} (hc : c.toNat < 0x80) :
    q.next c = none := by
  cases q with
  | start => exact absurd rfl hq
  | tail n => exact if_neg (by omega)
  | e0 => exact if_neg (by omega)
  | ed => exact if_neg (by omega)
  | ef => exact (if_neg (by omega)).trans (if_neg (by omega))
  | efbf => exact if_neg (by omega)
  | f0 => exact if_neg (by omega)
  | f4 => exact if_neg (by omega)

theorem utf8From_cons {c : Char} (hc : c.toNat < 0x80) {s : Str}
    (h : utf8From .start s = true) : utf8From .start (c :: s) = true := by
  rw [utf8From, Utf8State.next_start hc]
  exact h

theorem utf8From_ascii {s : Str} (h : ∀ c ∈ s, c.toNat < 0x80) : utf8From .start s = true := by
  induction s with
  | nil => rfl
  | cons c s ih =>
    exact utf8From_cons (h c List.mem_cons_self) (ih fun d hd => h d (List.mem_cons_of_mem c hd))

theorem toNat_lt_of_isNameChar {c : Char} (h : isNameChar c = true) : c.toNat < 0x80 := by
  have hrange : ∀ {a b : Char}, b.toNat < 0x80 → a ≤ c ∧ c ≤ b → c.toNat < 0x80 :=
    fun hb hc => Nat.lt_of_le_of_lt (show c.toNat ≤ _ from hc.2) hb
  simp only [isNameChar, isNameStart, isDigit, Bool.or_eq_true, Bool.and_eq_true,
    decide_eq_true_eq] at h
  rcases h with (((((h | h) | rfl) | rfl) | h) | rfl) | rfl
  · exact hrange (by decide) h
  · exact hrange (by decide) h
  · decide
  · decide
  · exact hrange (by decide) h
  · decide
  · decide

theorem utf8From_name {name : Str} (h : isXmlName name = true) : utf8From .start name = true := by
  rw [isXmlName, Bool.and_eq_true, List.all_eq_true] at h
  exact utf8From_ascii fun c hc => toNat_lt_of_isNameChar (h.2 c hc)

/-- A byte of a longer character is not escaped. -/
theorem escapeChar_of_le {c : Char} (h : 0x80 ≤ c.toNat) : escapeChar c = [c] := by
  have hne : ∀ {d : Char}, d.toNat < 0x80 → c ≠ d := by
    rintro d hd rfl
    omega
  rw [escapeChar, if_neg (hne (by decide)), if_neg (hne (by decide)), if_neg (hne (by decide)),
    if_neg (hne (by decide))]

theorem utf8From_escapeChar {c : Char} (hc : c.toNat < 0x80) :
    utf8From .start (escapeChar c) = true := by
  rw [escapeChar]
  split
  · decide
  split
  · decide
  split
  · decide
  split
  · decide
  · exact utf8From_cons hc rfl

/-- A byte below 0x80 is escaped to such bytes. -/
theorem escapeChar_eq_cons {c : Char} (hc : c.toNat < 0x80) :
    ∃ d s, escapeChar c = d :: s ∧ d.toNat < 0x80 := by
  rw [escapeChar]
  split
  · exact ⟨'&', _, rfl, by decide⟩
  split
  · exact ⟨'&', _, rfl, by decide⟩
  split
  · exact ⟨'&', _, rfl, by decide⟩
  split
  · exact ⟨'&', _, rfl, by decide⟩
  · exact ⟨c, [], rfl, hc⟩

theorem utf8From_cons_of_lt {q : Utf8State} (hq : q ≠ .start) {c : Char} (hc : c.toNat < 0x80)
    (s : Str) : utf8From q (c :: s) = false := by
  rw [utf8From, Utf8State.next_of_lt hq hc]

/-- Escaping keeps UTF-8, and anything else is no UTF-8 afterwards either. -/
theorem utf8From_escape (q : Utf8State) (val : Str) :
    utf8From q (escape val) = utf8From q val := by
  induction val generalizing q with
  | nil => rfl
  | cons c val ih =>
    have hsplit : escape (c :: val) = escapeChar c ++ escape val := List.flatMap_cons
    rw [hsplit]
    by_cases hc : c.toNat < 0x80
    · by_cases hq : q = .start
      · rw [hq, utf8From_append (utf8From_escapeChar hc), ih, utf8From, Utf8State.next_start hc]
      · obtain ⟨d, s, hesc, hd⟩ := escapeChar_eq_cons hc
        rw [hesc, List.cons_append, utf8From_cons_of_lt hq hd, utf8From_cons_of_lt hq hc]
    · rw [escapeChar_of_le (Nat.le_of_not_lt hc), List.singleton_append, utf8From, utf8From]
      cases q.next c with
      | none => rfl
      | some q => exact ih q

/-- A byte below 0x80 begins a character. -/
theorem utf8From_left {q : Utf8State} {s u : Str} {c : Char} (hc : c.toNat < 0x80)
    (h : utf8From q (s ++ c :: u) = true) : utf8From q s = true := by
  induction s generalizing q with
  | nil =>
    by_cases hq : q = .start
    · rw [hq]
      rfl
    · rw [List.nil_append, utf8From_cons_of_lt hq hc] at h
      cases h
  | cons d s ih =>
    rw [List.cons_append] at h
    rw [utf8From] at h ⊢
    cases hnext : q.next d with
    | none =>
      rw [hnext] at h
      cases h
    | some q =>
      rw [hnext] at h
      exact ih h

theorem attrsText_cons (a : Str × Str) (attrs : List (Str × Str)) :
    attrsText (a :: attrs) =
      ' ' :: (a.1 ++ ("=\"".toList ++ (escape a.2 ++ '"' :: attrsText attrs))) := by
  simp [attrsText]

theorem utf8From_attrsText {attrs : List (Str × Str)} (h : AttrsOk attrs) :
    utf8From .start (attrsText attrs) = true := by
  induction attrs with
  | nil => rfl
  | cons a attrs ih =>
    have hval := h.values a List.mem_cons_self
    rw [valueOk, Bool.and_eq_true] at hval
    rw [attrsText_cons]
    refine utf8From_cons (by decide) (utf8From_append_true
      (utf8From_name (h.names a List.mem_cons_self)) ?_)
    refine utf8From_append_true (by decide) (utf8From_append_true
      ((utf8From_escape .start a.2).trans hval.2) ?_)
    exact utf8From_cons (by decide) (ih h.tail)

/-! ## A start tag -/

theorem length_le_attrsText (attrs : List (Str × Str)) :
    attrs.length ≤ (attrsText attrs).length := by
  induction attrs with
  | nil => exact Nat.le_refl 0
  | cons a attrs ih =>
    simp only [attrsText, List.length_cons, List.length_append]
    omega

/-- The blank before the end of a tag with attributes. -/
def tagSpace (attrs : List (Str × Str)) : Str := if attrs = [] then [] else [' ']

theorem isXmlSpace_tagSpace (attrs : List (Str × Str)) :
    ∀ d ∈ tagSpace attrs, isXmlSpace d = true := by
  intro d hd
  rw [tagSpace] at hd
  split at hd
  · cases hd
  · obtain rfl := List.mem_singleton.mp hd
    rfl

theorem utf8From_tag {name : Str} (h : isXmlName name = true) {attrs : List (Str × Str)}
    (hattrs : AttrsOk attrs) {s : Str} (hs : utf8From .start s = true) :
    utf8From .start ('<' :: name ++ attrsText attrs ++ tagSpace attrs ++ s) = true := by
  have hspace : utf8From .start (tagSpace attrs) = true := by
    rw [tagSpace]
    split <;> decide
  have hopen := utf8From_cons (c := '<') (by decide) (utf8From_name h)
  exact utf8From_append_true (utf8From_append_true
    (utf8From_append_true hopen (utf8From_attrsText hattrs)) hspace) hs

/-- What is written behind a tag. -/
theorem isXmlSpace_newline : ∀ d ∈ " \n".toList, isXmlSpace d = true := by
  intro d hd
  rw [show " \n".toList = [' ', '\n'] from rfl] at hd
  rcases List.mem_cons.mp hd with rfl | hd
  · rfl
  · obtain rfl := List.mem_singleton.mp hd
    rfl

/-- Behind the name of an element comes no character of a name. -/
theorem xmlName_tag {name : Str} (h : isXmlName name = true) {attrs : List (Str × Str)} {c : Char}
    (hc : c = '/' ∨ c = '>') (r : Str) :
    xmlName (name ++ (attrsText attrs ++ (tagSpace attrs ++ c :: r))) =
      some (name, attrsText attrs ++ (tagSpace attrs ++ c :: r)) := by
  cases attrs with
  | nil =>
    rw [attrsText, tagSpace, if_pos rfl, List.nil_append, List.nil_append]
    refine xmlName_append h ?_ r
    rcases hc with rfl | rfl <;> decide
  | cons a attrs =>
    rw [attrsText, List.append_assoc, List.cons_append, List.cons_append, List.cons_append,
      List.cons_append]
    exact xmlName_append h (by decide) _

theorem head_ne_slash {name : Str} (h : isXmlName name = true) (s : Str) :
    ∀ r, name ++ s ≠ '/' :: r := by
  intro r heq
  cases name with
  | nil => cases h
  | cons d name =>
    rw [isXmlName, Bool.and_eq_true, List.head?_cons, Option.any_some] at h
    obtain rfl := (List.cons.inj heq).1
    exact absurd h.1 (by decide)

/-! ## Elements -/

/-- What may stand behind a row of elements: nothing, or an end tag. -/
def AtEnd (r : Str) : Prop := r = [] ∨ ∃ s, r = '<' :: '/' :: s

/-- `text` is read as `doc`, with blanks before it. -/
def ReadsAs (text : Str) (doc : MxmlNode) : Prop :=
  ∀ fuel sp r, (∀ d ∈ sp, isXmlSpace d = true) → AtEnd r → text.length < fuel →
    xmlNodes fuel (sp ++ (text ++ r)) = some (doc, r)

theorem readsAs_nil : ReadsAs [] .nil := by
  intro fuel sp r hsp hr hfuel
  cases fuel with
  | zero => cases hfuel
  | succ fuel =>
    rw [List.nil_append, xmlNodes]
    rcases hr with rfl | ⟨s, rfl⟩
    · rw [List.dropWhile_append_of_pos hsp]
      rfl
    · rw [List.dropWhile_append_of_pos hsp]
      rfl

/-- The reader goes into an element. -/
theorem xmlNodes_tag {name : Str} (h : isXmlName name = true) {attrs : List (Str × Str)}
    (hattrs : AttrsOk attrs) {c : Char} (hc : c = '/' ∨ c = '>') {fuel : Nat}
    (hfuel : attrs.length < fuel) {sp : Str} (hsp : ∀ d ∈ sp, isXmlSpace d = true) (r : Str) :
    ∃ s, (sp ++ '<' :: (name ++ (attrsText attrs ++ (tagSpace attrs ++ c :: r)))).dropWhile
        isXmlSpace = '<' :: s ∧ (∀ r, s ≠ '/' :: r) ∧
      ∃ s', xmlName s = some (name, s') ∧ xmlAttrs fuel s' = some (attrs, c :: r) := by
  refine ⟨name ++ (attrsText attrs ++ (tagSpace attrs ++ c :: r)), ?_, head_ne_slash h _, _,
    xmlName_tag h hc r, xmlAttrs_attrsText hc r (isXmlSpace_tagSpace attrs) hattrs hfuel⟩
  rw [List.dropWhile_append_of_pos hsp, List.dropWhile_cons_of_neg (by decide)]

/-- An element without children is read, and then what stands behind it. -/
theorem xmlNodes_empty {name : Str} (h : isXmlName name = true) {attrs : List (Str × Str)}
    (hattrs : AttrsOk attrs) {fuel : Nat} (hfuel : attrs.length < fuel) {sp : Str}
    (hsp : ∀ d ∈ sp, isXmlSpace d = true) {r r' : Str} {next : MxmlNode}
    (hnext : xmlNodes fuel r = some (next, r')) :
    xmlNodes (fuel + 1)
        (sp ++ '<' :: (name ++ (attrsText attrs ++ (tagSpace attrs ++ '/' :: '>' :: r)))) =
      some (.node ⟨name, attrs⟩ .nil next, r') := by
  obtain ⟨s, hdrop, hslash, s', hname, hread⟩ :=
    xmlNodes_tag h hattrs (.inl rfl) hfuel hsp ('>' :: r)
  rw [xmlNodes, hdrop]
  split
  case h_1 heq => cases heq
  case h_2 heq => exact absurd (List.cons.inj heq).2 (hslash _)
  case h_3 heq =>
    obtain rfl := (List.cons.inj heq).2
    simp [hname, hread, expect, hnext]
  case h_4 heq => exact absurd rfl (heq s)

/-- An element with children is read, and then what stands behind it. -/
theorem xmlNodes_children {name : Str} (h : isXmlName name = true) {attrs : List (Str × Str)}
    (hattrs : AttrsOk attrs) {fuel : Nat} (hfuel : attrs.length < fuel) {sp : Str}
    (hsp : ∀ d ∈ sp, isXmlSpace d = true) {s r r' : Str} {child next : MxmlNode}
    (hchild : xmlNodes fuel s = some (child, '<' :: '/' :: (name ++ '>' :: r)))
    (hnext : xmlNodes fuel r = some (next, r')) :
    xmlNodes (fuel + 1)
        (sp ++ '<' :: (name ++ (attrsText attrs ++ (tagSpace attrs ++ '>' :: s)))) =
      some (.node ⟨name, attrs⟩ child next, r') := by
  obtain ⟨t, hdrop, hslash, t', hname, hread⟩ := xmlNodes_tag h hattrs (.inr rfl) hfuel hsp s
  have hend := expect_append name ('>' :: r)
  have hclose : ('>' :: r).dropWhile isXmlSpace = '>' :: r :=
    List.dropWhile_cons_of_neg (by decide)
  rw [xmlNodes, hdrop]
  split
  case h_1 heq => cases heq
  case h_2 heq => exact absurd (List.cons.inj heq).2 (hslash _)
  case h_3 heq =>
    obtain rfl := (List.cons.inj heq).2
    simp [hname, hread, hchild, hend, hclose, expect, hnext]
  case h_4 heq => exact absurd rfl (heq t)

theorem readsAs_empty {name : Str} (h : isXmlName name = true) {attrs : List (Str × Str)}
    (hattrs : AttrsOk attrs) {rest : Str} {next : MxmlNode} (hrest : ReadsAs rest next) :
    ReadsAs ('<' :: name ++ attrsText attrs ++ tagSpace attrs ++ "/> \n".toList ++ rest)
      (.node ⟨name, attrs⟩ .nil next) := by
  intro fuel sp r hsp hr hfuel
  have hlen := length_le_attrsText attrs
  simp only [List.cons_append, List.append_assoc, List.length_cons, List.length_append] at hfuel
  cases fuel with
  | zero => cases hfuel
  | succ fuel =>
    have hnext := hrest fuel " \n".toList r isXmlSpace_newline hr (by omega)
    have hread := xmlNodes_empty h hattrs (by omega) hsp hnext
    simpa using hread

theorem readsAs_children {name : Str} (h : isXmlName name = true) {attrs : List (Str × Str)}
    (hattrs : AttrsOk attrs) {inner rest : Str} {child next : MxmlNode}
    (hinner : ReadsAs inner child) (hrest : ReadsAs rest next) :
    ReadsAs ('<' :: name ++ attrsText attrs ++ tagSpace attrs ++ "> \n".toList ++ inner ++
      "</".toList ++ name ++ "> \n".toList ++ rest) (.node ⟨name, attrs⟩ child next) := by
  intro fuel sp r hsp hr hfuel
  have hlen := length_le_attrsText attrs
  simp only [List.cons_append, List.append_assoc, List.length_cons, List.length_append] at hfuel
  cases fuel with
  | zero => cases hfuel
  | succ fuel =>
    have hnext := hrest fuel " \n".toList r isXmlSpace_newline hr (by omega)
    have hchild := hinner fuel " \n".toList
      ('<' :: '/' :: (name ++ '>' :: (" \n".toList ++ (rest ++ r)))) isXmlSpace_newline
      (.inr ⟨_, rfl⟩) (by omega)
    have hread := xmlNodes_children h hattrs (by omega) hsp hchild hnext
    simpa using hread

/-! ## Trees -/

/-- What is saved is UTF-8, and is read as the document of the tree. -/
theorem cfgObjSaveTree_readsAs {tt : TypeTree} {t : CfgNodeObj} (h : Writable tt t) :
    ∃ text, cfgObjSaveTree tt t = .ok text ∧ utf8From .start text = true ∧
      ReadsAs text (xmlDoc tt t) := by
  induction t with
  | nil => exact ⟨[], rfl, rfl, readsAs_nil⟩
  | node o child brother ihChild ihBrother =>
    rw [Writable] at h
    rw [cfgObjSaveTree, xmlDoc]
    cases htype : cfgTypeFindById tt (cfgOidToTid o.id) with
    | none => exact ⟨[], rfl, rfl, readsAs_nil⟩
    | some type =>
      simp only [htype] at h ⊢
      by_cases hmem : type.1.hasFlag cfgTypeFlagMemory = true
      · rw [if_pos hmem] at h ⊢
        rw [if_pos hmem]
        exact ihBrother h
      · rw [if_neg hmem] at h ⊢
        rw [if_neg hmem]
        obtain ⟨hname, hattrs, hchild, hbrother⟩ := h
        obtain ⟨inner, hinner, hutfInner, hreadInner⟩ := ihChild hchild
        obtain ⟨rest, hrest, hutfRest, hreadRest⟩ := ihBrother hbrother
        rw [saveAttrs_ok hattrs.values, hinner, hrest]
        cases child with
        | nil =>
          refine ⟨_, rfl, ?_, readsAs_empty hname hattrs hreadRest⟩
          rw [List.append_assoc]
          exact utf8From_tag hname hattrs (utf8From_append_true (by decide) hutfRest)
        | node o' child' brother' =>
          refine ⟨_, rfl, ?_, readsAs_children hname hattrs hreadInner hreadRest⟩
          have hclose := utf8From_append_true (s := "> \n".toList) (by decide) hutfRest
          have hend := utf8From_append_true (s := "</".toList) (by decide)
            (utf8From_append_true (utf8From_name hname) hclose)
          have hbody := utf8From_append_true (s := "> \n".toList) (by decide)
            (utf8From_append_true hutfInner hend)
          have htag := utf8From_tag hname hattrs hbody
          simp only [List.append_assoc] at htag ⊢
          exact htag

/-! ## What is read -/

/-- The attributes of an element in an XML document. -/
structure AttrsRead (attrs : List (Str × Str)) : Prop where
  names : ∀ a ∈ attrs, isXmlName a.1 = true
  distinct : (attrs.map Prod.fst).Nodup
  plain : ∀ a ∈ attrs, ∀ c ∈ a.2, ¬ c < ' '

/-- The names of a document are XML names, no attribute comes twice, and no value has a control
character. -/
def WellFormed : MxmlNode → Prop
  | .nil => True
  | .node e child brother =>
    isXmlName e.name = true ∧ AttrsRead e.attrs ∧ WellFormed child ∧ WellFormed brother

theorem isXmlName_of_xmlName {s : Str} {name : Str × Str} (h : xmlName s = some name) :
    isXmlName name.1 = true := by
  rw [xmlName] at h
  split at h
  · next hstart =>
    obtain rfl := Option.some.inj h
    rw [isXmlName, Bool.and_eq_true]
    refine ⟨?_, List.all_takeWhile⟩
    cases s with
    | nil => cases hstart
    | cons d s =>
      rw [List.head?_cons, Option.any_some] at hstart
      have hchar : isNameChar d = true := by simp [isNameChar, hstart]
      rw [List.takeWhile_cons_of_pos hchar]
      exact hstart
  · cases h

/-- The value that is read has no control characters. -/
def NoControl (o : Option (Str × Str)) : Prop := ∀ val, o = some val → ∀ c ∈ val.1, ¬ c < ' '

theorem NoControl.cons {o : Option (Str × Str)} (h : NoControl o) {c : Char} (hc : ¬ c < ' ') :
    NoControl (o.map fun r => (c :: r.1, r.2)) := by
  intro val hval d hd
  obtain ⟨r, hr, rfl⟩ := Option.map_eq_some_iff.mp hval
  rcases List.mem_cons.mp hd with rfl | hd
  · exact hc
  · exact h r hr d hd

theorem noControl_xmlValue (s : Str) : NoControl (xmlValue s) := by
  fun_induction xmlValue s with
  | case1 =>
    rintro val ⟨⟩
  | case2 s =>
    rintro val ⟨⟩ c ⟨⟩
  | case3 s ih => exact ih.cons (by decide)
  | case4 s ih => exact ih.cons (by decide)
  | case5 s ih => exact ih.cons (by decide)
  | case6 s ih => exact ih.cons (by decide)
  | case7 s ih => exact ih.cons (by decide)
  | case8 c s =>
    rintro val ⟨⟩
  | case9 c s _ _ _ _ _ _ hguard ih => exact ih.cons fun hlt => hguard (.inr (.inr hlt))

theorem attrsRead_nil : AttrsRead [] where
  names := by simp
  distinct := List.nodup_nil
  plain := by simp

theorem attrsRead_xmlAttrs {fuel : Nat} {s : Str} {attrs : List (Str × Str) × Str}
    (h : xmlAttrs fuel s = some attrs) : AttrsRead attrs.1 := by
  induction fuel generalizing s attrs with
  | zero => cases h
  | succ fuel ih =>
    rw [xmlAttrs] at h
    split at h
    · obtain rfl := Option.some.inj h
      exact attrsRead_nil
    · obtain rfl := Option.some.inj h
      exact attrsRead_nil
    split at h
    · cases h
    simp only [Option.bind_eq_bind, Option.bind_eq_some_iff] at h
    obtain ⟨name, hname, r, -, value, hvalue, rest, hrest, h⟩ := h
    split at h
    · cases h
    · next hnew =>
      obtain rfl := Option.some.inj h
      have hn := isXmlName_of_xmlName hname
      have hread := ih hrest
      refine ⟨?_, ?_, ?_⟩
      · intro a ha
        rcases List.mem_cons.mp ha with rfl | ha
        · exact hn
        · exact hread.names a ha
      · refine List.nodup_cons.mpr ⟨fun hmem => hnew ?_, hread.distinct⟩
        obtain ⟨a, ha, heq⟩ := List.mem_map.mp hmem
        exact List.any_eq_true.mpr ⟨a, ha, by rw [heq, beq_self_eq_true]⟩
      · intro a ha
        rcases List.mem_cons.mp ha with rfl | ha
        · exact noControl_xmlValue r value hvalue
        · exact hread.plain a ha

theorem wellFormed_xmlNodes {fuel : Nat} {s : Str} {doc : MxmlNode × Str}
    (h : xmlNodes fuel s = some doc) : WellFormed doc.1 := by
  induction fuel generalizing s doc with
  | zero => cases h
  | succ fuel ih =>
    rw [xmlNodes] at h
    split at h
    · obtain rfl := Option.some.inj h
      exact trivial
    · obtain rfl := Option.some.inj h
      exact trivial
    · simp only [Option.bind_eq_bind, Option.bind_eq_some_iff] at h
      obtain ⟨name, hname, attrs, hattrs, h⟩ := h
      have hn := isXmlName_of_xmlName hname
      have ha := attrsRead_xmlAttrs hattrs
      split at h
      · simp only [Option.bind_eq_some_iff] at h
        obtain ⟨r, -, next, hnext, h⟩ := h
        obtain rfl := Option.some.inj h
        exact ⟨hn, ha, trivial, ih hnext⟩
      · simp only [Option.bind_eq_some_iff] at h
        obtain ⟨child, hchild, r, -, r', -, next, hnext, h⟩ := h
        obtain rfl := Option.some.inj h
        exact ⟨hn, ha, ih hchild, ih hnext⟩
      · cases h
    · cases h

/-! ## What is saved -/

theorem saveAttrs_eq_ok {attrs : List (Str × Str)} {text : Str} (h : saveAttrs attrs = .ok text) :
    text = attrsText attrs ∧ ∀ a ∈ attrs, (escape a.2).length < replacedstrLen - 1 := by
  induction attrs generalizing text with
  | nil =>
    obtain rfl := Except.ok.inj h
    exact ⟨rfl, by simp⟩
  | cons a attrs ih =>
    rw [saveAttrs] at h
    cases hval : checkvalue a.2 with
    | error e =>
      rw [hval] at h
      cases h
    | ok val =>
      cases hrest : saveAttrs attrs with
      | error e =>
        rw [hval, hrest] at h
        cases h
      | ok rest =>
        rw [hval, hrest] at h
        obtain rfl := Except.ok.inj h
        obtain ⟨rfl, hlen⟩ := ih hrest
        rw [checkvalue] at hval
        split at hval
        · cases hval
        · next hfits =>
          obtain rfl := Except.ok.inj hval
          refine ⟨rfl, fun b hb => ?_⟩
          rcases List.mem_cons.mp hb with rfl | hb
          · exact Nat.lt_of_not_le hfits
          · exact hlen b hb

/-- UTF-8 behind UTF-8. -/
theorem utf8From_right {s u : Str} (h : utf8From .start (s ++ u) = true)
    (hs : utf8From .start s = true) : utf8From .start u = true := (utf8From_append hs).symm.trans h

theorem utf8From_values {attrs : List (Str × Str)} (hnames : ∀ a ∈ attrs, isXmlName a.1 = true)
    (h : utf8From .start (attrsText attrs) = true) : ∀ a ∈ attrs, utf8From .start a.2 = true := by
  induction attrs with
  | nil => simp
  | cons a attrs ih =>
    rw [attrsText_cons] at h
    have hname := utf8From_right (s := [' ']) h (by decide)
    have heq := utf8From_right hname (utf8From_name (hnames a List.mem_cons_self))
    have hval := utf8From_right heq (by decide)
    have hesc := utf8From_left (c := '"') (by decide) hval
    have hrest := utf8From_right (s := ['"']) (utf8From_right hval hesc) (by decide)
    intro b hb
    rcases List.mem_cons.mp hb with rfl | hb
    · rw [← utf8From_escape]
      exact hesc
    · exact ih (fun c hc => hnames c (List.mem_cons_of_mem a hc)) hrest b hb

theorem utf8From_tag_parts {name : Str} (h : isXmlName name = true) {attrs : List (Str × Str)}
    {c : Char} (hc : c.toNat < 0x80) {s : Str}
    (hutf : utf8From .start
      ('<' :: name ++ (attrsText attrs ++ (tagSpace attrs ++ c :: s))) = true) :
    utf8From .start (attrsText attrs) = true ∧ utf8From .start s = true := by
  have hopen := utf8From_cons (c := '<') (by decide) (utf8From_name h)
  have hbody := utf8From_right hutf hopen
  have hone : utf8From .start [c] = true := utf8From_cons hc rfl
  cases attrs with
  | nil => exact ⟨rfl, utf8From_right (s := [c]) hbody hone⟩
  | cons a attrs =>
    have hspace : tagSpace (a :: attrs) = [' '] := if_neg (List.cons_ne_nil a attrs)
    rw [hspace, List.singleton_append] at hbody
    have hattrs := utf8From_left (by decide) hbody
    have hrest := utf8From_right (s := [' ']) (utf8From_right hbody hattrs) (by decide)
    exact ⟨hattrs, utf8From_right (s := [c]) hrest hone⟩

theorem AttrsRead.ok {attrs : List (Str × Str)} (h : AttrsRead attrs)
    (hlen : ∀ a ∈ attrs, (escape a.2).length < replacedstrLen - 1)
    (hutf : utf8From .start (attrsText attrs) = true) : AttrsOk attrs where
  names := h.names
  distinct := h.distinct
  values := by
    intro a ha
    have hplain := h.plain a ha
    simp only [valueOk, Bool.and_eq_true, decide_eq_true_eq, List.all_eq_true]
    exact ⟨⟨hlen a ha, by simpa using hplain⟩, utf8From_values h.names hutf a ha⟩

/-- If UTF-8 is saved and the document is well formed, each object could be written. -/
theorem writable_of_wellFormed {tt : TypeTree} {t : CfgNodeObj} {text : Str}
    (hsave : cfgObjSaveTree tt t = .ok text) (hutf : utf8From .start text = true)
    (hdoc : WellFormed (xmlDoc tt t)) : Writable tt t := by
  induction t generalizing text with
  | nil => trivial
  | node o child brother ihChild ihBrother =>
    rw [cfgObjSaveTree] at hsave
    rw [xmlDoc] at hdoc
    rw [Writable]
    cases htype : cfgTypeFindById tt (cfgOidToTid o.id) with
    | none => trivial
    | some type =>
      simp only [htype] at hsave hdoc ⊢
      by_cases hmem : type.1.hasFlag cfgTypeFlagMemory = true
      · rw [if_pos hmem] at hsave hdoc ⊢
        exact ihBrother hsave hutf hdoc
      · rw [if_neg hmem] at hsave hdoc ⊢
        obtain ⟨hname, hread, hwellChild, hwellBrother⟩ := hdoc
        cases hattrs : saveAttrs o.priv with
        | error e =>
          rw [hattrs] at hsave
          cases hsave
        | ok attrs =>
          cases hinner : cfgObjSaveTree tt child with
          | error e =>
            rw [hattrs, hinner] at hsave
            cases hsave
          | ok inner =>
            cases hrest : cfgObjSaveTree tt brother with
            | error e =>
              rw [hattrs, hinner, hrest] at hsave
              cases hsave
            | ok rest =>
              obtain ⟨rfl, hlen⟩ := saveAttrs_eq_ok hattrs
              rw [hattrs, hinner, hrest] at hsave
              cases child with
              | nil =>
                obtain rfl := Except.ok.inj hsave
                simp only [List.append_assoc] at hutf
                obtain ⟨hattrs, hend⟩ := utf8From_tag_parts hname (c := '/') (by decide) hutf
                have hutfRest := utf8From_right (s := "> \n".toList) hend (by decide)
                exact ⟨hname, hread.ok hlen hattrs, trivial, ihBrother hrest hutfRest hwellBrother⟩
              | node o' child' brother' =>
                obtain rfl := Except.ok.inj hsave
                simp only [List.append_assoc] at hutf
                obtain ⟨hattrs, hbody⟩ := utf8From_tag_parts hname (c := '>') (by decide) hutf
                have hchild := utf8From_right (s := " \n".toList) hbody (by decide)
                have hutfInner := utf8From_left (c := '<') (by decide) hchild
                have hclose := utf8From_right (s := "</".toList)
                  (utf8From_right hchild hutfInner) (by decide)
                have hend := utf8From_right hclose (utf8From_name hname)
                have hutfRest := utf8From_right (s := "> \n".toList) hend (by decide)
                exact ⟨hname, hread.ok hlen hattrs, ihChild hinner hutfInner hwellChild,
                  ihBrother hrest hutfRest hwellBrother⟩

/-- The tree is saved, and what is saved is read as the document of the tree. -/
def SavedRight (tt : TypeTree) (t : CfgNodeObj) : Prop :=
  ∃ text, cfgObjSaveTree tt t = .ok text ∧ xmlRead text = some (xmlDoc tt t)

/-- **What is saved is read as the document of the tree** exactly if each object that is saved can
be written and there is one such object beside which there is no other. -/
theorem savedRight_iff (tt : TypeTree) (t : CfgNodeObj) :
    SavedRight tt t ↔ Writable tt t ∧ ∃ e child, xmlDoc tt t = .node e child .nil := by
  constructor
  · rintro ⟨text, hsave, hread⟩
    rw [xmlRead] at hread
    split at hread
    · next hutf =>
      split at hread
      · next e child hnodes =>
        have hdoc := Option.some.inj hread
        have hwell := wellFormed_xmlNodes hnodes
        rw [hdoc] at hwell
        exact ⟨writable_of_wellFormed hsave hutf hwell, e, child, hdoc.symm⟩
      · cases hread
    · cases hread
  · rintro ⟨hwrite, e, child, hdoc⟩
    obtain ⟨text, hsave, hutf, hreads⟩ := cfgObjSaveTree_readsAs hwrite
    have hnodes := hreads (text.length + 1) [] [] (by simp) (.inl rfl) (Nat.lt_succ_self _)
    rw [List.nil_append, List.append_nil, hdoc] at hnodes
    exact ⟨text, hsave, by rw [xmlRead, if_pos hutf, hnodes, hdoc]⟩

end OnuFirmware.Cfg
