import OnuFirmware.Asp.StringTable
import Mathlib.Tactic.NormNum.Prime

/-!
# Which strings are found (`parsers.c`)

The table of the code does on its elements what a table of numbers does on their keys. So the
numbers decide whether the four sizes are enough, and at which slot a search ends.
-/

namespace OnuFirmware.Asp

open Clib Lib

variable {H : SParser} {elem : Hash} {lines : List Str}

/-! ## Searching -/

/-- The numbers in the slots. -/
def SParser.keys (H : SParser) : List Nat := H.ele.map (·.key)

/-- The elements. -/
def SParser.entries (H : SParser) : List Hash := H.ele.filter fun e => e.key ≠ 0

attribute [grind =] SParser.keys SParser.entries

theorem key_getD (ele : List Hash) (p : Nat) :
    (ele.getD p nullHash).key = slotAt (ele.map (·.key)) p := by
  rw [slotAt, List.getD_eq_getElem?_getD, List.getD_eq_getElem?_getD, List.getElem?_map]
  cases ele[p]? with
  | none => rfl
  | some e => rfl

/-- What `Find` returns. -/
def findResult (t : List Nat) (key : Nat) : Bool × Nat × Nat :=
  match seek t key with
  | some c => (slotAt t (probe t.length key c) == key, probe t.length key c, c)
  | none => (false, probe t.length key (t.length - 1), t.length)

attribute [grind =] findResult

theorem findFrom_eq {ele : List Hash} {key : Nat} : ∀ {left c : Nat}, left + c + 1 = ele.length →
    (∀ d < c, ¬ Stops (ele.map (·.key)) key d) →
    findFrom ele key left (probe ele.length key c) c = findResult (ele.map (·.key)) key := by
  intro left
  induction left with
  | zero =>
    intro c hc hfirst
    rw [findFrom]
    simp only [key_getD]
    by_cases hstop : Stops (ele.map (·.key)) key c
    · have hseek := seek_eq_some.mpr ⟨by rw [List.length_map]; omega, hstop, hfirst⟩
      rw [findResult, hseek]
      rw [Stops, List.length_map] at hstop
      simp only [if_pos hstop, List.length_map]
    · have hseek : seek (ele.map (·.key)) key = none := by
        refine seek_eq_none.mpr fun d hd => ?_
        rw [List.length_map] at hd
        by_cases hdc : d < c
        · exact hfirst d hdc
        · obtain rfl : d = c := by omega
          exact hstop
      have hlast : ele.length - 1 = c := by omega
      rw [findResult, hseek]
      rw [Stops, List.length_map] at hstop
      simp only [if_neg hstop, List.length_map, hlast, Prod.mk.injEq, true_and]
      omega
  | succ left ih =>
    intro c hc hfirst
    rw [findFrom]
    simp only [key_getD]
    by_cases hstop : Stops (ele.map (·.key)) key c
    · have hseek := seek_eq_some.mpr ⟨by rw [List.length_map]; omega, hstop, hfirst⟩
      rw [findResult, hseek]
      rw [Stops, List.length_map] at hstop
      simp only [if_pos hstop, List.length_map]
    · have hnext : ∀ d < c + 1, ¬ Stops (ele.map (·.key)) key d := by
        intro d hd
        by_cases hdc : d < c
        · exact hfirst d hdc
        · obtain rfl : d = c := by omega
          exact hstop
      rw [Stops, List.length_map] at hstop
      simp only [if_neg hstop]
      rw [← probe_succ]
      exact ih (by omega) hnext

theorem find_eq {ele : List Hash} (hpos : 0 < ele.length) (key : Nat) :
    find ele key = findResult (ele.map (·.key)) key := by
  have hzero := @findFrom_eq ele key (ele.length - 1) 0 (by omega) fun d hd =>
    absurd hd (Nat.not_lt_zero d)
  rw [probe_zero] at hzero
  exact hzero

theorem findResult_slot (t : List Nat) (key : Nat) : (findResult t key).2.1 = endSlot t key := by
  rw [findResult, endSlot]
  cases seek t key with
  | none => rfl
  | some c => rfl

/-- **A number is found exactly if it is in the slot where the search ends.** -/
theorem findResult_found {t : List Nat} (hpos : 0 < t.length) (key : Nat) :
    (findResult t key).1 = true ↔ slotAt t (endSlot t key) = key := by
  rw [findResult, endSlot]
  cases hseek : seek t key with
  | some c => simp
  | none =>
    have hstop := seek_eq_none.mp hseek (t.length - 1) (by omega)
    simp only [Bool.false_eq_true, false_iff, Option.getD_none]
    exact fun h => hstop (.inr h)

/-! ## Inserting -/

/-- What an insertion keeps. -/
structure TableOk (H : SParser) : Prop where
  pos : 0 < H.ele.length
  reached : Reached H.keys
  null : ∀ e ∈ H.ele, e.key = 0 → e = nullHash
  count : H.count = H.entries.length

theorem length_keys (H : SParser) : H.keys.length = H.ele.length := List.length_map _

theorem content_keys (H : SParser) : content H.keys = H.entries.map (·.key) := by
  rw [content, SParser.keys, List.filter_map, SParser.entries]
  rfl

theorem tableOk_empty {m : Nat} (hm : 0 < m) (i : Nat) : TableOk ⟨emptySlots m, 0, i⟩ where
  pos := by rwa [emptySlots, List.length_replicate]
  reached := by
    rw [SParser.keys, emptySlots, List.map_replicate]
    exact reached_replicate m
  null e he _ := (List.mem_replicate.mp he).2
  count := by simp [SParser.entries, emptySlots, nullHash]

theorem keys_empty (m i : Nat) :
    (⟨emptySlots m, 0, i⟩ : SParser).keys = List.replicate m 0 := List.map_replicate

theorem entries_empty (m i : Nat) : (⟨emptySlots m, 0, i⟩ : SParser).entries = [] := by
  simp [SParser.entries, emptySlots, nullHash]

/-- A slot that is filled adds to what is selected. -/
theorem perm_filter_set {α : Type*} {sel : α → Bool} {l : List α} {p : Nat} {a b : α}
    (hp : l[p]? = some b) (hb : sel b = false) (ha : sel a = true) :
    ((l.set p a).filter sel).Perm (a :: l.filter sel) := by
  induction l generalizing p with
  | nil => exact absurd hp (by simp)
  | cons x l ih =>
    cases p with
    | zero =>
      obtain rfl : x = b := by simpa using hp
      rw [List.set_cons_zero, List.filter_cons_of_pos ha, List.filter_cons_of_neg (by simp [hb])]
    | succ p =>
      rw [List.set_cons_succ]
      rw [List.getElem?_cons_succ] at hp
      by_cases hx : sel x = true
      · rw [List.filter_cons_of_pos hx, List.filter_cons_of_pos hx]
        exact ((ih hp).cons x).trans (List.Perm.swap a x _)
      · rw [List.filter_cons_of_neg hx, List.filter_cons_of_neg hx]
        exact ih hp

/-- The element is new, so that the search for it does not end at its number. -/
theorem slot_ne_of_new (hne : elem.key ≠ 0) (hnew : elem.key ∉ H.entries.map (·.key)) (p : Nat) :
    slotAt H.keys p ≠ elem.key := by
  intro h
  rw [← content_keys, content, List.mem_filter] at hnew
  refine hnew ⟨?_, by simpa using hne⟩
  rw [slotAt, List.getD_eq_getElem?_getD] at h
  cases hp : H.keys[p]? with
  | none =>
    rw [hp, Option.getD_none] at h
    exact absurd h.symm hne
  | some k =>
    rw [hp, Option.getD_some] at h
    exact h ▸ List.mem_of_getElem? hp

/-- **An element that is placed.** -/
theorem insert_placed (h : TableOk H) (hne : elem.key ≠ 0)
    (hnew : elem.key ∉ H.entries.map (·.key)) {t : List Nat}
    (hplace : place H.keys elem.key = some t) (n : Nat) :
    ∃ H', insertToHash n H elem = .ok H' ∧ H'.keys = t ∧ H'.sizeindex = H.sizeindex ∧
      TableOk H' ∧ H'.entries.Perm (elem :: H.entries) := by
  obtain ⟨c, hseek, hc, rfl⟩ := place_eq_some.mp hplace
  have hempty : slotAt H.keys (probe H.keys.length elem.key c) = 0 :=
    (seek_eq_some.mp hseek).2.1.resolve_right (slot_ne_of_new hne hnew _)
  have hfalse : (slotAt H.keys (probe H.keys.length elem.key c) == elem.key) = false := by
    rw [beq_eq_false_iff_ne]
    exact slot_ne_of_new hne hnew _
  have hfind : find H.ele elem.key = (false, probe H.keys.length elem.key c, c) := by
    rw [find_eq h.pos, ← SParser.keys, findResult, hseek]
    simp only [hfalse]
  have hlt : probe H.keys.length elem.key c < H.ele.length := by
    rw [length_keys]
    exact probe_lt h.pos
  generalize hp : probe H.keys.length elem.key c = p at *
  have hslot : H.ele[p]? = some nullHash := by
    have hmem := List.getElem_mem hlt
    rw [List.getElem?_eq_getElem hlt, h.null _ hmem ?_]
    rw [← hempty, SParser.keys, ← key_getD, List.getD_eq_getElem?_getD,
      List.getElem?_eq_getElem hlt, Option.getD_some]
  have hhalf : c < H.ele.length / 2 := by rwa [← length_keys]
  have hperm : (H.ele.set p elem).filter (fun e => e.key ≠ 0) |>.Perm (elem :: H.entries) :=
    perm_filter_set hslot (by simp [nullHash]) (by simpa using hne)
  have hkeys : (H.ele.set p elem).map (·.key) = H.keys.set p elem.key := List.map_set
  refine ⟨{ H with ele := H.ele.set p elem, count := H.count + 1 }, ?_, hkeys, rfl,
    ⟨?_, ?_, ?_, ?_⟩, hperm⟩
  · unfold insertToHash
    simp only [hfind, Bool.false_eq_true, if_false, if_pos hhalf]
  · rw [List.length_set]
    exact h.pos
  · rw [SParser.keys, hkeys, ← hp]
    exact h.reached.set hseek (hp ▸ hempty)
  · intro e he hzero
    rcases List.mem_or_eq_of_mem_set he with hmem | rfl
    · exact h.null e hmem hzero
    · exact absurd hzero hne
  · have hlen := hperm.length_eq
    rw [List.length_cons] at hlen
    rw [SParser.entries, hlen, h.count]

/-- The sizes that are left. -/
def SParser.left (H : SParser) : List Nat := hashsize.drop (H.sizeindex + 1)

/-- An element for which the table has to grow. -/
theorem insert_stuck (h : TableOk H) (hne : elem.key ≠ 0)
    (hnew : elem.key ∉ H.entries.map (·.key)) (hplace : place H.keys elem.key = none) (n : Nat) :
    insertToHash n H elem =
      match n, hashsize[H.sizeindex + 1]? with
      | _, none => .error .overrun
      | 0, _ => .error .overrun
      | n + 1, some m =>
        (H.entries ++ [elem]).foldlM (insertToHash n) ⟨emptySlots m, 0, H.sizeindex + 1⟩ := by
  have hfind : (find H.ele elem.key).1 = false := by
    rw [← Bool.not_eq_true, find_eq h.pos, findResult_found (by rw [List.length_map]; exact h.pos)]
    exact slot_ne_of_new hne hnew _
  have hlate : ¬ (find H.ele elem.key).2.2 < H.ele.length / 2 := by
    rw [find_eq h.pos, ← SParser.keys, findResult]
    rw [place] at hplace
    cases hseek : seek H.keys elem.key with
    | none =>
      simp only [length_keys]
      omega
    | some c =>
      rw [hseek] at hplace
      simp only [length_keys] at hplace ⊢
      intro hc
      rw [if_pos hc] at hplace
      exact absurd hplace (Option.some_ne_none _)
  unfold insertToHash
  simp only [hfind, Bool.false_eq_true, if_false, hlate]
  cases hashsize[H.sizeindex + 1]? with
  | none => rfl
  | some m =>
    cases n with
    | zero => rfl
    | succ n =>
      have hcount : ¬ H.entries.length < H.count := by
        rw [h.count]
        exact Nat.lt_irrefl _
      have htake : H.entries.take H.count = H.entries := by rw [h.count, List.take_length]
      rw [SParser.entries] at hcount htake
      simp only [if_neg hcount, htake]
      rw [List.foldlM_append, SParser.entries]
      refine congrArg _ (funext fun H' => ?_)
      rw [List.foldlM_cons]
      simp

/-! ## Insertions in order -/

/-- The elements are new, and no two of them have the same number. -/
structure NewKeys (H : SParser) (es : List Hash) : Prop where
  ne : ∀ e ∈ es, e.key ≠ 0
  nodup : ((H.entries ++ es).map (·.key)).Nodup

theorem NewKeys.not_mem {es : List Hash} (h : NewKeys H (elem :: es)) :
    elem.key ∉ H.entries.map (·.key) := by
  have hnodup := h.nodup
  rw [List.map_append, List.nodup_append] at hnodup
  intro hmem
  exact hnodup.2.2 _ hmem _ (by simp) rfl

/-- Elements that are inserted settle as their numbers do. -/
structure Settled (r : Except Fault SParser) (H : SParser) (es : List Hash) : Prop where
  eq : r.toOption.map (fun H' => (H'.left, H'.keys)) = settle H.left H.keys (es.map (·.key))
  ok : ∀ H', r = .ok H' → TableOk H' ∧ H'.entries.Perm (H.entries ++ es) ∧
    H'.left.length ≤ H.left.length

/-- Insertions settle in tables for which at most `L` sizes are left. -/
def InsertSpec (L : Nat) : Prop := ∀ n H es, TableOk H → NewKeys H es → H.left.length ≤ L →
  H.left.length ≤ n → Settled (es.foldlM (insertToHash n) H) H es

theorem left_eq_nil (h : hashsize[H.sizeindex + 1]? = none) : H.left = [] := by
  rw [SParser.left, List.drop_eq_nil_iff]
  exact List.getElem?_eq_none_iff.mp h

theorem left_eq_cons {m : Nat} (h : hashsize[H.sizeindex + 1]? = some m) :
    H.left = m :: hashsize.drop (H.sizeindex + 2) := by
  obtain ⟨hlt, rfl⟩ := List.getElem?_eq_some_iff.mp h
  exact List.drop_eq_getElem_cons hlt

theorem hashsize_pos : ∀ m ∈ hashsize, 0 < m := by decide

/-- **One insertion, with the insertions in the larger tables that it makes.** -/
theorem insert_one {L n : Nat} (ih : ∀ L' < L, InsertSpec L') (h : TableOk H)
    (hnew : NewKeys H [elem]) (hL : H.left.length ≤ L) (hn : H.left.length ≤ n) :
    Settled (insertToHash n H elem) H [elem] := by
  have hne := hnew.ne elem (List.mem_singleton_self elem)
  cases hplace : place H.keys elem.key with
  | some t =>
    obtain ⟨H', hok, hkeys, hindex, htable, hperm⟩ := insert_placed h hne hnew.not_mem hplace n
    have hleft : H'.left = H.left := by rw [SParser.left, hindex, SParser.left]
    rw [hok]
    constructor
    · rw [List.map_singleton, settle_placed _ hplace, ← hkeys, ← hleft]
      rfl
    · rintro H'' ⟨rfl⟩
      exact ⟨htable, hperm.trans (List.perm_append_singleton elem H.entries).symm,
        (congrArg List.length hleft).le⟩
  | none =>
    rw [insert_stuck h hne hnew.not_mem hplace]
    cases hsize : hashsize[H.sizeindex + 1]? with
    | none =>
      have herr : ∀ H', (Except.error Fault.overrun : Except Fault SParser) ≠ .ok H' := by
        intro H' he
        cases he
      constructor
      · rw [left_eq_nil hsize, List.map_singleton, settle_stuck_nil hplace]
        cases n with
        | zero => rfl
        | succ n => rfl
      · intro H' hH'
        cases n with
        | zero => exact absurd hH' (herr H')
        | succ n => exact absurd hH' (herr H')
    | some m =>
      have hleft := left_eq_cons hsize
      rw [hleft, List.length_cons] at hL hn
      obtain ⟨n, rfl⟩ := Nat.exists_eq_add_one_of_ne_zero (show n ≠ 0 by omega)
      have hpos : 0 < m := hashsize_pos m (List.mem_of_getElem? hsize)
      have hgrown : NewKeys ⟨emptySlots m, 0, H.sizeindex + 1⟩ (H.entries ++ [elem]) := by
        constructor
        · intro e he
          rcases List.mem_append.mp he with hold | hone
          · simpa using (List.mem_filter.mp hold).2
          · exact hnew.ne e hone
        · rw [entries_empty, List.nil_append]
          exact hnew.nodup
      have hlen : (⟨emptySlots m, 0, H.sizeindex + 1⟩ : SParser).left =
          hashsize.drop (H.sizeindex + 2) := rfl
      have hspec := ih (L - 1) (by omega) n _ _ (tableOk_empty hpos _) hgrown
        (by rw [hlen]; omega) (by rw [hlen]; omega)
      constructor
      · rw [hspec.eq, hlen, keys_empty, hleft, List.map_singleton, settle_stuck_cons _ _ hplace,
          content_keys, List.map_append, List.map_singleton]
      · intro H' hH'
        obtain ⟨htable, hperm, hle⟩ := hspec.ok H' hH'
        rw [entries_empty, List.nil_append] at hperm
        refine ⟨htable, hperm, ?_⟩
        rw [hleft, List.length_cons]
        rw [hlen] at hle
        omega

/-- **Insertions settle.** -/
theorem insertSpec (L : Nat) : InsertSpec L := by
  induction L using Nat.strong_induction_on with
  | _ L ih =>
    intro n H es
    induction es generalizing H with
    | nil =>
      intro h _ _ _
      constructor
      · have hnil : settle H.left H.keys [] = some (H.left, H.keys) := by
          cases H.left with
          | nil => rfl
          | cons m sizes => rfl
        rw [List.map_nil, hnil]
        rfl
      · rintro H' ⟨rfl⟩
        rw [List.append_nil]
        exact ⟨h, List.Perm.refl _, Nat.le_refl _⟩
    | cons elem es ihes =>
      intro h hnew hL hn
      have hfirst : NewKeys H [elem] := by
        constructor
        · intro e he
          exact hnew.ne e (by simp_all)
        · refine hnew.nodup.sublist (List.Sublist.map _ ?_)
          exact (List.Sublist.refl _).append (by simp)
      have hone := insert_one ih h hfirst hL hn
      have hsplit : settle H.left H.keys ((elem :: es).map (·.key)) =
          (settle H.left H.keys ([elem].map (·.key))).bind fun r =>
            settle r.1 r.2 (es.map (·.key)) := by
        rw [List.map_cons, List.map_singleton, ← settle_append, List.singleton_append]
      rw [List.foldlM_cons]
      cases hinsert : insertToHash n H elem with
      | error f =>
        rw [hinsert] at hone
        constructor
        · rw [hsplit, ← hone.eq]
          rfl
        · intro H' hH'
          cases hH'
      | ok H₁ =>
        rw [hinsert] at hone
        obtain ⟨h₁, hperm₁, hle₁⟩ := hone.ok H₁ rfl
        have hperm : (H₁.entries ++ es).Perm (H.entries ++ elem :: es) := by
          refine (hperm₁.append_right es).trans ?_
          rw [List.append_assoc, List.singleton_append]
        have hnew₁ : NewKeys H₁ es := by
          constructor
          · intro e he
            exact hnew.ne e (List.mem_cons_of_mem elem he)
          · exact (hperm.map _).nodup_iff.mpr hnew.nodup
        have hrest := ihes H₁ h₁ hnew₁ (hle₁.trans hL) (hle₁.trans hn)
        constructor
        · rw [hsplit, ← hone.eq]
          exact hrest.eq
        · intro H' hH'
          obtain ⟨h', hperm', hle'⟩ := hrest.ok H' hH'
          exact ⟨h', hperm'.trans hperm, hle'.trans hle₁⟩

/-! ## The file -/

/-- The element of a line. -/
def lineHash (l : Nat × Str × Str) : Hash := ⟨getkey l.2.1, l.1⟩

/-- The table before the first line. -/
def firstTable : SParser := ⟨emptySlots (hashsize.headD 0), 0, 0⟩

theorem parseLines_eq : ∀ {lines : List Str} {offset : Nat} {H : SParser},
    (∀ l ∈ keyLines offset lines, l.2.1.length < maxKey) →
      parseLines lines offset H =
        ((keyLines offset lines).map lineHash).foldlM (insertToHash hashsize.length) H := by
  intro lines
  induction lines with
  | nil =>
    intro offset H _
    rfl
  | cons stream lines ih =>
    intro offset H hshort
    rw [parseLines]
    rw [keyLines] at hshort ⊢
    cases hkey : lineKey stream with
    | none =>
      rw [hkey] at hshort
      exact ih hshort
    | some key =>
      rw [hkey] at hshort
      have hlt : ¬ maxKey ≤ key.length := Nat.not_le.mpr (hshort _ List.mem_cons_self)
      simp only [if_neg hlt, List.map_cons, List.foldlM_cons]
      refine congrArg _ (funext fun H' => ?_)
      exact ih fun l hl => hshort l (List.mem_cons_of_mem _ hl)

/-- The line with a key is at its offset. -/
theorem keyLines_spec : ∀ {lines : List Str} {base : Nat} {l : Nat × Str × Str},
    (∀ stream ∈ lines, stream ≠ []) → l ∈ keyLines base lines →
      base ≤ l.1 ∧ lineAt lines (l.1 - base) = some l.2.2 ∧ lineKey l.2.2 = some l.2.1 ∧
        l.2.2 ∈ lines := by
  intro lines
  induction lines with
  | nil =>
    intro base l _ hl
    exact absurd hl List.not_mem_nil
  | cons stream lines ih =>
    intro base l hpos hl
    have hstream := List.length_pos_of_ne_nil (hpos stream List.mem_cons_self)
    have hlater : l ∈ keyLines (base + stream.length) lines →
        base ≤ l.1 ∧ lineAt (stream :: lines) (l.1 - base) = some l.2.2 ∧
          lineKey l.2.2 = some l.2.1 ∧ l.2.2 ∈ stream :: lines := by
      intro hmem
      obtain ⟨hle, hline, hkey, hin⟩ := ih (fun x hx => hpos x (List.mem_cons_of_mem _ hx)) hmem
      have hsub : l.1 - base - stream.length = l.1 - (base + stream.length) := by omega
      refine ⟨by omega, ?_, hkey, List.mem_cons_of_mem _ hin⟩
      rw [lineAt, if_neg (by omega), hsub, hline]
    rw [keyLines] at hl
    cases hkey : lineKey stream with
    | none =>
      rw [hkey] at hl
      exact hlater hl
    | some key =>
      rw [hkey] at hl
      rcases List.mem_cons.mp hl with rfl | hmem
      · refine ⟨Nat.le_refl _, ?_, hkey, List.mem_cons_self⟩
        rw [Nat.sub_self, lineAt, if_pos hstream, List.drop_zero]
      · exact hlater hmem

theorem lineAt_zero (hpos : ∀ stream ∈ lines, stream ≠ []) : lineAt lines 0 = lines.head? := by
  cases lines with
  | nil => rfl
  | cons stream lines =>
    have hstream := List.length_pos_of_ne_nil (hpos stream List.mem_cons_self)
    rw [lineAt, if_pos hstream, List.drop_zero, List.head?_cons]

theorem mem_fileKeys {l : Nat × Str × Str} (h : l ∈ keyLines 0 lines) : l.2.1 ∈ fileKeys lines :=
  List.mem_map_of_mem h

/-- **The table of a file.** -/
theorem init_settled (hf : StringFile lines) :
    Settled (initandparserfile lines) firstTable ((keyLines 0 lines).map lineHash) := by
  have hparse : initandparserfile lines =
      ((keyLines 0 lines).map lineHash).foldlM (insertToHash hashsize.length) firstTable :=
    parseLines_eq fun l hl => hf.key_short _ (mem_fileKeys hl)
  rw [hparse]
  have hkeys : ((keyLines 0 lines).map lineHash).map (·.key) = (fileKeys lines).map getkey := by
    rw [fileKeys, List.map_map, List.map_map]
    rfl
  refine insertSpec 3 _ _ _ (tableOk_empty (by decide) 0) ⟨?_, ?_⟩ (by decide) (by decide)
  · intro e he
    obtain ⟨l, hl, rfl⟩ := List.mem_map.mp he
    exact hf.key_ne _ (mem_fileKeys hl)
  · rw [firstTable, entries_empty, List.nil_append, hkeys]
    exact hf.key_distinct

/-! ## What is found -/

/-- **An element is in the slot where the search for its number ends.** -/
theorem TableOk.getD_endSlot (h : TableOk H) (he : elem ∈ H.ele) (hne : elem.key ≠ 0) :
    H.ele.getD (endSlot H.keys elem.key) nullHash = elem := by
  obtain ⟨p, hp, hget⟩ := List.getElem_of_mem he
  have hslot : slotAt H.keys p = elem.key := by
    rw [SParser.keys, ← key_getD, List.getD_eq_getElem?_getD, List.getElem?_eq_getElem hp, hget,
      Option.getD_some]
  have hend := h.reached.endSlot_eq (by rwa [length_keys]) (hslot ▸ hne)
  rw [← hslot, hend, List.getD_eq_getElem?_getD, List.getElem?_eq_getElem hp, hget,
    Option.getD_some]

theorem TableOk.find_slot (h : TableOk H) (key : Nat) :
    (find H.ele key).2.1 = endSlot H.keys key := by
  rw [find_eq h.pos, findResult_slot, SParser.keys]

theorem TableOk.found_iff (h : TableOk H) (key : Nat) :
    (find H.ele key).1 = true ↔ slotAt H.keys (endSlot H.keys key) = key := by
  rw [find_eq h.pos, findResult_found (by rw [List.length_map]; exact h.pos), SParser.keys]

/-- **The line that is read.** -/
theorem lineAt_endSlot (hf : StringFile lines) (h : TableOk H)
    (hperm : H.entries.Perm ((keyLines 0 lines).map lineHash)) (pkey : Str) :
    lineAt lines (H.ele.getD (endSlot H.keys (getkey pkey)) nullHash).ioffset =
      shownLine lines H.keys pkey := by
  generalize hp : endSlot H.keys (getkey pkey) = p
  have hlt : p < H.ele.length := by
    rw [← hp, endSlot, ← length_keys]
    exact probe_lt (by rw [length_keys]; exact h.pos)
  have hmem : H.ele.getD p nullHash ∈ H.ele := by
    rw [List.getD_eq_getElem?_getD, List.getElem?_eq_getElem hlt, Option.getD_some]
    exact List.getElem_mem hlt
  have hkey := key_getD H.ele p
  rw [← SParser.keys] at hkey
  rw [shownLine, hp, ← hkey]
  by_cases hzero : (H.ele.getD p nullHash).key = 0
  · rw [if_pos hzero, h.null _ hmem hzero]
    exact lineAt_zero hf.line_pos
  · have hentry : H.ele.getD p nullHash ∈ H.entries := by
      rw [SParser.entries, List.mem_filter]
      exact ⟨hmem, by simpa using hzero⟩
    obtain ⟨l, hl, he⟩ := List.mem_map.mp (hperm.mem_iff.mp hentry)
    have hsome : ((keyLines 0 lines).find? fun l' => getkey l'.2.1 = (lineHash l).key) =
        some l := by
      cases hfind : (keyLines 0 lines).find? fun l' => getkey l'.2.1 = (lineHash l).key with
      | none =>
        have hno := List.find?_eq_none.mp hfind l hl
        simp [lineHash] at hno
      | some l' =>
        have hkeys : ((keyLines 0 lines).map fun l => getkey l.2.1).Nodup := by
          have hdistinct := hf.key_distinct
          rwa [fileKeys, List.map_map] at hdistinct
        have hsame := List.find?_some hfind
        rw [decide_eq_true_iff] at hsame
        rw [List.inj_on_of_nodup_map hkeys (List.mem_of_find?_eq_some hfind) hl hsame]
    obtain ⟨-, hat, -⟩ := keyLines_spec hf.line_pos hl
    rw [if_neg hzero, ← he, hsome, Option.map_some]
    exact hat

theorem getString_eq (hf : StringFile lines) (h : TableOk H)
    (hperm : H.entries.Perm ((keyLines 0 lines).map lineHash)) {pkey : Str} (hne : pkey ≠ []) :
    getString lines H pkey = (shownLine lines H.keys pkey).bind (readValue · pkey) := by
  rw [getString, if_neg hne]
  simp only [h.find_slot, lineAt_endSlot hf h hperm]

/-- A key of the file is found, with its offset and its line. -/
theorem key_found (hf : StringFile lines) (h : TableOk H)
    (hperm : H.entries.Perm ((keyLines 0 lines).map lineHash)) {l : Nat × Str × Str}
    (hl : l ∈ keyLines 0 lines) :
    (find H.ele (getkey l.2.1)).1 = true ∧
      (H.ele.getD (find H.ele (getkey l.2.1)).2.1 nullHash).ioffset = l.1 ∧
      shownLine lines H.keys l.2.1 = some l.2.2 := by
  have hmem : lineHash l ∈ H.entries := hperm.mem_iff.mpr (List.mem_map_of_mem hl)
  have hslot := h.getD_endSlot (List.mem_filter.mp hmem).1 (hf.key_ne _ (mem_fileKeys hl))
  have hoffset : (H.ele.getD (endSlot H.keys (getkey l.2.1)) nullHash).ioffset = l.1 :=
    congrArg Hash.ioffset hslot
  refine ⟨(h.found_iff _).mpr ?_, by rw [h.find_slot, hoffset], ?_⟩
  · have hkey := key_getD H.ele (endSlot H.keys (getkey l.2.1))
    rw [← SParser.keys] at hkey
    exact hkey.symm.trans (congrArg Hash.key hslot)
  · rw [← lineAt_endSlot hf h hperm, hoffset]
    exact (keyLines_spec hf.line_pos hl).2.1

/-! ## What is read -/

theorem readValue_shows {stream pkey : Str} :
    (readValue stream pkey).elim 0 List.length = 0 ↔ ¬ Shows stream pkey := by
  rw [readValue, Shows]
  by_cases hstart : pkey <+: stream
  · have hlen := hstart.length_le
    rw [if_pos (List.isPrefixOf_iff_prefix.mpr hstart)]
    by_cases hbad : maxValue < totalLength stream pkey + 1 ∨ totalLength stream pkey < 0
    · rw [if_pos hbad]
      simp only [Option.elim_none, true_iff]
      omega
    · rw [if_neg hbad, Option.elim_some, List.length_take, List.length_drop]
      have hle : totalLength stream pkey ≤ stream.length - pkey.length - 1 := by
        rw [totalLength]
        omega
      have hmax : (maxValue : Int) = 580 := rfl
      simp only [hstart, true_and]
      omega
  · rw [if_neg (mt List.isPrefixOf_iff_prefix.mp hstart)]
    simp [hstart]

theorem stripEnd_isStart (c : Char) (s : Str) : stripEnd c s <+: s := by
  rw [stripEnd]
  split
  · exact List.dropLast_prefix s
  · exact List.prefix_refl s

theorem length_stripEnd (c : Char) (s : Str) :
    (stripEnd c s).length + (if s.getLast? = some c then 1 else 0) = s.length := by
  rw [stripEnd]
  split
  · next h =>
    have hne : s ≠ [] := by
      rintro rfl
      exact absurd h (Option.some_ne_none c).symm
    have hpos := List.length_pos_of_ne_nil hne
    rw [List.length_dropLast]
    omega
  · rfl

theorem stripEnd_concat (c y : Char) (r : Str) :
    stripEnd c (r ++ [y]) = if y = c then r else r ++ [y] := by
  rw [stripEnd, List.getLast?_concat, List.dropLast_concat]
  simp only [Option.some_inj]

/-- A character in the text that is not the one that is taken away stays the last one before what
follows it. -/
theorem stripEnd_append {c x : Char} (hx : x ≠ c) (a s : Str) :
    stripEnd c (a ++ x :: s) = a ++ x :: stripEnd c s := by
  rcases List.eq_nil_or_concat s with rfl | ⟨r, y, rfl⟩
  · rw [stripEnd_concat, if_neg hx]
    rfl
  · have hassoc : a ++ x :: r.concat y = (a ++ x :: r) ++ [y] := by simp
    rw [hassoc, stripEnd_concat, List.concat_eq_append, stripEnd_concat]
    split
    · rfl
    · rw [List.append_assoc, List.cons_append]

theorem lineKey_spec {stream key : Str} (h : lineKey stream = some key) :
    ∃ rest, stream = key ++ '=' :: rest := by
  rw [lineKey] at h
  split at h
  · exact absurd h (Option.some_ne_none key).symm
  · next hcond =>
    have hmem : '=' ∈ stream := by
      by_contra hnot
      exact hcond (.inr hnot)
    obtain ⟨a, b, rfl, ha⟩ := List.eq_append_cons_of_mem hmem
    have hall : ∀ c ∈ a, decide (c ≠ '=') = true := by
      intro c hc
      rw [decide_eq_true_iff]
      rintro rfl
      exact ha hc
    rw [List.takeWhile_append_of_pos hall, List.takeWhile_cons_of_neg (by simp),
      List.append_nil] at h
    exact ⟨b, by rw [Option.some_inj.mp h]⟩

/-- A line has a newline exactly if it ends with one. -/
theorem mem_newline_iff {stream : Str} (h : '\n' ∉ stream.dropLast) :
    '\n' ∈ stream ↔ stream.getLast? = some '\n' := by
  rcases List.eq_nil_or_concat stream with rfl | ⟨r, x, rfl⟩
  · simp
  · rw [List.concat_eq_append, List.dropLast_concat] at h
    simp [h, eq_comm]

/-- What is behind the `=`, and how much of it is taken. -/
theorem totalLength_key {stream key : Str} (hkey : lineKey stream = some key)
    (hend : '\n' ∉ stream.dropLast) :
    (∃ r, stream.drop (key.length + 1) = lineValue key stream ++ r) ∧
      totalLength stream key = (lineValue key stream).length +
        (if (chomp stream).getLast? = some '\r' then 1 else 0) -
          if '\r' ∈ stream then 1 else 0 := by
  obtain ⟨rest, rfl⟩ := lineKey_spec hkey
  have hbare : bareLine (key ++ '=' :: rest) = key ++ '=' :: bareLine rest := by
    rw [bareLine, chomp, stripEnd_append (by decide), stripEnd_append (by decide), bareLine, chomp]
  have hdrop : ∀ s : Str, (key ++ '=' :: s).drop (key.length + 1) = s := by
    intro s
    rw [← List.singleton_append, ← List.append_assoc]
    exact List.drop_left' (by simp)
  have hvalue : lineValue key (key ++ '=' :: rest) = bareLine rest := by
    rw [lineValue, hbare, hdrop]
  have hlen := length_stripEnd '\n' (key ++ '=' :: rest)
  have hlen' := length_stripEnd '\r' (chomp (key ++ '=' :: rest))
  rw [← chomp] at hlen
  rw [← bareLine, hbare, List.length_append, List.length_cons] at hlen'
  constructor
  · obtain ⟨r, hr⟩ : bareLine rest <+: rest := (stripEnd_isStart _ _).trans (stripEnd_isStart _ _)
    exact ⟨r, by rw [hdrop, hvalue, hr]⟩
  · rw [totalLength, enterOffSet, hvalue]
    simp only [mem_newline_iff hend]
    generalize (key ++ '=' :: rest).length = n at hlen ⊢
    generalize (chomp (key ++ '=' :: rest)).length = n' at hlen hlen'
    split_ifs at hlen hlen' ⊢ <;> omega

/-- **The text of a key is read exactly if it is neither too long nor has a `\r` before its line
end.** -/
theorem readValue_key {stream key : Str} (hkey : lineKey stream = some key)
    (hend : '\n' ∉ stream.dropLast) :
    readValue stream key = some (lineValue key stream) ↔ ValueOk key stream := by
  obtain ⟨⟨r, hr⟩, htotal⟩ := totalLength_key hkey hend
  have hstart : key.isPrefixOf stream = true := by
    obtain ⟨rest, rfl⟩ := lineKey_spec hkey
    exact List.isPrefixOf_iff_prefix.mpr (List.prefix_append key _)
  have hmem : (chomp stream).getLast? = some '\r' → '\r' ∈ stream := by
    intro h
    exact (stripEnd_isStart _ _).subset (List.mem_of_getLast? h)
  have hmax : (maxValue : Int) = 580 := rfl
  rw [readValue, if_pos hstart, hr, ValueOk]
  generalize lineValue key stream = v at *
  by_cases hcr : '\r' ∈ stream → (chomp stream).getLast? = some '\r'
  · have hsame : totalLength stream key = v.length := by
      rw [htotal]
      by_cases h : '\r' ∈ stream
      · rw [if_pos h, if_pos (hcr h)]
        omega
      · rw [if_neg h, if_neg (mt hmem h)]
        omega
    rw [hsame, Int.toNat_natCast, List.take_left]
    by_cases hbad : (maxValue : Int) < v.length + 1 ∨ (v.length : Int) < 0
    · rw [if_pos hbad]
      refine iff_of_false (Option.some_ne_none v).symm fun h => ?_
      have hlt := h.1
      omega
    · rw [if_neg hbad]
      exact iff_of_true rfl ⟨by omega, hcr⟩
  · rw [Classical.not_imp] at hcr
    have hshort : totalLength stream key = v.length - 1 := by
      rw [htotal, if_pos hcr.1, if_neg hcr.2]
      omega
    refine iff_of_false (fun h => ?_) fun h => hcr.2 (h.2 hcr.1)
    split at h
    · exact absurd h (Option.some_ne_none v).symm
    · next hgood =>
      have hlen := congrArg List.length (Option.some_inj.mp h)
      rw [List.length_take, List.length_append] at hlen
      omega

/-! ## The table of a file -/

theorem firstTable_settle (lines : List Str) :
    settle firstTable.left firstTable.keys (((keyLines 0 lines).map lineHash).map (·.key)) =
      settle hashsize.tail (List.replicate (hashsize.headD 0) 0) ((fileKeys lines).map getkey) := by
  rw [firstTable, keys_empty, fileKeys, List.map_map, List.map_map]
  rfl

/-- **A string file is read right exactly if its numbers fit the four sizes, its texts can be read,
and no line is shown for a text that is no key.** -/
theorem stringTable_iff (hf : StringFile lines) : TableRight lines ↔ TableCond lines := by
  have hset := init_settled hf
  have heq := hset.eq
  rw [firstTable_settle] at heq
  have htable : ∀ H, initandparserfile lines = .ok H →
      TableOk H ∧ H.entries.Perm ((keyLines 0 lines).map lineHash) := by
    intro H hok
    obtain ⟨h, hperm, -⟩ := hset.ok H hok
    rw [firstTable, entries_empty, List.nil_append] at hperm
    exact ⟨h, hperm⟩
  have hkey_ne : ∀ l ∈ keyLines 0 lines, l.2.1 ≠ [] := by
    intro l hl hnil
    exact hf.key_ne _ (mem_fileKeys hl) (by rw [hnil]; rfl)
  have hvalue : ∀ H, initandparserfile lines = .ok H → ∀ l ∈ keyLines 0 lines,
      (getString lines H l.2.1 = some (lineValue l.2.1 l.2.2) ↔ ValueOk l.2.1 l.2.2) := by
    intro H hok l hl
    obtain ⟨h, hperm⟩ := htable H hok
    obtain ⟨-, -, hkey, hin⟩ := keyLines_spec hf.line_pos hl
    rw [getString_eq hf h hperm (hkey_ne l hl), (key_found hf h hperm hl).2.2, Option.bind_some]
    exact readValue_key hkey (hf.line_end _ hin)
  constructor
  · rintro ⟨H, hok, hkeys, hmiss⟩
    obtain ⟨h, hperm⟩ := htable H hok
    rw [hok] at heq
    refine ⟨_, heq.symm, fun offset key stream hl => ?_, fun pkey hne hnot stream hshown => ?_⟩
    · exact (hvalue H hok _ hl).mp (hkeys offset key stream hl).2.2
    · have hret := hmiss pkey hnot
      rw [getStringRet, getString_eq hf h hperm hne, hshown, Option.bind_some] at hret
      exact readValue_shows.mp hret
  · rintro ⟨t, ht, hval, hshow⟩
    rw [ht] at heq
    cases hok : initandparserfile lines with
    | error f =>
      rw [hok] at heq
      exact absurd heq.symm (Option.some_ne_none t)
    | ok H =>
      obtain ⟨h, hperm⟩ := htable H hok
      rw [hok] at heq
      obtain rfl := Option.some_inj.mp heq
      refine ⟨H, hok, fun offset key stream hl => ?_, fun pkey hnot => ?_⟩
      · obtain ⟨hfound, hoffset, -⟩ := key_found hf h hperm hl
        exact ⟨hfound, hoffset, (hvalue H hok _ hl).mpr (hval offset key stream hl)⟩
      · by_cases hne : pkey = []
        · rw [getStringRet, getString, if_pos hne]
          rfl
        · rw [getStringRet, getString_eq hf h hperm hne]
          cases hshown : shownLine lines H.keys pkey with
          | none => rfl
          | some stream =>
            rw [Option.bind_some]
            exact readValue_shows.mpr (hshow pkey hne hnot stream hshown)

/-- **A file with at most 1764 keys does not need more than the four sizes.** -/
theorem settle_of_length_le (hle : (fileKeys lines).length ≤ 1764) :
    (settle hashsize.tail (List.replicate (hashsize.headD 0) 0)
      ((fileKeys lines).map getkey)).isSome = true := by
  have hprime : Nat.Prime 3529 := by norm_num
  refine settle_isSome hprime ?_
  rw [content_replicate, List.length_nil, Nat.zero_add, List.length_map]
  exact hle

/-! ## A key that meets another one -/

/-- A file whose two keys get the same slot; its first line is a comment that starts no key. -/
def collidingStrings : List Str := [";\n".toList, "A0=first\n".toList, "TZ=second\n".toList]

theorem stringFile_collidingStrings : StringFile collidingStrings := by
  constructor
  all_goals decide +kernel

/-- No text but a key shows a line that it starts. -/
theorem tableCond_collidingStrings : TableCond collidingStrings := by
  have hlines : ∀ stream ∈ collidingStrings, ∀ pkey ∈ stream.inits,
      (settle hashsize.tail (List.replicate (hashsize.headD 0) 0)
        ((fileKeys collidingStrings).map getkey)).all (fun t =>
          pkey == [] || pkey ∈ fileKeys collidingStrings ||
          shownLine collidingStrings t.2 pkey != some stream ||
          !decide (0 < totalLength stream pkey)) = true := by
    decide +kernel
  have hshort : (fileKeys collidingStrings).length ≤ 1764 := by decide
  obtain ⟨t, ht⟩ := Option.isSome_iff_exists.mp (settle_of_length_le hshort)
  refine ⟨t, ht, ?_, fun pkey hne hnot stream hshown hshows => ?_⟩
  · have hvalues : ∀ l ∈ keyLines 0 collidingStrings,
        (lineValue l.2.1 l.2.2).length < maxValue ∧ '\r' ∉ l.2.2 := by decide
    intro offset key stream hmem
    obtain ⟨hlen, hcr⟩ := hvalues _ hmem
    exact ⟨hlen, fun h => absurd h hcr⟩
  · have hmem : stream ∈ collidingStrings := by
      have hkeys : ∀ l ∈ keyLines 0 collidingStrings, l.2.2 ∈ collidingStrings := by decide
      unfold shownLine at hshown
      dsimp only at hshown
      split at hshown
      · exact List.mem_of_mem_head? hshown
      · obtain ⟨l, hl, rfl⟩ := Option.map_eq_some_iff.mp hshown
        exact hkeys l (List.mem_of_find?_eq_some hl)
    have hcheck := hlines stream hmem pkey ((List.mem_inits pkey stream).mpr hshows.1)
    rw [ht, Option.all_some] at hcheck
    simp [hne, hnot, hshown, hshows.2.1] at hcheck

/-- Both keys are found, the second one past the first. -/
theorem stringTable_iff_colliding : TableRight collidingStrings ∧
    probe 2531 (getkey "A0".toList) 0 = probe 2531 (getkey "TZ".toList) 0 :=
  ⟨(stringTable_iff stringFile_collidingStrings).mpr tableCond_collidingStrings, by decide⟩

/-! ## The beginning of the first line -/

/-- A file with one string. -/
def oneString : List Str := ["abc=1\n".toList]

theorem stringFile_oneString : StringFile oneString := by
  constructor
  all_goals decide

/-- The first letter of the key is no key, and what follows the next character is read for it. -/
theorem stringTable_wrong : StringFile oneString ∧ ¬ TableRight oneString := by
  refine ⟨stringFile_oneString, ?_⟩
  rintro ⟨H, hok, -, hmiss⟩
  have hread : (initandparserfile oneString).toOption.map
      (fun H => getStringRet oneString H "a".toList) = some 3 := by decide +kernel
  rw [hok] at hread
  have hret : getStringRet oneString H "a".toList = 3 := Option.some_inj.mp hread
  rw [hmiss "a".toList (by decide)] at hret
  omega

end OnuFirmware.Asp
