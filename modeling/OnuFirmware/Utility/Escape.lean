import OnuFirmware.Clib.Buf
import OnuFirmware.Lib.Escape

/-!
# Escaping of commands and parameters (`utility.c`)

A command is looked through for injected code, its backquotes are escaped into a buffer of 1025
bytes, and the result goes to `system` or into a file. `escape_param` escapes a parameter into a
buffer of the caller.

`escape_special_character` tests after each character whether the buffer is full and then returns
its input pointer, which is behind that character. So a command whose escaped form has 1025 bytes or
more loses its beginning (`escapeLoop_full`).
-/

namespace OnuFirmware.Utility

open Clib Lib

/-! ## Commands -/

/-- The character that starts and ends a command substitution. -/
def backquote : Char := '\x60'

/-- `needs_escape`. -/
def needsEscape (c : Char) : Bool := c == backquote

/-- The distance of the last `c` of a string from its beginning, as `strrchr` finds it. -/
def strrchr (s : Str) (c : Char) : Option Nat :=
  (s.reverse.idxOf? c).map fun i => s.length - 1 - i

/-- The loop of `escape_special_character`; `index` counts from the beginning of `outp`. -/
def escapeLoop (len : Nat) : Str → Str → Nat → Except Fault Str
  | [], outp, index => do cstr (← store outp index '\x00')
  | c :: inp, outp, index => do
    if needsEscape c then
      let outp ← store (← store outp index '\\') (index + 1) c
      if len ≤ index + 2 then .ok inp else escapeLoop len inp outp (index + 2)
    else
      let outp ← store outp index c
      if len ≤ index + 1 then .ok inp else escapeLoop len inp outp (index + 1)

/-- `escape_special_character`: the string that is returned. -/
def escapeSpecialCharacter (inp outp : Str) (len : Nat) : Except Fault Str :=
  match inp.idxOf? backquote with
  | none => .ok inp
  | some begin =>
    match strrchr (inp.drop begin) backquote with
    | none => .ok inp
    | some d => if d ≤ 1 then .ok inp else escapeLoop len inp outp 0

/-- `s_inject_code`. -/
def injectCode : Str := [';', '&', '|', '$', '<', '\'', '\\', '!', '#']

/-- `check_injection_code`: whether it returns `-1`. -/
def checkInjectionCode (chAt : Char) : Bool := injectCode.contains chAt

/-- The loop of `check_injection_code_command`: whether it ends without an error. -/
def checkInjectionLoop (cmdLen : Nat) : Nat → Str → Bool
  | _, [] => true
  | idx, chAt :: cmd =>
    if checkInjectionCode chAt then
      -- an ampersand can be at the end, a number sign at the beginning
      if chAt = '&' ∧ 2 ≤ cmdLen ∧ (cmdLen - 1 = idx ∨ cmdLen - 2 = idx) then
        checkInjectionLoop cmdLen (idx + 1) cmd
      else if chAt = '#' ∧ 1 ≤ cmdLen ∧ idx = 0 then checkInjectionLoop cmdLen (idx + 1) cmd
      else false
    else checkInjectionLoop cmdLen (idx + 1) cmd

/-- `check_injection_code_command`: whether it returns `0`. -/
def checkInjectionCodeCommand (cmd : Str) : Bool := checkInjectionLoop cmd.length 0 cmd

/-- `sizeof(cmd_buf)`. -/
def cmdBufLen : Nat := 1025

/-- `system_escape`: the command that `system` runs, if the check lets it. -/
def systemEscape (cmd : Str) : Except Fault (Option Str) :=
  if checkInjectionCodeCommand cmd then do
    let pcmd ← escapeSpecialCharacter cmd (zeros cmdBufLen) cmdBufLen
    .ok (some pcmd)
  else .ok none

/-- `fputs_escape`: the text that `fputs` writes, if the check lets it. -/
def fputsEscape (cmd : Str) : Except Fault (Option Str) :=
  if checkInjectionCodeCommand cmd then do
    let pcmd ← escapeSpecialCharacter cmd (zeros cmdBufLen) cmdBufLen
    .ok (some pcmd)
  else .ok none

/-! ## When a command is escaped -/

/-- Two backquotes with at least one character between them. -/
def Enclosed (cmd : Str) : Prop := ∃ a b c, b ≠ [] ∧ cmd = a ++ backquote :: (b ++ backquote :: c)

/-- The escaped form of a command. -/
def escapedCmd (cmd : Str) : Str := escapeBy needsEscape '\\' cmd

/-- **What a command is to become**: itself, or its escaped form where it encloses something in
backquotes; never a part of itself. No store leaves the buffer. -/
def EscapedRight (cmd : Str) (r : Except Fault (Option Str)) : Prop :=
  ∃ s, r = .ok (some s) ∧ (¬ Enclosed cmd → s = cmd) ∧ (Enclosed cmd → s = escapedCmd cmd) ∧
    (s <:+ cmd → s = cmd) ∧ (s <+: cmd → s = cmd)

theorem strrchr_append {u v : Str} {c : Char} (h : c ∉ v) :
    strrchr (u ++ c :: v) c = some u.length := by
  have hrev : (u ++ c :: v).reverse = v.reverse ++ c :: u.reverse := by simp
  rw [strrchr, hrev, idxOf?_append_cons (by simpa using h)]
  simp

/-- The test of `escape_special_character` finds out whether something is enclosed. -/
theorem enclosed_iff {a t : Str} (h : backquote ∉ a) :
    Enclosed (a ++ backquote :: t) ↔ backquote ∈ t.drop 1 := by
  constructor
  · rintro ⟨a', b, c, hb, heq⟩
    rcases List.append_eq_append_iff.mp heq with ⟨u, ha', hu⟩ | ⟨u, ha, hu⟩
    · cases u with
      | nil =>
        obtain rfl : t = b ++ backquote :: c := by simpa using hu
        cases b with
        | nil => exact absurd rfl hb
        | cons x b => simp
      | cons x u =>
        obtain ⟨-, rfl⟩ : backquote = x ∧ t = u ++ backquote :: (b ++ backquote :: c) := by
          simpa using hu
        cases u <;> simp
    · cases u with
      | nil =>
        obtain rfl : t = b ++ backquote :: c := by simpa using hu.symm
        cases b with
        | nil => exact absurd rfl hb
        | cons x b => simp
      | cons x u =>
        obtain ⟨rfl, -⟩ : backquote = x ∧ _ := by simpa using hu
        exact absurd (by simp [ha]) h
  · intro ht
    cases t with
    | nil => exact absurd ht (by simp)
    | cons x t =>
      obtain ⟨u, v, rfl⟩ := List.append_of_mem (by simpa using ht)
      exact ⟨a, x :: u, v, by simp, by simp⟩

theorem exists_last {c : Char} {s : Str} (h : c ∈ s) : ∃ u v, s = u ++ c :: v ∧ c ∉ v := by
  obtain ⟨a, b, hs, ha⟩ := List.eq_append_cons_of_mem (List.mem_reverse.mpr h)
  refine ⟨b.reverse, a.reverse, ?_, by simpa using ha⟩
  rw [← List.reverse_reverse s, hs]
  simp

/-- A command that encloses nothing is returned, another one goes through the loop. -/
theorem escapeSpecialCharacter_cases (inp outp : Str) (len : Nat) :
    (¬ Enclosed inp ∧ escapeSpecialCharacter inp outp len = .ok inp) ∨
      (Enclosed inp ∧ escapeSpecialCharacter inp outp len = escapeLoop len inp outp 0) := by
  by_cases hmem : backquote ∈ inp
  · obtain ⟨a, t, rfl, ha⟩ := List.eq_append_cons_of_mem hmem
    have hfirst : (a ++ backquote :: t).drop a.length = backquote :: t := by simp
    obtain ⟨u, v, hlast, hv⟩ := exists_last (List.mem_cons_self (a := backquote) (l := t))
    have hrun : escapeSpecialCharacter (a ++ backquote :: t) outp len =
        if u.length ≤ 1 then .ok (a ++ backquote :: t)
        else escapeLoop len (a ++ backquote :: t) outp 0 := by
      simp only [escapeSpecialCharacter, idxOf?_append_cons ha, hfirst]
      rw [hlast, strrchr_append hv]
    rw [enclosed_iff ha, hrun]
    -- the last backquote is the first one, the next character, or farther away
    match u, hlast with
    | [], hlast =>
      obtain rfl : t = v := by simpa using hlast
      exact .inl ⟨fun h => hv (List.mem_of_mem_drop h), rfl⟩
    | [_], hlast =>
      obtain ⟨-, rfl⟩ : backquote = _ ∧ t = backquote :: v := by simpa using hlast
      exact .inl ⟨hv, rfl⟩
    | _ :: y :: u, hlast =>
      obtain ⟨-, rfl⟩ : backquote = _ ∧ t = y :: (u ++ backquote :: v) := by simpa using hlast
      exact .inr ⟨by simp, if_neg (by simp)⟩
  · refine .inl ⟨?_, ?_⟩
    · rintro ⟨a, b, c, -, rfl⟩
      exact hmem (by simp)
    · rw [escapeSpecialCharacter, List.idxOf?_eq_none_iff.mpr hmem]

/-! ## The loop -/

theorem escapeLoop_special {c : Char} (hc : needsEscape c = true) (len n : Nat) (s w : Str) :
    escapeLoop len (c :: s) (w ++ zeros (n + 2)) w.length =
      if len ≤ w.length + 2 then .ok s
      else escapeLoop len s (w ++ ['\\', c] ++ zeros n) (w ++ ['\\', c]).length := by
  have hsnd : store (w ++ ['\\'] ++ '\x00' :: zeros n) (w.length + 1) c =
      .ok (w ++ ['\\'] ++ [c] ++ zeros n) := by
    simpa using store_append (w ++ ['\\']) (zeros n) '\x00' c
  rw [escapeLoop, if_pos hc, zeros_succ, store_append, zeros_succ]
  simp only [bind, Except.bind, hsnd]
  simp

/-- The second of two characters does not fit. -/
theorem escapeLoop_special_end {c : Char} (hc : needsEscape c = true) (len : Nat) (s w : Str) :
    escapeLoop len (c :: s) (w ++ zeros 1) w.length = .error .overrun := by
  have hsnd : store (w ++ ['\\'] ++ []) (w.length + 1) c = .error .overrun := by
    simpa using store_length (w ++ ['\\']) c
  rw [escapeLoop, if_pos hc, zeros_succ, zeros, List.replicate_zero, store_append]
  simp only [bind, Except.bind, hsnd]

theorem escapeLoop_plain {c : Char} (hc : needsEscape c = false) (len n : Nat) (s w : Str) :
    escapeLoop len (c :: s) (w ++ zeros (n + 1)) w.length =
      if len ≤ w.length + 1 then .ok s
      else escapeLoop len s (w ++ [c] ++ zeros n) (w ++ [c]).length := by
  rw [escapeLoop, if_neg (by simp [hc]), zeros_succ, store_append]
  simp [bind, Except.bind]

/-- **The escaped form fits**: the loop returns it. -/
theorem escapeLoop_fits : ∀ (s w : Str) (n : Nat), '\x00' ∉ w → '\x00' ∉ s →
    (escapedCmd s).length < n →
    escapeLoop (w.length + n) s (w ++ zeros n) w.length = .ok (w ++ escapedCmd s)
  | [], w, 0, _, _, hlen => absurd hlen (Nat.not_lt_zero _)
  | [], w, n + 1, hw, _, _ => by
    rw [escapeLoop, zeros_succ, store_append, List.append_assoc, List.singleton_append]
    simp only [bind, Except.bind, cstr_append hw]
    simp [escapedCmd]
  | c :: s, w, n, hw, hs, hlen => by
    have hc : '\x00' ≠ c := fun h => hs (h ▸ List.mem_cons_self)
    have hs' : '\x00' ∉ s := fun h => hs (List.mem_cons_of_mem c h)
    by_cases hn : needsEscape c = true
    · have hesc : escapedCmd (c :: s) = '\\' :: c :: escapedCmd s := escapeBy_special hn s
      rw [hesc, List.length_cons, List.length_cons] at hlen
      obtain ⟨m, rfl⟩ : ∃ m, n = m + 2 := ⟨n - 2, by omega⟩
      have hlen' : w.length + (m + 2) = (w ++ ['\\', c]).length + m := by
        simp
        omega
      rw [escapeLoop_special hn, if_neg (by omega), hlen',
        escapeLoop_fits s _ m (by simp [hw, hc]) hs' (by omega), hesc]
      simp
    · have hesc : escapedCmd (c :: s) = c :: escapedCmd s := escapeBy_plain (by simpa using hn) s
      rw [hesc, List.length_cons] at hlen
      obtain ⟨m, rfl⟩ : ∃ m, n = m + 1 := ⟨n - 1, by omega⟩
      have hlen' : w.length + (m + 1) = (w ++ [c]).length + m := by
        simp
        omega
      rw [escapeLoop_plain (by simpa using hn), if_neg (by omega), hlen',
        escapeLoop_fits s _ m (by simp [hw, hc]) hs' (by omega), hesc]
      simp

/-- **The escaped form does not fit**: the loop stores behind the buffer or returns a proper end of
its input. -/
theorem escapeLoop_full : ∀ (s w : Str) (n : Nat), 0 < n → n ≤ (escapedCmd s).length →
    ∀ t, escapeLoop (w.length + n) s (w ++ zeros n) w.length = .ok t → t.length < s.length
  | [], _, _, hn, hlen, _, _ => absurd hn (by simpa [escapedCmd] using hlen)
  | c :: s, w, n, hn, hlen, t, ht => by
    by_cases hc : needsEscape c = true
    · have hesc : escapedCmd (c :: s) = '\\' :: c :: escapedCmd s := escapeBy_special hc s
      rw [hesc, List.length_cons, List.length_cons] at hlen
      obtain rfl | rfl | ⟨m, rfl⟩ : n = 1 ∨ n = 2 ∨ ∃ m, n = m + 3 := by
        rcases Nat.lt_or_ge n 3 with h | h
        · omega
        · exact .inr (.inr ⟨n - 3, by omega⟩)
      · rw [escapeLoop_special_end hc] at ht
        cases ht
      · rw [escapeLoop_special hc, if_pos (by omega)] at ht
        cases ht
        exact Nat.lt_succ_self _
      · have hlen' : w.length + (m + 3) = (w ++ ['\\', c]).length + (m + 1) := by
          simp
          omega
        rw [escapeLoop_special hc, if_neg (by omega), hlen'] at ht
        have ih := escapeLoop_full s _ (m + 1) (by omega) (by omega) t ht
        exact Nat.lt_succ_of_lt ih
    · have hc : needsEscape c = false := by simpa using hc
      have hesc : escapedCmd (c :: s) = c :: escapedCmd s := escapeBy_plain hc s
      rw [hesc, List.length_cons] at hlen
      obtain rfl | ⟨m, rfl⟩ : n = 1 ∨ ∃ m, n = m + 2 := by
        rcases Nat.lt_or_ge n 2 with h | h
        · exact .inl (by omega)
        · exact .inr ⟨n - 2, by omega⟩
      · rw [escapeLoop_plain hc, if_pos (by omega)] at ht
        cases ht
        exact Nat.lt_succ_self _
      · have hlen' : w.length + (m + 2) = (w ++ [c]).length + (m + 1) := by
          simp
          omega
        rw [escapeLoop_plain hc, if_neg (by omega), hlen'] at ht
        have ih := escapeLoop_full s _ (m + 1) (by omega) (by omega) t ht
        exact Nat.lt_succ_of_lt ih

/-! ## Commands that are passed on -/

theorem length_le_escapedCmd (s : Str) : s.length ≤ (escapedCmd s).length := by
  rw [escapedCmd, length_escapeBy]
  exact Nat.le_add_right _ _

/-- Something in backquotes makes the escaped form longer. -/
theorem length_lt_escapedCmd {s : Str} (h : Enclosed s) : s.length < (escapedCmd s).length := by
  obtain ⟨a, b, c, -, rfl⟩ := h
  have hpos : 0 < (a ++ backquote :: (b ++ backquote :: c)).countP needsEscape :=
    List.countP_pos_iff.mpr ⟨backquote, by simp, rfl⟩
  rw [escapedCmd, length_escapeBy]
  omega

theorem systemEscape_eq {cmd : Str} (h : checkInjectionCodeCommand cmd = true) :
    systemEscape cmd = (escapeSpecialCharacter cmd (zeros cmdBufLen) cmdBufLen).map some := by
  rw [systemEscape, if_pos h]
  cases escapeSpecialCharacter cmd (zeros cmdBufLen) cmdBufLen <;> rfl

theorem fputsEscape_eq (cmd : Str) : fputsEscape cmd = systemEscape cmd := rfl

/-- A command that encloses nothing is passed on as it is. -/
theorem escapedRight_of_not_enclosed {cmd : Str} (h : checkInjectionCodeCommand cmd = true)
    (he : ¬ Enclosed cmd) : EscapedRight cmd (systemEscape cmd) := by
  rcases escapeSpecialCharacter_cases cmd (zeros cmdBufLen) cmdBufLen with ⟨-, hrun⟩ | ⟨h', -⟩
  · rw [systemEscape_eq h, hrun]
    exact ⟨cmd, rfl, fun _ => rfl, fun h' => absurd h' he, fun _ => rfl, fun _ => rfl⟩
  · exact absurd h' he

theorem systemEscape_enclosed {cmd : Str} (h : checkInjectionCodeCommand cmd = true)
    (he : Enclosed cmd) :
    systemEscape cmd = (escapeLoop cmdBufLen cmd (zeros cmdBufLen) 0).map some := by
  rcases escapeSpecialCharacter_cases cmd (zeros cmdBufLen) cmdBufLen with ⟨h', -⟩ | ⟨-, hrun⟩
  · exact absurd he h'
  · rw [systemEscape_eq h, hrun]

/-- A command that encloses something is escaped if the escaped form and its NUL fit. -/
theorem escapedRight_of_fits {cmd : Str} (h : checkInjectionCodeCommand cmd = true)
    (hnul : '\x00' ∉ cmd) (he : Enclosed cmd) (hlen : (escapedCmd cmd).length < cmdBufLen) :
    EscapedRight cmd (systemEscape cmd) := by
  have hrun := escapeLoop_fits cmd [] cmdBufLen (by simp) hnul hlen
  simp only [List.length_nil, Nat.zero_add, List.nil_append] at hrun
  have hlong := length_lt_escapedCmd he
  rw [systemEscape_enclosed h he, hrun]
  refine ⟨escapedCmd cmd, rfl, fun h' => absurd he h', fun _ => rfl, ?_, ?_⟩
  · exact fun hs => absurd hs.length_le (by omega)
  · exact fun hs => absurd hs.length_le (by omega)

/-- A command whose escaped form does not fit is not passed on as it should be. -/
theorem not_escapedRight {cmd : Str} (h : checkInjectionCodeCommand cmd = true)
    (he : Enclosed cmd) (hlen : cmdBufLen ≤ (escapedCmd cmd).length) :
    ¬ EscapedRight cmd (systemEscape cmd) := by
  rintro ⟨s, hs, -, hesc, -⟩
  rw [systemEscape_enclosed h he] at hs
  have hfull := escapeLoop_full cmd [] cmdBufLen (by decide) hlen
  simp only [List.length_nil, Nat.zero_add, List.nil_append] at hfull
  cases hrun : escapeLoop cmdBufLen cmd (zeros cmdBufLen) 0 with
  | error e =>
    rw [hrun] at hs
    cases hs
  | ok t =>
    rw [hrun] at hs
    cases hs
    have hlt := hfull s hrun
    have hge := length_le_escapedCmd cmd
    rw [← hesc he] at hge
    omega

/-- **Escaping of a command**: one that the check lets through is passed on unchanged or escaped,
with no store behind the buffer, exactly if it encloses nothing or its escaped form has less than
1025 bytes. -/
theorem escapedRight_iff (cmd : Str) (hnul : '\x00' ∉ cmd)
    (h : checkInjectionCodeCommand cmd = true) :
    (EscapedRight cmd (systemEscape cmd) ∧ EscapedRight cmd (fputsEscape cmd)) ↔
      (Enclosed cmd → (escapedCmd cmd).length < cmdBufLen) := by
  rw [fputsEscape_eq, and_self]
  constructor
  · intro hright he
    by_contra hlen
    exact not_escapedRight h he (Nat.le_of_not_lt hlen) hright
  · intro hlen
    by_cases he : Enclosed cmd
    · exact escapedRight_of_fits h hnul he (hlen he)
    · exact escapedRight_of_not_enclosed h he

theorem checkInjectionLoop_of_plain (cmdLen : Nat) : ∀ (cmd : Str) (idx : Nat),
    (∀ c ∈ cmd, checkInjectionCode c = false) → checkInjectionLoop cmdLen idx cmd = true
  | [], _, _ => rfl
  | c :: cmd, idx, h => by
    rw [checkInjectionLoop, if_neg (by simp [h c List.mem_cons_self])]
    exact checkInjectionLoop_of_plain cmdLen cmd (idx + 1) fun d hd =>
      h d (List.mem_cons_of_mem c hd)

/-- A command that is longer than the buffer, in backquotes. -/
def longCmd : Str := backquote :: (List.replicate 1100 'a' ++ [backquote])

theorem mem_longCmd {c : Char} (h : c ∈ longCmd) : c = backquote ∨ c = 'a' := by
  simp only [longCmd, List.mem_cons, List.mem_append, List.mem_replicate, List.not_mem_nil,
    or_false] at h
  rcases h with rfl | ⟨-, rfl⟩ | rfl
  · exact .inl rfl
  · exact .inr rfl
  · exact .inl rfl

theorem checkInjectionCodeCommand_longCmd : checkInjectionCodeCommand longCmd = true := by
  refine checkInjectionLoop_of_plain _ _ _ fun c hc => ?_
  rcases mem_longCmd hc with rfl | rfl
  · decide
  · decide

theorem enclosed_longCmd : Enclosed longCmd :=
  ⟨[], List.replicate 1100 'a', [], by rw [Ne, List.replicate_eq_nil_iff]; decide, rfl⟩

theorem not_escapedRight_longCmd :
    '\x00' ∉ longCmd ∧ checkInjectionCodeCommand longCmd = true ∧
      ¬ EscapedRight longCmd (systemEscape longCmd) := by
  refine ⟨?_, checkInjectionCodeCommand_longCmd, ?_⟩
  · intro h
    rcases mem_longCmd h with h | h
    · exact absurd h (by decide)
    · exact absurd h (by decide)
  · refine not_escapedRight checkInjectionCodeCommand_longCmd enclosed_longCmd ?_
    refine Nat.le_trans ?_ (length_le_escapedCmd longCmd)
    rw [longCmd, List.length_cons, List.length_append, List.length_replicate]
    decide

/-- `ls` in backquotes is passed on with two backslashes. -/
theorem escapedRight_iff_ls :
    (EscapedRight (backquote :: "ls".toList ++ [backquote])
        (systemEscape (backquote :: "ls".toList ++ [backquote])) ∧
      EscapedRight (backquote :: "ls".toList ++ [backquote])
        (fputsEscape (backquote :: "ls".toList ++ [backquote]))) ↔
      (Enclosed (backquote :: "ls".toList ++ [backquote]) →
        (escapedCmd (backquote :: "ls".toList ++ [backquote])).length < cmdBufLen) :=
  escapedRight_iff _ (by decide) (by decide)

/-! ## Parameters -/

/-- `NEED_C`. -/
def needC (c : Char) : Bool := c == backquote || c == '"' || c == '\\' || c == '$'

/-- The loop of `escape_param`. -/
def escapeParamLoop : Str → Str → Nat → Nat → Except Fault Str
  | [], outVal, _, _ => .ok outVal
  | c :: chkVal, outVal, currOutIdx, remainLen =>
    if 2 ≤ remainLen then
      if needC c then do
        let outVal ← store (← store outVal currOutIdx '\\') (currOutIdx + 1) c
        escapeParamLoop chkVal outVal (currOutIdx + 2) (remainLen - 2)
      else do
        escapeParamLoop chkVal (← store outVal currOutIdx c) (currOutIdx + 1) (remainLen - 1)
    else .ok outVal

/-- `escape_param`: the string that is returned. -/
def escapeParam (chkVal outVal : Str) (outValLen : Nat) : Except Fault Str :=
  if outValLen - 1 < 2 then .ok []
  else if chkVal = [] then .ok []
  else do cstr (← escapeParamLoop chkVal outVal 0 (outValLen - 1))

theorem escapeParamLoop_special {c : Char} (hc : needC c = true) (n : Nat) (s w : Str) :
    escapeParamLoop (c :: s) (w ++ zeros (n + 2 + 1)) w.length (n + 2) =
      escapeParamLoop s (w ++ ['\\', c] ++ zeros (n + 1)) (w ++ ['\\', c]).length n := by
  have hsnd : store (w ++ ['\\'] ++ '\x00' :: zeros (n + 1)) (w.length + 1) c =
      .ok (w ++ ['\\'] ++ [c] ++ zeros (n + 1)) := by
    simpa using store_append (w ++ ['\\']) (zeros (n + 1)) '\x00' c
  rw [escapeParamLoop, if_pos (by omega), if_pos hc, zeros_succ, store_append, zeros_succ]
  simp only [bind, Except.bind, hsnd]
  simp

theorem escapeParamLoop_plain {c : Char} (hc : needC c = false) (n : Nat) (s w : Str) :
    escapeParamLoop (c :: s) (w ++ zeros (n + 1 + 1 + 1)) w.length (n + 1 + 1) =
      escapeParamLoop s (w ++ [c] ++ zeros (n + 1 + 1)) (w ++ [c]).length (n + 1) := by
  rw [escapeParamLoop, if_pos (by omega), if_neg (by simp [hc]), zeros_succ, store_append]
  simp [bind, Except.bind]

/-- **What the loop of `escape_param` stores**: behind what is there, the escaped form of a
beginning of the text, so that one NUL is left; of the whole text, if its escaped form leaves
two. -/
theorem escapeParamLoop_eq : ∀ (s w : Str) (n : Nat), ∃ pre post k, s = pre ++ post ∧
    (escapeBy needC '\\' pre).length + k = n ∧
    ((escapeBy needC '\\' s).length < n → post = []) ∧
    escapeParamLoop s (w ++ zeros (n + 1)) w.length n =
      .ok (w ++ escapeBy needC '\\' pre ++ zeros (k + 1))
  | [], w, n => ⟨[], [], n, rfl, Nat.zero_add n, fun _ => rfl, by simp [escapeParamLoop]⟩
  | c :: s, w, n => by
    by_cases hn : 2 ≤ n
    · by_cases hc : needC c = true
      · obtain ⟨m, rfl⟩ : ∃ m, n = m + 2 := ⟨n - 2, by omega⟩
        obtain ⟨pre, post, k, hs, hlen, hall, hrun⟩ := escapeParamLoop_eq s (w ++ ['\\', c]) m
        refine ⟨c :: pre, post, k, by rw [hs]; rfl, ?_, ?_, ?_⟩
        · rw [escapeBy_special hc, List.length_cons, List.length_cons]
          omega
        · rw [escapeBy_special hc, List.length_cons, List.length_cons]
          exact fun h => hall (by omega)
        · rw [escapeParamLoop_special hc, hrun, escapeBy_special hc]
          simp
      · have hc : needC c = false := by simpa using hc
        obtain ⟨m, rfl⟩ : ∃ m, n = m + 1 + 1 := ⟨n - 2, by omega⟩
        obtain ⟨pre, post, k, hs, hlen, hall, hrun⟩ := escapeParamLoop_eq s (w ++ [c]) (m + 1)
        refine ⟨c :: pre, post, k, by rw [hs]; rfl, ?_, ?_, ?_⟩
        · rw [escapeBy_plain hc, List.length_cons]
          omega
        · rw [escapeBy_plain hc, List.length_cons]
          exact fun h => hall (by omega)
        · rw [escapeParamLoop_plain hc, hrun, escapeBy_plain hc]
          simp
    · have hlong : (c :: s).length ≤ (escapeBy needC '\\' (c :: s)).length := by
        rw [length_escapeBy]
        exact Nat.le_add_right _ _
      rw [List.length_cons] at hlong
      exact ⟨[], c :: s, n, rfl, Nat.zero_add n, fun h => by omega, by simp [escapeParamLoop, hn]⟩

/-- **Escaping of a parameter**: in a cleared buffer of at least three bytes the result ends before
the end of the buffer, its special characters are in pairs, no backslash stands alone at its end,
and without the escapes it is a beginning of the text, the whole text if the escaped form leaves two
bytes of the buffer. -/
theorem escapeParam_spec (chkVal : Str) (outValLen : Nat) (hne : chkVal ≠ [])
    (hnul : '\x00' ∉ chkVal) (hlen : 3 ≤ outValLen) :
    ∃ s, escapeParam chkVal (zeros outValLen) outValLen = .ok s ∧ s.length < outValLen ∧
      Paired needC '\\' s ∧ (∀ u, s = u ++ ['\\'] → ¬ Paired needC '\\' u) ∧
      unescape '\\' s <+: chkVal ∧
      ((escapeBy needC '\\' chkVal).length ≤ outValLen - 2 → unescape '\\' s = chkVal) := by
  obtain ⟨n, rfl⟩ : ∃ n, outValLen = n + 1 := ⟨outValLen - 1, by omega⟩
  obtain ⟨pre, post, k, hs, hk, hall, hrun⟩ := escapeParamLoop_eq chkVal [] n
  simp only [List.length_nil, List.nil_append] at hrun
  have hmark : needC '\\' = true := rfl
  have hfree : '\x00' ∉ escapeBy needC '\\' pre := by
    intro h
    rcases mem_escapeBy h with h | h
    · exact absurd h (by decide)
    · exact hnul (hs ▸ List.mem_append_left post h)
  have hback : unescape '\\' (escapeBy needC '\\' pre) = pre := unescape_escapeBy hmark pre
  have hval : escapeParam chkVal (zeros (n + 1)) (n + 1) = .ok (escapeBy needC '\\' pre) := by
    rw [escapeParam, if_neg (by omega), if_neg hne, Nat.add_sub_cancel, hrun, zeros_succ]
    exact cstr_append hfree _
  refine ⟨escapeBy needC '\\' pre, hval, by omega, paired_escapeBy pre, ?_, ?_, ?_⟩
  · intro u hu hpair
    exact hpair.not_dangling hmark (hu ▸ paired_escapeBy pre)
  · rw [hback]
    exact ⟨post, hs.symm⟩
  · intro hfits
    rw [hback, hs, hall (by omega), List.append_nil]

/-- The parameter `a$b` and a buffer of four bytes: the result is `a\$`. -/
theorem escapeParam_spec_sample :
    ∃ s, escapeParam "a$b".toList (zeros 4) 4 = .ok s ∧ s.length < 4 ∧ Paired needC '\\' s ∧
      (∀ u, s = u ++ ['\\'] → ¬ Paired needC '\\' u) ∧ unescape '\\' s <+: "a$b".toList ∧
      ((escapeBy needC '\\' "a$b".toList).length ≤ 4 - 2 → unescape '\\' s = "a$b".toList) :=
  escapeParam_spec "a$b".toList 4 (by decide) (by decide) (by decide)

end OnuFirmware.Utility
