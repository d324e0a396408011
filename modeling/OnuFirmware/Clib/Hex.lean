import OnuFirmware.Clib.Num

/-!
# Printing and reading hexadecimal numbers

`%x` prints a number with lower-case digits, and `%x` of `sscanf` reads digits of either case. A
word that is printed and read back is the same word.
-/

namespace OnuFirmware.Clib

/-- The value of a hexadecimal digit. -/
def hexVal (c : Char) : Option Nat :=
  if isDigit c then some (c.toNat - '0'.toNat)
  else if 'a' ≤ c ∧ c ≤ 'f' then some (c.toNat - 'a'.toNat + 10)
  else if 'A' ≤ c ∧ c ≤ 'F' then some (c.toNat - 'A'.toNat + 10)
  else none

/-- `%x`. -/
def fmtHex (n : Nat) : Str := Nat.toDigits 16 n

/-- The number that the leading hexadecimal digits stand for. -/
def hexDigitsVal (acc : Nat) : Str → Nat
  | [] => acc
  | c :: s =>
    match hexVal c with
    | some v => hexDigitsVal (16 * acc + v) s
    | none => acc

/-- The digits of `strtoul(s, .., 16)`, behind an optional `0x`. -/
def hexBody : Str → Str
  | '0' :: x :: s => if x = 'x' ∨ x = 'X' then s else '0' :: x :: s
  | s => s

/-- `sscanf(s, "%x", ..)`, which is `strtoul`: a sign negates the word. -/
def scanX (s : Str) : Word :=
  match s.dropWhile isSpace with
  | '-' :: r => -BitVec.ofNat 32 (min (hexDigitsVal 0 (hexBody r)) uintMax)
  | '+' :: r => BitVec.ofNat 32 (min (hexDigitsVal 0 (hexBody r)) uintMax)
  | r => BitVec.ofNat 32 (min (hexDigitsVal 0 (hexBody r)) uintMax)

/-! ## Digits -/

theorem hexVal_digitChar {d : Nat} (h : d < 16) : hexVal d.digitChar = some d := by
  have hall : ∀ e ∈ List.range 16, hexVal e.digitChar = some e := by decide
  exact hall d (List.mem_range.mpr h)

theorem fmtHex_eq (n : Nat) :
    fmtHex n = if n < 16 then [n.digitChar] else fmtHex (n / 16) ++ [(n % 16).digitChar] :=
  Nat.toDigits_eq_if (by decide)

theorem fmtHex_ne_nil (n : Nat) : fmtHex n ≠ [] := Nat.toDigits_ne_nil

theorem length_fmtHex_le {n k : Nat} (hk : 0 < k) : (fmtHex n).length ≤ k ↔ n < 16 ^ k :=
  Nat.length_toDigits_le_iff (by decide) hk

/-- Every character of a printed number is a digit. -/
theorem hexVal_of_mem_fmtHex {n : Nat} {c : Char} (h : c ∈ fmtHex n) : ∃ v, hexVal c = some v := by
  induction n using Nat.strongRecOn with
  | ind n ih =>
    rw [fmtHex_eq] at h
    split at h
    · next hn =>
      rw [List.mem_singleton] at h
      exact ⟨n, h ▸ hexVal_digitChar hn⟩
    · rcases List.mem_append.mp h with h | h
      · exact ih _ (by omega) h
      · rw [List.mem_singleton] at h
        exact ⟨n % 16, h ▸ hexVal_digitChar (Nat.mod_lt _ (by decide))⟩

/-- Reading a printed number goes on behind it with the number as the value so far. -/
theorem hexDigitsVal_fmtHex_append (n : Nat) (r : Str) :
    hexDigitsVal 0 (fmtHex n ++ r) = hexDigitsVal n r := by
  induction n using Nat.strongRecOn generalizing r with
  | ind n ih =>
    rw [fmtHex_eq]
    split
    · next hn =>
      rw [List.singleton_append, hexDigitsVal, hexVal_digitChar hn]
      show hexDigitsVal (16 * 0 + n) r = hexDigitsVal n r
      rw [Nat.mul_zero, Nat.zero_add]
    · rw [List.append_assoc, ih _ (by omega), List.singleton_append, hexDigitsVal,
        hexVal_digitChar (Nat.mod_lt _ (by decide))]
      show hexDigitsVal (16 * (n / 16) + n % 16) r = hexDigitsVal n r
      rw [Nat.div_add_mod]

/-- **Reading the digits of a number gives the number.** -/
@[simp] theorem hexDigitsVal_fmtHex (n : Nat) : hexDigitsVal 0 (fmtHex n) = n := by
  have h := hexDigitsVal_fmtHex_append n []
  rwa [List.append_nil] at h

theorem isSpace_eq_false_of_hexVal {c : Char} {v : Nat} (h : hexVal c = some v) :
    isSpace c = false := by
  cases hs : isSpace c with
  | false => rfl
  | true =>
    have hnone : hexVal c = none := by
      simp only [isSpace, Bool.or_eq_true, decide_eq_true_eq, or_assoc] at hs
      rcases hs with rfl | rfl | rfl | rfl | rfl | rfl <;> rfl
    rw [hnone] at h
    exact absurd h (by simp)

theorem hexBody_eq {s : Str} (h : ∀ c ∈ s, ∃ v, hexVal c = some v) : hexBody s = s := by
  unfold hexBody
  split
  · next x s =>
    obtain ⟨v, hv⟩ := h x (by simp)
    rw [if_neg]
    rintro (rfl | rfl)
    · exact absurd hv (by simp [show hexVal 'x' = none by decide])
    · exact absurd hv (by simp [show hexVal 'X' = none by decide])
  · rfl

/-- **A word that is printed and read back is the word.** -/
theorem scanX_fmtHex (w : Word) : scanX (fmtHex w.toNat) = w := by
  have hw := w.isLt
  have hdig := fun c hc => hexVal_of_mem_fmtHex (n := w.toNat) (c := c) hc
  have hbody := hexBody_eq hdig
  rcases hn : fmtHex w.toNat with _ | ⟨c, s⟩
  · exact absurd hn (fmtHex_ne_nil _)
  rw [hn] at hdig hbody
  obtain ⟨v, hv⟩ := hdig c List.mem_cons_self
  have hval : hexDigitsVal 0 (hexBody (c :: s)) = w.toNat := by
    rw [hbody, ← hn, hexDigitsVal_fmtHex]
  rw [scanX, List.dropWhile_cons_of_neg (by simp [isSpace_eq_false_of_hexVal hv])]
  split
  · next r he =>
    obtain ⟨rfl, _⟩ := List.cons.inj he
    exact absurd hv (by simp [show hexVal '-' = none by decide])
  · next r he =>
    obtain ⟨rfl, _⟩ := List.cons.inj he
    exact absurd hv (by simp [show hexVal '+' = none by decide])
  · rw [hval, uintMax, Nat.min_eq_left (by omega), BitVec.ofNat_toNat, BitVec.setWidth_eq]

end OnuFirmware.Clib
