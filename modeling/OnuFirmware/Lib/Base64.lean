import Mathlib.Algebra.Group.Nat.Defs
import Mathlib.Data.List.Basic

/-!
# Base64

Three bytes are a number of 24 bits, written with four digits of six bits. If the text ends with two
bytes or one, the missing ones are taken for 0, and the digits that have no bit of the text are
replaced by the padding.
-/

namespace OnuFirmware.Lib.Base64

variable {α : Type*} (symbol : Nat → α) (pad : α)

/-- Three bytes as one number. -/
def packed (a b c : UInt8) : Nat := a.toNat * 2 ^ 16 + b.toNat * 2 ^ 8 + c.toNat

/-- Digit `i` of a number; digit 0 is the last one. -/
def digit (n i : Nat) : Nat := n / 64 ^ i % 64

/-- The padded base64 text. -/
def encode : List UInt8 → List α
  | [] => []
  | [a] => [symbol (digit (packed a 0 0) 3), symbol (digit (packed a 0 0) 2), pad, pad]
  | [a, b] =>
    [symbol (digit (packed a b 0) 3), symbol (digit (packed a b 0) 2),
      symbol (digit (packed a b 0) 1), pad]
  | a :: b :: c :: s =>
    symbol (digit (packed a b c) 3) :: symbol (digit (packed a b c) 2) ::
      symbol (digit (packed a b c) 1) :: symbol (digit (packed a b c) 0) :: encode s

theorem digit_lt (n i : Nat) : digit n i < 64 := Nat.mod_lt _ (by decide)

/-- **The text has four characters for each three bytes, a last group counted in full.** -/
theorem length_encode (s : List UInt8) :
    (encode symbol pad s).length = 4 * ((s.length + 2) / 3) := by
  fun_induction encode symbol pad s with
  | case1 => rfl
  | case2 => simp
  | case3 => simp
  | case4 a b c s ih =>
    simp only [List.length_cons, ih]
    omega

/-- The characters of the text. -/
theorem mem_encode {s : List UInt8} {x : α} (h : x ∈ encode symbol pad s) :
    x = pad ∨ ∃ d < 64, x = symbol d := by
  fun_induction encode symbol pad s with
  | case1 => exact absurd h List.not_mem_nil
  | case2 | case3 =>
    simp only [List.mem_cons, List.not_mem_nil, or_false] at h
    rcases h with h | h | h | h <;> first | exact .inl h | exact .inr ⟨_, digit_lt _ _, h⟩
  | case4 a b c s ih =>
    simp only [List.mem_cons] at h
    rcases h with h | h | h | h | h <;> first | exact ih h | exact .inr ⟨_, digit_lt _ _, h⟩

/-! ## Parts of bytes -/

/-- What can be said about every byte can be checked on the 256 of them. -/
theorem forall_byte {p : UInt8 → Prop} (h : ∀ i : Fin 256, p (.ofFin i)) (b : UInt8) : p b :=
  h b.toFin

/-- A high and a low part of a word. -/
theorem or_toNat {w k a b : Nat} {x y : BitVec w} (hx : x.toNat = a * 2 ^ k) (hy : y.toNat = b)
    (hb : b < 2 ^ k) : (x ||| y).toNat = a * 2 ^ k + b := by
  rw [BitVec.toNat_or, hx, hy, ← Nat.shiftLeft_eq, Nat.shiftLeft_add_eq_or_of_lt hb]

/-! ## The digits of a group -/

theorem digit_three (a b c : UInt8) : digit (packed a b c) 3 = a.toNat / 4 := by
  have ha := a.toNat_lt
  have hb := b.toNat_lt
  have hc := c.toNat_lt
  rw [digit, packed]
  omega

theorem digit_two (a b c : UInt8) :
    digit (packed a b c) 2 = a.toNat % 4 * 16 + b.toNat / 16 := by
  have ha := a.toNat_lt
  have hb := b.toNat_lt
  have hc := c.toNat_lt
  rw [digit, packed]
  omega

theorem digit_one (a b c : UInt8) :
    digit (packed a b c) 1 = b.toNat % 16 * 4 + c.toNat / 64 := by
  have ha := a.toNat_lt
  have hb := b.toNat_lt
  have hc := c.toNat_lt
  rw [digit, packed]
  omega

theorem digit_zero (a b c : UInt8) : digit (packed a b c) 0 = c.toNat % 64 := by
  have ha := a.toNat_lt
  have hb := b.toNat_lt
  have hc := c.toNat_lt
  rw [digit, packed]
  omega

/-! ## Putting the digits together again -/

theorem digits_two (a b c : UInt8) :
    digit (packed a b c) 3 * 2 ^ 18 + digit (packed a b c) 2 * 2 ^ 12 =
      a.toNat * 2 ^ 16 + b.toNat / 16 * 2 ^ 12 := by
  rw [digit_three, digit_two]
  omega

theorem digits_three (a b c : UInt8) :
    digit (packed a b c) 3 * 2 ^ 18 + digit (packed a b c) 2 * 2 ^ 12 +
        digit (packed a b c) 1 * 2 ^ 6 =
      a.toNat * 2 ^ 16 + b.toNat * 2 ^ 8 + c.toNat / 64 * 2 ^ 6 := by
  rw [digits_two, digit_one]
  omega

theorem digits_four (a b c : UInt8) :
    digit (packed a b c) 3 * 2 ^ 18 + digit (packed a b c) 2 * 2 ^ 12 +
        digit (packed a b c) 1 * 2 ^ 6 + digit (packed a b c) 0 = packed a b c := by
  rw [digits_three, digit_zero, packed]
  omega

end OnuFirmware.Lib.Base64
