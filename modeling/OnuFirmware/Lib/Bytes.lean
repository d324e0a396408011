import Mathlib.Data.Nat.Digits.Lemmas
import Mathlib.Data.UInt

/-!
# Byte strings as numbers

A byte string is a number in two ways: the first byte is the highest one, or the lowest one. The
order of two byte strings of one length from the first byte on is the order of the numbers with the
first byte highest. A string of bits is cut at a bit position, which may be within a byte.
-/

namespace OnuFirmware.Lib

/-- The number of a byte string whose first byte is the lowest one. -/
def leVal (l : List UInt8) : Nat := Nat.ofDigits 256 (l.map UInt8.toNat)

/-- The number of a byte string whose first byte is the highest one. -/
def beVal (l : List UInt8) : Nat := leVal l.reverse

/-- The difference of the first bytes that are different. -/
def memcmp : List UInt8 → List UInt8 → Int
  | x :: xs, y :: ys => if x = y then memcmp xs ys else (x.toNat : Int) - y.toNat
  | _, _ => 0

theorem leVal_lt (l : List UInt8) : leVal l < 256 ^ l.length := by
  have h := Nat.ofDigits_lt_base_pow_length (b := 256) (l := l.map UInt8.toNat) (by decide)
    fun d hd => by
      obtain ⟨x, -, rfl⟩ := List.mem_map.mp hd
      exact x.toNat_lt
  rwa [List.length_map] at h

theorem beVal_lt (l : List UInt8) : beVal l < 256 ^ l.length := by
  simpa [beVal] using leVal_lt l.reverse

theorem beVal_cons (x : UInt8) (l : List UInt8) :
    beVal (x :: l) = beVal l + 256 ^ l.length * x.toNat := by
  simp [beVal, leVal, Nat.ofDigits_append]

/-- **Comparing byte by byte is comparing the numbers.** -/
theorem memcmp_pos_iff : ∀ {a b : List UInt8}, a.length = b.length →
    (0 < memcmp a b ↔ beVal b < beVal a)
  | [], [], _ => by simp [memcmp, beVal, leVal]
  | x :: a, y :: b, hlen => by
    have hl : a.length = b.length := by simpa using hlen
    have ha := beVal_lt a
    have hb := beVal_lt b
    rw [beVal_cons, beVal_cons, memcmp, ← hl]
    rw [← hl] at hb
    generalize 256 ^ a.length = m at *
    split
    · next hxy => rw [memcmp_pos_iff hl, hxy, Nat.add_lt_add_iff_right]
    · next hxy =>
      have hne : x.toNat ≠ y.toNat := fun h => hxy (UInt8.toNat_inj.mp h)
      constructor
      · intro h
        have hmul : m * (y.toNat + 1) ≤ m * x.toNat := Nat.mul_le_mul_left m (by omega)
        rw [Nat.mul_add, Nat.mul_one] at hmul
        omega
      · intro h
        by_contra hle
        have hmul : m * (x.toNat + 1) ≤ m * y.toNat := Nat.mul_le_mul_left m (by omega)
        rw [Nat.mul_add, Nat.mul_one] at hmul
        omega

/-! ## Bits -/

/-- The bit at a position, counted from the highest bit of the first byte. -/
def bitAt (l : List UInt8) (i : Nat) : Bool := (l.getD (i / 8) 0).toNat.testBit (7 - i % 8)

/-- The bits of two byte strings that are cut at the same byte. -/
theorem bitAt_take_append_drop {a b : List UInt8} {k : Nat} (hk : k ≤ a.length) (i : Nat) :
    bitAt (a.take k ++ b.drop k) i = if i / 8 < k then bitAt a i else bitAt b i := by
  have hlen : (a.take k).length = k := by rw [List.length_take]; omega
  rw [bitAt, List.getD_eq_getElem?_getD, List.getElem?_append, hlen]
  split
  · next h => rw [List.getElem?_take_of_lt h, bitAt, List.getD_eq_getElem?_getD]
  · next h =>
    rw [List.getElem?_drop, bitAt, List.getD_eq_getElem?_getD, Nat.add_sub_cancel' (by omega)]

end OnuFirmware.Lib
