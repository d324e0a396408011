import OnuFirmware.Clib.Num

/-!
# Shifting a bit into place

`1 << k` is an `int`. C says what it is only for `k` below the width, and compilers agree on the
sign bit besides; for larger `k` it depends on the processor. A word of 64 bits that takes part in
an operation with it gets its sign.
-/

namespace OnuFirmware.Clib

/-- What the processor computes for `1 << k`. -/
structure Shifter where
  shl : Nat → Word
  shl_lt : ∀ k < 32, shl k = 1#32 <<< k

/-- MIPS takes the shift count modulo 32. -/
def Shifter.mips : Shifter where
  shl k := 1#32 <<< (k % 32)
  shl_lt k hk := by rw [Nat.mod_eq_of_lt hk]

/-- ARM shifts the bit out of the word. -/
def Shifter.arm : Shifter where
  shl k := 1#32 <<< k
  shl_lt _ _ := rfl

/-- `1 << k` as an operand of an `unsigned long long`. -/
def Shifter.shl64 (sh : Shifter) (k : Nat) : BitVec 64 := (sh.shl k).signExtend 64

/-! ## One bit of a word -/

theorem getLsbD_set (v : Word) {n k : Nat} (hn : n < 32) :
    (v ||| 1#32 <<< n).getLsbD k = (v.getLsbD k || decide (n = k)) := by
  rw [BitVec.getLsbD_or, ← BitVec.twoPow_eq, BitVec.getLsbD_twoPow]
  simp [hn]

theorem getLsbD_clear (v : Word) {n k : Nat} (hn : n < 32) :
    (v &&& ~~~(1#32 <<< n)).getLsbD k = (v.getLsbD k && !decide (n = k)) := by
  rw [BitVec.getLsbD_and, BitVec.getLsbD_not, ← BitVec.twoPow_eq, BitVec.getLsbD_twoPow]
  by_cases hk : k < 32
  · simp [hn, hk]
  · rw [BitVec.getLsbD_of_ge v k (by omega)]
    simp

/-- `GET_BIT`. -/
def getBit (x : Word) (y : Nat) : Word := x.sshiftRight y &&& 1

/-- `SET_BIT`. -/
def setBit (x : Word) (y : Nat) : Word := x ||| 1#32 <<< y

/-- `CLR_BIT`. -/
def clrBit (x : Word) (y : Nat) : Word := x &&& ~~~(1#32 <<< y)

theorem getBit_eq (x : Word) {y : Nat} (hy : y < 32) :
    getBit x y = if x.getLsbD y then 1 else 0 := by
  refine BitVec.eq_of_getLsbD_eq fun k hk => ?_
  have hone : (1 : Word).getLsbD k = decide (k = 0) := by simp
  unfold getBit
  rw [BitVec.getLsbD_and, hone]
  by_cases hk0 : k = 0
  · subst hk0
    have hshift : (x.sshiftRight y).getLsbD 0 = x.getLsbD y := by
      rw [BitVec.getLsbD_sshiftRight]
      simp [hy]
    rw [hshift]
    cases x.getLsbD y <;> rfl
  · rw [decide_eq_false hk0, Bool.and_false]
    split
    · rw [hone, decide_eq_false hk0]
    · exact BitVec.getLsbD_zero.symm

end OnuFirmware.Clib
