import OnuFirmware.Clib.Num
import OnuFirmware.Lib.Base64

/-!
# Base64 (`basic64_encode` and `basic64_decode` in `lan_host_api.c`)

Three bytes become four characters of 6 bits; in the last group the characters without bits are
replaced by `=`. The decoder takes `=`, like every character outside the alphabet, for the digit 0,
so it stores a full group for a padded one as far as there is room. It asks for room after the first
and after the second byte of a group, not after the third one.
-/

namespace OnuFirmware.LanHost

open Clib Lib.Base64

/-! ## Encoding -/

/-- `ALPHA_BASE`. -/
def alphaBase : Str := "ABCDEFGHIJKLMNOPQRSTUVWXYZabcdefghijklmnopqrstuvwxyz0123456789+/".toList

/-- A `char` as an `int`. -/
def charInt (b : UInt8) : Word := b.toBitVec.signExtend 32

/-- `ALPHA_BASE[w]`. -/
def alphaChar (w : Word) : Char := alphaBase.getD w.toNat '\x00'

/-- The four digits of three bytes. -/
def digit0 (b0 : UInt8) : Word := (charInt b0).sshiftRight 2 &&& 63

def digit1 (b0 b1 : UInt8) : Word :=
  (charInt b0 <<< 4 ||| (charInt b1 &&& 255).sshiftRight 4) &&& 63

def digit2 (b1 b2 : UInt8) : Word :=
  (charInt b1 <<< 2 ||| (charInt b2 &&& 255).sshiftRight 6) &&& 63

def digit3 (b2 : UInt8) : Word := charInt b2 &&& 63

/-- The characters of three bytes. -/
def group (b0 b1 b2 : UInt8) : Str :=
  [alphaChar (digit0 b0), alphaChar (digit1 b0 b1), alphaChar (digit2 b1 b2), alphaChar (digit3 b2)]

/-- The loop of `basic64_encode`; missing bytes are 0. -/
def encodeLoop : List UInt8 → Str
  | [] => []
  | [b0] => group b0 0 0
  | [b0, b1] => group b0 b1 0
  | b0 :: b1 :: b2 :: buf => group b0 b1 b2 ++ encodeLoop buf

/-- The `switch` of `basic64_encode`. -/
def padChars (size : Nat) (base64Char : Str) : Str :=
  let a := base64Char.length
  if size % 3 = 1 then (base64Char.set (a - 1) '=').set (a - 2) '='
  else if size % 3 = 2 then base64Char.set (a - 1) '='
  else base64Char

attribute [grind =] encodeLoop padChars

/-- `basic64_encode`. -/
def basic64Encode (buf : List UInt8) : Str := padChars buf.length (encodeLoop buf)

/-! ## Decoding -/

/-- `toInt[c]`: the initialiser gives `-1` to the first entry only. -/
def toInt (c : Char) : Except Fault Word :=
  if 128 ≤ c.toNat then .error .overrun
  else
    match alphaBase.idxOf? c with
    | some i => .ok (BitVec.ofNat 32 i)
    | none => .ok (if c = '\x00' then -1 else 0)

/-- The three bytes of four digits. -/
def byte0 (c0 c1 : Word) : UInt8 := .ofBitVec (((c0 <<< 2 ||| c1.sshiftRight 4) &&& 255).setWidth 8)

def byte1 (c1 c2 : Word) : UInt8 := .ofBitVec (((c1 <<< 4 ||| c2.sshiftRight 2) &&& 255).setWidth 8)

def byte2 (c2 c3 : Word) : UInt8 := .ofBitVec (((c2 <<< 6 ||| c3) &&& 255).setWidth 8)

/-- The loop of `basic64_decode`: all bytes that are stored, whether there is room for them or
not. -/
def decodeLoop (originCharSize : Nat) : Str → List UInt8 → Except Fault (List UInt8)
  | [], originChar => .ok originChar
  | [_], _ => .error .overrun
  | a :: b :: base64Char, originChar => do
    let c0 ← toInt a
    let c1 ← toInt b
    let originChar := originChar ++ [byte0 c0 c1]
    if originCharSize ≤ originChar.length then .ok originChar
    else
      match base64Char with
      | [] => .error .overrun
      | c :: base64Char =>
        let c2 ← toInt c
        let originChar := originChar ++ [byte1 c1 c2]
        if originCharSize ≤ originChar.length then .ok originChar
        else
          match base64Char with
          | [] => .error .overrun
          | d :: base64Char =>
            let c3 ← toInt d
            decodeLoop originCharSize base64Char (originChar ++ [byte2 c2 c3])

attribute [grind =] decodeLoop

/-- `basic64_decode`: the bytes it stores. -/
def basic64Decode (base64Char : Str) (originCharSize : Nat) : Except Fault (List UInt8) :=
  decodeLoop originCharSize base64Char []

/-! ## The digits of a group -/

/-- The character of a digit. -/
def symbol (d : Nat) : Char := alphaBase.getD d '\x00'

/-- The padded text. -/
def base64Text (buf : List UInt8) : Str := encode symbol '=' buf

/-- The parts of the digits; the sign of a `char` is masked out. -/
theorem shifted_toNat (b : UInt8) :
    ((charInt b).sshiftRight 2 &&& 63).toNat = b.toNat / 4 ∧
      (charInt b <<< 4 &&& 63).toNat = b.toNat % 4 * 2 ^ 4 ∧
      ((charInt b &&& 255).sshiftRight 4 &&& 63).toNat = b.toNat / 16 ∧
      (charInt b <<< 2 &&& 63).toNat = b.toNat % 16 * 2 ^ 2 ∧
      ((charInt b &&& 255).sshiftRight 6 &&& 63).toNat = b.toNat / 64 ∧
      (charInt b &&& 63).toNat = b.toNat % 64 := by
  revert b
  exact forall_byte (by decide +kernel)

section Group

variable (b0 b1 b2 : UInt8)

theorem toNat_digit0 : (digit0 b0).toNat = digit (packed b0 b1 b2) 3 :=
  (shifted_toNat b0).1.trans (digit_three b0 b1 b2).symm

theorem toNat_digit1 : (digit1 b0 b1).toNat = digit (packed b0 b1 b2) 2 := by
  obtain ⟨-, h0, -, -, -, -⟩ := shifted_toNat b0
  obtain ⟨-, -, h1, -, -, -⟩ := shifted_toNat b1
  have hb := b1.toNat_lt
  rw [digit1, BitVec.and_or_distrib_right, digit_two]
  exact or_toNat h0 h1 (by omega)

theorem toNat_digit2 : (digit2 b1 b2).toNat = digit (packed b0 b1 b2) 1 := by
  obtain ⟨-, -, -, h1, -, -⟩ := shifted_toNat b1
  obtain ⟨-, -, -, -, h2, -⟩ := shifted_toNat b2
  have hb := b2.toNat_lt
  rw [digit2, BitVec.and_or_distrib_right, digit_one]
  exact or_toNat h1 h2 (by omega)

theorem toNat_digit3 : (digit3 b2).toNat = digit (packed b0 b1 b2) 0 := by
  obtain ⟨-, -, -, -, -, h2⟩ := shifted_toNat b2
  rw [digit3, h2, digit_zero]

/-- The characters that the encoder writes for a group are those of its digits. -/
theorem group_eq : group b0 b1 b2 =
    [symbol (digit (packed b0 b1 b2) 3), symbol (digit (packed b0 b1 b2) 2),
      symbol (digit (packed b0 b1 b2) 1), symbol (digit (packed b0 b1 b2) 0)] := by
  rw [← toNat_digit0, ← toNat_digit1, ← toNat_digit2, ← toNat_digit3]
  rfl

end Group

theorem base64Text_one (b0 : UInt8) :
    base64Text [b0] = [alphaChar (digit0 b0), alphaChar (digit1 b0 0), '=', '='] := by
  rw [alphaChar, alphaChar, toNat_digit0 b0 0 0, toNat_digit1 b0 0 0]
  rfl

theorem base64Text_two (b0 b1 : UInt8) : base64Text [b0, b1] =
    [alphaChar (digit0 b0), alphaChar (digit1 b0 b1), alphaChar (digit2 b1 0), '='] := by
  rw [alphaChar, alphaChar, alphaChar, toNat_digit0 b0 b1 0, toNat_digit1 b0 b1 0,
    toNat_digit2 b0 b1 0]
  rfl

theorem base64Text_cons (b0 b1 b2 : UInt8) (buf : List UInt8) :
    base64Text (b0 :: b1 :: b2 :: buf) = group b0 b1 b2 ++ base64Text buf := by
  rw [group_eq]
  rfl

/-! ## Putting the digits together again -/

theorem toNat_lowByte (x : Word) :
    (UInt8.ofBitVec ((x &&& 255).setWidth 8)).toNat = x.toNat % 256 := by
  have hmask : x.toNat &&& 255 = x.toNat % 2 ^ 8 := Nat.and_two_pow_sub_one_eq_mod _ 8
  rw [UInt8.toNat_ofBitVec, BitVec.toNat_setWidth, BitVec.toNat_and]
  exact (congrArg (· % 2 ^ 8) hmask).trans (Nat.mod_mod _ _)

/-- A digit that is shifted to the left or to the right. -/
theorem shiftedDigit {w : Word} (hw : w.toNat < 64) {k : Nat} (hk : k ≤ 6) :
    (w <<< k).toNat = w.toNat * 2 ^ k ∧ (w.sshiftRight k).toNat = w.toNat / 2 ^ k := by
  have hall : ∀ d < 64, ∀ k < 7, (BitVec.ofNat 32 d <<< k).toNat = d * 2 ^ k ∧
      ((BitVec.ofNat 32 d).sshiftRight k).toNat = d / 2 ^ k := by
    decide +kernel
  have hword := hall w.toNat hw k (Nat.lt_succ_of_le hk)
  rwa [BitVec.ofNat_toNat, BitVec.setWidth_eq] at hword

theorem toNat_byte0 {c0 c1 : Word} (h0 : c0.toNat < 64) (h1 : c1.toNat < 64) :
    (byte0 c0 c1).toNat = (c0.toNat * 2 ^ 2 + c1.toNat / 2 ^ 4) % 256 := by
  rw [byte0, toNat_lowByte, or_toNat (shiftedDigit h0 (by decide)).1
    (shiftedDigit h1 (by decide)).2 (by omega)]

theorem toNat_byte1 {c1 c2 : Word} (h1 : c1.toNat < 64) (h2 : c2.toNat < 64) :
    (byte1 c1 c2).toNat = (c1.toNat * 2 ^ 4 + c2.toNat / 2 ^ 2) % 256 := by
  rw [byte1, toNat_lowByte, or_toNat (shiftedDigit h1 (by decide)).1
    (shiftedDigit h2 (by decide)).2 (by omega)]

theorem toNat_byte2 {c2 c3 : Word} (h2 : c2.toNat < 64) (h3 : c3.toNat < 64) :
    (byte2 c2 c3).toNat = (c2.toNat * 2 ^ 6 + c3.toNat) % 256 := by
  rw [byte2, toNat_lowByte, or_toNat (shiftedDigit h2 (by decide)).1 rfl h3]

/-- A digit of a group as a word. -/
theorem lt_of_digit {w : Word} {n i : Nat} (h : w.toNat = digit n i) : w.toNat < 64 :=
  h.trans_lt (digit_lt n i)

theorem byte0_digits (b0 b1 : UInt8) : byte0 (digit0 b0) (digit1 b0 b1) = b0 := by
  have h0 := toNat_digit0 b0 b1 0
  have h1 := toNat_digit1 b0 b1 0
  have hb0 := b0.toNat_lt
  have hb1 := b1.toNat_lt
  rw [← UInt8.toNat_inj, toNat_byte0 (lt_of_digit h0) (lt_of_digit h1), h0, h1, digit_three,
    digit_two]
  omega

theorem byte1_digits (b0 b1 b2 : UInt8) : byte1 (digit1 b0 b1) (digit2 b1 b2) = b1 := by
  have h1 := toNat_digit1 b0 b1 b2
  have h2 := toNat_digit2 b0 b1 b2
  have hb1 := b1.toNat_lt
  have hb2 := b2.toNat_lt
  rw [← UInt8.toNat_inj, toNat_byte1 (lt_of_digit h1) (lt_of_digit h2), h1, h2, digit_two,
    digit_one]
  omega

theorem byte2_digits (b1 b2 : UInt8) : byte2 (digit2 b1 b2) (digit3 b2) = b2 := by
  have h2 := toNat_digit2 0 b1 b2
  have h3 := toNat_digit3 0 b1 b2
  have hb2 := b2.toNat_lt
  rw [← UInt8.toNat_inj, toNat_byte2 (lt_of_digit h2) (lt_of_digit h3), h2, h3, digit_one,
    digit_zero]
  omega

/-- The bytes of a padded group that were not there are zero. -/
theorem byte1_pad (b0 : UInt8) : byte1 (digit1 b0 0) 0 = 0 := by
  have h1 := toNat_digit1 b0 0 0
  have hpad : (0 : Word).toNat = 0 := rfl
  rw [← UInt8.toNat_inj, toNat_byte1 (lt_of_digit h1) (by decide), h1, hpad, digit_two,
    UInt8.toNat_zero]
  omega

theorem byte2_pad (b1 : UInt8) : byte2 (digit2 b1 0) 0 = 0 := by
  have h2 := toNat_digit2 0 b1 0
  have hpad : (0 : Word).toNat = 0 := rfl
  rw [← UInt8.toNat_inj, toNat_byte2 (lt_of_digit h2) (by decide), h2, hpad, digit_one,
    UInt8.toNat_zero]
  omega

theorem toInt_symbol {d : Nat} (hd : d < 64) : toInt (symbol d) = .ok (BitVec.ofNat 32 d) := by
  have hall : ∀ d < 64, toInt (symbol d) = .ok (BitVec.ofNat 32 d) := by decide +kernel
  exact hall d hd

theorem toInt_alphaChar {w : Word} {n i : Nat} (h : w.toNat = digit n i) :
    toInt (alphaChar w) = .ok w := by
  have hw := toInt_symbol (lt_of_digit h)
  rwa [BitVec.ofNat_toNat, BitVec.setWidth_eq] at hw

theorem toInt_digit0 (b0 : UInt8) : toInt (alphaChar (digit0 b0)) = .ok (digit0 b0) :=
  toInt_alphaChar (toNat_digit0 b0 0 0)

theorem toInt_digit1 (b0 b1 : UInt8) : toInt (alphaChar (digit1 b0 b1)) = .ok (digit1 b0 b1) :=
  toInt_alphaChar (toNat_digit1 b0 b1 0)

theorem toInt_digit2 (b1 b2 : UInt8) : toInt (alphaChar (digit2 b1 b2)) = .ok (digit2 b1 b2) :=
  toInt_alphaChar (toNat_digit2 0 b1 b2)

theorem toInt_digit3 (b2 : UInt8) : toInt (alphaChar (digit3 b2)) = .ok (digit3 b2) :=
  toInt_alphaChar (toNat_digit3 0 0 b2)

/-- The padding is taken for the digit 0. -/
theorem toInt_pad : toInt '=' = .ok 0 := rfl

theorem length_encodeLoop_ge : ∀ {buf : List UInt8}, buf ≠ [] → 4 ≤ (encodeLoop buf).length
  | [], h => absurd rfl h
  | [_], _ => by simp [encodeLoop, group]
  | [_, _], _ => by simp [encodeLoop, group]
  | _ :: _ :: _ :: _, _ => by simp [encodeLoop, group]

/-- Only the end is padded. -/
theorem padChars_append (g : Str) {l : Str} (n : Nat) (h : n % 3 = 0 ∨ 4 ≤ l.length) :
    padChars (n + 3) (g ++ l) = g ++ padChars n l := by
  have hmod : (n + 3) % 3 = n % 3 := Nat.add_mod_right n 3
  rw [padChars, padChars, hmod]
  rcases h with h | h
  · simp [h]
  · have h1 : g.length + l.length - 1 = g.length + (l.length - 1) := by omega
    have h2 : g.length + l.length - 2 = g.length + (l.length - 2) := by omega
    simp only [List.length_append, h1, h2, List.set_append_right _ _ (Nat.le_add_right _ _),
      Nat.add_sub_cancel_left]
    split
    · rfl
    · split <;> rfl

theorem basic64Encode_eq : ∀ buf : List UInt8, basic64Encode buf = base64Text buf
  | [] => rfl
  | [b0] => (base64Text_one b0).symm
  | [b0, b1] => (base64Text_two b0 b1).symm
  | b0 :: b1 :: b2 :: buf => by
    have ih := basic64Encode_eq buf
    rw [basic64Encode] at ih ⊢
    rw [encodeLoop, base64Text_cons, ← ih]
    refine padChars_append _ buf.length ?_
    by_cases h : buf = []
    · exact .inl (by rw [h]; rfl)
    · exact .inr (length_encodeLoop_ge h)

/-! ## Decoding a group -/

theorem decodeLoop_group {a b c d : Char} {c0 c1 c2 c3 : Word} (ha : toInt a = .ok c0)
    (hb : toInt b = .ok c1) (hc : toInt c = .ok c2) (hd : toInt d = .ok c3) (size : Nat) (r : Str)
    (out : List UInt8) :
    decodeLoop size (a :: b :: c :: d :: r) out =
      if size ≤ out.length + 1 then .ok (out ++ [byte0 c0 c1])
      else if size ≤ out.length + 2 then .ok (out ++ [byte0 c0 c1, byte1 c1 c2])
      else decodeLoop size r (out ++ [byte0 c0 c1, byte1 c1 c2, byte2 c2 c3]) := by
  simp only [decodeLoop, ha, hb, hc, hd, bind, Except.bind, List.length_append, List.length_cons,
    List.length_nil, List.append_assoc, List.cons_append, List.nil_append]

/-- **Decoding what was encoded**, with room for it: the bytes, and zeros behind them unless the
room is used up or no group is padded. -/
theorem decodeLoop_base64Text : ∀ (buf : List UInt8) (size : Nat) (out : List UInt8),
    out.length + buf.length ≤ size → ∃ p, decodeLoop size (base64Text buf) out =
      .ok (out ++ (buf ++ List.replicate p 0)) ∧
      (p = 0 ↔ buf.length % 3 = 0 ∨ size = out.length + buf.length)
  | [], size, out, _ => ⟨0, by simp [base64Text, encode, decodeLoop], by simp⟩
  | [b0], size, out, h => by
    have hrun := decodeLoop_group (toInt_digit0 b0) (toInt_digit1 b0 0) toInt_pad toInt_pad size []
      out
    have hlast : byte2 0 0 = 0 := rfl
    rw [byte0_digits, byte1_pad, hlast] at hrun
    rw [List.length_singleton] at h
    rw [base64Text_one, hrun]
    by_cases h1 : size ≤ out.length + 1
    · exact ⟨0, by simp [h1], by simp; omega⟩
    · by_cases h2 : size ≤ out.length + 2
      · exact ⟨1, by simp [h1, h2], by simp; omega⟩
      · exact ⟨2, by simp [h1, h2, decodeLoop, List.replicate], by simp; omega⟩
  | [b0, b1], size, out, h => by
    have hrun := decodeLoop_group (toInt_digit0 b0) (toInt_digit1 b0 b1) (toInt_digit2 b1 0)
      toInt_pad size [] out
    rw [byte0_digits, byte1_digits, byte2_pad] at hrun
    rw [List.length_cons, List.length_singleton] at h
    rw [base64Text_two, hrun, if_neg (by omega)]
    by_cases h2 : size ≤ out.length + 2
    · exact ⟨0, by simp [h2], by simp; omega⟩
    · exact ⟨1, by simp [h2, decodeLoop], by simp; omega⟩
  | b0 :: b1 :: b2 :: buf, size, out, h => by
    have hrun := decodeLoop_group (toInt_digit0 b0) (toInt_digit1 b0 b1) (toInt_digit2 b1 b2)
      (toInt_digit3 b2) size (base64Text buf) out
    rw [byte0_digits, byte1_digits, byte2_digits] at hrun
    simp only [List.length_cons] at h
    have hlen : (out ++ [b0, b1, b2]).length = out.length + 3 := by simp
    obtain ⟨p, hp, hzero⟩ := decodeLoop_base64Text buf size (out ++ [b0, b1, b2]) (by omega)
    refine ⟨p, ?_, ?_⟩
    · rw [base64Text_cons]
      show decodeLoop size (_ :: _ :: _ :: _ :: base64Text buf) out = _
      rw [hrun, if_neg (by omega), if_neg (by omega), hp]
      simp
    · rw [hzero, hlen]
      simp only [List.length_cons]
      omega

/-! ## How many bytes are stored -/

/-- A text of whole groups that the table can be asked for. -/
def IsBase64 (text : Str) : Prop := text.length % 4 = 0 ∧ ∀ c ∈ text, c.toNat < 128

theorem exists_toInt {c : Char} (h : c.toNat < 128) : ∃ w, toInt c = .ok w := by
  rw [toInt, if_neg (by omega)]
  split
  · exact ⟨_, rfl⟩
  · exact ⟨_, rfl⟩

theorem lt_of_toInt {c : Char} {w : Word} (h : toInt c = .ok w) : c.toNat < 128 := by
  by_contra hc
  rw [toInt, if_pos (Nat.le_of_not_lt hc)] at h
  cases h

/-- What is encoded is such a text. -/
theorem isBase64_encode (b : List UInt8) : IsBase64 (basic64Encode b) := by
  rw [basic64Encode_eq, base64Text]
  refine ⟨?_, fun c hc => ?_⟩
  · rw [length_encode]
    exact Nat.mul_mod_right 4 _
  · obtain rfl | ⟨d, hd, rfl⟩ := mem_encode _ _ hc
    · decide
    · exact lt_of_toInt (toInt_symbol hd)

/-- **The bytes fit** unless the room ends with a group and there is another one. -/
theorem decodeLoop_length : ∀ (text : Str) (size : Nat) (out : List UInt8), IsBase64 text →
    out.length % 3 = 0 → out.length ≤ size → ∃ bytes, decodeLoop size text out = .ok bytes ∧
      (bytes.length ≤ size ↔ ¬ (size % 3 = 0 ∧ size < out.length + 3 * (text.length / 4)))
  | [], size, out, _, _, hle => ⟨out, rfl, by simp; omega⟩
  | [_], _, _, h, _, _ => absurd h.1 (by simp)
  | [_, _], _, _, h, _, _ => absurd h.1 (by simp)
  | [_, _, _], _, _, h, _, _ => absurd h.1 (by simp)
  | a :: b :: c :: d :: text, size, out, ⟨hlen, hall⟩, hout, hle => by
    obtain ⟨c0, ha⟩ := exists_toInt (hall a (by simp))
    obtain ⟨c1, hb⟩ := exists_toInt (hall b (by simp))
    obtain ⟨c2, hc⟩ := exists_toInt (hall c (by simp))
    obtain ⟨c3, hd⟩ := exists_toInt (hall d (by simp))
    have htext : IsBase64 text := by
      simp only [List.length_cons] at hlen
      exact ⟨by omega, fun x hx => hall x (by simp [hx])⟩
    rw [decodeLoop_group ha hb hc hd]
    have hdiv : (a :: b :: c :: d :: text).length / 4 = text.length / 4 + 1 := by
      simp only [List.length_cons]
      omega
    rw [hdiv]
    by_cases h1 : size ≤ out.length + 1
    · refine ⟨_, if_pos h1, ?_⟩
      simp only [List.length_append, List.length_singleton]
      omega
    · rw [if_neg h1]
      by_cases h2 : size ≤ out.length + 2
      · refine ⟨_, if_pos h2, ?_⟩
        simp only [List.length_append, List.length_cons, List.length_nil]
        omega
      · have hlen3 : (out ++ [byte0 c0 c1, byte1 c1 c2, byte2 c2 c3]).length = out.length + 3 := by
          simp
        obtain ⟨bytes, hrun, hiff⟩ := decodeLoop_length text size
          (out ++ [byte0 c0 c1, byte1 c1 c2, byte2 c2 c3]) htext (by omega) (by omega)
        rw [if_neg h2]
        refine ⟨bytes, hrun, hiff.trans ?_⟩
        rw [hlen3]
        omega

/-! ## Both functions -/

/-- **Base64**: what was encoded is decoded to just the bytes if the last group is full or the room
is used up, and the decoder stores no more than there is room for unless the room ends with a group
and another one follows. -/
theorem basic64_iff (b : List UInt8) (n : Nat) (hn : b.length ≤ n) (text : Str)
    (ht : IsBase64 text) (size : Nat) :
    (basic64Decode (basic64Encode b) n = .ok b ↔ b.length % 3 = 0 ∨ n = b.length) ∧
      ((∃ bytes, basic64Decode text size = .ok bytes ∧ bytes.length ≤ size) ↔
        ¬ (size % 3 = 0 ∧ size < 3 * (text.length / 4))) := by
  constructor
  · obtain ⟨p, hrun, hzero⟩ := decodeLoop_base64Text b n [] (by simpa using hn)
    rw [List.nil_append, List.length_nil, Nat.zero_add] at *
    rw [basic64Encode_eq, basic64Decode, hrun, ← hzero, Except.ok.injEq,
      List.append_right_eq_self, List.replicate_eq_nil_iff]
  · obtain ⟨bytes, hrun, hiff⟩ := decodeLoop_length text size [] ht rfl (Nat.zero_le size)
    rw [List.length_nil, Nat.zero_add] at hiff
    rw [basic64Decode, hrun, ← hiff]
    constructor
    · rintro ⟨bytes', h, hle⟩
      cases h
      exact hle
    · exact fun hle => ⟨bytes, rfl, hle⟩

/-- The text of six zeros and room for three bytes: a fourth byte is stored. And of one byte, with
room for three, three bytes come back. -/
theorem not_basic64 :
    (¬ ∃ bytes, basic64Decode (basic64Encode [0, 0, 0, 0, 0, 0]) 3 = .ok bytes ∧
        bytes.length ≤ 3) ∧
      basic64Decode (basic64Encode [65]) 3 ≠ .ok [65] := by
  have hfour : basic64Decode (basic64Encode [0, 0, 0, 0, 0, 0]) 3 = .ok [0, 0, 0, 0] := by
    decide +kernel
  have hthree : basic64Decode (basic64Encode [65]) 3 = .ok [65, 0, 0] := by decide +kernel
  rw [hfour, hthree]
  refine ⟨?_, by decide⟩
  rintro ⟨bytes, h, hle⟩
  cases h
  exact absurd hle (by decide)

/-- One byte with room for it, and two groups with room for three bytes. -/
theorem basic64_iff_sample :
    (basic64Decode (basic64Encode [65]) 1 = .ok [65] ↔ [(65 : UInt8)].length % 3 = 0 ∨
        1 = [(65 : UInt8)].length) ∧
      ((∃ bytes, basic64Decode (basic64Encode [0, 0, 0, 0, 0, 0]) 3 = .ok bytes ∧
          bytes.length ≤ 3) ↔
        ¬ (3 % 3 = 0 ∧ 3 < 3 * ((basic64Encode [0, 0, 0, 0, 0, 0]).length / 4))) :=
  basic64_iff [65] 1 (by decide) _ (isBase64_encode [0, 0, 0, 0, 0, 0]) 3

end OnuFirmware.LanHost
