import OnuFirmware.Clib.Num
import OnuFirmware.Lib.Base64

/-!
# Stored passwords (`crypt_func.c`)

A password is stored as base64 text. The encoder shifts plain `char` values, which are signed on one
of the targets and unsigned on the other, and masks what is shifted in. The lengths are `unsigned
short`.
-/

namespace OnuFirmware.Tcapi

open Clib Lib.Base64

/-! ## Characters -/

/-- `kAscii_Equal`. -/
def kAsciiEqual : UInt8 := 0x3d

/-- `gBase64Table`. -/
def gBase64Table : List UInt8 :=
  "ABCDEFGHIJKLMNOPQRSTUVWXYZabcdefghijklmnopqrstuvwxyz0123456789+/".toList.map
    fun c => UInt8.ofNat c.toNat

/-- A plain `char` as an `int`. -/
def charInt (signed : Bool) (b : UInt8) : Word :=
  if signed then b.toBitVec.signExtend 32 else b.toBitVec.setWidth 32

/-- An `unsigned char` as an `int`. -/
def ucharInt (b : UInt8) : Word := b.toBitVec.setWidth 32

/-- An `int` as a `char`. -/
def toChar (w : Word) : UInt8 := .ofBitVec (w.setWidth 8)

/-- `gBase64Table[w]`, where `w` is an `unsigned char`. -/
def tableAt (w : Word) : UInt8 := gBase64Table.getD (toChar w).toNat 0

/-- `strlen`. -/
def strlen (buf : List UInt8) : Except Fault Nat :=
  match buf.idxOf? 0 with
  | some n => .ok n
  | none => .error .overrun

/-! ## Encoding -/

/-- `BuildBase64Group`. -/
def buildBase64Group (signed : Bool) (c0 c1 c2 : UInt8) : List UInt8 :=
  let theFirstByte := (charInt signed c0).sshiftRight 2 &&& 0o77
  let theSecondByte :=
    charInt signed c0 <<< 4 &&& 0o60 ||| (charInt signed c1).sshiftRight 4 &&& 0o17
  let theThirdByte := charInt signed c1 <<< 2 &&& 0o74 ||| (charInt signed c2).sshiftRight 6 &&& 0o3
  let theFourthByte := charInt signed c2 &&& 0o77
  [tableAt theFirstByte, tableAt theSecondByte, tableAt theThirdByte, tableAt theFourthByte]

/-- `encodeBase64String`: what it writes. -/
def encodeBase64String (signed : Bool) : List UInt8 → Nat → Except Fault (List UInt8)
  | _, 0 => .ok [0]
  | c0 :: c1 :: c2 :: theInput, theInputCount + 3 => do
    let theOutput ← encodeBase64String signed theInput theInputCount
    .ok (buildBase64Group signed c0 c1 c2 ++ theOutput)
  | c0 :: c1 :: _, 2 =>
    let theFirstOutputByte := (ucharInt c0).sshiftRight 2
    let theSecondOutputByte := ucharInt c0 <<< 4 &&& 0o60 ||| (ucharInt c1).sshiftRight 4 &&& 0o17
    let theThirdOutputByte := ucharInt c1 <<< 2 &&& 0o74
    .ok [tableAt theFirstOutputByte, tableAt theSecondOutputByte, tableAt theThirdOutputByte,
      kAsciiEqual, 0]
  | c0 :: _, 1 =>
    let theFirstOutputByte := (ucharInt c0).sshiftRight 2
    let theSecondOutputByte := ucharInt c0 <<< 4 &&& 0o60 ||| (ucharInt 0).sshiftRight 4 &&& 0o17
    .ok [tableAt theFirstOutputByte, tableAt theSecondOutputByte, kAsciiEqual, kAsciiEqual, 0]
  | _, _ => .error .overrun

/-- `enCryptPasswd`: the return value and what it writes to `cryptPass`. -/
def enCryptPasswd (signed : Bool) (orgPass : Option (List UInt8)) :
    Except Fault (Int × List UInt8) :=
  match orgPass with
  | none => .ok (1, [])
  | some orgPass => do
    let len ← strlen orgPass
    let cryptPass ← encodeBase64String signed orgPass (len % 2 ^ 16)
    .ok (0, cryptPass)

/-! ## Decoding -/

/-- `ConvertBase64Character`. -/
def convertBase64Character (theInputCharacter : UInt8) : UInt8 :=
  if 0x41 ≤ theInputCharacter ∧ theInputCharacter ≤ 0x5a then theInputCharacter - 0x41
  else if 0x61 ≤ theInputCharacter ∧ theInputCharacter ≤ 0x7a then theInputCharacter - 0x61 + 26
  else if 0x30 ≤ theInputCharacter ∧ theInputCharacter ≤ 0x39 then theInputCharacter - 0x30 + 52
  else if theInputCharacter = 0x2b then 62
  else if theInputCharacter = 0x2f then 63
  else 0

/-- The value of a character in `thePackedGroup`. -/
def digitInt (c : UInt8) : Word := ucharInt (convertBase64Character c)

/-- `*theInputPtr != 0x3D`. -/
def notEqual (signed : Bool) (c : UInt8) : Prop := charInt signed c ≠ ucharInt kAsciiEqual

instance (signed : Bool) (c : UInt8) : Decidable (notEqual signed c) :=
  inferInstanceAs (Decidable (_ ≠ _))

/-- The loop of `decodeBase64Data`; the padding of a group is not passed over. -/
def decodeLoop (signed : Bool) : Nat → List UInt8 → Except Fault (List UInt8)
  | theInputCount + 4, c0 :: c1 :: c2 :: theInput => do
    let thePackedGroup := digitInt c0 <<< 18 ||| digitInt c1 <<< 12
    let o0 := toChar (thePackedGroup >>> 16)
    if notEqual signed c2 then
      let thePackedGroup := thePackedGroup ||| digitInt c2 <<< 6
      let o1 := toChar (thePackedGroup >>> 8)
      match theInput with
      | [] => .error .overrun
      | c3 :: theInput =>
        if notEqual signed c3 then
          let thePackedGroup := thePackedGroup ||| digitInt c3
          let o2 := toChar thePackedGroup
          let theOutput ← decodeLoop signed theInputCount theInput
          .ok (o0 :: o1 :: o2 :: theOutput)
        else
          let theOutput ← decodeLoop signed theInputCount (c3 :: theInput)
          .ok (o0 :: o1 :: theOutput)
    else
      let theOutput ← decodeLoop signed theInputCount (c2 :: theInput)
      .ok (o0 :: theOutput)
  | _ + 4, _ => .error .overrun
  | _, _ => .ok [0]

/-- `decodeBase64Data`: what it writes. -/
def decodeBase64Data (signed : Bool) (theInput : List UInt8) (theInputCount : Nat) :
    Except Fault (List UInt8) :=
  decodeLoop signed (theInputCount - theInputCount % 4) theInput

/-- `deCryptPasswd`: the return value and what it writes to `orgPass`. -/
def deCryptPasswd (signed : Bool) (cryptPass : Option (List UInt8)) :
    Except Fault (Int × List UInt8) :=
  match cryptPass with
  | none => .ok (1, [])
  | some cryptPass => do
    let len ← strlen cryptPass
    let orgPass ← decodeBase64Data signed cryptPass (len % 2 ^ 16)
    .ok (0, orgPass)

/-! ## Statement -/

/-- The base64 text of a password, in the alphabet of `gBase64Table`. -/
def base64Text (s : List UInt8) : List UInt8 :=
  Lib.Base64.encode (fun d => gBase64Table.getD d 0) kAsciiEqual s

/-- A password: no NUL in it, and so short that its text has less than 2^16 characters. -/
abbrev Passwd := { s : List UInt8 // 0 ∉ s ∧ s.length ≤ 49149 }

/-! ## Digits -/

/-- The parts of the digits, whatever sign a `char` has. -/
theorem shifted_toNat (signed : Bool) (b : UInt8) :
    ((charInt signed b).sshiftRight 2 &&& 0o77).toNat = b.toNat / 4 ∧
      (charInt signed b <<< 4 &&& 0o60).toNat = b.toNat % 4 * 2 ^ 4 ∧
      ((charInt signed b).sshiftRight 4 &&& 0o17).toNat = b.toNat / 16 ∧
      (charInt signed b <<< 2 &&& 0o74).toNat = b.toNat % 16 * 2 ^ 2 ∧
      ((charInt signed b).sshiftRight 6 &&& 0o3).toNat = b.toNat / 64 ∧
      (charInt signed b &&& 0o77).toNat = b.toNat % 64 := by
  revert b signed
  refine fun signed => forall_byte ?_
  revert signed
  decide +kernel

/-- The character of a digit. -/
def symbol (d : Nat) : UInt8 := gBase64Table.getD d 0

theorem tableAt_eq {w : Word} {d : Nat} (h : w.toNat = d) (hd : d < 64) : tableAt w = symbol d := by
  have hchar : (toChar w).toNat = d := by
    rw [toChar, UInt8.toNat_ofBitVec, BitVec.toNat_setWidth, h, Nat.mod_eq_of_lt (by omega)]
  rw [tableAt, hchar, symbol]

/-- The text consists of characters that the decoder knows, and the padding is not one of them. -/
theorem symbol_spec (signed : Bool) {d : Nat} (hd : d < 64) :
    digitInt (symbol d) = BitVec.ofNat 32 d ∧ notEqual signed (symbol d) ∧ symbol d ≠ 0 := by
  have hall : ∀ d < 64, ∀ signed, digitInt (symbol d) = BitVec.ofNat 32 d ∧
      notEqual signed (symbol d) ∧ symbol d ≠ 0 := by decide +kernel
  exact hall d hd signed

theorem not_notEqual_pad (signed : Bool) : ¬ notEqual signed kAsciiEqual := by
  revert signed
  decide

/-! ## A group -/

section Group

variable (signed : Bool) (a b c : UInt8)

theorem buildBase64Group_eq : buildBase64Group signed a b c =
    [symbol (digit (packed a b c) 3), symbol (digit (packed a b c) 2),
      symbol (digit (packed a b c) 1), symbol (digit (packed a b c) 0)] := by
  obtain ⟨ha6, ha2, -, -, -, -⟩ := shifted_toNat signed a
  obtain ⟨-, -, hb4, hb2, -, -⟩ := shifted_toNat signed b
  obtain ⟨-, -, -, -, hc2, hc6⟩ := shifted_toNat signed c
  have ha := a.toNat_lt
  have hb := b.toNat_lt
  have hc := c.toNat_lt
  have hsecond : (charInt signed a <<< 4 &&& 0o60 |||
      (charInt signed b).sshiftRight 4 &&& 0o17).toNat = a.toNat % 4 * 16 + b.toNat / 16 :=
    or_toNat ha2 hb4 (by omega)
  have hthird : (charInt signed b <<< 2 &&& 0o74 |||
      (charInt signed c).sshiftRight 6 &&& 0o3).toNat = b.toNat % 16 * 4 + c.toNat / 64 :=
    or_toNat hb2 hc2 (by omega)
  rw [digit_three, digit_two, digit_one, digit_zero, buildBase64Group, tableAt_eq ha6 (by omega),
    tableAt_eq hsecond (by omega), tableAt_eq hthird (by omega), tableAt_eq hc6 (by omega)]

/-- Four digits are put together again, and so are three and two. -/
theorem group_toNat {w3 w2 w1 w0 : Word} {d3 d2 d1 d0 : Nat} (h3 : w3 = BitVec.ofNat 32 d3)
    (h2 : w2 = BitVec.ofNat 32 d2) (h1 : w1 = BitVec.ofNat 32 d1) (h0 : w0 = BitVec.ofNat 32 d0)
    (l3 : d3 < 64) (l2 : d2 < 64) (l1 : d1 < 64) (l0 : d0 < 64) :
    (w3 <<< 18 ||| w2 <<< 12).toNat = d3 * 2 ^ 18 + d2 * 2 ^ 12 ∧
      (w3 <<< 18 ||| w2 <<< 12 ||| w1 <<< 6).toNat = d3 * 2 ^ 18 + d2 * 2 ^ 12 + d1 * 2 ^ 6 ∧
      (w3 <<< 18 ||| w2 <<< 12 ||| w1 <<< 6 ||| w0).toNat =
        d3 * 2 ^ 18 + d2 * 2 ^ 12 + d1 * 2 ^ 6 + d0 := by
  have hshift : ∀ {w : Word} {d k : Nat}, w = BitVec.ofNat 32 d → d < 64 → k ≤ 18 →
      (w <<< k).toNat = d * 2 ^ k := by
    rintro w d k rfl hd hk
    have hmod : d % 2 ^ 32 = d := Nat.mod_eq_of_lt (by omega)
    have hle : d * 2 ^ k ≤ 63 * 2 ^ 18 :=
      Nat.mul_le_mul (by omega) (Nat.pow_le_pow_right (by decide) hk)
    rw [BitVec.toNat_shiftLeft, BitVec.toNat_ofNat, hmod, Nat.shiftLeft_eq]
    exact Nat.mod_eq_of_lt (by omega)
  have e2 : (w3 <<< 18 ||| w2 <<< 12).toNat = d3 * 2 ^ 18 + d2 * 2 ^ 12 :=
    or_toNat (hshift h3 l3 (by omega)) (hshift h2 l2 (by omega)) (by omega)
  have s2 : (w3 <<< 18 ||| w2 <<< 12).toNat = (d3 * 64 + d2) * 2 ^ 12 :=
    e2.trans (by omega)
  have e3 : (w3 <<< 18 ||| w2 <<< 12 ||| w1 <<< 6).toNat = (d3 * 64 + d2) * 2 ^ 12 + d1 * 2 ^ 6 :=
    or_toNat s2 (hshift h1 l1 (by omega)) (by omega)
  have s3 : (w3 <<< 18 ||| w2 <<< 12 ||| w1 <<< 6).toNat = (d3 * 4096 + d2 * 64 + d1) * 2 ^ 6 :=
    e3.trans (by omega)
  have e0 : w0.toNat = d0 := by rw [h0, BitVec.toNat_ofNat, Nat.mod_eq_of_lt (by omega)]
  have e4 : (w3 <<< 18 ||| w2 <<< 12 ||| w1 <<< 6 ||| w0).toNat =
      (d3 * 4096 + d2 * 64 + d1) * 2 ^ 6 + d0 := or_toNat s3 e0 (by omega)
  exact ⟨e2, e3.trans (by omega), e4.trans (by omega)⟩

variable {a} in
theorem toChar_eq {w : Word} (h : w.toNat % 256 = a.toNat) : toChar w = a := by
  rw [← UInt8.toNat_inj, toChar, UInt8.toNat_ofBitVec, BitVec.toNat_setWidth]
  exact h

variable {a} in
theorem toChar_shift {w : Word} {k : Nat} (h : w.toNat / 2 ^ k % 256 = a.toNat) :
    toChar (w >>> k) = a := by
  refine toChar_eq ?_
  rw [BitVec.toNat_ushiftRight, Nat.shiftRight_eq_div_pow]
  exact h

/-- The last digits, from `unsigned char` values. -/
theorem tail_digits : tableAt ((ucharInt a).sshiftRight 2) = symbol (digit (packed a b 0) 3) ∧
    tableAt (ucharInt a <<< 4 &&& 0o60 ||| (ucharInt b).sshiftRight 4 &&& 0o17) =
      symbol (digit (packed a b 0) 2) ∧
    tableAt (ucharInt b <<< 2 &&& 0o74) = symbol (digit (packed a b 0) 1) := by
  have hfirst : ((ucharInt a).sshiftRight 2).toNat = a.toNat / 4 := by
    revert a
    exact forall_byte (by decide +kernel)
  obtain ⟨-, ha2, -, -, -, -⟩ := shifted_toNat false a
  obtain ⟨-, -, hb4, hb2, -, -⟩ := shifted_toNat false b
  have ha := a.toNat_lt
  have hb := b.toNat_lt
  have hsecond : (ucharInt a <<< 4 &&& 0o60 ||| (ucharInt b).sshiftRight 4 &&& 0o17).toNat =
      a.toNat % 4 * 16 + b.toNat / 16 := or_toNat ha2 hb4 (by omega)
  have hthird : (ucharInt b <<< 2 &&& 0o74).toNat = b.toNat % 16 * 4 + (0 : UInt8).toNat / 64 := hb2
  rw [digit_three, digit_two, digit_one, tableAt_eq hfirst (by omega),
    tableAt_eq hsecond (by omega), tableAt_eq hthird (by rw [UInt8.toNat_zero]; omega)]
  exact ⟨rfl, rfl, rfl⟩

/-- The bytes are found again in the packed group, however much of it has been read. -/
theorem packed_group : ∃ w3 w2 w1 w0,
    digitInt (symbol (digit (packed a b c) 3)) = w3 ∧
    digitInt (symbol (digit (packed a b c) 2)) = w2 ∧
    digitInt (symbol (digit (packed a b c) 1)) = w1 ∧
    digitInt (symbol (digit (packed a b c) 0)) = w0 ∧
    toChar ((w3 <<< 18 ||| w2 <<< 12) >>> 16) = a ∧
    toChar ((w3 <<< 18 ||| w2 <<< 12 ||| w1 <<< 6) >>> 8) = b ∧
    toChar (w3 <<< 18 ||| w2 <<< 12 ||| w1 <<< 6 ||| w0) = c := by
  have hdigit : ∀ i, digitInt (symbol (digit (packed a b c) i)) =
      BitVec.ofNat 32 (digit (packed a b c) i) := fun i =>
    (symbol_spec false (digit_lt _ i)).1
  have ha := a.toNat_lt
  have hb := b.toNat_lt
  have hc := c.toNat_lt
  obtain ⟨e2, e3, e4⟩ := group_toNat (hdigit 3) (hdigit 2) (hdigit 1) (hdigit 0) (digit_lt _ 3)
    (digit_lt _ 2) (digit_lt _ 1) (digit_lt _ 0)
  refine ⟨_, _, _, _, rfl, rfl, rfl, rfl, toChar_shift ?_, toChar_shift ?_, toChar_eq ?_⟩
  · rw [e2, digits_two]
    omega
  · rw [e3, digits_three]
    omega
  · rw [e4, digits_four, packed]
    omega

end Group

/-! ## The text -/

theorem encodeBase64String_eq (signed : Bool) (r : List UInt8) : ∀ s : List UInt8,
    encodeBase64String signed (s ++ r) s.length = .ok (base64Text s ++ [0])
  | [] => by rw [List.length_nil, encodeBase64String]; rfl
  | [a] => by
    obtain ⟨hfirst, hsecond, -⟩ := tail_digits a 0
    show encodeBase64String signed (a :: r) 1 = _
    rw [encodeBase64String, hfirst, hsecond]
    rfl
  | [a, b] => by
    obtain ⟨hfirst, hsecond, hthird⟩ := tail_digits a b
    show encodeBase64String signed (a :: b :: r) 2 = _
    rw [encodeBase64String, hfirst, hsecond, hthird]
    rfl
  | a :: b :: c :: s => by
    have ih := encodeBase64String_eq signed r s
    show encodeBase64String signed (a :: b :: c :: (s ++ r)) (s.length + 3) = _
    rw [encodeBase64String, ih, buildBase64Group_eq]
    rfl

/-- The characters of a text are not the padding before the end, and no NUL. -/
theorem notEqual_symbol (signed : Bool) (n i : Nat) : notEqual signed (symbol (digit n i)) :=
  (symbol_spec signed (digit_lt n i)).2.1

theorem decodeLoop_eq (signed : Bool) (r : List UInt8) : ∀ s : List UInt8,
    decodeLoop signed (base64Text s).length (base64Text s ++ r) = .ok (s ++ [0])
  | [] => by cases r <;> rfl
  | [a] => by
    obtain ⟨w3, w2, w1, w0, h3, h2, -, -, ha, -, -⟩ := packed_group a 0 0
    show decodeLoop signed 4 (symbol _ :: symbol _ :: kAsciiEqual :: kAsciiEqual :: r) = _
    rw [decodeLoop, if_neg (not_notEqual_pad signed), h3, h2, ha]
    rfl
  | [a, b] => by
    obtain ⟨w3, w2, w1, w0, h3, h2, h1, -, ha, hb, -⟩ := packed_group a b 0
    show decodeLoop signed 4 (symbol _ :: symbol _ :: symbol _ :: kAsciiEqual :: r) = _
    rw [decodeLoop, if_pos (notEqual_symbol signed _ 1)]
    simp only [if_neg (not_notEqual_pad signed)]
    rw [h3, h2, h1, ha, hb]
    rfl
  | a :: b :: c :: s => by
    have ih := decodeLoop_eq signed r s
    obtain ⟨w3, w2, w1, w0, h3, h2, h1, h0, ha, hb, hc⟩ := packed_group a b c
    show decodeLoop signed ((base64Text s).length + 4)
      (symbol _ :: symbol _ :: symbol _ :: symbol _ :: (base64Text s ++ r)) = _
    rw [decodeLoop, if_pos (notEqual_symbol signed _ 1)]
    simp only [if_pos (notEqual_symbol signed _ 0)]
    rw [h3, h2, h1, h0, ha, hb, hc, ih]
    rfl

theorem strlen_eq {s : List UInt8} (h : 0 ∉ s) (r : List UInt8) :
    strlen (s ++ 0 :: r) = .ok s.length := by
  have hidx : (s ++ 0 :: r).idxOf? 0 = some s.length := by
    induction s with
    | nil => rfl
    | cons c s ih =>
      obtain ⟨hc, hs⟩ := not_or.mp (List.mem_cons.not.mp h)
      rw [List.cons_append, List.idxOf?_cons, beq_false_of_ne (Ne.symm hc), ih hs]
      rfl
  rw [strlen, hidx]

/-- No NUL is in the text. -/
theorem zero_notMem_base64Text (s : List UInt8) : 0 ∉ base64Text s := by
  intro h
  rcases mem_encode _ _ h with h | ⟨d, hd, h⟩
  · exact absurd h (by decide)
  · exact (symbol_spec false hd).2.2 h.symm

/-- **A password is stored as its base64 text, and read back, with signed and with unsigned
`char`.** -/
theorem passwd_roundTrip (signed : Bool) (s : Passwd) :
    enCryptPasswd signed (some (s.1 ++ [0])) = .ok (0, base64Text s.1 ++ [0]) ∧
      (base64Text s.1).length = 4 * ((s.1.length + 2) / 3) ∧
      deCryptPasswd signed (some (base64Text s.1 ++ [0])) = .ok (0, s.1 ++ [0]) := by
  obtain ⟨s, hs, hlen⟩ := s
  have htext : (base64Text s).length = 4 * ((s.length + 2) / 3) := length_encode _ _ s
  have hcount : s.length % 2 ^ 16 = s.length := Nat.mod_eq_of_lt (by omega)
  have hcount' : (base64Text s).length % 2 ^ 16 = (base64Text s).length :=
    Nat.mod_eq_of_lt (by omega)
  have hfour : (base64Text s).length - (base64Text s).length % 4 = (base64Text s).length := by omega
  refine ⟨?_, htext, ?_⟩
  · simp only [enCryptPasswd, strlen_eq hs, bind, Except.bind, hcount, encodeBase64String_eq]
  · simp only [deCryptPasswd, strlen_eq (zero_notMem_base64Text s), bind, Except.bind, hcount',
      decodeBase64Data, hfour, decodeLoop_eq]

/-- A password of bytes from 128 on, with signed `char`. -/
theorem passwd_roundTrip_high :
    enCryptPasswd true (some [0xC3, 0xA9, 0xFF, 0x80, 0]) = .ok (0, "w6n/gA==".toList.map
        (fun c => UInt8.ofNat c.toNat) ++ [0]) ∧
      deCryptPasswd true (some (base64Text [0xC3, 0xA9, 0xFF, 0x80] ++ [0])) =
        .ok (0, [0xC3, 0xA9, 0xFF, 0x80, 0]) := by
  obtain ⟨hcrypt, -, hdecrypt⟩ := passwd_roundTrip true ⟨[0xC3, 0xA9, 0xFF, 0x80], by decide⟩
  have htext : base64Text [0xC3, 0xA9, 0xFF, 0x80] =
      "w6n/gA==".toList.map fun c => UInt8.ofNat c.toNat := by
    decide
  rw [htext] at hcrypt
  exact ⟨hcrypt, hdecrypt⟩

end OnuFirmware.Tcapi
