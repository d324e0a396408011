import OnuFirmware.Clib.Str
import Mathlib.Data.BitVec

/-!
# Printing and reading decimal numbers

`%d` prints a word as a signed number, `snprintf` cuts the text to the buffer, and `%u` of `sscanf`
reads the text back, with a sign if there is one. A 32-bit word survives this exactly when its text
is shorter than the buffer.
-/

namespace OnuFirmware.Clib

/-- `unsigned int`. -/
abbrev Word := BitVec 32

/-- The greatest `unsigned int`. -/
def uintMax : Nat := 4294967295

/-- `snprintf(buf, size, "%s", text)`: what the buffer holds afterwards. -/
def snprintf (size : Nat) (text : Str) : Str := text.take (size - 1)

/-- `sscanf(s, "%u", ..)`, which is `strtoul`: a sign negates the word. -/
def scanU (s : Str) : Word :=
  match s.dropWhile isSpace with
  | '-' :: r => -BitVec.ofNat 32 (min (digitsVal 0 r) uintMax)
  | '+' :: r => BitVec.ofNat 32 (min (digitsVal 0 r) uintMax)
  | r => BitVec.ofNat 32 (min (digitsVal 0 r) uintMax)

/-- `%d` of an `unsigned int`. -/
def fmtWord (w : Word) : Str := fmtInt w.toInt

/-! ## Digits -/

theorem digitsVal_eq : ∀ {s : Str} (acc : Nat), (∀ c ∈ s, isDigit c = true) →
    digitsVal acc s = Nat.ofDigitChars 10 s acc
  | [], acc, _ => by rw [digitsVal, Nat.ofDigitChars_nil]
  | c :: s, acc, h => by
    rw [digitsVal, if_pos (h c List.mem_cons_self), Nat.ofDigitChars_cons,
      digitsVal_eq _ fun d hd => h d (List.mem_cons_of_mem c hd)]

theorem digitsVal_append_digits {s : Str} (hs : ∀ c ∈ s, isDigit c = true) (acc : Nat) (r : Str) :
    digitsVal acc (s ++ r) = digitsVal (digitsVal acc s) r := by
  induction s generalizing acc with
  | nil => rfl
  | cons c s ih =>
    obtain ⟨hc, hs⟩ := List.forall_mem_cons.mp hs
    rw [List.cons_append, digitsVal, if_pos hc, ih hs, digitsVal, if_pos hc]

theorem isDigit_of_mem_fmtNat {n : Nat} {c : Char} (h : c ∈ fmtNat n) : isDigit c = true := by
  have hd := Nat.isDigit_of_mem_toDigits (by decide) (by decide) h
  rw [Char.isDigit, Bool.and_eq_true, decide_eq_true_eq, decide_eq_true_eq] at hd
  exact isDigit_iff.mpr hd

theorem fmtNat_ne_nil (n : Nat) : fmtNat n ≠ [] := Nat.toDigits_ne_nil

/-- **Reading the digits of a number gives the number.** -/
@[simp] theorem digitsVal_fmtNat (n : Nat) : digitsVal 0 (fmtNat n) = n := by
  rw [digitsVal_eq 0 fun c hc => isDigit_of_mem_fmtNat hc]
  exact Nat.ofDigitChars_ten_toDigits

theorem fmtNat_inj {m n : Nat} : fmtNat m = fmtNat n ↔ m = n := by
  refine ⟨fun h => ?_, fun h => h ▸ rfl⟩
  rw [← digitsVal_fmtNat m, h, digitsVal_fmtNat]

theorem length_fmtNat_le {n k : Nat} (hk : 0 < k) : (fmtNat n).length ≤ k ↔ n < 10 ^ k :=
  Nat.length_toDigits_le_iff (by decide) hk

/-- The first character of a printed number is a digit. -/
theorem fmtNat_cons (n : Nat) : ∃ c s, fmtNat n = c :: s ∧ isDigit c = true := by
  rcases hn : fmtNat n with _ | ⟨c, s⟩
  · exact absurd hn (fmtNat_ne_nil n)
  · exact ⟨c, s, rfl, isDigit_of_mem_fmtNat (hn ▸ List.mem_cons_self)⟩

theorem atoi_fmtNat {n : Nat} (h : n ≤ intMax) : atoi (fmtNat n) = n := by
  obtain ⟨c, s, hn, hc⟩ := fmtNat_cons n
  rw [hn, atoi_of_isDigit hc, ← hn, digitsVal_fmtNat, Nat.min_eq_left h]

/-- What follows the digits is not read. -/
theorem atoi_le (s : Str) : atoi s ≤ intMax := by
  unfold atoi
  split
  · exact le_trans (Int.neg_nonpos_of_nonneg (by omega)) (by decide)
  all_goals exact Int.ofNat_le.mpr (min_le_right _ _)

theorem atoi_ge (s : Str) : -2147483648 ≤ atoi s := by
  unfold atoi
  split
  · have hmin := Nat.min_le_right (digitsVal 0 ‹Str›) (intMax + 1)
    simp only [intMax] at hmin ⊢
    omega
  all_goals omega

theorem atoi_fmtNat_append {n : Nat} (h : n ≤ intMax) {r : Str}
    (hr : ∀ c ∈ r.head?, isDigit c = false) : atoi (fmtNat n ++ r) = n := by
  obtain ⟨c, s, hn, hc⟩ := fmtNat_cons n
  have hval := digitsVal_append (fun c hc => isDigit_of_mem_fmtNat (n := n) hc) hr 0
  rw [digitsVal_fmtNat, hn, List.cons_append] at hval
  rw [hn, List.cons_append, atoi_of_isDigit hc, hval, Nat.min_eq_left h]

@[simp] theorem fmtInt_natCast (n : Nat) : fmtInt n = fmtNat n := by
  rw [fmtInt, if_neg (by omega), Int.natAbs_natCast]

theorem snprintf_eq {size : Nat} {text : Str} (h : text.length < size) :
    snprintf size text = text :=
  List.take_of_length_le (by omega)

theorem length_snprintf_lt (size : Nat) (text : Str) :
    (snprintf (size + 1) text).length ≤ size := List.length_take_le size text

/-- An `int` has at most ten digits. -/
theorem lt_ten_digits {n : Nat} (h : n ≤ intMax) : n < 10 ^ 10 := lt_of_le_of_lt h (by decide)

/-- A number of at most `k` digits is printed behind a head that leaves room for it. -/
theorem snprintf_append_fmtNat {size k n : Nat} {head : Str} (hn : n < 10 ^ k)
    (hfit : head.length + k < size) (hk : 0 < k := by decide) :
    snprintf size (head ++ fmtNat n) = head ++ fmtNat n := by
  have hlen := (length_fmtNat_le hk).mpr hn
  refine snprintf_eq ?_
  rw [List.length_append]
  omega

/-- Different numbers give different paths, if both fit. -/
theorem snprintf_append_fmtNat_inj {size k m n : Nat} {head : Str} (hm : m < 10 ^ k)
    (hn : n < 10 ^ k) (hfit : head.length + k < size) (hk : 0 < k := by decide) :
    snprintf size (head ++ fmtNat m) = snprintf size (head ++ fmtNat n) ↔ m = n := by
  rw [snprintf_append_fmtNat hm hfit hk, snprintf_append_fmtNat hn hfit hk,
    List.append_cancel_left_eq, fmtNat_inj]

/-- A digit string of `k` characters stands for a number below `10 ^ k`. -/
theorem digitsVal_lt {s : Str} (h : ∀ c ∈ s, isDigit c = true) :
    digitsVal 0 s < 10 ^ s.length := by
  -- induction from the right: the last character is the last digit
  induction s using List.reverseRecOn with
  | nil => simp [digitsVal]
  | append_singleton s c ih =>
    have hs : ∀ d ∈ s, isDigit d = true := fun d hd => h d (List.mem_append_left _ hd)
    have hc := isDigit_iff.mp (h c (by simp))
    have h9 : c.toNat ≤ '9'.toNat := hc.2
    have h0 : '9'.toNat = '0'.toNat + 9 := rfl
    have hlt := ih hs
    rw [digitsVal_eq 0 h, Nat.ofDigitChars_append, ← digitsVal_eq 0 hs, Nat.ofDigitChars_cons,
      Nat.ofDigitChars_nil, List.length_append, List.length_singleton, Nat.pow_succ]
    omega

/-- Each character adds at most one digit to the number read so far. -/
theorem digitsVal_lt_acc : ∀ (s : Str) (acc : Nat), digitsVal acc s < (acc + 1) * 10 ^ s.length
  | [], acc => by simp [digitsVal]
  | c :: s, acc => by
    rw [digitsVal, List.length_cons, Nat.pow_succ]
    split
    · next hc =>
      have h9 : c.toNat ≤ '9'.toNat := (isDigit_iff.mp hc).2
      have h0 : '9'.toNat = '0'.toNat + 9 := rfl
      calc digitsVal (10 * acc + (c.toNat - '0'.toNat)) s
          < (10 * acc + (c.toNat - '0'.toNat) + 1) * 10 ^ s.length := digitsVal_lt_acc s _
        _ ≤ ((acc + 1) * 10) * 10 ^ s.length := Nat.mul_le_mul_right _ (by omega)
        _ = (acc + 1) * (10 ^ s.length * 10) := by rw [Nat.mul_assoc, Nat.mul_comm 10]
    · calc acc < (acc + 1) * 1 := by omega
        _ ≤ (acc + 1) * (10 ^ s.length * 10) :=
          Nat.mul_le_mul_left _ (Nat.mul_pos (Nat.pow_pos (by decide)) (by decide))

/-- The number in a short text is small. -/
theorem atoi_lt_of_length {s : Str} {k : Nat} (h : s.length ≤ k) : atoi s < (10 ^ k : Nat) := by
  have hval : ∀ r : Str, r.length ≤ k → digitsVal 0 r < 10 ^ k := fun r hr =>
    calc digitsVal 0 r < (0 + 1) * 10 ^ r.length := digitsVal_lt_acc r 0
      _ ≤ 10 ^ k := by rw [Nat.zero_add, Nat.one_mul]; exact Nat.pow_le_pow_right (by decide) hr
  have hdrop : (s.dropWhile isSpace).length ≤ k :=
    Nat.le_trans (List.dropWhile_suffix isSpace).length_le h
  have hpos : 0 < 10 ^ k := Nat.pow_pos (by decide)
  rw [atoi]
  split
  · omega
  · next r hr =>
    rw [hr, List.length_cons] at hdrop
    have := hval r (by omega)
    omega
  · next r _ _ =>
    have := hval (s.dropWhile isSpace) hdrop
    omega

/-- The first digits of a number that is not zero are not all zero. -/
theorem digitsVal_take_pos {n k : Nat} (hn : 0 < n) (hk : 0 < k) :
    0 < digitsVal 0 ((fmtNat n).take k) := by
  by_cases hlen : (fmtNat n).length ≤ k
  · rw [List.take_of_length_le hlen, digitsVal_fmtNat]
    exact hn
  · -- the number is the value of its first digits, moved to the left, and that of the other ones
    have hdig : ∀ c ∈ (fmtNat n).take k, isDigit c = true := fun c hc =>
      isDigit_of_mem_fmtNat (List.mem_of_mem_take hc)
    have hrest : ∀ c ∈ (fmtNat n).drop k, isDigit c = true := fun c hc =>
      isDigit_of_mem_fmtNat (List.mem_of_mem_drop hc)
    have hlt := digitsVal_lt hrest
    have hval : Nat.ofDigitChars 10 ((fmtNat n).take k ++ (fmtNat n).drop k) 0 = n := by
      rw [List.take_append_drop]
      exact Nat.ofDigitChars_ten_toDigits
    rw [Nat.ofDigitChars_append, Nat.ofDigitChars_eq_ofDigitChars_zero, ← digitsVal_eq 0 hdig,
      ← digitsVal_eq 0 hrest] at hval
    by_contra hzero
    have hle : (fmtNat n).length ≤ ((fmtNat n).drop k).length := by
      refine (length_fmtNat_le ?_).mpr ?_
      · rw [List.length_drop]
        omega
      · rw [Nat.eq_zero_of_not_pos hzero, Nat.mul_zero, Nat.zero_add] at hval
        rwa [hval] at hlt
    rw [List.length_drop] at hle
    omega

/-- The numbers that an `int` holds. -/
def IsInt (i : Int) : Prop := -2147483648 ≤ i ∧ i ≤ 2147483647

theorem fmtInt_of_neg {i : Int} (h : i < 0) : fmtInt i = '-' :: fmtNat i.natAbs := by
  rw [fmtInt, if_pos h]

theorem atoi_fmtInt {i : Int} (h : IsInt i) : atoi (fmtInt i) = i := by
  obtain ⟨hmin, hmax⟩ := h
  by_cases hneg : i < 0
  · have hval : atoi ('-' :: fmtNat i.natAbs) =
        -(min (digitsVal 0 (fmtNat i.natAbs)) (intMax + 1) : Nat) := rfl
    rw [fmtInt_of_neg hneg, hval, digitsVal_fmtNat, intMax]
    omega
  · obtain ⟨n, rfl⟩ := Int.eq_ofNat_of_zero_le (Int.not_lt.mp hneg)
    rw [fmtInt_natCast, atoi_fmtNat (by rw [intMax]; omega)]

theorem length_fmtInt_le {i : Int} (h : IsInt i) : (fmtInt i).length ≤ 11 := by
  obtain ⟨hmin, hmax⟩ := h
  have habs : (fmtNat i.natAbs).length ≤ 10 := (length_fmtNat_le (by decide)).mpr (by omega)
  rw [fmtInt]
  split
  · rw [List.length_cons]
    omega
  · omega

theorem fmtInt_ne_nil (i : Int) : fmtInt i ≠ [] := by
  rw [fmtInt]
  split
  · simp
  · exact fmtNat_ne_nil _

/-- The beginning of a negative number is read as a negative number. -/
theorem atoi_take_fmtInt {i : Int} (h : i < 0) {k : Nat} (hk : 1 < k) :
    atoi ((fmtInt i).take k) < 0 := by
  obtain ⟨m, rfl⟩ : ∃ m, k = m + 1 := ⟨k - 1, by omega⟩
  have hval : atoi ('-' :: (fmtNat i.natAbs).take m) =
      -(min (digitsVal 0 ((fmtNat i.natAbs).take m)) (intMax + 1) : Nat) := rfl
  have hpos := digitsVal_take_pos (n := i.natAbs) (k := m) (by omega) (by omega)
  rw [fmtInt_of_neg h, List.take_succ_cons, hval]
  omega

/-! ## Words as texts -/

theorem scanU_of_isDigit {c : Char} {s : Str} (h : isDigit c = true) :
    scanU (c :: s) = BitVec.ofNat 32 (min (digitsVal 0 (c :: s)) uintMax) := by
  have hd := isDigit_iff.mp h
  rw [scanU, List.dropWhile_cons_of_neg (by simp [isSpace_eq_false_of_isDigit h])]
  split
  · next r he =>
    obtain ⟨rfl, _⟩ := List.cons.inj he
    exact absurd hd.1 (by decide)
  · next r he =>
    obtain ⟨rfl, _⟩ := List.cons.inj he
    exact absurd hd.1 (by decide)
  · rfl

theorem scanU_minus (r : Str) :
    scanU ('-' :: r) = -BitVec.ofNat 32 (min (digitsVal 0 r) uintMax) := rfl

/-- The words whose signed decimal text has at most nine characters. -/
def FitsNine (w : Word) : Prop := w.toNat < 10 ^ 9 ∨ 2 ^ 32 - 10 ^ 8 < w.toNat

instance : DecidablePred FitsNine := fun _ => inferInstanceAs (Decidable (_ ∨ _))

/-- The digits of a positive word and of a negative one. -/
theorem fmtWord_eq (w : Word) :
    fmtWord w = if w.toNat < 2 ^ 31 then fmtNat w.toNat else '-' :: fmtNat (2 ^ 32 - w.toNat) := by
  have hw := w.isLt
  rw [fmtWord, fmtInt, BitVec.toInt_eq_toNat_cond]
  split
  · next h =>
    rw [if_neg (by omega), if_pos (by omega)]
    rfl
  · next h =>
    rw [if_pos (by omega), if_neg (by omega)]
    congr 2
    omega

/-- **A word read back from a ten-byte buffer is the word that was printed exactly when its text
fits.** -/
theorem scanU_snprintf_fmtWord (w : Word) :
    scanU (snprintf 10 (fmtWord w)) = w ↔ FitsNine w := by
  have hw := w.isLt
  rw [snprintf, fmtWord_eq, FitsNine, ← BitVec.toNat_inj]
  split
  · next h =>
    obtain ⟨c, s, hn, hc⟩ := fmtNat_cons w.toNat
    have htake : (fmtNat w.toNat).take (10 - 1) = c :: s.take 8 := by rw [hn]; rfl
    have hdig : ∀ d ∈ (fmtNat w.toNat).take 9, isDigit d = true := fun d hd =>
      isDigit_of_mem_fmtNat (List.mem_of_mem_take hd)
    have hlt := digitsVal_lt hdig
    have hlen : ((fmtNat w.toNat).take 9).length ≤ 9 := List.length_take_le _ _
    have hpow := Nat.pow_le_pow_right (show 0 < 10 by decide) hlen
    rw [htake, scanU_of_isDigit hc, ← htake, BitVec.toNat_ofNat, uintMax]
    constructor
    · intro he
      left
      simp only [Nat.add_one_sub_one] at he hlt
      omega
    · intro hfit
      have hshort := (length_fmtNat_le (show 0 < 9 by decide)).mpr
        (show w.toNat < 10 ^ 9 by omega)
      rw [List.take_of_length_le hshort, digitsVal_fmtNat]
      omega
  · next h =>
    have htake : ('-' :: fmtNat (2 ^ 32 - w.toNat)).take (10 - 1) =
      '-' :: (fmtNat (2 ^ 32 - w.toNat)).take 8 := rfl
    have hdig : ∀ d ∈ (fmtNat (2 ^ 32 - w.toNat)).take 8, isDigit d = true := fun d hd =>
      isDigit_of_mem_fmtNat (List.mem_of_mem_take hd)
    have hlt := digitsVal_lt hdig
    have hlen : ((fmtNat (2 ^ 32 - w.toNat)).take 8).length ≤ 8 := List.length_take_le _ _
    have hpow := Nat.pow_le_pow_right (show 0 < 10 by decide) hlen
    rw [htake, scanU_minus, BitVec.toNat_neg, BitVec.toNat_ofNat, uintMax]
    constructor
    · intro he
      right
      omega
    · intro hfit
      have hshort := (length_fmtNat_le (show 0 < 8 by decide)).mpr
        (show 2 ^ 32 - w.toNat < 10 ^ 8 by omega)
      rw [List.take_of_length_le hshort, digitsVal_fmtNat]
      omega

end OnuFirmware.Clib
