import Mathlib.Data.List.Basic

/-!
# C strings and the library functions on them

A C string is the list of its characters up to the terminating NUL. The target is 32-bit, so
`int` and `long` hold `-2^31 .. 2^31 - 1` and `atoi`, which is `strtol` there, saturates at both
ends.

Where the C code would leave its own objects (write past a local array, read a freed block or an
array element that was never written) the model stops with a `Fault`: nothing is claimed about what
happens afterwards.
-/

namespace OnuFirmware.Clib

/-- A C string, without its NUL. -/
abbrev Str := List Char

instance : LawfulBEq Str := List.instLawfulBEq

/-- Ways in which the C code can leave defined behaviour. -/
inductive Fault
  | overrun
  | uninit
  | dangling
deriving Repr, DecidableEq

/-! ## Characters -/

def isDigit (c : Char) : Bool := '0' ≤ c && c ≤ '9'

/-- `isspace` in the C locale. -/
def isSpace (c : Char) : Bool :=
  c = ' ' || c = '\t' || c = '\n' || c = '\x0b' || c = '\x0c' || c = '\r'

/-- Lower case for ASCII letters, all other characters unchanged. -/
def toLower (c : Char) : Char :=
  if 'A' ≤ c ∧ c ≤ 'Z' then Char.ofNat (c.toNat + 32) else c

theorem toNat_ofNat {n : Nat} (h : n < 0xd800) : (Char.ofNat n).toNat = n := by
  have hvalid : n.isValidChar := .inl h
  rw [Char.ofNat, dif_pos hvalid]
  rfl

/-- A letter in lower case is one, and other characters are unchanged. -/
theorem toLower_cases (c : Char) :
    ('A' ≤ c ∧ c ≤ 'Z' ∧ 'a' ≤ toLower c ∧ toLower c ≤ 'z') ∨
      (¬ ('A' ≤ c ∧ c ≤ 'Z') ∧ toLower c = c) := by
  rw [toLower]
  split
  · next hc =>
    have h1 : 'A'.toNat ≤ c.toNat := hc.1
    have h2 : c.toNat ≤ 'Z'.toNat := hc.2
    simp only [Char.reduceToNat] at h1 h2
    have hval := @toNat_ofNat (c.toNat + 32) (by omega)
    refine .inl ⟨hc.1, hc.2, ?_, ?_⟩
    · show 'a'.toNat ≤ (Char.ofNat (c.toNat + 32)).toNat
      simp only [hval, Char.reduceToNat]
      omega
    · show (Char.ofNat (c.toNat + 32)).toNat ≤ 'z'.toNat
      simp only [hval, Char.reduceToNat]
      omega
  · next hc => exact .inr ⟨hc, rfl⟩

theorem toLower_toLower (c : Char) : toLower (toLower c) = toLower c := by
  rcases toLower_cases (toLower c) with ⟨-, hZ, -, -⟩ | ⟨-, heq⟩
  · rcases toLower_cases c with ⟨-, -, ha, -⟩ | ⟨-, heq⟩
    · exact absurd (Char.le_trans ha hZ) (by decide)
    · rw [heq, heq]
  · exact heq

/-- Only a character that is not a letter gives one. -/
theorem toLower_eq {c d : Char} (hd : ¬ ('a' ≤ d ∧ d ≤ 'z')) (h : toLower c = d) : c = d := by
  rcases toLower_cases c with ⟨-, -, ha, hz⟩ | ⟨-, heq⟩
  · rw [h] at ha hz
    exact absurd ⟨ha, hz⟩ hd
  · rw [← h, heq]

/-! ## `atoi` and `%d` -/

/-- The greatest `int`. -/
def intMax : Nat := 2147483647

/-- The value of a digit string read after the digits with value `acc`. -/
def digitsVal (acc : Nat) : Str → Nat
  | [] => acc
  | c :: s => if isDigit c then digitsVal (10 * acc + (c.toNat - '0'.toNat)) s else acc

/-- `atoi`: leading blanks, an optional sign, then digits up to the first other character. -/
def atoi (s : Str) : Int :=
  match s.dropWhile isSpace with
  | '-' :: r => -(min (digitsVal 0 r) (intMax + 1) : Nat)
  | '+' :: r => (min (digitsVal 0 r) intMax : Nat)
  | r => (min (digitsVal 0 r) intMax : Nat)

/-- `%d` of a number that is not negative. -/
def fmtNat (n : Nat) : Str := Nat.toDigits 10 n

/-- `%d`. -/
def fmtInt (i : Int) : Str :=
  if i < 0 then '-' :: fmtNat i.natAbs else fmtNat i.natAbs

theorem isDigit_iff {c : Char} : isDigit c = true ↔ '0' ≤ c ∧ c ≤ '9' := by
  simp [isDigit]

theorem digitsVal_ge (s : Str) (acc : Nat) : acc ≤ digitsVal acc s := by
  induction s generalizing acc with
  | nil => exact Nat.le_refl acc
  | cons c s ih =>
    rw [digitsVal]
    split
    · have := ih (10 * acc + (c.toNat - '0'.toNat))
      omega
    · exact Nat.le_refl acc

theorem digitsVal_append {s r : Str} (hs : ∀ c ∈ s, isDigit c = true)
    (hr : ∀ c ∈ r.head?, isDigit c = false) : ∀ acc, digitsVal acc (s ++ r) = digitsVal acc s := by
  induction s with
  | nil =>
    intro acc
    cases r with
    | nil => rfl
    | cons c r => simp [digitsVal, hr c (by simp)]
  | cons c s ih =>
    intro acc
    rw [List.cons_append, digitsVal, digitsVal, if_pos (hs c List.mem_cons_self),
      if_pos (hs c List.mem_cons_self), ih fun d hd => hs d (List.mem_cons_of_mem c hd)]

theorem isSpace_eq_false_of_isDigit {c : Char} (h : isDigit c = true) : isSpace c = false := by
  rw [isDigit_iff] at h
  have hc : ∀ d : Char, d < '0' → c ≠ d := fun d hd he =>
    absurd h.1 (by rw [he]; exact Char.not_le.mpr hd)
  simp [isSpace, hc ' ' (by decide), hc '\t' (by decide), hc '\n' (by decide),
    hc '\x0b' (by decide), hc '\x0c' (by decide), hc '\r' (by decide)]

/-- `atoi` of a string that starts with a digit. -/
theorem atoi_of_isDigit {c : Char} {s : Str} (h : isDigit c = true) :
    atoi (c :: s) = (min (digitsVal 0 (c :: s)) intMax : Nat) := by
  have hd := isDigit_iff.mp h
  rw [atoi, List.dropWhile_cons_of_neg (by simp [isSpace_eq_false_of_isDigit h])]
  split
  · next r he =>
    obtain ⟨rfl, _⟩ := List.cons.inj he
    exact absurd hd.1 (by decide)
  · next r he =>
    obtain ⟨rfl, _⟩ := List.cons.inj he
    exact absurd hd.1 (by decide)
  · rfl

/-- `strcasecmp(a, b) == 0`. -/
def strcasecmpEq (a b : Str) : Bool := a.map toLower == b.map toLower

/-! ## Runs of characters -/

/-- A run of characters that ends where the condition does. -/
theorem takeWhile_run {p : Char → Bool} {a r : Str} (ha : ∀ c ∈ a, p c = true)
    (hr : ∀ c ∈ r.head?, p c = false) : (a ++ r).takeWhile p = a := by
  rw [List.takeWhile_append_of_pos ha]
  cases r with
  | nil => simp
  | cons c r => simp [hr c (by simp)]

theorem dropWhile_run {p : Char → Bool} {a r : Str} (ha : ∀ c ∈ a, p c = true)
    (hr : ∀ c ∈ r.head?, p c = false) : (a ++ r).dropWhile p = r := by
  rw [List.dropWhile_append_of_pos ha]
  cases r with
  | nil => rfl
  | cons c r => simp [hr c (by simp)]

theorem takeWhile_all {p : Char → Bool} {a : Str} (ha : ∀ c ∈ a, p c = true) :
    a.takeWhile p = a := by
  have h := @takeWhile_run p a [] ha (by simp)
  rwa [List.append_nil] at h

/-! ## `strstr` -/

/-- What follows the first occurrence of `keyword`, as `strstr` finds it. -/
def strstrRest (keyword : Str) : Str → Option Str
  | [] => if keyword = [] then some [] else none
  | c :: s =>
    if keyword.isPrefixOf (c :: s) then some ((c :: s).drop keyword.length)
    else strstrRest keyword s

/-- `strstr(s, keyword) != NULL`. -/
def hasStr (s keyword : Str) : Bool := (strstrRest keyword s).isSome

theorem hasStr_iff {keyword s : Str} : hasStr s keyword = true ↔ keyword <:+: s := by
  induction s with
  | nil =>
    rw [hasStr, strstrRest, List.infix_nil]
    split <;> simp [*]
  | cons c s ih =>
    rw [List.infix_cons_iff, ← ih, hasStr, strstrRest, ← List.isPrefixOf_iff_prefix]
    split
    · next h => simp [h]
    · next h => simp [h, hasStr]

/-- A text without the first character of the keyword is skipped. -/
theorem strstrRest_append {k : Char} {keyword a : Str} (s : Str) (h : k ∉ a) :
    strstrRest (k :: keyword) (a ++ s) = strstrRest (k :: keyword) s := by
  induction a with
  | nil => rfl
  | cons c a ih =>
    have hc : k ≠ c := fun he => h (he ▸ List.mem_cons_self)
    have hpre : List.isPrefixOf (k :: keyword) (c :: (a ++ s)) = false := by
      simp [List.isPrefixOf, hc]
    rw [List.cons_append, strstrRest, hpre, if_neg (by decide),
      ih fun ha => h (List.mem_cons_of_mem c ha)]

end OnuFirmware.Clib
