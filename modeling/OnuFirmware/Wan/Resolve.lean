import OnuFirmware.Clib.Num
import OnuFirmware.Lib.Bytes

/-!
# `resolve`: the address in a text

`resolve` reads two to four decimal numbers with dots between them and, behind a slash, the length
of a mask. It cuts the caller's string at each separator and reads the piece with `atoi`. The dots
are put back at once, the slash only at the end; `resolveRight_iff` says for which texts it does
what it is for.
-/

namespace OnuFirmware.Wan

open Clib Lib

/-! ## The function -/

/-- `strchr(s, c)`: the text before the first `c` and the text behind it. -/
def strchr (c : Char) : Str → Option (Str × Str)
  | [] => none
  | d :: s => if d = c then some ([], s) else (strchr c s).map fun p => (d :: p.1, p.2)

/-- What one call of `resolve` does: the caller's string afterwards, the return value, and what is
stored through the two pointers, `none` for nothing. -/
structure ResolveRun where
  text : Str
  ret : Int
  addr : Option (List UInt8)
  netmask : Option (BitVec 16)
deriving Repr, DecidableEq

/-- `htonl`, as the bytes that the word has in memory. -/
def htonl (w : Word) : List UInt8 :=
  [(w >>> 24).toNat, (w >>> 16).toNat, (w >>> 8).toNat, w.toNat].map UInt8.ofNat

/-- `digit = atoi(ipstr)`, where `digit` is an `unsigned long`. -/
def atoiWord (s : Str) : Word := BitVec.ofInt 32 (atoi s)

/-- The loop of `resolve` over the dots, with `n` turns left: `i`, `ipaddr`, the text before `ipstr`
and `ipstr`, or `none` if it returns. -/
def resolveDots : Nat → Nat → Word → Str → Str → Option (Nat × Word × Str × Str)
  | 0, i, ipaddr, before, ipstr => some (i, ipaddr, before, ipstr)
  | n + 1, i, ipaddr, before, ipstr =>
    match strchr '.' ipstr with
    | none => some (i, ipaddr, before, ipstr)
    | some (piece, rest) =>
      let digit := atoiWord piece
      if 255 < digit then none
      else resolveDots n (i + 1) (ipaddr <<< 8 ||| digit) (before ++ piece ++ ['.']) rest

/-- `resolve` from the last number on: `text` is the whole string, where the slash is cut, `mask` is
negative if there is none, and `restored` is the whole string with the slash. -/
def resolveLast (text restored : Str) (i : Nat) (ipaddr : Word) (ipstr : Str) (mask : BitVec 16)
    (netmask : Bool) : ResolveRun :=
  let digit := atoiWord ipstr
  let bits := (4 - i) <<< 3
  if BitVec.ofNat 32 (1 <<< bits - 1) < digit then ⟨text, -1, none, none⟩
  else
    let ipaddr := ipaddr <<< bits ||| digit
    -- check multicast and reserved IP
    let digit := ipaddr >>> 28
    if 14 ≤ digit then ⟨text, -1, none, none⟩
    else
      let given := mask
      let mask :=
        if mask.toInt < 0 then
          if digit < 8 then 8 else if digit < 12 then 16 else if digit < 14 then 24 else mask
        else mask
      ⟨if given.toInt < 0 then text else restored, 0, some (htonl ipaddr),
        if netmask then some mask else none⟩

/-- `resolve`; `netmask` says whether the caller passes a place for the mask. -/
def resolve (s : Str) (netmask : Bool) : ResolveRun :=
  match resolveDots 3 0 0 [] s with
  | none => ⟨s, -1, none, none⟩
  | some (i, ipaddr, before, ipstr) =>
    if i = 0 then ⟨s, -1, none, none⟩
    else
      match strchr '/' ipstr with
      | none => resolveLast s s i ipaddr ipstr (-1) netmask
      | some (last, behind) =>
        let mask := BitVec.ofInt 16 (atoi behind)
        if mask.toInt < 0 ∨ 32 < mask.toInt then ⟨s, -1, none, none⟩
        else resolveLast (before ++ last) s i ipaddr last mask netmask

/-- `checkName`. -/
def checkName : Str → Bool
  | [] => true
  | c :: s => if !isDigit c && c ≠ '.' && c ≠ ':' then c = '/' else checkName s

/-! ## What it is for -/

/-- A decimal number. -/
def IsNumber (t : Str) : Prop := t ≠ [] ∧ ∀ c ∈ t, isDigit c = true

/-- The number of the leading parts, with eight bits each. -/
def headsVal (heads : List Str) : Nat := heads.foldl (fun a h => 256 * a + digitsVal 0 h) 0

/-- The mask that the class of the address gives. -/
def classMask (addr : Nat) : Nat :=
  if addr < 8 * 2 ^ 28 then 8 else if addr < 12 * 2 ^ 28 then 16 else 24

/-- `s` is the text of an address with a mask: two to four numbers, the last one for all the
remaining bytes, and perhaps the length of the mask. -/
def AddrText (s : Str) (addr mask : Nat) : Prop :=
  ∃ (heads : List Str) (last tail : Str),
    s = heads.flatMap (· ++ ['.']) ++ last ++ tail ∧
    1 ≤ heads.length ∧ heads.length ≤ 3 ∧
    (∀ h ∈ heads, IsNumber h ∧ digitsVal 0 h ≤ 255) ∧
    IsNumber last ∧ digitsVal 0 last < 256 ^ (4 - heads.length) ∧
    addr = headsVal heads * 256 ^ (4 - heads.length) + digitsVal 0 last ∧ addr < 14 * 2 ^ 28 ∧
    (tail = [] ∧ mask = classMask addr ∨
      ∃ m, tail = '/' :: m ∧ IsNumber m ∧ digitsVal 0 m ≤ 32 ∧ mask = digitsVal 0 m)

/-- Only digits, dots and at most one slash. -/
def IpChars (s : Str) : Prop :=
  (∀ c ∈ s, isDigit c = true ∨ c = '.' ∨ c = '/') ∧ s.count '/' ≤ 1

/-- Whatever looks like an address gets past `checkName`. -/
theorem checkName_of_ipChars {s : Str} (h : ∀ c ∈ s, isDigit c = true ∨ c = '.' ∨ c = '/') :
    checkName s = true := by
  induction s with
  | nil => rfl
  | cons c s ih =>
    have ih := ih fun d hd => h d (List.mem_cons_of_mem c hd)
    unfold checkName
    rcases h c List.mem_cons_self with hc | rfl | rfl
    · simp [hc, ih]
    · simpa using ih
    · simp [isDigit]

/-- `resolve` leaves the text as it was, reads the texts of addresses and refuses what else looks
like them. -/
def ResolveRight (s : Str) (netmask : Bool) : Prop :=
  (resolve s netmask).text = s ∧
  (∀ addr mask, AddrText s addr mask → (resolve s netmask).ret = 0 ∧
    (∃ bytes, (resolve s netmask).addr = some bytes ∧ bytes.length = 4 ∧ beVal bytes = addr) ∧
    (resolve s netmask).netmask = if netmask then some (BitVec.ofNat 16 mask) else none) ∧
  (IpChars s → (¬ ∃ addr mask, AddrText s addr mask) → (resolve s netmask).ret = -1)

/-! ## The pieces of a text -/

/-- The pieces before the first dots, at most `n`, and the rest. -/
def pieces : Nat → Str → List Str × Str
  | 0, s => ([], s)
  | n + 1, s =>
    match strchr '.' s with
    | none => ([], s)
    | some (piece, rest) => (piece :: (pieces n rest).1, (pieces n rest).2)

/-- The pieces before the first three dots. -/
def leading (s : Str) : List Str := (pieces 3 s).1

/-- The piece between the third dot and the first slash behind it. -/
def lastPiece (s : Str) : Str :=
  ((strchr '/' (pieces 3 s).2).map Prod.fst).getD (pieces 3 s).2

attribute [grind =] pieces leading lastPiece

/-- The piece behind that slash. -/
def behindSlash (s : Str) : Option Str := (strchr '/' (pieces 3 s).2).map Prod.snd

/-- There are leading numbers, and none is more than 255. -/
def LeadingOk (s : Str) : Prop := leading s ≠ [] ∧ ∀ h ∈ leading s, 0 ≤ atoi h ∧ atoi h ≤ 255

/-- The length of the mask, which is a `short`, is at most 32. -/
def MaskOk (s : Str) : Prop :=
  ∀ m ∈ behindSlash s, 0 ≤ (BitVec.ofInt 16 (atoi m)).toInt ∧ (BitVec.ofInt 16 (atoi m)).toInt ≤ 32

/-- The number that the leading pieces give behind the number `a`. -/
def leadingInt (a : Int) (heads : List Str) : Int := heads.foldl (fun a h => 256 * a + atoi h) a

/-- The number that the pieces give. -/
def addrOf (s : Str) : Int :=
  leadingInt 0 (leading s) * 256 ^ (4 - (leading s).length) +
    atoi (lastPiece s)

/-- The last number fills the remaining bytes, and the address is below 224.0.0.0. -/
def LastOk (s : Str) : Prop :=
  (0 ≤ atoi (lastPiece s) ∧ atoi (lastPiece s) < 256 ^ (4 - (leading s).length)) ∧
    addrOf s < 14 * 2 ^ 28

/-- Every piece is a number, and that of the mask is at most 32. -/
def Clean (s : Str) : Prop :=
  (∀ h ∈ leading s, IsNumber h) ∧ IsNumber (lastPiece s) ∧
    ∀ m ∈ behindSlash s, IsNumber m ∧ digitsVal 0 m ≤ 32

/-- No slash is left cut, and what is read has no piece that is not a number. -/
def ResolveCond (s : Str) : Prop :=
  LeadingOk s → MaskOk s →
    (behindSlash s ≠ none → LastOk s) ∧ (IpChars s → LastOk s → Clean s)

theorem strchr_some {c : Char} {s a b : Str} :
    strchr c s = some (a, b) ↔ s = a ++ c :: b ∧ c ∉ a := by
  induction s generalizing a with
  | nil => simp [strchr]
  | cons d s ih =>
    unfold strchr
    by_cases hd : d = c
    · subst hd
      rw [if_pos rfl]
      constructor
      · intro h
        obtain ⟨rfl, rfl⟩ := Prod.mk.inj (Option.some.inj h)
        exact ⟨rfl, List.not_mem_nil⟩
      · rintro ⟨h, ha⟩
        cases a with
        | nil => simp at h; rw [h]
        | cons e a => exact absurd (List.mem_cons.mpr (.inl (List.cons.inj h).1)) ha
    · rw [if_neg hd]
      constructor
      · intro h
        obtain ⟨⟨a', b'⟩, hs, heq⟩ := Option.map_eq_some_iff.mp h
        obtain ⟨rfl, rfl⟩ := Prod.mk.inj heq
        obtain ⟨rfl, ha⟩ := ih.mp hs
        exact ⟨rfl, by simp [ha, Ne.symm hd]⟩
      · rintro ⟨h, ha⟩
        cases a with
        | nil => exact absurd (List.cons.inj h).1 hd
        | cons e a =>
          obtain ⟨rfl, rfl⟩ := List.cons.inj h
          have hs : strchr c (a ++ c :: b) = some (a, b) :=
            ih.mpr ⟨rfl, fun hm => ha (List.mem_cons_of_mem _ hm)⟩
          exact congrArg (Option.map _) hs

theorem strchr_none {c : Char} {s : Str} : strchr c s = none ↔ c ∉ s := by
  constructor
  · intro h hc
    obtain ⟨a, b, hs, ha⟩ := List.eq_append_cons_of_mem hc
    rw [strchr_some.mpr ⟨hs, ha⟩] at h
    exact absurd h (by simp)
  · intro hc
    cases h : strchr c s with
    | none => rfl
    | some p =>
      obtain ⟨rfl, -⟩ := strchr_some.mp h
      exact absurd (by simp) hc

/-- The text is put together from its pieces. -/
theorem pieces_append (n : Nat) (s : Str) :
    s = (pieces n s).1.flatMap (· ++ ['.']) ++ (pieces n s).2 := by
  induction n generalizing s with
  | zero => rfl
  | succ n ih =>
    unfold pieces
    cases h : strchr '.' s with
    | none => rfl
    | some p =>
      obtain ⟨piece, rest⟩ := p
      obtain ⟨rfl, -⟩ := strchr_some.mp h
      have ih := ih rest
      simp only [List.flatMap_cons, List.append_assoc] at ih ⊢
      rw [← ih]
      rfl

theorem length_pieces_le (n : Nat) (s : Str) : (pieces n s).1.length ≤ n := by
  induction n generalizing s with
  | zero => exact Nat.le_refl 0
  | succ n ih =>
    unfold pieces
    split
    · exact Nat.zero_le _
    · next piece rest _ => exact Nat.succ_le_succ (ih rest)

/-- Pieces without a dot are found again. -/
theorem pieces_eq {r : Str} {n : Nat} {heads : List Str} (hdot : ∀ h ∈ heads, '.' ∉ h)
    (hlen : heads.length ≤ n) (hr : '.' ∉ r) :
    pieces n (heads.flatMap (· ++ ['.']) ++ r) = (heads, r) := by
  induction heads generalizing n with
  | nil =>
    cases n with
    | zero => rfl
    | succ n =>
      unfold pieces
      rw [List.flatMap_nil, List.nil_append, strchr_none.mpr hr]
  | cons h heads ih =>
    obtain ⟨n, rfl⟩ : ∃ m, n = m + 1 := ⟨n - 1, by rw [List.length_cons] at hlen; omega⟩
    have ih := ih (fun k hk => hdot k (List.mem_cons_of_mem h hk))
      (Nat.le_of_succ_le_succ hlen)
    have hcut : strchr '.' ((h :: heads).flatMap (· ++ ['.']) ++ r) =
        some (h, heads.flatMap (· ++ ['.']) ++ r) :=
      strchr_some.mpr ⟨by simp, hdot h List.mem_cons_self⟩
    unfold pieces
    rw [hcut]
    simp only [ih]

/-! ## What the function makes of the pieces -/

/-- As an `unsigned long` a negative number is large. -/
theorem atoiWord_toNat (s : Str) : ((atoiWord s).toNat : Int) =
    if 0 ≤ atoi s then atoi s else atoi s + 2 ^ 32 := by
  have hlow := atoi_ge s
  have hhigh := atoi_le s
  simp only [intMax] at hhigh
  unfold atoiWord
  rw [BitVec.toNat_ofInt]
  split <;> omega

/-- The comparison with a small bound. -/
theorem lt_atoiWord_iff {k : Nat} (hk : k < 2 ^ 31) (s : Str) :
    BitVec.ofNat 32 k < atoiWord s ↔ ¬ (0 ≤ atoi s ∧ atoi s ≤ k) := by
  have hword := atoiWord_toNat s
  have hlow := atoi_ge s
  have hbound : (BitVec.ofNat 32 k).toNat = k := by
    rw [BitVec.toNat_ofNat]
    omega
  rw [BitVec.lt_def, hbound]
  split at hword <;> omega

/-- Shifting in a number of `k` bits. -/
theorem toNat_shift_or {k : Nat} {a d : Word}
    (hd : d.toNat < 2 ^ k) (ha : a.toNat * 2 ^ k < 2 ^ 32) :
    (a <<< k ||| d).toNat = a.toNat * 2 ^ k + d.toNat := by
  rw [BitVec.toNat_or, BitVec.toNat_shiftLeft, Nat.shiftLeft_eq, Nat.mod_eq_of_lt ha,
    ← Nat.shiftLeft_eq, ← Nat.shiftLeft_add_eq_or_of_lt hd]

/-- The word that the loop makes of the leading pieces. -/
def leadingWord (ipaddr : Word) (heads : List Str) : Word :=
  heads.foldl (fun (a : Word) h => a <<< 8 ||| atoiWord h) ipaddr

/-- The loop stops at the first piece that is out of range, and otherwise behind the third dot. -/
theorem resolveDots_eq (n i : Nat) (ipaddr : Word) (before s : Str) :
    resolveDots n i ipaddr before s =
      if ∀ h ∈ (pieces n s).1, 0 ≤ atoi h ∧ atoi h ≤ 255 then
        some (i + (pieces n s).1.length, leadingWord ipaddr (pieces n s).1,
          before ++ (pieces n s).1.flatMap (· ++ ['.']), (pieces n s).2)
      else none := by
  induction n generalizing i ipaddr before s with
  | zero => simp [resolveDots, pieces, leadingWord]
  | succ n ih =>
    unfold resolveDots pieces
    cases h : strchr '.' s with
    | none => simp [leadingWord]
    | some p =>
      obtain ⟨piece, rest⟩ := p
      have hbound : (255 : Word) < atoiWord piece ↔ ¬ (0 ≤ atoi piece ∧ atoi piece ≤ 255) :=
        lt_atoiWord_iff (k := 255) (by decide) piece
      show (if 255 < atoiWord piece then none else _) = _
      by_cases hpiece : 0 ≤ atoi piece ∧ atoi piece ≤ 255
      · rw [if_neg fun hlt => hbound.mp hlt hpiece, ih]
        simp [hpiece, Nat.add_assoc, Nat.add_comm 1, leadingWord]
      · rw [if_pos (hbound.mpr hpiece), if_neg fun hall => hpiece (hall piece List.mem_cons_self)]

/-- The number of the leading pieces. -/
theorem leadingWord_eq (heads : List Str) (a : Word) (k : Nat)
    (hall : ∀ h ∈ heads, 0 ≤ atoi h ∧ atoi h ≤ 255) (ha : a.toNat < 256 ^ k)
    (hk : k + heads.length ≤ 4) :
    ((leadingWord a heads).toNat : Int) = leadingInt a.toNat heads ∧
      (leadingWord a heads).toNat < 256 ^ (k + heads.length) := by
  induction heads generalizing a k with
  | nil => exact ⟨rfl, ha⟩
  | cons h heads ih =>
    obtain ⟨hlow, hhigh⟩ := hall h List.mem_cons_self
    have hword := atoiWord_toNat h
    rw [if_pos hlow] at hword
    have hk' : k + heads.length + 1 ≤ 4 := hk
    have hpow : 256 ^ k * 256 ≤ 2 ^ 32 := by
      rw [← Nat.pow_succ, show 2 ^ 32 = 256 ^ 4 from rfl]
      exact Nat.pow_le_pow_right (by decide) (by omega)
    have hstep : (a <<< 8 ||| atoiWord h).toNat = a.toNat * 2 ^ 8 + (atoiWord h).toNat :=
      toNat_shift_or (by omega) (by omega)
    have hnext : (a <<< 8 ||| atoiWord h).toNat < 256 ^ (k + 1) := by
      rw [hstep, Nat.pow_succ]
      omega
    obtain ⟨hval, hlt⟩ :=
      ih _ (k + 1) (fun d hd => hall d (List.mem_cons_of_mem h hd)) hnext (by omega)
    refine ⟨?_, by rwa [Nat.add_right_comm, Nat.add_assoc] at hlt⟩
    show ((leadingWord (a <<< 8 ||| atoiWord h) heads).toNat : Int) =
      leadingInt (256 * a.toNat + atoi h) heads
    rw [hval, hstep]
    congr 1
    push_cast
    omega

variable {s : Str}

/-- The text in which the slash is cut. -/
def cutText (s : Str) : Str := (leading s).flatMap (· ++ ['.']) ++ lastPiece s

/-- The mask as `resolve` keeps it while it reads the last piece. -/
def maskWord (s : Str) : BitVec 16 :=
  match behindSlash s with
  | none => -1
  | some m => BitVec.ofInt 16 (atoi m)

theorem maskWord_neg_iff (hm : MaskOk s) : (maskWord s).toInt < 0 ↔ behindSlash s = none := by
  unfold maskWord
  cases h : behindSlash s with
  | none => exact iff_of_true (by decide) rfl
  | some m =>
    have := (hm m (by rw [h]; rfl)).1
    simp only [reduceCtorEq, iff_false, Int.not_lt]
    exact this

/-- Behind the checks of the leading pieces and the mask the last piece is read. -/
theorem resolve_last (hl : LeadingOk s) (hm : MaskOk s) (netmask : Bool) :
    resolve s netmask = resolveLast (cutText s) s (leading s).length (leadingWord 0 (leading s))
      (lastPiece s) (maskWord s) netmask := by
  have hpos : (leading s).length ≠ 0 := fun h => hl.1 (List.eq_nil_of_length_eq_zero h)
  have hall : ∀ h ∈ (pieces 3 s).1, 0 ≤ atoi h ∧ atoi h ≤ 255 := hl.2
  have happend := pieces_append 3 s
  unfold resolve
  rw [resolveDots_eq, if_pos hall]
  show (if 0 + (leading s).length = 0 then _ else _) = _
  rw [if_neg (by omega), Nat.zero_add]
  unfold cutText lastPiece maskWord
  unfold MaskOk at hm
  unfold behindSlash at hm ⊢
  cases h : strchr '/' (pieces 3 s).2 with
  | none =>
    simp only [Option.map_none, Option.getD_none]
    rw [leading, ← happend]
  | some p =>
    obtain ⟨last, m⟩ := p
    rw [h] at hm
    have := hm m rfl
    simp only [List.nil_append, Option.map_some, Option.getD_some]
    rw [if_neg (by omega)]
    rfl

/-- If one of the checks fails, nothing has been cut. -/
theorem resolve_refused (h : ¬ (LeadingOk s ∧ MaskOk s)) (netmask : Bool) :
    resolve s netmask = ⟨s, -1, none, none⟩ := by
  unfold resolve
  rw [resolveDots_eq]
  by_cases hall : ∀ h ∈ (pieces 3 s).1, 0 ≤ atoi h ∧ atoi h ≤ 255
  swap
  · rw [if_neg hall]
  rw [if_pos hall]
  by_cases hnil : leading s = []
  · show (if 0 + (leading s).length = 0 then _ else _) = _
    rw [hnil]
    rfl
  have hpos : (leading s).length ≠ 0 := fun h => hnil (List.eq_nil_of_length_eq_zero h)
  have hm : ¬ MaskOk s := fun hm => h ⟨⟨hnil, hall⟩, hm⟩
  show (if 0 + (leading s).length = 0 then _ else _) = _
  rw [if_neg (by omega)]
  unfold MaskOk behindSlash at hm
  cases hs : strchr '/' (pieces 3 s).2 with
  | none => exact absurd (by simp [hs]) hm
  | some p =>
    obtain ⟨last, m⟩ := p
    simp only [hs, Option.map_some, Option.mem_def, Option.some.injEq, forall_eq'] at hm
    simp only [List.nil_append]
    rw [if_pos (by omega)]

theorem beVal_htonl (w : Word) : beVal (htonl w) = w.toNat := by
  have hw := w.isLt
  have hbyte (k : Nat) : ((w >>> k).toNat) = w.toNat / 2 ^ k := by
    rw [BitVec.toNat_ushiftRight, Nat.shiftRight_eq_div_pow]
  unfold htonl
  simp only [List.map_cons, List.map_nil, beVal_cons, List.length_cons, List.length_nil, hbyte,
    UInt8.toNat_ofNat']
  have hnil : beVal [] = 0 := rfl
  omega

/-- The last piece, for `i` leading numbers. -/
theorem resolveLast_eq {text restored ipstr : Str} {i : Nat} {ip : Word} (hi : 1 ≤ i) (hi' : i ≤ 3)
    (hip : ip.toNat < 256 ^ i) (mask : BitVec 16) (netmask : Bool) {a : Int}
    (ha : a = ip.toNat * 256 ^ (4 - i) + atoi ipstr) :
    resolveLast text restored i ip ipstr mask netmask =
      if (0 ≤ atoi ipstr ∧ atoi ipstr < 256 ^ (4 - i)) ∧ a < 14 * 2 ^ 28 then
        ⟨if mask.toInt < 0 then text else restored, 0, some (htonl (BitVec.ofInt 32 a)),
          if netmask then some
            (if mask.toInt < 0 then BitVec.ofNat 16 (classMask a.toNat) else mask)
          else none⟩
      else ⟨text, -1, none, none⟩ := by
  have hbits : 2 ^ ((4 - i) <<< 3) = 256 ^ (4 - i) := by
    rw [Nat.shiftLeft_eq, Nat.mul_comm, Nat.pow_mul]
  have hall : 256 ^ i * 256 ^ (4 - i) = 2 ^ 32 := by
    rw [← Nat.pow_add, Nat.add_sub_cancel' (by omega)]
    rfl
  have hsmall : 256 ^ (4 - i) ≤ 256 ^ 3 := Nat.pow_le_pow_right (by decide) (by omega)
  have hone : 0 < 256 ^ (4 - i) := Nat.pow_pos (by decide)
  have hmul : ip.toNat * 256 ^ (4 - i) + 256 ^ (4 - i) ≤ 2 ^ 32 := by
    rw [← Nat.succ_mul, ← hall]
    exact Nat.mul_le_mul_right _ hip
  have hcast : ((256 ^ (4 - i) : Nat) : Int) = 256 ^ (4 - i) := by push_cast; rfl
  have hmax := lt_atoiWord_iff (k := 256 ^ (4 - i) - 1) (by omega) ipstr
  unfold resolveLast
  simp only [Nat.shiftLeft_eq 1, Nat.one_mul, hbits]
  rw [← hcast] at ha ⊢
  by_cases hlast : 0 ≤ atoi ipstr ∧ atoi ipstr < ((256 ^ (4 - i) : Nat) : Int)
  swap
  · rw [if_pos (hmax.mpr (by omega)), if_neg fun h => hlast h.1]
  have hword := atoiWord_toNat ipstr
  rw [if_pos hlast.1] at hword
  rw [if_neg (fun h => hmax.mp h (by omega))]
  have hor : (ip <<< ((4 - i) <<< 3) ||| atoiWord ipstr).toNat
      = ip.toNat * 256 ^ (4 - i) + (atoiWord ipstr).toNat := by
    rw [← hbits]
    exact toNat_shift_or (by rw [hbits]; omega) (by rw [hbits]; omega)
  generalize ip <<< ((4 - i) <<< 3) ||| atoiWord ipstr = addr at hor ⊢
  have haddr : a = (addr.toNat : Int) := by
    rw [ha, hor]
    push_cast
    omega
  have hshift : (addr >>> 28).toNat = addr.toNat / 2 ^ 28 := by
    rw [BitVec.toNat_ushiftRight, Nat.shiftRight_eq_div_pow]
  have hcmp (k : Nat) (hk : k < 16) : addr >>> 28 < BitVec.ofNat 32 k ↔
    addr.toNat < k * 2 ^ 28 := by
    rw [BitVec.lt_def, hshift, BitVec.toNat_ofNat]
    omega
  have hword : BitVec.ofInt 32 a = addr := by rw [haddr, BitVec.ofInt_natCast, BitVec.ofNat_toNat,
    BitVec.setWidth_eq]
  have h8 : addr >>> 28 < 8 ↔ _ := hcmp 8 (by decide)
  have h12 : addr >>> 28 < 12 ↔ _ := hcmp 12 (by decide)
  have h14 : addr >>> 28 < 14 ↔ _ := hcmp 14 (by decide)
  by_cases htop : addr.toNat < 14 * 2 ^ 28
  swap
  · rw [if_pos (BitVec.not_lt.mp (mt h14.mp htop)), if_neg fun h => htop (by omega)]
  have hok : (0 ≤ atoi ipstr ∧ atoi ipstr < ((256 ^ (4 - i) : Nat) : Int)) ∧ a < 14 * 2 ^ 28 :=
    ⟨hlast, by omega⟩
  rw [if_neg (fun h => BitVec.not_lt.mpr h (h14.mpr htop)), if_pos hok, hword, haddr,
    Int.toNat_natCast]
  unfold classMask
  simp only [h8, h12, h14, htop, if_true]
  congr 1
  split
  · split
    · split
      · rfl
      · split <;> rfl
    · rfl
  · rfl

/-- The mask that is stored. -/
def maskStored (s : Str) : BitVec 16 :=
  if (maskWord s).toInt < 0 then BitVec.ofNat 16 (classMask (addrOf s).toNat) else maskWord s

theorem length_leading (hl : LeadingOk s) : 1 ≤ (leading s).length ∧ (leading s).length ≤ 3 :=
  ⟨Nat.pos_of_ne_zero fun h => hl.1 (List.eq_nil_of_length_eq_zero h), length_pieces_le 3 s⟩

theorem leadingWord_leading (hl : LeadingOk s) :
    ((leadingWord 0 (leading s)).toNat : Int) = leadingInt 0 (leading s) ∧
      (leadingWord 0 (leading s)).toNat < 256 ^ (leading s).length := by
  have hlen := (length_leading hl).2
  have h := leadingWord_eq (leading s) 0 0 hl.2 (by decide) (by omega)
  rwa [Nat.zero_add] at h

theorem addrOf_eq (hl : LeadingOk s) : addrOf s =
    (leadingWord 0 (leading s)).toNat * 256 ^ (4 - (leading s).length) + atoi (lastPiece s) := by
  rw [(leadingWord_leading hl).1]
  rfl

/-- The slash is cut exactly if there is one. -/
theorem cutText_eq_iff : cutText s = s ↔ behindSlash s = none := by
  have happend := pieces_append 3 s
  unfold cutText lastPiece behindSlash leading
  cases h : strchr '/' (pieces 3 s).2 with
  | none => exact iff_of_true happend.symm rfl
  | some p =>
    obtain ⟨last, m⟩ := p
    refine iff_of_false ?_ (by simp)
    intro heq
    have hlen := congrArg List.length (heq.trans happend)
    rw [(strchr_some.mp h).1] at hlen
    simp at hlen

/-- What `resolve` does with an address in range. -/
theorem resolve_ok (hl : LeadingOk s) (hm : MaskOk s) (h : LastOk s) (netmask : Bool) :
    resolve s netmask = ⟨s, 0, some (htonl (BitVec.ofInt 32 (addrOf s))),
      if netmask then some (maskStored s) else none⟩ := by
  obtain ⟨hlen, hlen'⟩ := length_leading hl
  unfold LastOk at h
  rw [resolve_last hl hm,
    resolveLast_eq hlen hlen' (leadingWord_leading hl).2 _ _ (addrOf_eq hl), if_pos h]
  congr 1
  split
  · next hneg => exact cutText_eq_iff.mpr ((maskWord_neg_iff hm).mp hneg)
  · rfl

/-- The slash is not put back if the address is out of range. -/
theorem resolve_cut (hl : LeadingOk s) (hm : MaskOk s) (h : ¬ LastOk s) (netmask : Bool) :
    resolve s netmask = ⟨cutText s, -1, none, none⟩ := by
  obtain ⟨hlen, hlen'⟩ := length_leading hl
  unfold LastOk at h
  rw [resolve_last hl hm,
    resolveLast_eq hlen hlen' (leadingWord_leading hl).2 _ _ (addrOf_eq hl), if_neg h]

/-! ## The texts of addresses -/

theorem digit_ne {c d : Char} (hc : isDigit c = true) (hd : isDigit d = false) : c ≠ d := by
  rintro rfl
  rw [hc] at hd
  exact absurd hd (by decide)

theorem IsNumber.notMem {t : Str} (h : IsNumber t) {d : Char} (hd : isDigit d = false) : d ∉ t :=
  fun hm => digit_ne (h.2 d hm) hd rfl

/-- What `atoi` reads from a number. -/
theorem IsNumber.atoi_eq {t : Str} (h : IsNumber t) :
    atoi t = (min (digitsVal 0 t) intMax : Nat) := by
  cases t with
  | nil => exact absurd rfl h.1
  | cons c t => exact atoi_of_isDigit (h.2 c List.mem_cons_self)

theorem IsNumber.atoi_of_le {t : Str} (h : IsNumber t) (hle : digitsVal 0 t ≤ intMax) :
    atoi t = digitsVal 0 t := by
  rw [h.atoi_eq, Nat.min_eq_left hle]

theorem IsNumber.atoi_of_lt {t : Str} (h : IsNumber t) (hlt : atoi t < intMax) :
    atoi t = digitsVal 0 t := by
  have heq := h.atoi_eq
  omega

/-- The text with its last piece and what is behind the slash. -/
theorem text_eq (s : Str) : s = (leading s).flatMap (· ++ ['.']) ++ lastPiece s ++
    ((behindSlash s).map ('/' :: ·)).getD [] := by
  have happend := pieces_append 3 s
  unfold lastPiece behindSlash leading
  cases h : strchr '/' (pieces 3 s).2 with
  | none => rw [Option.map_none, Option.map_none, Option.map_none, Option.getD_none,
      Option.getD_none, List.append_nil, ← happend]
  | some p =>
    rw [Option.map_some, Option.map_some, Option.map_some, Option.getD_some, Option.getD_some,
      List.append_assoc, ← (strchr_some.mp h).1, ← happend]

/-- The pieces of the text of an address. -/
theorem addrText_pieces {heads : List Str} {last tail : Str}
    (hheads : ∀ h ∈ heads, IsNumber h) (hlen : heads.length ≤ 3) (hlast : IsNumber last)
    (htail : tail = [] ∨ ∃ m, tail = '/' :: m ∧ IsNumber m) :
    let s := heads.flatMap (· ++ ['.']) ++ last ++ tail
    leading s = heads ∧ lastPiece s = last ∧
      behindSlash s = if tail = [] then none else some tail.tail := by
  intro s
  have hdot : '.' ∉ last ++ tail := by
    rw [List.mem_append, not_or]
    refine ⟨hlast.notMem rfl, ?_⟩
    rcases htail with rfl | ⟨m, rfl, hm⟩
    · exact List.not_mem_nil
    · simp [hm.notMem (d := '.') rfl]
  have hp : pieces 3 s = (heads, last ++ tail) := by
    have h := pieces_eq (fun h hh => (hheads h hh).notMem rfl) hlen hdot
    rwa [← List.append_assoc] at h
  unfold leading lastPiece behindSlash
  rw [hp]
  rcases htail with rfl | ⟨m, rfl, hm⟩
  · have hnone : strchr '/' last = none := strchr_none.mpr (hlast.notMem rfl)
    simp [hnone]
  · have hsome : strchr '/' (last ++ '/' :: m) = some (last, m) :=
      strchr_some.mpr ⟨rfl, hlast.notMem rfl⟩
    simp [hsome]

theorem leadingInt_eq {heads : List Str} (h : ∀ t ∈ heads, atoi t = digitsVal 0 t) :
    ∀ a : Nat, leadingInt a heads = heads.foldl (fun a t => 256 * a + digitsVal 0 t) a := by
  induction heads with
  | nil => intro a; rfl
  | cons t heads ih =>
    intro a
    have hstep : leadingInt a (t :: heads) = leadingInt (256 * a + atoi t) heads := rfl
    rw [hstep, h t List.mem_cons_self, List.foldl_cons]
    exact ih (fun d hd => h d (List.mem_cons_of_mem t hd)) _

/-- The low sixteen bits of a small number. -/
theorem toInt_ofInt_small {n : Nat} (h : n ≤ 32) : (BitVec.ofInt 16 (n : Int)).toInt = n := by
  rw [BitVec.toInt_ofInt, Int.bmod_def]
  omega

/-- **The texts of addresses are those whose pieces are numbers and pass the checks.** -/
theorem addrText_iff {addr mask : Nat} : AddrText s addr mask ↔
    Clean s ∧ LeadingOk s ∧ LastOk s ∧ (addr : Int) = addrOf s ∧
      mask = ((behindSlash s).map (digitsVal 0)).getD (classMask addr) := by
  constructor
  · rintro ⟨heads, last, tail, rfl, hpos, hlen, hheads, hlast, hfit, haddr, htop, htail⟩
    have htail' : tail = [] ∨ ∃ m, tail = '/' :: m ∧ IsNumber m :=
      htail.imp And.left fun ⟨m, ht, hm, _⟩ => ⟨m, ht, hm⟩
    obtain ⟨hl, hp, hb⟩ := addrText_pieces (fun h hh => (hheads h hh).1) hlen hlast htail'
    generalize heads.flatMap (· ++ ['.']) ++ last ++ tail = s at hl hp hb ⊢
    have hhead : ∀ h ∈ heads, atoi h = digitsVal 0 h := fun h hh =>
      (hheads h hh).1.atoi_of_le ((hheads h hh).2.trans (by decide))
    have hsmall : 256 ^ (4 - heads.length) ≤ 256 ^ 3 := Nat.pow_le_pow_right (by decide) (by omega)
    have hlastv : atoi last = digitsVal 0 last := hlast.atoi_of_le (by simp only [intMax]; omega)
    have hval : (addr : Int) = addrOf s := by
      have hint := leadingInt_eq hhead 0
      unfold addrOf
      rw [hl, hp, hlastv, haddr]
      push_cast
      rw [← Int.natCast_zero, hint]
      rfl
    refine ⟨⟨?_, ?_, ?_⟩, ⟨?_, ?_⟩, ⟨⟨?_, ?_⟩, ?_⟩, hval, ?_⟩
    · rw [hl]; exact fun h hh => (hheads h hh).1
    · rwa [hp]
    · rw [hb]
      rcases htail with ⟨rfl, -⟩ | ⟨m, rfl, hm, hle, -⟩
      · simp
      · simpa using ⟨hm, hle⟩
    · rw [hl]
      rintro rfl
      exact absurd hpos (by decide)
    · rw [hl]
      intro h hh
      have := (hheads h hh).2
      rw [hhead h hh]
      omega
    · rw [hp, hlastv]; omega
    · rw [hp, hl, hlastv]; exact_mod_cast hfit
    · rw [← hval]; omega
    · rw [hb]
      rcases htail with ⟨rfl, hmask⟩ | ⟨m, rfl, -, -, hmask⟩
      · simpa using hmask
      · simpa using hmask
  · rintro ⟨⟨hheads, hlast, hbehind⟩, hl, ⟨⟨hlow, hfit⟩, htop⟩, hval, hmask⟩
    obtain ⟨hpos, hlen⟩ := length_leading hl
    have hhead : ∀ h ∈ leading s, atoi h = digitsVal 0 h := fun h hh =>
      (hheads h hh).atoi_of_lt (lt_of_le_of_lt (hl.2 h hh).2 (by decide))
    have hsmall : 256 ^ (4 - (leading s).length) ≤ 256 ^ 3 :=
      Nat.pow_le_pow_right (by decide) (by omega)
    have hcast : ((256 ^ (4 - (leading s).length) : Nat) : Int) =
      256 ^ (4 - (leading s).length) := by
      push_cast
      rfl
    have hlastv : atoi (lastPiece s) = digitsVal 0 (lastPiece s) :=
      hlast.atoi_of_lt (by simp only [intMax]; omega)
    refine ⟨leading s, lastPiece s, _, text_eq s, hpos, hlen, fun h hh => ⟨hheads h hh, ?_⟩, hlast,
      ?_, ?_, ?_, ?_⟩
    · have := (hl.2 h hh).2
      rw [hhead h hh] at this
      omega
    · rw [← hcast, hlastv] at hfit
      omega
    · have hint := leadingInt_eq hhead 0
      unfold addrOf at hval
      rw [hlastv, ← Int.natCast_zero, hint, ← hcast] at hval
      exact_mod_cast hval
    · rw [← hval] at htop
      omega
    · cases hb : behindSlash s with
      | none =>
        rw [hb] at hmask
        exact .inl ⟨rfl, hmask⟩
      | some m =>
        rw [hb] at hmask
        obtain ⟨hm, hle⟩ := hbehind m hb
        exact .inr ⟨m, rfl, hm, hle, hmask⟩

/-- The mask of the text of an address passes its check and is the one that is stored. -/
theorem Clean.mask (hc : Clean s) : MaskOk s ∧
    ∀ addr : Nat, (addr : Int) = addrOf s →
      maskStored s = BitVec.ofNat 16
        (((behindSlash s).map (digitsVal 0)).getD (classMask addr)) := by
  unfold MaskOk maskStored maskWord
  cases hb : behindSlash s with
  | none =>
    refine ⟨fun m hm => absurd hm (by simp), fun addr haddr => ?_⟩
    rw [← haddr]
    rfl
  | some m =>
    obtain ⟨hm, hle⟩ := hc.2.2 m hb
    have hatoi := hm.atoi_of_le (hle.trans (by decide))
    have hint := toInt_ofInt_small hle
    refine ⟨fun m' hm' => ?_, fun addr _ => ?_⟩
    · obtain rfl := Option.some.inj hm'
      rw [hatoi, hint]
      omega
    · simp only [hatoi, hint]
      rw [if_neg (by omega)]
      rfl

/-! ## When it does -/

/-- **`resolve` keeps the text, reads the addresses and refuses all else that looks like one exactly
if an address out of range comes without a slash, and what passes the checks is made of
numbers.** -/
theorem resolveRight_iff (s : Str) (netmask : Bool) : ResolveRight s netmask ↔ ResolveCond s := by
  unfold ResolveRight ResolveCond
  by_cases hchecks : LeadingOk s ∧ MaskOk s
  swap
  · -- refused before anything is cut
    have hno : ¬ ∃ addr mask, AddrText s addr mask := by
      rintro ⟨addr, mask, h⟩
      obtain ⟨hc, hl, -⟩ := addrText_iff.mp h
      exact hchecks ⟨hl, hc.mask.1⟩
    rw [resolve_refused hchecks]
    refine iff_of_true ⟨rfl, fun addr mask h => absurd ⟨addr, mask, h⟩ hno, fun _ _ => rfl⟩ ?_
    exact fun hl hm => absurd ⟨hl, hm⟩ hchecks
  obtain ⟨hl, hm⟩ := hchecks
  by_cases hlast : LastOk s
  swap
  · -- out of range: the slash stays cut
    have hno : ¬ ∃ addr mask, AddrText s addr mask := by
      rintro ⟨addr, mask, h⟩
      exact hlast (addrText_iff.mp h).2.2.1
    rw [resolve_cut hl hm hlast]
    constructor
    · rintro ⟨htext, -, -⟩ - -
      exact ⟨fun hb => absurd (cutText_eq_iff.mp htext) hb, fun _ h => absurd h hlast⟩
    · intro hcond
      have hb : behindSlash s = none := by
        by_contra hb
        exact hlast ((hcond hl hm).1 hb)
      exact ⟨cutText_eq_iff.mpr hb, fun addr mask h => absurd ⟨addr, mask, h⟩ hno, fun _ _ => rfl⟩
  · rw [resolve_ok hl hm hlast]
    constructor
    · rintro ⟨-, -, hrefuse⟩ - -
      refine ⟨fun _ => hlast, fun hchars _ => ?_⟩
      by_contra hc
      have hret : (0 : Int) = -1 := hrefuse hchars fun ⟨addr, mask, h⟩ => hc (addrText_iff.mp h).1
      exact absurd hret (by decide)
    · intro hcond
      refine ⟨rfl, ?_, fun hchars hno => ?_⟩
      · intro addr mask h
        obtain ⟨hc, -, -, hval, hmask⟩ := addrText_iff.mp h
        have hlt : (addr : Int) < 14 * 2 ^ 28 := hval ▸ hlast.2
        refine ⟨rfl, ⟨_, rfl, rfl, ?_⟩, ?_⟩
        · rw [beVal_htonl, ← hval, BitVec.ofInt_natCast, BitVec.toNat_ofNat]
          omega
        · rw [hmask, hc.mask.2 addr hval]
      · -- numbers in range are the text of an address
        have hc := (hcond hl hm).2 hchars hlast
        have hpos : 0 ≤ addrOf s := by
          rw [addrOf_eq hl]
          have := hlast.1.1
          positivity
        exact absurd ⟨(addrOf s).toNat, _, addrText_iff.mpr
          ⟨hc, hl, hlast, Int.toNat_of_nonneg hpos, rfl⟩⟩ hno

/-- An address of class E in front of a mask loses its slash. -/
theorem not_resolveRight : ¬ ∀ (s : Str) (netmask : Bool), ResolveRight s netmask := by
  intro h
  have htext := (h "224.0.0.1/8".toList true).1
  exact absurd htext (by decide)

end OnuFirmware.Wan
