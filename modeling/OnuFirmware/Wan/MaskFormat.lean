import OnuFirmware.Clib.Scan
import OnuFirmware.Wan.PolicyRoute
import Mathlib.Data.List.Infix
import Mathlib.Data.List.TakeWhile

/-!
# What `check_mask_format` accepts

The function is there twice, in `utility.c` and in `wan_common.c`, with the same text. The pattern
of `check_ip_format` is looked for anywhere in the first 15 characters, the numbers of the first
four fields are put together without a look at their range, and the bits have to be ones followed by
zeros. So a mask is accepted with the right length, and so are texts that are no addresses: with
something in front of the fields or behind them, or with fields that are too great.
-/

namespace OnuFirmware.Wan

open Clib

/-! ## Masks -/

/-- A field of the pattern. -/
def IpField (t : Str) : Prop := (∀ c ∈ t, isDigit c = true) ∧ 1 ≤ t.length ∧ t.length ≤ 3

/-- Four fields with dots between them. -/
def joinFields (a b c d : Str) : Str := a ++ '.' :: (b ++ '.' :: (c ++ '.' :: d))

/-- The word of four numbers. -/
def fieldsWord (a b c d : Int) : Word :=
  BitVec.ofInt 32 a <<< 24 ||| BitVec.ofInt 32 b <<< 16 ||| BitVec.ofInt 32 c <<< 8 |||
    BitVec.ofInt 32 d

/-- The word is `k` ones followed by zeros. -/
def LeadingOnes (w : Word) (k : Nat) : Prop := k ≤ 32 ∧ ∀ i < 32, w.getMsbD i = decide (i < k)

/-- A number of one to three digits that is at most 255. -/
def Octet (t : Str) : Prop := IpField t ∧ digitsVal 0 t ≤ 255

/-- Four decimal numbers up to 255 joined by dots, with nothing before or after. -/
def DottedQuad (s : Str) : Prop :=
  ∃ a b c d, Octet a ∧ Octet b ∧ Octet c ∧ Octet d ∧ s = joinFields a b c d

/-- The mask of length `k`, as a text. -/
def IsMask (s : Str) (k : Nat) : Prop :=
  ∃ a b c d, Octet a ∧ Octet b ∧ Octet c ∧ Octet d ∧ s = joinFields a b c d ∧
    LeadingOnes (fieldsWord (digitsVal 0 a) (digitsVal 0 b) (digitsVal 0 c) (digitsVal 0 d)) k

/-- **What `check_mask_format` is to do**: it accepts the masks, and stores their length. -/
def MaskRight (s : Str) : Prop :=
  ∀ text, checkMaskFormat s = some text ↔ ∃ k, text = fmtNat k ∧ IsMask s k

/-- Somewhere in the text there are four fields with dots between them. -/
def HasQuad (t : Str) : Prop :=
  ∃ pre a b c d post, IpField a ∧ IpField b ∧ IpField c ∧ IpField d ∧
    t = pre ++ (joinFields a b c d ++ post)

/-- The word of the numbers that the first four pieces between the dots begin with. -/
def piecesWord (t : Str) : Word :=
  match strtokAll '.' t with
  | a :: b :: c :: d :: _ => fieldsWord (atoi a) (atoi b) (atoi c) (atoi d)
  | _ => 0

/-- A text that is taken for a mask of length `k`: four fields are somewhere in its first 15
characters, and the pieces there make up such a word. -/
def LooksLikeMask (s : Str) (k : Nat) : Prop :=
  HasQuad (s.take 15) ∧ LeadingOnes (piecesWord (s.take 15)) k

/-! ## The pattern -/

theorem groupDot_eq_some {s r : Str} :
    groupDot s = some r ↔ ∃ a, IpField a ∧ s = a ++ '.' :: r := by
  constructor
  · intro h
    rw [groupDot] at h
    split at h
    · next hlen =>
      split at h
      · next hd =>
        cases h
        refine ⟨s.takeWhile isDigit, ⟨fun c hc => List.mem_takeWhile_imp hc, hlen⟩, ?_⟩
        rw [← hd, List.takeWhile_append_dropWhile]
      · cases h
    · cases h
  · rintro ⟨a, ⟨hd, hlen⟩, rfl⟩
    have hdot : ∀ c ∈ ('.' :: r).head?, isDigit c = false := by
      intro c hc
      cases hc
      rfl
    simp only [groupDot, takeWhile_run hd hdot, dropWhile_run hd hdot, if_pos hlen]

theorem matchesIp_iff {s : Str} : matchesIp s = true ↔
    ∃ a b c d post, IpField a ∧ IpField b ∧ IpField c ∧ IpField d ∧
      s = joinFields a b c d ++ post := by
  constructor
  · intro h
    rw [matchesIp] at h
    split at h
    · next x r hr =>
      simp only [Option.bind_eq_some_iff] at hr
      obtain ⟨s2, ⟨s1, h1, h2⟩, h3⟩ := hr
      obtain ⟨a, ha, rfl⟩ := groupDot_eq_some.mp h1
      obtain ⟨b, hb, rfl⟩ := groupDot_eq_some.mp h2
      obtain ⟨c, hc, rfl⟩ := groupDot_eq_some.mp h3
      exact ⟨a, b, c, [x], r, ha, hb, hc, ⟨by simpa using h, by simp, by simp⟩,
        by simp [joinFields]⟩
    · cases h
  · rintro ⟨a, b, c, d, post, ha, hb, hc, hd, rfl⟩
    obtain ⟨hdig, hlen, -⟩ := hd
    have h1 : groupDot (joinFields a b c d ++ post) =
        some (b ++ '.' :: (c ++ '.' :: d) ++ post) :=
      groupDot_eq_some.mpr ⟨a, ha, by simp [joinFields]⟩
    have h2 : groupDot (b ++ '.' :: (c ++ '.' :: d) ++ post) = some (c ++ '.' :: d ++ post) :=
      groupDot_eq_some.mpr ⟨b, hb, by simp⟩
    have h3 : groupDot (c ++ '.' :: d ++ post) = some (d ++ post) :=
      groupDot_eq_some.mpr ⟨c, hc, by simp⟩
    cases d with
    | nil => exact absurd hlen (by simp)
    | cons x d =>
      rw [matchesIp, h1, Option.bind_some, h2, Option.bind_some, h3]
      exact hdig x List.mem_cons_self

/-- `check_ip_format` looks for the four fields anywhere in the first 15 characters. -/
theorem checkIpFormat_iff {s : Str} : checkIpFormat s = true ↔ HasQuad (s.take 15) := by
  rw [checkIpFormat, List.any_eq_true]
  constructor
  · rintro ⟨r, hr, hm⟩
    obtain ⟨pre, hpre⟩ := (List.mem_tails _ _).mp hr
    obtain ⟨a, b, c, d, post, ha, hb, hc, hd, rfl⟩ := matchesIp_iff.mp hm
    exact ⟨pre, a, b, c, d, post, ha, hb, hc, hd, hpre.symm⟩
  · rintro ⟨pre, a, b, c, d, post, ha, hb, hc, hd, hs⟩
    refine ⟨joinFields a b c d ++ post, ?_,
      matchesIp_iff.mpr ⟨a, b, c, d, post, ha, hb, hc, hd, rfl⟩⟩
    exact (List.mem_tails _ _).mpr ⟨pre, hs.symm⟩

/-! ## The bits -/

theorem and_one_eq_zero_iff {w : Word} : w &&& 1 = 0 ↔ w.getLsbD 0 = false := by
  constructor
  · intro h
    have hbit : (w &&& 1).getLsbD 0 = false := by
      rw [h, show (0 : Word) = 0#32 from rfl, BitVec.getLsbD_zero]
    rwa [BitVec.getLsbD_and, show (1 : Word).getLsbD 0 = true from rfl, Bool.and_true] at hbit
  · intro h
    apply BitVec.eq_of_getLsbD_eq
    intro i _
    rw [BitVec.getLsbD_and, show (0 : Word) = 0#32 from rfl, BitVec.getLsbD_zero]
    cases i with
    | zero => rw [h, Bool.false_and]
    | succ i =>
      have hone : (1 : Word).getLsbD (i + 1) = false := by
        rw [show (1 : Word) = 1#32 from rfl, BitVec.getLsbD_one]
        simp
      rw [hone, Bool.and_false]

/-- Behind a one there may only be ones. -/
theorem countMask_pos : ∀ (n : Nat) (w : Word) (m k : Nat), 0 < m →
    (countMask n w m = some k ↔ k = m + n ∧ ∀ i < n, w.getLsbD i = true)
  | 0, w, m, k, _ => by
    rw [countMask, Option.some.injEq]
    exact ⟨fun h => ⟨h.symm, fun i hi => absurd hi (Nat.not_lt_zero i)⟩, fun h => h.1.symm⟩
  | n + 1, w, m, k, hm => by
    have hshift : ∀ i, (w >>> 1).getLsbD i = w.getLsbD (i + 1) := by
      intro i
      rw [BitVec.getLsbD_ushiftRight, Nat.add_comm]
    rw [countMask]
    by_cases h0 : w &&& 1 = 0
    · rw [if_pos h0, if_pos (by omega)]
      refine ⟨fun h => (by cases h), ?_⟩
      rintro ⟨-, hall⟩
      rw [and_one_eq_zero_iff, hall 0 (by omega)] at h0
      cases h0
    · rw [if_neg h0, countMask_pos n _ (m + 1) k (by omega)]
      simp only [hshift]
      rw [and_one_eq_zero_iff, Bool.not_eq_false] at h0
      refine and_congr (by omega) ⟨fun h i hi => ?_, fun h i hi => h (i + 1) (by omega)⟩
      cases i with
      | zero => exact h0
      | succ i => exact h i (by omega)

/-- The loop accepts the words whose upper bits are the ones. -/
theorem countMask_eq_some : ∀ (n : Nat) (w : Word) (k : Nat),
    countMask n w 0 = some k ↔ k ≤ n ∧ ∀ i < n, w.getLsbD i = decide (n - k ≤ i)
  | 0, w, k => by
    rw [countMask, Option.some.injEq]
    exact ⟨fun h => ⟨by omega, fun i hi => absurd hi (Nat.not_lt_zero i)⟩, fun h => by omega⟩
  | n + 1, w, k => by
    have hshift : ∀ i, (w >>> 1).getLsbD i = w.getLsbD (i + 1) := by
      intro i
      rw [BitVec.getLsbD_ushiftRight, Nat.add_comm]
    rw [countMask]
    by_cases h0 : w &&& 1 = 0
    · rw [if_pos h0, if_neg (by omega), countMask_eq_some n]
      simp only [hshift]
      rw [and_one_eq_zero_iff] at h0
      constructor
      · rintro ⟨hk, hall⟩
        refine ⟨by omega, fun i hi => ?_⟩
        cases i with
        | zero => rw [h0, eq_comm, decide_eq_false_iff_not]; omega
        | succ i =>
          rw [hall i (by omega)]
          congr 1
          apply propext
          omega
      · rintro ⟨hk, hall⟩
        have hlow := hall 0 (by omega)
        rw [h0, eq_comm, decide_eq_false_iff_not] at hlow
        refine ⟨by omega, fun i hi => ?_⟩
        rw [hall (i + 1) (by omega)]
        congr 1
        apply propext
        omega
    · rw [if_neg h0, countMask_pos n _ 1 k (by omega)]
      simp only [hshift]
      rw [and_one_eq_zero_iff, Bool.not_eq_false] at h0
      constructor
      · rintro ⟨rfl, hall⟩
        refine ⟨by omega, fun i hi => ?_⟩
        have hbit : w.getLsbD i = true := by
          cases i with
          | zero => exact h0
          | succ i => exact hall i (by omega)
        rw [hbit, eq_comm, decide_eq_true_eq]
        omega
      · rintro ⟨hk, hall⟩
        have hlow := hall 0 (by omega)
        rw [h0, eq_comm, decide_eq_true_eq] at hlow
        refine ⟨by omega, fun i hi => ?_⟩
        rw [hall (i + 1) (by omega), decide_eq_true_eq]
        omega

/-- **The loop over the bits accepts the masks**, with their length. -/
theorem countMask_iff {w : Word} {k : Nat} : countMask 32 w 0 = some k ↔ LeadingOnes w k := by
  rw [countMask_eq_some, LeadingOnes]
  refine and_congr_right fun hk => ⟨fun h i hi => ?_, fun h i hi => ?_⟩
  · rw [BitVec.getMsbD_eq_getLsbD, decide_eq_true hi, Bool.true_and, h _ (by omega)]
    congr 1
    apply propext
    omega
  · have hbit := h (31 - i) (by omega)
    rw [BitVec.getMsbD_eq_getLsbD, decide_eq_true (by omega), Bool.true_and,
      show 32 - 1 - (31 - i) = i by omega] at hbit
    rw [hbit]
    congr 1
    apply propext
    omega

/-! ## The fields -/

theorem IpField.dot_notMem {t : Str} (h : IpField t) : '.' ∉ t := by
  intro hm
  exact absurd (h.1 '.' hm) (by decide)

theorem IpField.ne_nil {t : Str} (h : IpField t) : t ≠ [] := by
  rintro rfl
  exact absurd h.2.1 (by decide)

theorem IpField.atoi_eq {t : Str} (h : IpField t) : atoi t = digitsVal 0 t := by
  obtain ⟨hd, hpos, hlen⟩ := h
  have hlt : digitsVal 0 t < 10 ^ t.length := digitsVal_lt hd
  have hpow : 10 ^ t.length ≤ 10 ^ 3 := Nat.pow_le_pow_right (by decide) hlen
  cases t with
  | nil => exact absurd hpos (by decide)
  | cons c t =>
    rw [atoi_of_isDigit (hd c List.mem_cons_self), Nat.min_eq_left]
    rw [intMax]
    omega

theorem splitOn_joinFields {a b c d : Str} (ha : IpField a) (hb : IpField b) (hc : IpField c)
    (r : Str) (hr : '.' ∉ d) :
    (joinFields a b c d ++ r).splitOn '.' = a :: b :: c :: (r.splitOn '.').modifyHead (d ++ ·) := by
  simp only [joinFields, List.append_assoc, List.cons_append]
  rw [List.splitOn_append_cons_self_of_not_mem ha.dot_notMem,
    List.splitOn_append_cons_self_of_not_mem hb.dot_notMem,
    List.splitOn_append_cons_self_of_not_mem hc.dot_notMem, Lib.splitOn_append_of_notMem hr]

/-- The tokens of four fields alone. -/
theorem strtokAll_joinFields {a b c d : Str} (ha : IpField a) (hb : IpField b) (hc : IpField c)
    (hd : IpField d) : strtokAll '.' (joinFields a b c d) = [a, b, c, d] := by
  have hsplit := splitOn_joinFields ha hb hc [] hd.dot_notMem
  rw [List.append_nil, List.splitOn_nil, List.modifyHead_cons, List.append_nil] at hsplit
  rw [strtokAll, hsplit]
  simp [ha.ne_nil, hb.ne_nil, hc.ne_nil, hd.ne_nil]

/-- Where the pattern is found `strtok` gives at least four tokens. -/
theorem HasQuad.tokens {t : Str} (h : HasQuad t) :
    ∃ x y z u l, strtokAll '.' t = x :: y :: z :: u :: l := by
  obtain ⟨pre, a, b, c, d, post, ha, hb, hc, hd, rfl⟩ := h
  have hne := List.splitOn_ne_nil '.' pre
  obtain ⟨first, rest, hpost⟩ := List.exists_cons_of_ne_nil (List.splitOn_ne_nil '.' post)
  have hlast : '.' ∉ (pre.splitOn '.').getLast hne :=
    Lib.notMem_of_mem_splitOn (List.getLast_mem hne)
  have hlen : 4 ≤ (strtokAll '.' (pre ++ (joinFields a b c d ++ post))).length := by
    rw [strtokAll, Lib.splitOn_append, Lib.splitOn_append_of_notMem hlast,
      splitOn_joinFields ha hb hc post hd.dot_notMem, hpost]
    simp [ha.ne_nil, hb.ne_nil, hc.ne_nil, hd.ne_nil]
    omega
  revert hlen
  rcases strtokAll '.' (pre ++ (joinFields a b c d ++ post)) with
    _ | ⟨x, _ | ⟨y, _ | ⟨z, _ | ⟨u, l⟩⟩⟩⟩
  · simp
  · simp
  · simp
  · simp
  · exact fun _ => ⟨x, y, z, u, l, rfl⟩

/-- The word that the function computes is that of the first four pieces. -/
theorem binaryMask_eq {t : Str} (h : HasQuad t) : binaryMask t = piecesWord t := by
  obtain ⟨x, y, z, u, l, htok⟩ := h.tokens
  have htake : (strtokAll '.' t).take 4 = [x, y, z, u] := by rw [htok]; rfl
  show ((strtokAll '.' t).take 4).foldl _ 0 = _
  rw [htake, piecesWord, htok]
  have hzero : (0 : Word) <<< (8 + 8 + 8 + 8) = 0#32 := rfl
  simp only [List.foldl_cons, List.foldl_nil, fieldsWord, BitVec.shiftLeft_or_distrib,
    ← BitVec.shiftLeft_add]
  rw [hzero, BitVec.zero_or]

/-- **What `check_mask_format` accepts**: the texts that look like a mask. -/
theorem checkMaskFormat_eq_some {s text : Str} :
    checkMaskFormat s = some text ↔ ∃ k, text = fmtNat k ∧ LooksLikeMask s k := by
  have htake : (s.take 15).take 15 = s.take 15 := by rw [List.take_take, Nat.min_self]
  have hform : checkIpFormat (s.take 15) = true ↔ HasQuad (s.take 15) := by
    rw [checkIpFormat_iff, htake]
  rw [checkMaskFormat]
  by_cases hq : HasQuad (s.take 15)
  · simp only [hform.mpr hq, if_true, Option.map_eq_some_iff, binaryMask_eq hq, countMask_iff]
    constructor
    · rintro ⟨k, hk, rfl⟩
      exact ⟨k, rfl, hq, hk⟩
    · rintro ⟨k, rfl, -, hk⟩
      exact ⟨k, hk, rfl⟩
  · simp only [mt hform.mp hq, Bool.false_eq_true, if_false]
    refine ⟨fun h => (by cases h), ?_⟩
    rintro ⟨k, -, h, -⟩
    exact absurd h hq

/-- An address looks like a mask exactly if it is one. -/
theorem looksLikeMask_iff {s : Str} (h : DottedQuad s) (k : Nat) :
    LooksLikeMask s k ↔ IsMask s k := by
  have hquad : ∀ {a b c d : Str}, Octet a → Octet b → Octet c → Octet d →
      s = joinFields a b c d → HasQuad (s.take 15) ∧ piecesWord (s.take 15) =
        fieldsWord (digitsVal 0 a) (digitsVal 0 b) (digitsVal 0 c) (digitsVal 0 d) := by
    rintro a b c d ha hb hc hd rfl
    have htake : (joinFields a b c d).take 15 = joinFields a b c d := by
      apply List.take_of_length_le
      have := ha.1.2.2
      have := hb.1.2.2
      have := hc.1.2.2
      have := hd.1.2.2
      simp only [joinFields, List.length_append, List.length_cons]
      omega
    rw [htake, piecesWord, strtokAll_joinFields ha.1 hb.1 hc.1 hd.1]
    simp only [ha.1.atoi_eq, hb.1.atoi_eq, hc.1.atoi_eq, hd.1.atoi_eq, and_true]
    exact ⟨[], a, b, c, d, [], ha.1, hb.1, hc.1, hd.1, by simp⟩
  constructor
  · rintro ⟨-, hk⟩
    obtain ⟨a, b, c, d, ha, hb, hc, hd, hs⟩ := h
    rw [(hquad ha hb hc hd hs).2] at hk
    exact ⟨a, b, c, d, ha, hb, hc, hd, hs, hk⟩
  · rintro ⟨a, b, c, d, ha, hb, hc, hd, hs, hk⟩
    obtain ⟨hq, hword⟩ := hquad ha hb hc hd hs
    exact ⟨hq, hword ▸ hk⟩

theorem IsMask.dottedQuad {s : Str} {k : Nat} (h : IsMask s k) : DottedQuad s := by
  obtain ⟨a, b, c, d, ha, hb, hc, hd, hs, -⟩ := h
  exact ⟨a, b, c, d, ha, hb, hc, hd, hs⟩

/-- **When `check_mask_format` is right**: for four numbers up to 255 with nothing around them, and
for every text that does not look like a mask. -/
theorem maskFormatRight_iff (s : Str) : MaskRight s ↔ DottedQuad s ∨ ∀ k, ¬ LooksLikeMask s k := by
  by_cases hquad : DottedQuad s
  · refine iff_of_true (fun text => ?_) (.inl hquad)
    simp only [checkMaskFormat_eq_some, looksLikeMask_iff hquad]
  · have hnone : ∀ k, ¬ IsMask s k := fun k h => hquad h.dottedQuad
    simp only [MaskRight, checkMaskFormat_eq_some, hnone, hquad, and_false, exists_false, iff_false,
      false_or]
    constructor
    · exact fun h k hk => h (fmtNat k) ⟨k, rfl, hk⟩
    · rintro h text ⟨k, -, hk⟩
      exact h k hk

theorem mem_joinFields {a b c d : Str} (ha : Octet a) (hb : Octet b) (hc : Octet c) (hd : Octet d)
    {x : Char} (h : x ∈ joinFields a b c d) : isDigit x = true ∨ x = '.' := by
  simp only [joinFields, List.mem_append, List.mem_cons] at h
  rcases h with h | h | h | h | h | h | h
  · exact .inl (ha.1.1 x h)
  · exact .inr h
  · exact .inl (hb.1.1 x h)
  · exact .inr h
  · exact .inl (hc.1.1 x h)
  · exact .inr h
  · exact .inl (hd.1.1 x h)

/-- A mask with a command behind it is accepted. -/
theorem not_maskRight :
    checkMaskFormat "255.255.255.0;reboot".toList = some "24".toList ∧
      ¬ MaskRight "255.255.255.0;reboot".toList := by
  have hval : checkMaskFormat "255.255.255.0;reboot".toList = some "24".toList := by decide +kernel
  refine ⟨hval, fun h => ?_⟩
  obtain ⟨k, -, a, b, c, d, ha, hb, hc, hd, hs, -⟩ := (h _).mp hval
  have hx : ';' ∈ joinFields a b c d := hs ▸ (by decide)
  rcases mem_joinFields ha hb hc hd hx with h | h
  · exact absurd h (by decide)
  · exact absurd h (by decide)

end OnuFirmware.Wan
