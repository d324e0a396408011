import OnuFirmware.Utility.Alarm

/-!
# Adding and cutting a text (`addString` and `cutString` in `utility.c`)

`addString` appends a text that is not there yet and `cutString` takes the first occurrence out.
Both look for it with `strstr`, or with `strcasestr` if `flag` is `0`, and both compare the length
of the result with the length of the buffer, without the NUL behind it.

What was appended need not be what is found first: an occurrence may begin in the old text and end
in the new one.
-/

namespace OnuFirmware.Utility

open Clib Lib

/-! ## The functions -/

/-- An `int` where a `size_t` is expected. -/
def toSize (n : Int) : Nat := (n % 2 ^ 32).toNat

/-- What is compared: the text, or the text in lower case. -/
def caseFold (flag : Bool) (s : Str) : Str := if flag then s else s.map toLower

/-- `strstr(str, key)` or `strcasestr(str, key)`. -/
def findText (flag : Bool) (str key : Str) : Option Nat :=
  strstr (caseFold flag key) (caseFold flag str)

/-- `memset(out, 0, outlen)`; a negative length is a huge one. -/
def clearOut (outlen : Int) : Except Fault Unit :=
  if outlen < 0 then .error .overrun else .ok ()

/-- `strncpy` of `head` into the cleared buffer, then `strcat` of `tail`. -/
def fillOut (outlen : Int) (head tail : Str) : Except Fault Str :=
  if outlen ≤ (head ++ tail).length then .error .overrun else .ok (head ++ tail)

/-- `cutString`; `none` is the return value `-1`, otherwise the text in `out`. -/
def cutString (str cut : Str) (outlen : Int) (flag : Bool) : Except Fault (Option Str) :=
  match findText flag str cut with
  | none => .ok none
  | some p =>
    if toSize outlen < str.length - cut.length then .ok none
    else do
      clearOut outlen
      let out ← fillOut outlen (str.take p) (str.drop (p + cut.length))
      pure (some out)

/-- `addString`. -/
def addString (str add : Str) (outlen : Int) (flag : Bool) : Except Fault (Option Str) :=
  match findText flag str add with
  | some _ => .ok none
  | none =>
    if toSize outlen < str.length + add.length then .ok none
    else do
      clearOut outlen
      let out ← fillOut outlen (str.take (outlen - 1).toNat) add
      pure (some out)

/-! ## Where a text is found -/

@[simp] theorem length_caseFold (flag : Bool) (s : Str) : (caseFold flag s).length = s.length := by
  cases flag <;> simp [caseFold]

theorem caseFold_append (flag : Bool) (a b : Str) :
    caseFold flag (a ++ b) = caseFold flag a ++ caseFold flag b := by
  cases flag <;> simp [caseFold]

/-- The text occurs at the place that `strstr` finds. -/
theorem prefix_of_strstr {key : Str} : ∀ {s : Str} {i : Nat}, strstr key s = some i →
    key <+: s.drop i
  | [], i, h => by
    rw [strstr] at h
    split at h
    · next hk =>
      rw [hk]
      exact List.nil_prefix
    · simp at h
  | c :: s, i, h => by
    rw [strstr] at h
    split at h
    · next hp =>
      obtain rfl := Option.some.inj h
      exact List.isPrefixOf_iff_prefix.mp hp
    · obtain ⟨j, hj, rfl⟩ := Option.map_eq_some_iff.mp h
      have ih := prefix_of_strstr (s := s) hj
      simpa using ih

/-- `strstr` finds nothing behind an occurrence. -/
theorem strstr_le {key : Str} : ∀ {s : Str} {j : Nat}, key <+: s.drop j → j ≤ s.length →
    ∃ i, strstr key s = some i ∧ i ≤ j
  | [], j, h, hj => by
    rw [List.drop_nil, List.prefix_nil] at h
    exact ⟨0, by rw [strstr, if_pos h], Nat.zero_le j⟩
  | c :: s, j, h, hj => by
    rw [strstr]
    split
    · exact ⟨0, rfl, Nat.zero_le j⟩
    · next hp =>
      cases j with
      | zero => exact absurd (List.isPrefixOf_iff_prefix.mpr h) hp
      | succ j =>
        obtain ⟨i, hi, hle⟩ := strstr_le (s := s) (j := j) h (Nat.le_of_succ_le_succ hj)
        exact ⟨i + 1, by rw [hi]; rfl, Nat.succ_le_succ hle⟩

/-- The text that was found lies within the one it was found in. -/
theorem length_of_findText {flag : Bool} {str key : Str} {i : Nat}
    (h : findText flag str key = some i) : i + key.length ≤ str.length ∨ key = [] := by
  have hle := (prefix_of_strstr h).length_le
  rw [List.length_drop, length_caseFold, length_caseFold] at hle
  by_cases hk : key = []
  · exact .inr hk
  · have := List.length_pos_of_ne_nil hk
    left
    omega

theorem findText_nil (flag : Bool) (str : Str) : findText flag str [] = some 0 := by
  cases flag <;> cases str <;> rfl

/-- In a text to which an absent one was added, the first occurrence ends in what was added. -/
theorem findText_append {flag : Bool} {x s : Str} (h : findText flag x s = none) :
    ∃ i, findText flag (x ++ s) s = some i ∧ i ≤ x.length ∧ x.length < i + s.length := by
  have hend : caseFold flag s <+: (caseFold flag (x ++ s)).drop x.length := by
    rw [caseFold_append, List.drop_left' (length_caseFold flag x)]
  obtain ⟨i, hi, hle⟩ := strstr_le hend (by simp)
  refine ⟨i, hi, hle, ?_⟩
  by_contra hin
  have hpre := prefix_of_strstr hi
  rw [caseFold_append, List.drop_append_of_le_length (by simpa using hle)] at hpre
  have hfirst : caseFold flag s <+: (caseFold flag x).drop i := by
    refine List.prefix_of_prefix_length_le hpre (List.prefix_append _ _) ?_
    rw [List.length_drop, length_caseFold, length_caseFold]
    omega
  obtain ⟨k, hk, -⟩ := strstr_le hfirst (by simpa using hle)
  rw [findText, hk] at h
  simp at h

/-! ## The room in the buffer -/

/-- A length that is refused, or that leaves room for the NUL. -/
def LenFits (outlen : Int) (n : Nat) : Prop := toSize outlen < n ∨ (n : Int) < outlen

instance (outlen : Int) (n : Nat) : Decidable (LenFits outlen n) :=
  inferInstanceAs (Decidable (_ ∨ _))

theorem toSize_le {n : Int} (h : 0 ≤ n) : (toSize n : Int) ≤ n := by
  rw [toSize]
  omega

/-- The two stores, and what they leave. -/
theorem clear_fill_ok {outlen : Int} {head tail : Str} {r : Option Str} :
    (do clearOut outlen
        let out ← fillOut outlen head tail
        pure (some out) : Except Fault (Option Str)) = .ok r ↔
      ((head ++ tail).length : Int) < outlen ∧ r = some (head ++ tail) := by
  by_cases hneg : outlen < 0
  · rw [clearOut, if_pos hneg]
    refine iff_of_false (fun h => by cases h) ?_
    rintro ⟨hlt, -⟩
    omega
  · rw [clearOut, if_neg hneg, fillOut]
    by_cases hfit : outlen ≤ (head ++ tail).length
    · rw [if_pos hfit]
      refine iff_of_false (fun h => by cases h) ?_
      rintro ⟨hlt, -⟩
      omega
    · rw [if_neg hfit]
      refine ⟨fun h => ⟨by omega, ?_⟩, ?_⟩
      · exact (Except.ok.inj h).symm
      · rintro ⟨-, rfl⟩
        rfl

theorem cutString_eq_ok {x s : Str} {outlen : Int} {flag : Bool} {p : Nat} {r : Option Str}
    (hp : findText flag x s = some p) (hsize : ¬ toSize outlen < x.length - s.length) :
    cutString x s outlen flag = .ok r ↔
      ((x.length - s.length : Nat) : Int) < outlen ∧
        r = some (x.take p ++ x.drop (p + s.length)) := by
  have hlen : (x.take p ++ x.drop (p + s.length)).length = x.length - s.length := by
    rw [List.length_append, List.length_take, List.length_drop]
    rcases length_of_findText hp with hle | rfl
    · omega
    · rw [List.length_nil]
      omega
  rw [cutString, hp]
  simp only [if_neg hsize]
  rw [clear_fill_ok, hlen]

theorem addString_eq_ok {x s : Str} {outlen : Int} {flag : Bool} {r : Option Str}
    (hnone : findText flag x s = none) (hsize : ¬ toSize outlen < x.length + s.length) :
    addString x s outlen flag = .ok r ↔
      ((x.length + s.length : Nat) : Int) < outlen ∧ r = some (x ++ s) := by
  have hne : s ≠ [] := by
    rintro rfl
    rw [findText_nil] at hnone
    simp at hnone
  have hpos := List.length_pos_of_ne_nil hne
  rw [addString, hnone]
  simp only [if_neg hsize]
  rw [clear_fill_ok]
  by_cases hneg : outlen < 0
  · refine iff_of_false ?_ ?_
    · rintro ⟨hlt, -⟩
      omega
    · rintro ⟨hlt, -⟩
      omega
  · have hle := toSize_le (Int.not_lt.mp hneg)
    rw [List.take_of_length_le (by omega), List.length_append]

theorem cutString_refused {x s : Str} {outlen : Int} {flag : Bool}
    (h : toSize outlen < x.length - s.length) : cutString x s outlen flag = .ok none := by
  rw [cutString]
  split
  · rfl
  · rw [if_pos h]

theorem addString_refused {x s : Str} {outlen : Int} {flag : Bool}
    (h : toSize outlen < x.length + s.length) : addString x s outlen flag = .ok none := by
  rw [addString]
  split
  · rfl
  · rw [if_pos h]

/-! ## Cutting what was added -/

/-- What the first occurrence takes of the old text is the end of the text that was added. -/
def SeamClean (flag : Bool) (x s : Str) : Prop :=
  ∀ i ∈ findText flag (x ++ s) s, x.drop i <:+ s

instance (flag : Bool) (x s : Str) : Decidable (SeamClean flag x s) :=
  inferInstanceAs (Decidable (∀ i ∈ _, _))

theorem cut_append_eq_iff {x s : Str} {i : Nat} (hi : i ≤ x.length)
    (hend : x.length < i + s.length) :
    (x ++ s).take i ++ (x ++ s).drop (i + s.length) = x ↔ x.drop i <:+ s := by
  have hdrop : (x ++ s).drop (i + s.length) = s.drop (s.length - (x.drop i).length) := by
    rw [List.drop_append, List.drop_eq_nil_of_le (by omega), List.nil_append, List.length_drop]
    congr 1
    omega
  rw [List.take_append_of_le_length hi, hdrop, List.suffix_iff_eq_drop]
  constructor
  · intro h
    exact (List.append_cancel_left (h.trans (List.take_append_drop i x).symm)).symm
  · intro h
    rw [← h, List.take_append_drop]

/-- Cutting what `addString` has added gives the old text back exactly at a clean seam. -/
theorem cutString_append_iff {x s : Str} {outlen : Int} {flag : Bool}
    (hnone : findText flag x s = none) (hsize : ¬ toSize outlen < x.length + s.length)
    (hroom : ((x.length + s.length : Nat) : Int) < outlen) :
    cutString (x ++ s) s outlen flag = .ok (some x) ↔ SeamClean flag x s := by
  obtain ⟨i, hi, hle, hend⟩ := findText_append hnone
  have hlen : (x ++ s).length - s.length = x.length := by simp
  rw [cutString_eq_ok hi (by rw [hlen]; omega), hlen, Option.some_inj, SeamClean, hi]
  constructor
  · rintro ⟨-, hx⟩ j hj
    obtain rfl := Option.some.inj hj
    exact (cut_append_eq_iff hle hend).mp hx.symm
  · intro hseam
    exact ⟨by omega, ((cut_append_eq_iff hle hend).mpr (hseam i rfl)).symm⟩

/-- Neither function stores more than the buffer holds, and cutting undoes adding. -/
def AddCutRight (x s : Str) (outlen : Int) (flag : Bool) : Prop :=
  (∃ r, addString x s outlen flag = .ok r) ∧ (∃ r, cutString x s outlen flag = .ok r) ∧
    ∀ t, addString x s outlen flag = .ok (some t) → cutString t s outlen flag = .ok (some x)

/-- The length of what one of the two would store is refused or leaves room for the NUL, and the
seam is clean if something is added. -/
def AddCutFits (x s : Str) (outlen : Int) (flag : Bool) : Prop :=
  if (findText flag x s).isSome then LenFits outlen (x.length - s.length)
  else
    toSize outlen < x.length + s.length ∨
      (((x.length + s.length : Nat) : Int) < outlen ∧ SeamClean flag x s)

instance (x s : Str) (outlen : Int) (flag : Bool) : Decidable (AddCutFits x s outlen flag) :=
  inferInstanceAs
    (Decidable (if _ = true then LenFits _ _ else _ < _ ∨ (_ < outlen ∧ SeamClean _ _ _)))

/-- The text is there: only `cutString` stores something. -/
theorem addCutRight_found {x s : Str} {outlen : Int} {flag : Bool} {p : Nat}
    (hp : findText flag x s = some p) :
    AddCutRight x s outlen flag ↔ LenFits outlen (x.length - s.length) := by
  have hadd : addString x s outlen flag = .ok none := by
    rw [addString, hp]
  constructor
  · rintro ⟨-, ⟨r, hr⟩, -⟩
    by_cases hsize : toSize outlen < x.length - s.length
    · exact .inl hsize
    · exact .inr ((cutString_eq_ok hp hsize).mp hr).1
  · intro hfit
    refine ⟨⟨none, hadd⟩, ?_, fun t ht => ?_⟩
    · by_cases hsize : toSize outlen < x.length - s.length
      · exact ⟨none, cutString_refused hsize⟩
      · exact ⟨_, (cutString_eq_ok hp hsize).mpr ⟨hfit.resolve_left hsize, rfl⟩⟩
    · rw [hadd] at ht
      simp at ht

/-- The text is not there: `addString` appends it. -/
theorem addCutRight_absent {x s : Str} {outlen : Int} {flag : Bool}
    (hnone : findText flag x s = none) :
    AddCutRight x s outlen flag ↔ toSize outlen < x.length + s.length ∨
      (((x.length + s.length : Nat) : Int) < outlen ∧ SeamClean flag x s) := by
  have hcut : cutString x s outlen flag = .ok none := by
    rw [cutString, hnone]
  by_cases hsize : toSize outlen < x.length + s.length
  · have hadd := @addString_refused _ _ _ flag hsize
    refine iff_of_true ⟨⟨none, hadd⟩, ⟨none, hcut⟩, fun t ht => ?_⟩ (.inl hsize)
    rw [hadd] at ht
    simp at ht
  · constructor
    · rintro ⟨⟨r, hr⟩, -, hback⟩
      obtain ⟨hroom, rfl⟩ := (addString_eq_ok hnone hsize).mp hr
      exact .inr ⟨hroom, (cutString_append_iff hnone hsize hroom).mp (hback _ hr)⟩
    · rintro (hlt | ⟨hroom, hseam⟩)
      · exact absurd hlt hsize
      · refine ⟨⟨_, (addString_eq_ok hnone hsize).mpr ⟨hroom, rfl⟩⟩, ⟨none, hcut⟩, fun t ht => ?_⟩
        obtain rfl := Option.some.inj ((addString_eq_ok hnone hsize).mp ht).2
        exact (cutString_append_iff hnone hsize hroom).mpr hseam

/-- **The two functions keep to their buffer and undo each other in exactly these cases.** -/
theorem addCutRight_iff (x s : Str) (outlen : Int) (flag : Bool) :
    AddCutRight x s outlen flag ↔ AddCutFits x s outlen flag := by
  rw [AddCutFits]
  cases hp : findText flag x s with
  | none => simpa using addCutRight_absent hp
  | some p => simpa using addCutRight_found hp

/-- A buffer of three bytes for a result of three characters. -/
theorem addCutRight_wrong : ¬ AddCutRight ['a', 'b'] ['c'] 3 true := by
  rintro ⟨⟨r, hr⟩, -⟩
  have hover : addString ['a', 'b'] ['c'] 3 true = .error .overrun := by decide
  rw [hover] at hr
  simp at hr

/-- Adding `aba` to `ab` and cutting it again leaves `ba`, whatever the size of the buffer is. -/
example : cutString "ababa".toList "aba".toList 64 true = .ok (some "ba".toList) := by decide

end OnuFirmware.Utility
