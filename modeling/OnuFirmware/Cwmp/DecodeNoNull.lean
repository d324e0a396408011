import OnuFirmware.Tcapi.CryptPasswd

/-!
# The decoder of the access flags (`RpDecodeBase64DataNoNull` in `cfg_type_dyncwmpattr.c`)

The decoder of the stored passwords, in a version that writes no NUL behind the bytes. The padding
of a group is not passed over: a group that follows a padded one is read from the padding on.
-/

namespace OnuFirmware.Cwmp

open Clib Tcapi

/-- The loop of `RpDecodeBase64DataNoNull`: what it stores. A read behind the text is an overrun. -/
def decodeGroups (signed : Bool) : Nat → List UInt8 → Except Fault (List UInt8)
  | theInputCount + 4, c0 :: c1 :: c2 :: theInput => do
    let thePackedGroup := digitInt c0 <<< 18 ||| digitInt c1 <<< 12
    let o0 := toChar (thePackedGroup >>> 16)
    if notEqual signed c2 then
      let thePackedGroup := thePackedGroup ||| digitInt c2 <<< 6
      let o1 := toChar (thePackedGroup >>> 8)
      match theInput with
      | [] => .error .overrun
      | c3 :: theInput =>
        if notEqual signed c3 then
          let thePackedGroup := thePackedGroup ||| digitInt c3
          let o2 := toChar thePackedGroup
          let theOutput ← decodeGroups signed theInputCount theInput
          .ok (o0 :: o1 :: o2 :: theOutput)
        else
          let theOutput ← decodeGroups signed theInputCount (c3 :: theInput)
          .ok (o0 :: o1 :: theOutput)
    else
      let theOutput ← decodeGroups signed theInputCount (c2 :: theInput)
      .ok (o0 :: theOutput)
  | _ + 4, _ => .error .overrun
  | _, _ => .ok []

/-- `RpDecodeBase64DataNoNull`: the return value, an `Unsigned16`, and what it stores. -/
def rpDecodeBase64DataNoNull (signed : Bool) (theInput : List UInt8) (theInputCount : Nat) :
    Except Fault (Nat × List UInt8) := do
  let theOutput ← decodeGroups signed (theInputCount - theInputCount % 4) theInput
  .ok (theOutput.length % 2 ^ 16, theOutput)

/-! ## Round trip -/

/-- The decoder of the passwords stores the same bytes and a NUL. -/
theorem decodeLoop_eq_map (signed : Bool) (n : Nat) (s : List UInt8) :
    decodeLoop signed n s = (decodeGroups signed n s).map (· ++ [0]) := by
  induction n, s using decodeGroups.induct signed with
  | case1 n c0 c1 c2 hc2 =>
    simp only [decodeLoop, decodeGroups, if_pos hc2]
    rfl
  | case2 n c0 c1 c2 hc2 c3 s hc3 ih =>
    simp only [decodeLoop, decodeGroups, if_pos hc2, if_pos hc3, ih, bind, Except.bind]
    cases decodeGroups signed n s <;> rfl
  | case3 n c0 c1 c2 hc2 c3 s hc3 ih =>
    simp only [decodeLoop, decodeGroups, if_pos hc2, if_neg hc3, ih, bind, Except.bind]
    cases decodeGroups signed n (c3 :: s) <;> rfl
  | case4 n c0 c1 c2 s hc2 ih =>
    simp only [decodeLoop, decodeGroups, if_neg hc2, ih, bind, Except.bind]
    cases decodeGroups signed n (c2 :: s) <;> rfl
  | case5 n s hs =>
    rw [decodeLoop.eq_2 signed s n hs, decodeGroups.eq_2 signed s n hs]
    rfl
  | case6 n s hs hn =>
    rw [decodeLoop.eq_3 signed n s hn hs, decodeGroups.eq_3 signed n s hn hs]
    rfl

/-- The text of any bytes is decoded to them. -/
theorem decodeGroups_base64Text (signed : Bool) (s : List UInt8) :
    decodeGroups signed (base64Text s).length (base64Text s) = .ok s := by
  have hloop := decodeLoop_eq signed [] s
  rw [List.append_nil, decodeLoop_eq_map] at hloop
  cases hout : decodeGroups signed (base64Text s).length (base64Text s) with
  | error f =>
    rw [hout] at hloop
    cases hloop
  | ok out =>
    rw [hout] at hloop
    have happ : out ++ [0] = s ++ [0] := Except.ok.inj hloop
    rw [List.append_cancel_right happ]

/-! ## What is read and stored -/

/-- `g` groups are read from `4 * g` characters, and give at most three bytes each. -/
theorem decodeGroups_take (signed : Bool) (g m : Nat) (s : List UInt8) (hm : 4 * g ≤ m)
    (h : 4 * g ≤ s.length) : ∃ out, decodeGroups signed (4 * g) (s.take m) = .ok out ∧
      decodeGroups signed (4 * g) s = .ok out ∧ out.length ≤ 3 * g := by
  induction g generalizing m s with
  | zero => exact ⟨[], rfl, rfl, Nat.le_refl 0⟩
  | succ g ih =>
    obtain ⟨m, rfl⟩ : ∃ k, m = k + 4 := ⟨m - 4, by omega⟩
    match s, h with
    | c0 :: c1 :: c2 :: c3 :: s, h =>
      have hlen : 4 * g ≤ s.length := by
        simp only [List.length_cons] at h
        omega
      simp only [List.take_succ_cons, Nat.mul_succ, decodeGroups]
      by_cases hc2 : notEqual signed c2
      · by_cases hc3 : notEqual signed c3
        · obtain ⟨out, htake, hall, hout⟩ := ih m s (by omega) hlen
          simp only [if_pos hc2, if_pos hc3, htake, hall, bind, Except.bind]
          exact ⟨_, rfl, rfl, by simp only [List.length_cons]; omega⟩
        · -- the fourth character is read again
          obtain ⟨out, htake, hall, hout⟩ := ih (m + 1) (c3 :: s) (by omega)
            (by rw [List.length_cons]; omega)
          rw [List.take_succ_cons] at htake
          simp only [if_pos hc2, if_neg hc3, htake, hall, bind, Except.bind]
          exact ⟨_, rfl, rfl, by simp only [List.length_cons]; omega⟩
      · obtain ⟨out, htake, hall, hout⟩ := ih (m + 2) (c2 :: c3 :: s) (by omega)
          (by simp only [List.length_cons]; omega)
        simp only [List.take_succ_cons] at htake
        simp only [if_neg hc2, htake, hall, bind, Except.bind]
        exact ⟨_, rfl, rfl, by simp only [List.length_cons]; omega⟩

/-- What a call stores. -/
theorem rpDecode_take (signed : Bool) (s : List UInt8) (count : Nat) (h : count ≤ s.length) :
    ∃ out, rpDecodeBase64DataNoNull signed (s.take count) count = .ok (out.length % 2 ^ 16, out) ∧
      rpDecodeBase64DataNoNull signed s count = .ok (out.length % 2 ^ 16, out) ∧
      4 * out.length ≤ 3 * count := by
  have hgroups : count - count % 4 = 4 * (count / 4) := by omega
  obtain ⟨out, htake, hall, hout⟩ :=
    decodeGroups_take signed (count / 4) count s (by omega) (by omega)
  refine ⟨out, ?_, ?_, by omega⟩
  · rw [rpDecodeBase64DataNoNull, hgroups, htake]
    rfl
  · rw [rpDecodeBase64DataNoNull, hgroups, hall]
    rfl

theorem rpDecode_base64Text (signed : Bool) (s : List UInt8)
    (h : (base64Text s).length ≤ 65532) :
    rpDecodeBase64DataNoNull signed (base64Text s) (base64Text s).length = .ok (s.length, s) := by
  have hlen : (base64Text s).length = 4 * ((s.length + 2) / 3) := Lib.Base64.length_encode _ _ s
  have hgroups : (base64Text s).length - (base64Text s).length % 4 = (base64Text s).length := by
    omega
  have hret : s.length % 2 ^ 16 = s.length := Nat.mod_eq_of_lt (by omega)
  simp only [rpDecodeBase64DataNoNull, hgroups, decodeGroups_base64Text, bind, Except.bind, hret]

end OnuFirmware.Cwmp
