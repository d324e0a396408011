import OnuFirmware.Clib.Str

/-!
# Character arrays

An array of `char` is the list of its elements, NULs included. A store outside the array, and
reading an array without a NUL as a string, leave the object and stop the model.
-/

namespace OnuFirmware.Clib

/-- `buf[i] = c`. -/
def store (buf : Str) (i : Nat) (c : Char) : Except Fault Str :=
  if i < buf.length then .ok (buf.set i c) else .error .overrun

/-- The string that an array holds. -/
def cstr (buf : Str) : Except Fault Str :=
  if '\x00' ∈ buf then .ok (buf.takeWhile (· ≠ '\x00')) else .error .overrun

/-- An array of NULs. -/
def zeros (n : Nat) : Str := List.replicate n '\x00'

theorem zeros_succ (n : Nat) : zeros (n + 1) = '\x00' :: zeros n := List.replicate_succ

@[simp] theorem length_zeros (n : Nat) : (zeros n).length = n := List.length_replicate

theorem store_append (w r : Str) (x c : Char) :
    store (w ++ x :: r) w.length c = .ok (w ++ [c] ++ r) := by
  rw [store, if_pos (by simp)]
  simp

theorem store_length (w : Str) (c : Char) : store w w.length c = .error .overrun := by
  rw [store, if_neg (Nat.lt_irrefl _)]

/-- The string in an array ends at the first NUL. -/
theorem cstr_append {w : Str} (h : '\x00' ∉ w) (r : Str) : cstr (w ++ '\x00' :: r) = .ok w := by
  have hw : ∀ c ∈ w, decide (c ≠ '\x00') = true := by
    intro c hc
    have hne : c ≠ '\x00' := fun h0 => h (h0 ▸ hc)
    simpa using hne
  have htake : (w ++ '\x00' :: r).takeWhile (· ≠ '\x00') = w := by
    rw [List.takeWhile_append_of_pos hw]
    simp
  rw [cstr, if_pos (by simp), htake]

/-! ## The first occurrence of a character -/

theorem idxOf?_append_cons {a b : Str} {c : Char} (h : c ∉ a) :
    (a ++ c :: b).idxOf? c = some a.length := by
  rw [List.idxOf?_eq_some_iff]
  refine ⟨by simp, by simp, ?_⟩
  intro j hj
  rw [List.getElem_append_left hj]
  exact fun he => h (he ▸ List.getElem_mem hj)

/-- A string has only one first occurrence of a character. -/
theorem append_cons_unique {a b a' b' : Str} {c : Char} (ha : c ∉ a) (ha' : c ∉ a')
    (h : a ++ c :: b = a' ++ c :: b') : a = a' ∧ b = b' := by
  have hidx := idxOf?_append_cons (b := b) ha
  rw [h, idxOf?_append_cons ha', Option.some.injEq] at hidx
  obtain ⟨rfl, htail⟩ := List.append_inj h hidx.symm
  exact ⟨rfl, (List.cons.inj htail).2⟩

end OnuFirmware.Clib
