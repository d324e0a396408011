import OnuFirmware.Cfg.Obj
import OnuFirmware.Clib.Num

/-!
# Reading an attribute into a buffer (`cfg_obj.c`)

`cfg_get_object_attr` copies the text of an attribute into the caller's buffer and returns its
length there. If the object or the attribute is missing it returns a negative number and leaves the
buffer as it was, so what a caller sees then depends on what it did with the buffer before.
-/

namespace OnuFirmware.Cfg

open Clib

/-- The attributes of a configuration, by the path of the object and the name. -/
abbrev Conf := Str → Str → Option Str

/-- `cfg_get_object_attr` on the text of the attribute: the return value, and the buffer of `size`
bytes afterwards. -/
def cfgGetObjectAttr (attr : Option Str) (buf : Str) (size : Nat) : Int × Str :=
  match attr with
  | some v => ((snprintf size v).length, snprintf size v)
  | none => (-2, buf)

@[simp] theorem cfgGetObjectAttr_some (v buf : Str) (size : Nat) :
    cfgGetObjectAttr (some v) buf size = (↑(snprintf size v).length, snprintf size v) := rfl

@[simp] theorem cfgGetObjectAttr_none (buf : Str) (size : Nat) :
    cfgGetObjectAttr none buf size = (-2, buf) := rfl

/-- The text a caller sees that takes `dflt` for an absent attribute. -/
def attrText (attr : Option Str) (size : Nat) (dflt : Str) : Str :=
  (attr.map (snprintf size)).getD dflt

/-- A buffer that held the default holds it after a failed read. -/
theorem cfgGetObjectAttr_snd (attr : Option Str) (buf : Str) (size : Nat) :
    (cfgGetObjectAttr attr buf size).2 = attrText attr size buf := by
  cases attr <;> rfl

/-- The read gives a text exactly for an attribute that has one. -/
theorem cfgGetObjectAttr_pos (attr : Option Str) (buf : Str) (size : Nat) :
    0 < (cfgGetObjectAttr attr buf size).1 ↔ attrText attr size [] ≠ [] := by
  cases attr with
  | none => simp [attrText]
  | some v =>
    simp only [cfgGetObjectAttr_some, attrText, Option.map_some, Option.getD_some]
    rw [Int.natCast_pos, List.length_pos_iff]

/-- A missing attribute reads like an empty one, if the buffer was empty. -/
theorem attrText_getD (attr : Option Str) (size : Nat) :
    attrText attr size [] = snprintf size (attr.getD []) := by
  cases attr with
  | none => rw [attrText, Option.map_none, Option.getD_none, snprintf, List.take_nil]
  | some v => rfl

/-- Something is read exactly if the attribute is not empty. -/
theorem snprintf_eq_nil_iff {size : Nat} (hsize : 1 < size) {t : Str} :
    snprintf size t = [] ↔ t = [] := by
  rw [snprintf, List.take_eq_nil_iff]
  exact or_iff_right (by omega)

/-- A text shorter than the buffer is read exactly if it is the attribute. -/
theorem attrText_eq_iff {attr : Option Str} {size : Nat} {dflt t : Str} (ht : t.length + 1 < size) :
    attrText attr size dflt = t ↔ attr = some t ∨ (attr = none ∧ dflt = t) := by
  cases attr with
  | none => simp [attrText]
  | some v =>
    simp only [attrText, Option.map_some, Option.getD_some, Option.some_inj, reduceCtorEq,
      false_and, or_false]
    constructor
    · intro h
      by_cases hv : v.length < size
      · rwa [snprintf_eq hv] at h
      · rw [← h, snprintf, List.length_take] at ht
        omega
    · rintro rfl
      exact snprintf_eq (by omega)

/-- The same for a buffer that was empty and a text that is not. -/
theorem attrText_nil_eq_iff {attr : Option Str} {size : Nat} {t : Str} (ht : t.length + 1 < size)
    (hne : t ≠ []) : attrText attr size [] = t ↔ attr = some t := by
  rw [attrText_eq_iff ht]
  refine or_iff_left fun h => hne h.2.symm

end OnuFirmware.Cfg
