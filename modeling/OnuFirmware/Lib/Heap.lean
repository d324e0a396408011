import Mathlib.Data.List.Nodup

/-!
# Heaps and singly linked chains

A heap maps addresses to blocks; `none` is an address that is free or was never allocated. A `Chain`
is the list of addresses that a pointer reaches through the `next` field of the blocks.
-/

namespace OnuFirmware.Lib

universe u

/-- A heap of blocks of type `α`. -/
def Heap (α : Type u) := Nat → Option α

namespace Heap

variable {α : Type u}

/-- Overwrites or allocates a block. -/
def set (h : Heap α) (a : Nat) (x : α) : Heap α := fun b => if b = a then some x else h b

/-- Frees a block. -/
def free (h : Heap α) (a : Nat) : Heap α := fun b => if b = a then none else h b

@[simp] theorem set_self (h : Heap α) (a : Nat) (x : α) : h.set a x a = some x := if_pos rfl

theorem set_ne (h : Heap α) {a b : Nat} (x : α) (hab : b ≠ a) : h.set a x b = h b := if_neg hab

@[simp] theorem free_self (h : Heap α) (a : Nat) : h.free a a = none := if_pos rfl

theorem free_ne (h : Heap α) {a b : Nat} (hab : b ≠ a) : h.free a b = h b := if_neg hab

/-- The pointer `p` leads through the addresses `l`, one after the other, to a null pointer. -/
def Chain (next : α → Option Nat) (h : Heap α) : Option Nat → List Nat → Prop
  | p, [] => p = none
  | p, a :: l => p = some a ∧ ∃ x, h a = some x ∧ Chain next h (next x) l

variable {next : α → Option Nat} {h : Heap α}

/-- A pointer leads through one list only. -/
theorem Chain.unique : ∀ {l l' : List Nat} {p : Option Nat}, Chain next h p l →
    Chain next h p l' → l = l'
  | [], [], _, _, _ => rfl
  | [], _ :: _, _, h1, h2 => by
    rw [Chain] at h1
    rw [h1] at h2
    exact absurd h2.1 (by simp)
  | _ :: _, [], _, h1, h2 => by
    rw [Chain] at h2
    rw [h2] at h1
    exact absurd h1.1 (by simp)
  | a :: l, b :: l', p, ⟨ha, x, hx, h1⟩, ⟨hb, y, hy, h2⟩ => by
    obtain rfl : a = b := Option.some.inj (ha.symm.trans hb)
    obtain rfl : x = y := Option.some.inj (hx.symm.trans hy)
    rw [h1.unique h2]

/-- A chain only depends on the links of its own blocks. -/
theorem Chain.congr {h' : Heap α} : ∀ {l : List Nat} {p : Option Nat}, Chain next h p l →
    (∀ a ∈ l, (h' a).map next = (h a).map next) → Chain next h' p l
  | [], _, hc, _ => hc
  | a :: l, p, ⟨hp, x, hx, hc⟩, heq => by
    have ha := heq a List.mem_cons_self
    rw [hx, Option.map_some] at ha
    obtain ⟨y, hy, hyx⟩ := Option.map_eq_some_iff.mp ha
    refine ⟨hp, y, hy, ?_⟩
    rw [hyx]
    exact hc.congr fun b hb => heq b (List.mem_cons_of_mem a hb)

theorem Chain.mem_some : ∀ {l : List Nat} {p : Option Nat}, Chain next h p l → ∀ a ∈ l,
    ∃ x, h a = some x
  | [], _, _, _, ha => absurd ha List.not_mem_nil
  | b :: l, p, ⟨_, x, hx, hc⟩, a, ha => by
    rcases List.mem_cons.mp ha with rfl | ha
    · exact ⟨x, hx⟩
    · exact hc.mem_some a ha

theorem Chain.drop : ∀ {l l' : List Nat} {a : Nat} {p : Option Nat}, Chain next h p (l ++ a :: l') →
    Chain next h (some a) (a :: l')
  | [], _, _, _, hc => by
    obtain ⟨hp, hx⟩ := hc
    exact ⟨rfl, hx⟩
  | _ :: _, _, _, _, ⟨_, _, _, hc⟩ => hc.drop

/-- No address occurs twice: the chains from its two occurrences would be one. -/
theorem Chain.nodup : ∀ {l : List Nat} {p : Option Nat}, Chain next h p l → l.Nodup
  | [], _, _ => List.nodup_nil
  | a :: l, p, hc => by
    obtain ⟨hp, x, hx, hrest⟩ := id hc
    refine List.nodup_cons.mpr ⟨fun ha => ?_, hrest.nodup⟩
    obtain ⟨l₁, l₂, rfl⟩ := List.append_of_mem ha
    have heq := (hp ▸ hc).unique hrest.drop
    have hlen := congrArg List.length heq
    simp only [List.length_cons, List.length_append] at hlen
    omega

end Heap

end OnuFirmware.Lib
