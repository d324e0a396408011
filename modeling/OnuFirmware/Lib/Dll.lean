import OnuFirmware.Lib.Heap

/-!
# Doubly linked chains

A `Dll` is the list of addresses and values that a pointer reaches through the `next` field of the
blocks, where the `prev` field of each block points back to the one before it.

Appending at the tail writes the last block and a new one, removing the head writes the second block
and frees the first. Both leave the rest of the chain as it is.
-/

namespace OnuFirmware.Lib.Heap

universe u v

variable {α : Type u} {β : Type v} {next prev : α → Option Nat} {val : α → β}

/-- The pointer `p` leads through the blocks at the addresses in `l`, which hold the values in `l`,
to a null pointer; `before` is the address before the first block. -/
def Dll (next prev : α → Option Nat) (val : α → β) (h : Heap α) :
    Option Nat → Option Nat → List (Nat × β) → Prop
  | _, p, [] => p = none
  | before, p, (a, v) :: l => p = some a ∧ ∃ x, h a = some x ∧ prev x = before ∧ val x = v ∧
      Dll next prev val h (some a) (next x) l

/-- A doubly linked chain is a chain. -/
theorem Dll.chain {h : Heap α} : ∀ {l : List (Nat × β)} {before p : Option Nat},
    Dll next prev val h before p l → Chain next h p (l.map Prod.fst)
  | [], _, _, hd => hd
  | (_, _) :: _, _, _, ⟨hp, x, hx, _, _, hd⟩ => ⟨hp, x, hx, hd.chain⟩

/-- It only depends on its own blocks. -/
theorem Dll.congr {h h' : Heap α} : ∀ {l : List (Nat × β)} {before p : Option Nat},
    Dll next prev val h before p l → (∀ a ∈ l.map Prod.fst, h' a = h a) →
    Dll next prev val h' before p l
  | [], _, _, hd, _ => hd
  | (a, v) :: l, before, p, ⟨hp, x, hx, hprev, hval, hd⟩, heq => by
    refine ⟨hp, x, ?_, hprev, hval, hd.congr fun b hb => heq b (List.mem_cons_of_mem _ hb)⟩
    rw [heq a List.mem_cons_self, hx]

/-- A block that is linked behind the last one is appended. -/
theorem Dll.push {h h' : Heap α} {t new : Nat} {w v : β} {x y : α} :
    ∀ {l : List (Nat × β)} {before p : Option Nat},
    Dll next prev val h before p (l ++ [(t, w)]) → (∀ a ∈ l.map Prod.fst, h' a = h a) →
    h' t = some x → next x = some new → (h t).map prev = some (prev x) →
    (h t).map val = some (val x) →
    h' new = some y → next y = none → prev y = some t → val y = v →
    Dll next prev val h' before p (l ++ [(t, w), (new, v)])
  | [], before, p, ⟨hp, z, hz, hzprev, hzval, _⟩, _, ht, htnext, htprev, htval, hnew, hnext, hprev,
      hval => by
    rw [hz] at htprev htval
    refine ⟨hp, x, ht, ?_, ?_, htnext, y, hnew, hprev, hval, hnext⟩
    · rw [← hzprev]
      exact (Option.some.inj htprev).symm
    · rw [← hzval]
      exact (Option.some.inj htval).symm
  | (a, u) :: l, before, p, ⟨hp, z, hz, hzprev, hzval, hd⟩, heq, ht, htnext, htprev, htval, hnew,
      hnext, hprev, hval => by
    refine ⟨hp, z, ?_, hzprev, hzval, hd.push (fun b hb => heq b (List.mem_cons_of_mem _ hb))
      ht htnext htprev htval hnew hnext hprev hval⟩
    rw [heq a List.mem_cons_self, hz]

/-- The rest of a chain, with the back pointer of its first block cleared. -/
theorem Dll.pop {h h' : Heap α} {a b : Nat} {u v : β} {x y : α} {l : List (Nat × β)}
    {before p : Option Nat} (hd : Dll next prev val h before p ((a, u) :: (b, v) :: l))
    (hb : h' b = some y) (hx : h b = some x) (hnext : next y = next x) (hprev : prev y = none)
    (hval : val y = val x) (heq : ∀ c ∈ l.map Prod.fst, h' c = h c) :
    Dll next prev val h' none (some b) ((b, v) :: l) := by
  obtain ⟨-, z, -, -, -, -, w, hw, -, hwval, hd⟩ := hd
  obtain rfl : x = w := Option.some.inj (hx.symm.trans hw)
  refine ⟨rfl, y, hb, hprev, by rw [hval, hwval], ?_⟩
  rw [hnext]
  exact hd.congr heq

end OnuFirmware.Lib.Heap
