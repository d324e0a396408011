import Mathlib.Data.List.Nodup
import Mathlib.Data.List.Perm.Basic

/-!
# First-child / next-sibling trees

A C tree whose nodes carry a `child` pointer and a `brother` (or `next`) pointer is a value of
`Lcrs α`: `nil` is the null pointer and `node a c s` is a node with fields `a`, first child `c` and
next sibling `s`. A pointer to a node of such a tree is an *entry*: the fields of the node and its
child chain.

## Invariants

`Everywhere P` says that every node `a` of the tree and the list of its direct children satisfy `P`.
Each operation that rewrites links has one rule that says when it keeps `Everywhere P`.
-/

namespace OnuFirmware.Lib

universe u v

/-- A first-child / next-sibling tree; `nil` is the null pointer. -/
inductive Lcrs (α : Type u) where
  | nil
  | node (val : α) (child sib : Lcrs α)
deriving Repr, DecidableEq

namespace Lcrs

variable {α : Type u} {κ : Type v}

/-! ## Reading a tree -/

/-- The fields of the nodes of one sibling chain. -/
def sibs : Lcrs α → List α
  | nil => []
  | node a _ s => a :: s.sibs

/-- All nodes with their child chains, in the order node, children, siblings. -/
def entries : Lcrs α → List (α × Lcrs α)
  | nil => []
  | node a c s => (a, c) :: (c.entries ++ s.entries)

/-- The fields of all nodes, in the order of `entries`. -/
def values : Lcrs α → List α
  | nil => []
  | node a c s => a :: (c.values ++ s.values)

/-- The number of nodes. -/
def size : Lcrs α → Nat
  | nil => 0
  | node _ c s => c.size + s.size + 1

/-- The first node of a sibling chain that satisfies `p`. -/
def findSib (p : α → Bool) : Lcrs α → Option (α × Lcrs α)
  | nil => none
  | node a c s => if p a then some (a, c) else s.findSib p

attribute [grind =] sibs entries values size findSib

/-- A node without siblings. -/
theorem values_single (a : α) (c : Lcrs α) : (node a c nil).values = a :: c.values := by
  show a :: (c.values ++ []) = a :: c.values
  rw [List.append_nil]

theorem map_fst_entries : ∀ f : Lcrs α, f.entries.map Prod.fst = f.values
  | nil => rfl
  | node a c s => by
    simp only [entries, values, List.map_cons, List.map_append, map_fst_entries c,
      map_fst_entries s]

theorem length_entries : ∀ f : Lcrs α, f.entries.length = f.size
  | nil => rfl
  | node a c s => by
    simp only [entries, size, List.length_cons, List.length_append, length_entries c,
      length_entries s]

theorem mem_values_of_mem_entries {f : Lcrs α} {e : α × Lcrs α} (h : e ∈ f.entries) :
    e.1 ∈ f.values := by
  rw [← map_fst_entries]
  exact List.mem_map_of_mem h

theorem exists_entry_of_mem_values {f : Lcrs α} {a : α} (h : a ∈ f.values) :
    ∃ c, (a, c) ∈ f.entries := by
  rw [← map_fst_entries] at h
  obtain ⟨⟨b, c⟩, hm, rfl⟩ := List.mem_map.mp h
  exact ⟨c, hm⟩

theorem sibs_sublist_values : ∀ f : Lcrs α, f.sibs.Sublist f.values
  | nil => .slnil
  | node a c s => by
    refine List.Sublist.cons_cons a ?_
    exact (sibs_sublist_values s).trans (List.sublist_append_right _ _)

theorem mem_sibs_iff_entry {f : Lcrs α} {a : α} (h : a ∈ f.sibs) : ∃ c, (a, c) ∈ f.entries :=
  exists_entry_of_mem_values ((sibs_sublist_values f).subset h)

/-- The entries below an entry are entries of the whole tree. -/
theorem entries_trans : ∀ {f : Lcrs α} {e x : α × Lcrs α}, e ∈ f.entries → x ∈ e.2.entries →
    x ∈ f.entries
  | nil, _, _, h, _ => absurd h List.not_mem_nil
  | node a c s, e, x, h, hx => by
    rcases List.mem_cons.mp h with rfl | h
    · exact List.mem_cons_of_mem _ (List.mem_append_left _ hx)
    · rcases List.mem_append.mp h with h | h
      · exact List.mem_cons_of_mem _ (List.mem_append_left _ (entries_trans h hx))
      · exact List.mem_cons_of_mem _ (List.mem_append_right _ (entries_trans h hx))

/-- A tree is larger than what is below one of its nodes. -/
theorem size_lt_of_mem_entries : ∀ {f : Lcrs α} {e : α × Lcrs α}, e ∈ f.entries →
    e.2.size < f.size
  | nil, _, h => absurd h List.not_mem_nil
  | node a c s, e, h => by
    have hsize : (node a c s).size = c.size + s.size + 1 := rfl
    rw [hsize]
    rcases List.mem_cons.mp h with rfl | h
    · show c.size < c.size + s.size + 1
      omega
    · rcases List.mem_append.mp h with h | h
      · have := size_lt_of_mem_entries h
        omega
      · have := size_lt_of_mem_entries h
        omega

theorem values_sublist_of_mem : ∀ {f : Lcrs α} {e : α × Lcrs α}, e ∈ f.entries →
    e.2.values.Sublist f.values
  | nil, _, h => absurd h List.not_mem_nil
  | node a c s, e, h => by
    rw [values]
    rcases List.mem_cons.mp h with rfl | h
    · exact (List.sublist_append_left _ _).cons a
    · rcases List.mem_append.mp h with h | h
      · exact ((values_sublist_of_mem h).trans (List.sublist_append_left _ _)).cons a
      · exact ((values_sublist_of_mem h).trans (List.sublist_append_right _ _)).cons a

/-- Under a key that no two nodes share, an entry is determined by its key. -/
theorem entry_unique {key : α → κ} {f : Lcrs α} (hn : (f.values.map key).Nodup)
    {e x : α × Lcrs α} (he : e ∈ f.entries) (hx : x ∈ f.entries) (hk : key e.1 = key x.1) :
    e = x := by
  rw [← map_fst_entries, List.map_map] at hn
  exact List.inj_on_of_nodup_map hn he hx hk

theorem findSib_some {p : α → Bool} : ∀ {f : Lcrs α} {e : α × Lcrs α}, f.findSib p = some e →
    e ∈ f.entries ∧ e.1 ∈ f.sibs ∧ p e.1 = true
  | nil, _, h => nomatch h
  | node a c s, e, h => by
    rw [findSib] at h
    split at h
    · next hp =>
      obtain rfl := Option.some.inj h
      exact ⟨List.mem_cons_self, List.mem_cons_self, hp⟩
    · obtain ⟨h1, h2, h3⟩ := findSib_some h
      exact ⟨List.mem_cons_of_mem _ (List.mem_append_right _ h1), List.mem_cons_of_mem _ h2, h3⟩

theorem findSib_eq_none {p : α → Bool} : ∀ {f : Lcrs α},
    f.findSib p = none ↔ ∀ a ∈ f.sibs, p a = false
  | nil => by simp [findSib, sibs]
  | node a c s => by
    by_cases hp : p a = true
    · simp [findSib, sibs, hp]
    · simp [findSib, sibs, hp, findSib_eq_none (f := s)]

/-! ## Rewriting a tree -/

/-- Rewrites the fields of the nodes that satisfy `p`. -/
def mapVal (p : α → Bool) (f : α → α) : Lcrs α → Lcrs α
  | nil => nil
  | node a c s => node (if p a then f a else a) (c.mapVal p f) (s.mapVal p f)

/-- Rewrites the child chain of the topmost nodes that satisfy `p`. -/
def mapChild (p : α → Bool) (g : Lcrs α → Lcrs α) : Lcrs α → Lcrs α
  | nil => nil
  | node a c s => node a (if p a then g c else c.mapChild p g) (s.mapChild p g)

/-- Links the chain `t` behind the last sibling. -/
def append : Lcrs α → Lcrs α → Lcrs α
  | nil, t => t
  | node a c s, t => node a c (s.append t)

/-- Unlinks the first sibling that satisfies `p`. -/
def eraseSib (p : α → Bool) : Lcrs α → Lcrs α
  | nil => nil
  | node a c s => if p a then s else node a c (s.eraseSib p)

/-- Unlinks every node that satisfies `p`, with all that is below it. -/
def prune (p : α → Bool) : Lcrs α → Lcrs α
  | nil => nil
  | node a c s => if p a then s.prune p else node a (c.prune p) (s.prune p)

/-- Replaces the fields of every node. -/
def map {β : Type v} (f : α → β) : Lcrs α → Lcrs β
  | nil => nil
  | node a c s => node (f a) (c.map f) (s.map f)

attribute [grind =] mapVal mapChild append eraseSib prune map

theorem map_append {β : Type v} (f : α → β) : ∀ t u : Lcrs α,
    (t.append u).map f = (t.map f).append (u.map f)
  | nil, _ => rfl
  | node a c s, u => by simp only [append, map, map_append f s u]

theorem sibs_map {β : Type v} (f : α → β) : ∀ t : Lcrs α, (t.map f).sibs = t.sibs.map f
  | nil => rfl
  | node a c s => by simp only [map, sibs, List.map_cons, sibs_map f s]

theorem values_map {β : Type v} (f : α → β) : ∀ t : Lcrs α, (t.map f).values = t.values.map f
  | nil => rfl
  | node a c s => by
    simp only [map, values, List.map_cons, List.map_append, values_map f c, values_map f s]

theorem map_map {β γ : Type v} (f : α → β) (g : β → γ) : ∀ t : Lcrs α,
    (t.map f).map g = t.map fun a => g (f a)
  | nil => rfl
  | node a c s => by simp only [map, map_map f g c, map_map f g s]

/-- Rewriting with functions that agree on the fields that are there. -/
theorem map_congr {β : Type v} {f g : α → β} : ∀ {t : Lcrs α}, (∀ a ∈ t.values, f a = g a) →
    t.map f = t.map g
  | nil, _ => rfl
  | node a c s, h => by
    simp only [values, List.mem_cons, List.mem_append] at h
    simp only [map, h a (.inl rfl), map_congr (t := c) fun x hx => h x (.inr (.inl hx)),
      map_congr (t := s) fun x hx => h x (.inr (.inr hx))]

/-- Rewriting changes nothing exactly if it changes no fields. -/
theorem map_eq_self_iff {f : α → α} : ∀ {t : Lcrs α}, t.map f = t ↔ ∀ a ∈ t.values, f a = a
  | nil => by simp [map, values]
  | node a c s => by
    simp only [map, values, node.injEq, map_eq_self_iff (t := c), map_eq_self_iff (t := s),
      List.forall_mem_cons, List.forall_mem_append]

theorem mapVal_eq_map (p : α → Bool) (f : α → α) : ∀ t : Lcrs α,
    t.mapVal p f = t.map fun a => if p a then f a else a
  | nil => rfl
  | node a c s => by simp only [mapVal, map, mapVal_eq_map p f c, mapVal_eq_map p f s]

theorem findSib_map {β : Type v} (f : α → β) (p : β → Bool) : ∀ t : Lcrs α,
    (t.map f).findSib p = (t.findSib fun a => p (f a)).map fun e => (f e.1, e.2.map f)
  | nil => rfl
  | node a c s => by
    simp only [map, findSib]
    split
    · rfl
    · exact findSib_map f p s

theorem prune_map {β : Type v} (f : α → β) (p : β → Bool) : ∀ t : Lcrs α,
    (t.map f).prune p = (t.prune fun a => p (f a)).map f
  | nil => rfl
  | node a c s => by
    rw [map, prune, prune, prune_map f p c, prune_map f p s]
    split <;> rfl

theorem append_assoc : ∀ t u w : Lcrs α, (t.append u).append w = t.append (u.append w)
  | nil, _, _ => rfl
  | node a c s, u, w => by simp only [append, append_assoc s u w]

@[simp] theorem append_nil : ∀ t : Lcrs α, t.append nil = t
  | nil => rfl
  | node a c s => by rw [append, append_nil s]

theorem findSib_append (q : α → Bool) (t : Lcrs α) : ∀ f : Lcrs α,
    (f.append t).findSib q = (f.findSib q).or (t.findSib q)
  | nil => rfl
  | node a c s => by
    rw [append, findSib, findSib, findSib_append q t s]
    split <;> rfl

/-! ### Unlinking a sibling -/

theorem eraseSib_eq_self {p : α → Bool} : ∀ {t : Lcrs α}, (∀ a ∈ t.sibs, p a = false) →
    t.eraseSib p = t
  | nil, _ => rfl
  | node a c s, h => by
    rw [eraseSib, if_neg (by simp [h a List.mem_cons_self]),
      eraseSib_eq_self fun b hb => h b (List.mem_cons_of_mem a hb)]

theorem eraseSib_congr {p q : α → Bool} : ∀ {t : Lcrs α}, (∀ a ∈ t.sibs, p a = q a) →
    t.eraseSib p = t.eraseSib q
  | nil, _ => rfl
  | node a c s, h => by
    rw [eraseSib, eraseSib, h a List.mem_cons_self,
      eraseSib_congr fun b hb => h b (List.mem_cons_of_mem a hb)]

/-- Where the second chain has nothing to unlink, only the first one changes. -/
theorem eraseSib_append {p : α → Bool} {u : Lcrs α} (h : ∀ a ∈ u.sibs, p a = false) :
    ∀ t : Lcrs α, (t.append u).eraseSib p = (t.eraseSib p).append u
  | nil => eraseSib_eq_self h
  | node a c s => by
    rw [append, eraseSib, eraseSib, eraseSib_append h s]
    split <;> rfl

/-- With keys that no two siblings share, the sibling with the key is gone. -/
theorem ne_key_of_mem_eraseSib [DecidableEq κ] {key : α → κ} {k : κ} : ∀ {t : Lcrs α},
    (t.sibs.map key).Nodup → ∀ a ∈ (t.eraseSib fun b => key b == k).sibs, key a ≠ k
  | nil, _, _, h => absurd h List.not_mem_nil
  | node b c s, hn, a, h => by
    rw [sibs, List.map_cons, List.nodup_cons] at hn
    rw [eraseSib] at h
    split at h
    · next hb =>
      have hb : key b = k := by simpa using hb
      intro ha
      exact hn.1 (hb.trans ha.symm ▸ List.mem_map_of_mem h)
    · next hb =>
      rcases List.mem_cons.mp h with rfl | h
      · simpa using hb
      · exact ne_key_of_mem_eraseSib hn.2 a h

theorem sibs_mapVal (p : α → Bool) (f : α → α) : ∀ t : Lcrs α,
    (t.mapVal p f).sibs = t.sibs.map fun a => if p a then f a else a
  | nil => rfl
  | node a c s => by simp only [mapVal, sibs, List.map_cons, sibs_mapVal p f s]

theorem values_mapVal (p : α → Bool) (f : α → α) : ∀ t : Lcrs α,
    (t.mapVal p f).values = t.values.map fun a => if p a then f a else a
  | nil => rfl
  | node a c s => by
    simp only [mapVal, values, List.map_cons, List.map_append, values_mapVal p f c,
      values_mapVal p f s]

@[simp] theorem sibs_mapChild (p : α → Bool) (g : Lcrs α → Lcrs α) : ∀ t : Lcrs α,
    (t.mapChild p g).sibs = t.sibs
  | nil => rfl
  | node a c s => by simp only [mapChild, sibs, sibs_mapChild p g s]

@[simp] theorem sibs_append : ∀ f t : Lcrs α, (f.append t).sibs = f.sibs ++ t.sibs
  | nil, _ => rfl
  | node a c s, t => by simp only [append, sibs, sibs_append s t, List.cons_append]

theorem values_append : ∀ f t : Lcrs α, (f.append t).values = f.values ++ t.values
  | nil, _ => rfl
  | node a c s, t => by
    simp only [append, values, values_append s t, List.cons_append, List.append_assoc]

theorem sibs_eraseSib_sublist (p : α → Bool) : ∀ t : Lcrs α, (t.eraseSib p).sibs.Sublist t.sibs
  | nil => .slnil
  | node a c s => by
    rw [eraseSib]
    split
    · exact List.sublist_cons_self _ _
    · exact (sibs_eraseSib_sublist p s).cons_cons a

theorem values_eraseSib_sublist (p : α → Bool) : ∀ t : Lcrs α,
    (t.eraseSib p).values.Sublist t.values
  | nil => .slnil
  | node a c s => by
    rw [eraseSib]
    split
    · exact ((List.sublist_append_right _ _).cons a)
    · exact ((List.Sublist.refl _).append (values_eraseSib_sublist p s)).cons_cons a

theorem sibs_prune_sublist (p : α → Bool) : ∀ t : Lcrs α, (t.prune p).sibs.Sublist t.sibs
  | nil => .slnil
  | node a c s => by
    rw [prune]
    split
    · exact (sibs_prune_sublist p s).cons a
    · exact (sibs_prune_sublist p s).cons_cons a

theorem values_prune_sublist (p : α → Bool) : ∀ t : Lcrs α, (t.prune p).values.Sublist t.values
  | nil => .slnil
  | node a c s => by
    rw [prune]
    split
    · exact ((values_prune_sublist p s).trans (List.sublist_append_right _ _)).cons a
    · exact ((values_prune_sublist p c).append (values_prune_sublist p s)).cons_cons a

theorem values_mapChild_sublist {p : α → Bool} {g : Lcrs α → Lcrs α}
    (hg : ∀ c, (g c).values.Sublist c.values) : ∀ t : Lcrs α,
    (t.mapChild p g).values.Sublist t.values
  | nil => .slnil
  | node a c s => by
    rw [mapChild]
    refine (List.Sublist.append ?_ (values_mapChild_sublist hg s)).cons_cons a
    split
    · exact hg c
    · exact values_mapChild_sublist hg c

theorem mapChild_eq_self {p : α → Bool} {g : Lcrs α → Lcrs α} : ∀ {t : Lcrs α},
    (∀ a ∈ t.values, p a = false) → t.mapChild p g = t
  | nil, _ => rfl
  | node a c s, h => by
    have ha : p a = false := h a List.mem_cons_self
    have hc : ∀ b ∈ c.values, p b = false := fun b hb =>
      h b (List.mem_cons_of_mem _ (List.mem_append_left _ hb))
    have hs : ∀ b ∈ s.values, p b = false := fun b hb =>
      h b (List.mem_cons_of_mem _ (List.mem_append_right _ hb))
    simp only [mapChild, ha, mapChild_eq_self hc, mapChild_eq_self hs, Bool.false_eq_true,
      if_false]

/-- Linking a chain below the only node that satisfies `p` adds exactly the nodes of the chain. -/
theorem values_mapChild_append_perm {p : α → Bool} {t : Lcrs α} : ∀ {f : Lcrs α},
    f.values.countP p = 1 →
    (f.mapChild p (·.append t)).values.Perm (f.values ++ t.values)
  | nil, h => by simp [values] at h
  | node a c s, h => by
    rw [mapChild, values, values, List.cons_append]
    rw [values, List.countP_cons, List.countP_append] at h
    have keep : ∀ {g : Lcrs α}, g.values.countP p = 0 →
        g.mapChild p (·.append t) = g := fun hg =>
      mapChild_eq_self (by simpa [List.countP_eq_zero] using hg)
    by_cases hp : p a = true
    · rw [if_pos hp] at h ⊢
      rw [keep (g := s) (by omega), values_append]
      refine List.Perm.cons a ?_
      rw [List.append_assoc, List.append_assoc]
      exact List.Perm.append_left _ List.perm_append_comm
    · rw [if_neg hp] at h ⊢
      refine List.Perm.cons a ?_
      rcases Nat.eq_zero_or_pos (c.values.countP p) with hc | hc
      · rw [keep hc, List.append_assoc]
        exact List.Perm.append_left _ (values_mapChild_append_perm (by omega))
      · rw [keep (g := s) (by omega)]
        refine ((values_mapChild_append_perm (f := c) (by omega)).append_right _).trans ?_
        rw [List.append_assoc, List.append_assoc]
        exact List.Perm.append_left _ List.perm_append_comm

/-! ## Invariants between a node and its children -/

/-- Every node and the list of its direct children satisfy `P`. -/
def Everywhere (P : α → List α → Prop) : Lcrs α → Prop
  | nil => True
  | node a c s => P a c.sibs ∧ c.Everywhere P ∧ s.Everywhere P

attribute [grind =] Everywhere

variable {P : α → List α → Prop}

theorem everywhere_iff_entries : ∀ {f : Lcrs α},
    f.Everywhere P ↔ ∀ e ∈ f.entries, P e.1 e.2.sibs
  | nil => by simp [Everywhere, entries]
  | node a c s => by
    simp only [Everywhere, entries, List.forall_mem_cons, List.forall_mem_append,
      everywhere_iff_entries (f := c), everywhere_iff_entries (f := s)]

theorem Everywhere.entry {f : Lcrs α} (h : f.Everywhere P) {e : α × Lcrs α} (he : e ∈ f.entries) :
    P e.1 e.2.sibs :=
  everywhere_iff_entries.mp h e he

theorem Everywhere.below {f : Lcrs α} (h : f.Everywhere P) {e : α × Lcrs α} (he : e ∈ f.entries) :
    e.2.Everywhere P :=
  everywhere_iff_entries.mpr fun _ hx => h.entry (entries_trans he hx)

/-- Rewriting fields keeps `P` everywhere if it keeps `P` at a node and its children at once. -/
theorem Everywhere.mapVal {p : α → Bool} {u : α → α}
    (hu : ∀ a l, P a l →
      P (if p a then u a else a) (l.map fun b => if p b then u b else b)) :
    ∀ {f : Lcrs α}, f.Everywhere P → (f.mapVal p u).Everywhere P
  | nil, _ => trivial
  | node a c s, h => by
    obtain ⟨ha, hc, hs⟩ := h
    refine ⟨?_, hc.mapVal hu, hs.mapVal hu⟩
    rw [sibs_mapVal]
    exact hu a _ ha

/-- Rewriting the child chain of a node has to keep `P` at that node and below it only. -/
theorem Everywhere.mapChild {p : α → Bool} {g : Lcrs α → Lcrs α} : ∀ {f : Lcrs α},
    f.Everywhere P →
    (∀ e ∈ f.entries, p e.1 = true → P e.1 (g e.2).sibs ∧ (g e.2).Everywhere P) →
    (f.mapChild p g).Everywhere P
  | nil, _, _ => trivial
  | node a c s, h, hg => by
    obtain ⟨ha, hc, hs⟩ := h
    rw [Lcrs.mapChild]
    have hs' : (s.mapChild p g).Everywhere P := hs.mapChild fun e he hp =>
      hg e (List.mem_cons_of_mem _ (List.mem_append_right _ he)) hp
    by_cases hp : p a = true
    · rw [if_pos hp]
      obtain ⟨h1, h2⟩ := hg (a, c) List.mem_cons_self hp
      exact ⟨h1, h2, hs'⟩
    · rw [if_neg hp]
      refine ⟨by rw [sibs_mapChild]; exact ha, ?_, hs'⟩
      exact hc.mapChild fun e he hp' =>
        hg e (List.mem_cons_of_mem _ (List.mem_append_left _ he)) hp'

theorem Everywhere.append : ∀ {f t : Lcrs α}, f.Everywhere P → t.Everywhere P →
    (f.append t).Everywhere P
  | nil, _, _, ht => ht
  | node _ _ _, _, ⟨ha, hc, hs⟩, ht => ⟨ha, hc, hs.append ht⟩

theorem Everywhere.eraseSib {p : α → Bool} : ∀ {f : Lcrs α}, f.Everywhere P →
    (f.eraseSib p).Everywhere P
  | nil, _ => trivial
  | node a c s, ⟨ha, hc, hs⟩ => by
    rw [Lcrs.eraseSib]
    split
    · exact hs
    · exact ⟨ha, hc, hs.eraseSib⟩

/-- Unlinking nodes keeps any `P` that survives taking children away. -/
theorem Everywhere.prune {p : α → Bool}
    (hP : ∀ a l l', l'.Sublist l → P a l → P a l') : ∀ {f : Lcrs α}, f.Everywhere P →
    (f.prune p).Everywhere P
  | nil, _ => trivial
  | node a c s, ⟨ha, hc, hs⟩ => by
    rw [Lcrs.prune]
    split
    · exact hs.prune hP
    · exact ⟨hP a _ _ (sibs_prune_sublist p c) ha, hc.prune hP, hs.prune hP⟩

/-! ## Growth -/

/-- The first tree is kept in the second: every node is where it was, and chains have only become
longer at their ends. -/
inductive Grows : Lcrs α → Lcrs α → Prop
  | nil (t : Lcrs α) : Grows nil t
  | node (a : α) {c c' s s' : Lcrs α} (child : Grows c c') (brother : Grows s s') :
      Grows (node a c s) (node a c' s')

theorem Grows.refl : ∀ t : Lcrs α, t.Grows t
  | .nil => .nil _
  | .node a c s => .node a (Grows.refl c) (Grows.refl s)

theorem Grows.trans {t u w : Lcrs α} (htu : t.Grows u) (huw : u.Grows w) : t.Grows w := by
  induction htu generalizing w with
  | nil u => exact .nil w
  | node a _ _ ihc ihs =>
    cases huw with
    | node _ hc hs => exact .node a (ihc hc) (ihs hs)

theorem grows_append (u : Lcrs α) : ∀ t : Lcrs α, t.Grows (t.append u)
  | nil => .nil _
  | node a c s => .node a (Grows.refl c) (grows_append u s)

/-- A tree grows where the child chains of some nodes do. -/
theorem grows_mapChild {p : α → Bool} {g : Lcrs α → Lcrs α} (hg : ∀ c : Lcrs α, c.Grows (g c)) :
    ∀ t : Lcrs α, t.Grows (t.mapChild p g)
  | nil => .nil _
  | node a c s => by
    unfold mapChild
    refine .node a ?_ (grows_mapChild hg s)
    split
    · exact hg c
    · exact grows_mapChild hg c

/-- A node that was found first is still found first. -/
theorem Grows.findSib {p : α → Bool} {t u : Lcrs α} (h : t.Grows u) {e : α × Lcrs α}
    (he : t.findSib p = some e) : ∃ c, u.findSib p = some (e.1, c) ∧ e.2.Grows c := by
  induction h with
  | nil u => cases he
  | @node a c c' s s' hc _ _ ihs =>
    unfold Lcrs.findSib at he ⊢
    by_cases hp : p a = true
    · rw [if_pos hp] at he ⊢
      obtain rfl := Option.some.inj he
      exact ⟨c', rfl, hc⟩
    · rw [if_neg hp] at he ⊢
      exact ihs he

end Lcrs

end OnuFirmware.Lib
