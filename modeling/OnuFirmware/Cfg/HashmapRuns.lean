import OnuFirmware.Cfg.Hashmap
import Mathlib.Algebra.Group.Nat.Defs

/-!
# Runs of the hash map

As long as no put takes a free element before the one that has the key already, the table stands for
a map from keys to data, through all doublings, and `hashmap_get` reads it. A put that does take
such an element leaves the key in the table twice, and the data from before come back when the key
is removed. In every run the elements in use are at most half of the table, each of them is found,
and what is found for a key was put for it.
-/

namespace OnuFirmware.Cfg

open Lib Clib

variable {V : Type} {limit : Nat} {m : HashmapMap V} {f : Str → Option V} {key : Str} {value : V}

/-! ## What a put does -/

/-- **A put that succeeds ends with one write**, in the table that it has become. -/
theorem hashmapPutFuel_ok {fuel : Nat} (h : (hashmapPutFuel limit fuel m key value).1 = .ok) :
    ∃ m' index, hashmapHash m' key = some index ∧ m.tableSize ≤ m'.tableSize ∧
      (hashmapPutFuel limit fuel m key value).2 = hashmapStore m' index key value := by
  induction fuel generalizing m key value with
  | zero =>
    rw [hashmapPutFuel] at h ⊢
    cases hh : hashmapHash m key with
    | some index => exact ⟨m, index, hh, Nat.le_refl _, rfl⟩
    | none =>
      rw [hh] at h
      cases h
  | succ fuel ih =>
    rw [hashmapPutFuel] at h ⊢
    cases hh : hashmapHash m key with
    | some index => exact ⟨m, index, hh, Nat.le_refl _, rfl⟩
    | none =>
      rw [hh] at h
      dsimp only at h ⊢
      split at h
      · cases h
      · next hmem =>
        rw [if_neg hmem]
        have hle := le_tableSize_rehashLoop
          (fun m key value => le_tableSize_putFuel limit fuel m key value) m.data
          (rehashTable m)
        rw [tableSize_rehashTable] at hle
        generalize rehashLoop (hashmapPutFuel limit fuel) m.data (rehashTable m) = r at h hle
        cases r with
        | mk status m₁ =>
          cases status with
          | ok =>
            obtain ⟨m', index, hh', hle', heq⟩ := ih h
            exact ⟨m', index, hh', Nat.le_trans (Nat.le_trans (by omega) hle) hle', heq⟩
          | omem => cases h
          | missing => cases h

theorem hashmapGet_hashmapStore {index : Nat} (hpos : 0 < m.tableSize)
    (h : hashmapHash m key = some index) :
    hashmapGet (hashmapStore m index key value) key = some value := by
  obtain ⟨-, hfree⟩ := hashmapHash_some h
  have hlt : index < m.data.length := lt_of_mem_hashWin hpos (freeFor_some hfree).1
  rw [hashmapGet_eq, hashmapStore]
  dsimp only
  rw [List.length_set, slotOf_set_freeFor hfree hlt, Option.bind_some,
    List.getD_eq_getElem?_getD, List.getElem?_set_self hlt]
  rfl

/-- **What was put is found**, in whatever state the table was. -/
theorem hashmapGet_hashmapPut (hpos : 0 < m.tableSize)
    (h : (hashmapPut limit m key value).1 = .ok) :
    hashmapGet (hashmapPut limit m key value).2 key = some value := by
  obtain ⟨m', index, hh, hle, heq⟩ := hashmapPutFuel_ok h
  rw [hashmapPut, heq]
  exact hashmapGet_hashmapStore (Nat.lt_of_lt_of_le hpos hle) hh

/-- The key gets into no second element: if the put would take one that is not in use, the key is
not in the table. -/
def PutFits (m : HashmapMap V) (key : Str) : Prop :=
  ∀ index ∈ hashmapHash m key, keyAt m.data index = none → hashmapGet m key = none

/-- What a put leaves of a table that stands for a map. -/
structure PutDone (m m' : HashmapMap V) (f : Str → Option V) (key : Str) (value : V) : Prop where
  represents : Represents hashWin m'.data (Function.update f key (some value))
  pos : 0 < m'.tableSize
  packed : Packed hashWin m.data → Packed hashWin m'.data
  size : f key = none → m.size = entries m.data → m'.size = entries m'.data

theorem hashmapGet_of_represents (h : Represents hashWin m.data f) (key : Str) :
    hashmapGet m key = f key := (hashmapGet_eq m key).trans (h.lookup key)

/-- A write for a key that gets into no second element. -/
theorem hashmapStore_done (h : Represents hashWin m.data f) (hpos : 0 < m.tableSize) {index : Nat}
    (hindex : hashmapHash m key = some index) (hfits : PutFits m key) :
    PutDone m (hashmapStore m index key value) f key value := by
  obtain ⟨-, hfree⟩ := hashmapHash_some hindex
  obtain ⟨hwin, hend⟩ := freeFor_some hfree
  have hlt : index < m.data.length := lt_of_mem_hashWin hpos hwin
  have hnone : keyAt m.data index = none → f key = none := fun hn => by
    rw [← hashmapGet_of_represents h]
    exact hfits index hindex hn
  have honly : ∀ q, keyAt m.data q = some key → q = index := by
    intro q hq
    rcases hend with hn | hk
    · obtain ⟨v, -, hf⟩ := h.of_keyAt hq
      rw [hnone hn] at hf
      cases hf
    · exact h.eq_of_keyAt hq hk
  have hold : ∀ k', keyAt m.data index = some k' → k' = key := by
    intro k' hk'
    rcases hend with hn | hk
    · rw [hn] at hk'
      cases hk'
    · exact Option.some.inj (hk'.symm.trans hk)
  refine ⟨h.set value hlt hwin honly hold, ?_, fun hp => hp.set hlt hfree, fun hf hs => ?_⟩
  · rwa [tableSize_hashmapStore]
  · have hn : keyAt m.data index = none := by
      rcases hend with hn | hk
      · exact hn
      · obtain ⟨v, -, hv⟩ := h.of_keyAt hk
        rw [hf] at hv
        cases hv
    rw [hashmapStore, entries_set_new ((keyAt_eq_none hlt).mp hn), hs]
    push_cast
    rfl

/-! ## What a rehash does -/

/-- A table that stands for a map, has no gaps and counts its elements. -/
structure Settled (m : HashmapMap V) (f : Str → Option V) : Prop where
  represents : Represents hashWin m.data f
  pos : 0 < m.tableSize
  packed : Packed hashWin m.data
  size : m.size = entries m.data

theorem settled_rehashTable (hpos : 0 < m.tableSize) :
    Settled (rehashTable m) fun _ => none where
  represents := represents_replicate _
  pos := by
    rw [tableSize_rehashTable]
    omega
  packed := packed_replicate _
  size := by rw [rehashTable, entries_replicate]; rfl

/-- In a table without gaps every put fits. -/
theorem Settled.putFits (h : Settled m f) (key : Str) : PutFits m key := by
  intro index hindex hn
  rw [hashmapGet_of_represents h.represents]
  cases hf : f key with
  | none => rfl
  | some v =>
    obtain ⟨q, hq⟩ := (h.represents.iff key v).mpr hf
    have hkey := h.packed key index ⟨q, keyAt_eq_some.mpr ⟨v, hq⟩⟩ (hashmapHash_some hindex).2
    rw [hn] at hkey
    cases hkey

/-- The put of one element that is nowhere in the new table. -/
theorem Settled.put {m' : HashmapMap V} (h : Settled m f)
    (hdone : PutDone m m' f key value) (hf : f key = none) :
    Settled m' (Function.update f key (some value)) :=
  ⟨hdone.represents, hdone.pos, hdone.packed h.packed, hdone.size hf h.size⟩

/-- **The loop of a rehash** puts the elements one after the other. -/
theorem rehashLoop_done {put : HashmapMap V → Str → V → MapStatus × HashmapMap V}
    (hput : ∀ m f key value, Represents hashWin m.data f → 0 < m.tableSize → PutFits m key →
      (put m key value).1 = .ok → PutDone m (put m key value).2 f key value)
    {rest pre : List (Option (Str × V))} {g : Str → Option V}
    (huniq : UniqueKeys (fun e : Str × V => some e.1) (pre ++ rest)) (hset : Settled m g)
    (hg : ∀ k v, g k = some v ↔ some (k, v) ∈ pre) (hok : (rehashLoop put rest m).1 = .ok) :
    ∃ g', Settled (rehashLoop put rest m).2 g' ∧
      ∀ k v, g' k = some v ↔ some (k, v) ∈ pre ++ rest := by
  induction rest generalizing pre m g with
  | nil => exact ⟨g, hset, fun k v => by rw [List.append_nil, hg]⟩
  | cons s rest ih =>
    have hsplit : pre ++ s :: rest = pre ++ [s] ++ rest := by
      rw [List.append_assoc, List.singleton_append]
    rw [hsplit] at huniq ⊢
    cases s with
    | none =>
      refine ih huniq hset (fun k v => ?_) hok
      rw [hg, List.mem_append, List.mem_singleton]
      simp
    | some e =>
      have hnone : g e.1 = none := by
        cases hge : g e.1 with
        | none => rfl
        | some v =>
          exfalso
          obtain ⟨i, hi⟩ := List.mem_iff_getElem?.mp ((hg e.1 v).mp hge)
          have hlt : i < pre.length := (List.getElem?_eq_some_iff.mp hi).1
          have hfirst : (pre ++ [some e] ++ rest)[i]? = some (some (e.1, v)) := by
            rw [List.append_assoc, List.getElem?_append_left hlt, hi]
          have hhere : (pre ++ [some e] ++ rest)[pre.length]? = some (some e) := by
            rw [List.append_assoc, List.getElem?_append_right (Nat.le_refl _), Nat.sub_self]
            rfl
          have hsame := huniq e.1 i pre.length ⟨_, hfirst, rfl⟩ ⟨_, hhere, rfl⟩
          omega
      have hfits : PutFits m e.1 := fun index _ _ => by
        rw [hashmapGet_of_represents hset.represents, hnone]
      rw [rehashLoop] at hok ⊢
      have hdone := hput m g e.1 e.2 hset.represents hset.pos hfits
      generalize put m e.1 e.2 = r at hok hdone
      cases r with
      | mk status m' =>
        cases status with
        | omem => cases hok
        | missing => cases hok
        | ok =>
          refine ih huniq (hset.put (hdone rfl) hnone) (fun k v => ?_) hok
          rw [List.mem_append, List.mem_singleton, Option.some_inj]
          by_cases hk : k = e.1
          · subst hk
            rw [Function.update_self, Option.some_inj]
            constructor
            · rintro rfl
              exact .inr rfl
            · rintro (hmem | heq)
              · rw [(hg e.1 v).mpr hmem] at hnone
                cases hnone
              · rw [← heq]
          · rw [Function.update_of_ne hk, hg]
            refine ⟨.inl, fun hmem => hmem.resolve_right ?_⟩
            rintro rfl
            exact hk rfl

/-- **A put that fits and succeeds sets the key in the map**, through all doublings. -/
theorem hashmapPutFuel_done {fuel : Nat} (h : Represents hashWin m.data f)
    (hpos : 0 < m.tableSize) (hfits : PutFits m key)
    (hok : (hashmapPutFuel limit fuel m key value).1 = .ok) :
    PutDone m (hashmapPutFuel limit fuel m key value).2 f key value := by
  induction fuel generalizing m f key value with
  | zero =>
    rw [hashmapPutFuel] at hok ⊢
    cases hh : hashmapHash m key with
    | some index => exact hashmapStore_done h hpos hh hfits
    | none =>
      rw [hh] at hok
      cases hok
  | succ fuel ih =>
    rw [hashmapPutFuel] at hok ⊢
    cases hh : hashmapHash m key with
    | some index => exact hashmapStore_done h hpos hh hfits
    | none =>
      rw [hh] at hok
      dsimp only at hok ⊢
      split at hok
      · cases hok
      · next hmem =>
        rw [if_neg hmem]
        have hloop := rehashLoop_done (fun m f key value h hpos hfits hok => ih h hpos hfits hok)
          (List.nil_append m.data ▸ h.single) (settled_rehashTable hpos) (by simp)
        generalize rehashLoop (hashmapPutFuel limit fuel) m.data (rehashTable m) = r at hok hloop
        cases r with
        | mk status m₁ =>
          cases status with
          | omem => cases hok
          | missing => cases hok
          | ok =>
            obtain ⟨g, hset, hg⟩ := hloop rfl
            -- The new table stands for the map that the old one stood for.
            obtain rfl : g = f := by
              funext k
              refine Option.ext fun v => ?_
              rw [hg, List.nil_append, List.mem_iff_getElem?, h.iff]
            have hdone := ih hset.represents hset.pos (hset.putFits key) hok
            exact ⟨hdone.represents, hdone.pos, fun _ => hdone.packed hset.packed,
              fun hf _ => hdone.size hf hset.size⟩

/-! ## What holds of every table -/

/-- What every run keeps: the elements in use are no more than counted and at most half of the
table, each of them is where its key is looked for, and its key and data satisfy `P`. -/
structure HashmapInv (limit : Nat) (P : Str → V → Prop) (m : HashmapMap V) : Prop where
  doubled : ∃ e, m.tableSize = hashmapInitialSize * 2 ^ e
  bound : m.tableSize ≤ max hashmapInitialSize limit
  load : (entries m.data : Int) ≤ m.size
  half : m.size ≤ (m.tableSize / 2 : Nat)
  sited : Sited hashWin m.data
  source : ∀ e, some e ∈ m.data → P e.1 e.2

variable {P : Str → V → Prop}

theorem HashmapInv.pos (h : HashmapInv limit P m) : 0 < m.tableSize := by
  obtain ⟨e, he⟩ := h.doubled
  rw [he]
  exact Nat.mul_pos (by decide) (Nat.two_pow_pos e)

theorem hashmapInv_new : HashmapInv limit P (hashmapNew : HashmapMap V) where
  doubled := ⟨0, List.length_replicate⟩
  bound := by
    rw [HashmapMap.tableSize, hashmapNew, List.length_replicate]
    exact Nat.le_max_left _ _
  load := by
    rw [hashmapNew, entries_replicate]
    exact Int.le_refl _
  half := Int.natCast_nonneg _
  sited := sited_replicate _
  source e he := by
    rw [hashmapNew] at he
    cases List.eq_of_mem_replicate he

theorem hashmapInv_rehashTable (h : HashmapInv limit P m) (hmem : ¬ limit < 2 * m.tableSize) :
    HashmapInv limit P (rehashTable m) where
  doubled := by
    obtain ⟨e, he⟩ := h.doubled
    refine ⟨e + 1, ?_⟩
    rw [tableSize_rehashTable, he, Nat.pow_succ, Nat.mul_comm 2, Nat.mul_assoc]
  bound := by
    rw [tableSize_rehashTable]
    exact Nat.le_trans (Nat.le_of_not_lt hmem) (Nat.le_max_right _ _)
  load := by
    rw [rehashTable, entries_replicate]
    exact Int.le_refl _
  half := Int.natCast_nonneg _
  sited := sited_replicate _
  source e he := by
    rw [rehashTable] at he
    cases List.eq_of_mem_replicate he

theorem HashmapInv.store (h : HashmapInv limit P m) {index : Nat}
    (hindex : hashmapHash m key = some index) (hP : P key value) :
    HashmapInv limit P (hashmapStore m index key value) := by
  obtain ⟨hroom, hfree⟩ := hashmapHash_some hindex
  obtain ⟨hwin, hend⟩ := freeFor_some hfree
  have hlt : index < m.data.length := lt_of_mem_hashWin h.pos hwin
  have hentries : entries (m.data.set index (some (key, value))) ≤ entries m.data + 1 := by
    rcases hend with hn | hk
    · exact Nat.le_of_eq (entries_set_new ((keyAt_eq_none hlt).mp hn))
    · obtain ⟨v, hv⟩ := keyAt_eq_some.mp hk
      rw [entries_set_old hv]
      exact Nat.le_succ _
  have hload := h.load
  refine ⟨?_, ?_, ?_, ?_, h.sited.set hwin, fun e he => ?_⟩
  · rw [tableSize_hashmapStore]
    exact h.doubled
  · rw [tableSize_hashmapStore]
    exact h.bound
  · rw [hashmapStore]
    dsimp only
    omega
  · rw [tableSize_hashmapStore, hashmapStore]
    dsimp only
    omega
  · rcases List.mem_or_eq_of_mem_set he with hold | heq
    · exact h.source e hold
    · obtain rfl := Option.some.inj heq
      exact hP

theorem HashmapInv.rehashLoop {put : HashmapMap V → Str → V → MapStatus × HashmapMap V}
    (hput : ∀ m key value, HashmapInv limit P m → P key value →
      HashmapInv limit P (put m key value).2) {curr : List (Option (Str × V))}
    (hcurr : ∀ e, some e ∈ curr → P e.1 e.2) (h : HashmapInv limit P m) :
    HashmapInv limit P (rehashLoop put curr m).2 := by
  induction curr generalizing m with
  | nil => exact h
  | cons s curr ih =>
    have htail : ∀ e, some e ∈ curr → P e.1 e.2 := fun e he =>
      hcurr e (List.mem_cons_of_mem s he)
    cases s with
    | none => exact ih htail h
    | some e =>
      have hone := hput m e.1 e.2 h (hcurr e List.mem_cons_self)
      rw [Cfg.rehashLoop]
      generalize put m e.1 e.2 = r at hone
      cases r with
      | mk status m' =>
        cases status with
        | ok => exact ih htail hone
        | omem => exact hone
        | missing => exact hone

/-- **A put keeps the invariant**, also if it runs out of memory on the way. -/
theorem HashmapInv.putFuel {fuel : Nat} (h : HashmapInv limit P m) (hP : P key value) :
    HashmapInv limit P (hashmapPutFuel limit fuel m key value).2 := by
  induction fuel generalizing m key value with
  | zero =>
    rw [hashmapPutFuel]
    cases hh : hashmapHash m key with
    | some index => exact h.store hh hP
    | none => exact h
  | succ fuel ih =>
    rw [hashmapPutFuel]
    cases hh : hashmapHash m key with
    | some index => exact h.store hh hP
    | none =>
      dsimp only
      split
      · exact h
      · next hmem =>
        have hloop := (hashmapInv_rehashTable h hmem).rehashLoop
          (fun m key value h hP => ih h hP) h.source
        generalize Cfg.rehashLoop (hashmapPutFuel limit fuel) m.data (rehashTable m) = r at hloop
        cases r with
        | mk status m₁ =>
          cases status with
          | ok => exact ih hloop hP
          | omem => exact hloop
          | missing => exact hloop

/-- What `hashmap_remove` does. -/
theorem hashmapRemove_cases (m : HashmapMap V) (key : Str) :
    (∃ p, keyAt m.data p = some key ∧ p ∈ hashWin m.data.length key ∧
        hashmapRemove m key = (.ok, ⟨m.data.set p none, m.size - 1⟩)) ∨
      (slotOf m.data key (hashWin m.data.length key) = none ∧
        hashmapRemove m key = (.missing, m)) := by
  rw [hashmapRemove, findLoop_eq]
  cases hs : slotOf m.data key (hashWin m.data.length key) with
  | some p =>
    refine .inl ⟨p, (slotOf_some hs).2, (slotOf_some hs).1, ?_⟩
    rw [hashWin] at hs
    rw [HashmapMap.tableSize, hs]
  | none =>
    refine .inr ⟨rfl, ?_⟩
    rw [hashWin] at hs
    rw [HashmapMap.tableSize, hs]

theorem HashmapInv.remove (h : HashmapInv limit P m) (key : Str) :
    HashmapInv limit P (hashmapRemove m key).2 := by
  rcases hashmapRemove_cases m key with ⟨p, hp, -, heq⟩ | ⟨-, heq⟩
  · obtain ⟨v, hv⟩ := keyAt_eq_some.mp hp
    have hentries := entries_set_none hv
    have hload := h.load
    have hhalf := h.half
    rw [heq]
    refine ⟨?_, ?_, ?_, ?_, h.sited.erase p, fun e he => ?_⟩
    · rw [HashmapMap.tableSize, List.length_set]
      exact h.doubled
    · rw [HashmapMap.tableSize, List.length_set]
      exact h.bound
    · dsimp only
      omega
    · rw [HashmapMap.tableSize, List.length_set]
      exact Int.le_trans (Int.sub_le_self _ (by decide)) hhalf
    · rcases List.mem_or_eq_of_mem_set he with hold | hnone
      · exact h.source e hold
      · cases hnone
  · rw [heq]
    exact h

theorem map_none_eq_replicate (l : List (Option (Str × V))) :
    (l.map fun _ => none) = List.replicate l.length (none : Option (Str × V)) :=
  List.map_const'

theorem HashmapInv.removeAll (h : HashmapInv limit P m) :
    HashmapInv limit P (hashmapRemoveAll m).2 := by
  rw [hashmapRemoveAll, map_none_eq_replicate]
  split
  · exact h
  · have hload := h.load
    have hhalf := h.half
    refine ⟨?_, ?_, ?_, ?_, sited_replicate _, fun e he => ?_⟩
    · rw [HashmapMap.tableSize, List.length_replicate]
      exact h.doubled
    · rw [HashmapMap.tableSize, List.length_replicate]
      exact h.bound
    · dsimp only
      rw [entries_replicate]
      omega
    · rw [HashmapMap.tableSize, List.length_replicate]
      exact Int.le_trans (Int.sub_le_self _ (Int.natCast_nonneg _)) hhalf
    · cases List.eq_of_mem_replicate he

/-- An element in use is found by its key, or another one with that key is. -/
theorem HashmapInv.found (h : HashmapInv limit P m) (hmem : some (key, value) ∈ m.data) :
    (hashmapGet m key).isSome = true := by
  obtain ⟨p, hp⟩ := List.mem_iff_getElem?.mp hmem
  have hwin : p ∈ hashWin m.data.length key := h.sited p (key, value) hp
  rw [hashmapGet_eq]
  cases hs : slotOf m.data key (hashWin m.data.length key) with
  | none => exact absurd (keyAt_eq_some.mpr ⟨value, hp⟩) (slotOf_none hs hwin)
  | some q =>
    obtain ⟨v, hv⟩ := keyAt_eq_some.mp (slotOf_some hs).2
    rw [Option.bind_some, List.getD_eq_getElem?_getD, hv]
    rfl

/-- What is found is in an element. -/
theorem HashmapInv.of_get (h : HashmapInv limit P m) (hget : hashmapGet m key = some value) :
    P key value := by
  rw [hashmapGet_eq] at hget
  obtain ⟨p, hp, hval⟩ := Option.bind_eq_some_iff.mp hget
  obtain ⟨v, hv⟩ := keyAt_eq_some.mp (slotOf_some hp).2
  rw [List.getD_eq_getElem?_getD, hv] at hval
  obtain rfl : v = value := Option.some.inj hval
  exact h.source (key, v) (List.mem_of_getElem? hv)

/-! ## Runs -/

/-- A call that changes the map. -/
inductive HashmapOp (V : Type)
  | put (key : Str) (value : V)
  | remove (key : Str)
  | removeAll
deriving Repr, DecidableEq

/-- The table after a call. -/
def hashmapStep (limit : Nat) (m : HashmapMap V) : HashmapOp V → HashmapMap V
  | .put key value => (hashmapPut limit m key value).2
  | .remove key => (hashmapRemove m key).2
  | .removeAll => (hashmapRemoveAll m).2

/-- What a call is to do to a map. -/
def mapStep (f : Str → Option V) : HashmapOp V → Str → Option V
  | .put key value => Function.update f key (some value)
  | .remove key => Function.update f key none
  | .removeAll => fun _ => none

theorem HashmapInv.step (h : HashmapInv limit P m) {op : HashmapOp V}
    (hop : ∀ key value, op = .put key value → P key value) :
    HashmapInv limit P (hashmapStep limit m op) := by
  cases op with
  | put key value => exact h.putFuel (hop key value rfl)
  | remove key => exact h.remove key
  | removeAll => exact h.removeAll

theorem hashmapInv_run {ops : List (HashmapOp V)} (h : HashmapInv limit P m)
    (hops : ∀ key value, HashmapOp.put key value ∈ ops → P key value) :
    HashmapInv limit P (ops.foldl (hashmapStep limit) m) := by
  induction ops generalizing m with
  | nil => exact h
  | cons op ops ih =>
    refine ih (h.step fun key value heq => ?_) fun key value hmem =>
      hops key value (List.mem_cons_of_mem op hmem)
    exact hops key value (heq ▸ List.mem_cons_self)

/-- **In every run** the table has 256 elements or a double of that, no more than there is memory
for; the elements in use are no more than `hashmap_length` says, which is half of the table at most;
every one of them is found by its key; and what is found for a key was put for it. -/
theorem hashmap_anyRun (limit : Nat) (ops : List (HashmapOp V)) :
    (∃ e, (ops.foldl (hashmapStep limit) hashmapNew).tableSize = hashmapInitialSize * 2 ^ e) ∧
    (ops.foldl (hashmapStep limit) hashmapNew).tableSize ≤ max hashmapInitialSize limit ∧
    (entries (ops.foldl (hashmapStep limit) hashmapNew).data : Int) ≤
      hashmapLength (ops.foldl (hashmapStep limit) hashmapNew) ∧
    hashmapLength (ops.foldl (hashmapStep limit) hashmapNew) ≤
      ((ops.foldl (hashmapStep limit) hashmapNew).tableSize / 2 : Nat) ∧
    (∀ key value, some (key, value) ∈ (ops.foldl (hashmapStep limit) hashmapNew).data →
      (hashmapGet (ops.foldl (hashmapStep limit) hashmapNew) key).isSome = true) ∧
    ∀ key value, hashmapGet (ops.foldl (hashmapStep limit) hashmapNew) key = some value →
      HashmapOp.put key value ∈ ops := by
  have h : HashmapInv limit (fun key value => HashmapOp.put key value ∈ ops)
      (ops.foldl (hashmapStep limit) hashmapNew) :=
    hashmapInv_run hashmapInv_new fun _ _ hmem => hmem
  exact ⟨h.doubled, h.bound, h.load, h.half, fun _ _ => h.found, fun _ _ => h.of_get⟩

/-! ## Runs of puts that fit -/

/-- Every put succeeds and fits. -/
def PutOk (limit : Nat) (m : HashmapMap V) : HashmapOp V → Prop
  | .put key value => (hashmapPut limit m key value).1 = .ok ∧ PutFits m key
  | _ => True

/-- Every put succeeds and is for a key that is not in the table. -/
def FreshOk (limit : Nat) (m : HashmapMap V) : HashmapOp V → Prop
  | .put key value => (hashmapPut limit m key value).1 = .ok ∧ hashmapGet m key = none
  | _ => True

instance (m : HashmapMap V) (key : Str) : Decidable (PutFits m key) :=
  inferInstanceAs (Decidable (∀ index ∈ hashmapHash m key, _))

instance PutOk.decidable (limit : Nat) (m : HashmapMap V) : ∀ op, Decidable (PutOk limit m op)
  | .put _ _ => inferInstanceAs (Decidable (_ ∧ _))
  | .remove _ => isTrue trivial
  | .removeAll => isTrue trivial

instance FreshOk.decidable (limit : Nat) (m : HashmapMap V) : ∀ op, Decidable (FreshOk limit m op)
  | .put _ _ => inferInstanceAs (Decidable (_ ∧ _))
  | .remove _ => isTrue trivial
  | .removeAll => isTrue trivial

theorem FreshOk.putOk {op : HashmapOp V} (h : FreshOk limit m op) : PutOk limit m op := by
  cases op with
  | put key value => exact ⟨h.1, fun _ _ _ => h.2⟩
  | remove key => exact trivial
  | removeAll => exact trivial

theorem not_mem_of_entries_eq_zero {l : List (Option (Str × V))} (h : entries l = 0)
    (e : Str × V) : some e ∉ l := fun hmem =>
  List.countP_eq_zero.mp h (some e) hmem rfl

/-- A call acts on the table as it is to act on the map. -/
theorem represents_step {op : HashmapOp V} (hinv : HashmapInv limit P m)
    (h : Represents hashWin m.data f) (hok : PutOk limit m op) :
    Represents hashWin (hashmapStep limit m op).data (mapStep f op) := by
  cases op with
  | put key value => exact (hashmapPutFuel_done h hinv.pos hok.2 hok.1).represents
  | remove key =>
    rw [hashmapStep, mapStep]
    rcases hashmapRemove_cases m key with ⟨p, hp, -, heq⟩ | ⟨hnone, heq⟩
    · rw [heq]
      exact h.erase hp
    · have hf : f key = none := by rw [← h.lookup, hnone, Option.bind_none]
      rw [heq, Function.update_eq_self_iff.mpr hf.symm]
      exact h
  | removeAll =>
    rw [hashmapStep, mapStep, hashmapRemoveAll]
    split
    · next hzero =>
      have hload := hinv.load
      have hentries : entries m.data = 0 := by
        rw [hashmapLength] at hzero
        omega
      obtain rfl : f = fun _ => none := by
        funext k
        cases hf : f k with
        | none => rfl
        | some v =>
          obtain ⟨p, hp⟩ := (h.iff k v).mpr hf
          exact absurd (List.mem_of_getElem? hp) (not_mem_of_entries_eq_zero hentries (k, v))
      exact h
    · rw [map_none_eq_replicate]
      exact represents_replicate _

theorem represents_run {ops : List (HashmapOp V)} (hinv : HashmapInv limit (fun _ _ => True) m)
    (h : Represents hashWin m.data f)
    (hok : RunOk (hashmapStep limit) (PutOk limit) m ops) :
    Represents hashWin (ops.foldl (hashmapStep limit) m).data (ops.foldl mapStep f) := by
  induction ops generalizing m f with
  | nil => exact h
  | cons op ops ih =>
    exact ih (hinv.step fun _ _ _ => trivial) (represents_step hinv h hok.1) hok.2

/-- **As long as every put fits, the table is the map**: `hashmap_get` finds for every key what the
calls before have put for it and not removed. -/
theorem hashmap_run {ops : List (HashmapOp V)}
    (h : RunOk (hashmapStep limit) (PutOk limit) hashmapNew ops) (key : Str) :
    hashmapGet (ops.foldl (hashmapStep limit) hashmapNew) key =
      ops.foldl mapStep (fun _ => none) key :=
  hashmapGet_of_represents (represents_run hashmapInv_new (represents_replicate _) h) key

theorem hashmap_run_put :
    hashmapGet ([.put ['a'] 1, .put ['b'] 2, .remove ['a'], .put ['b'] 3].foldl
      (hashmapStep 256) hashmapNew) ['b'] = some 3 :=
  (hashmap_run (by decide +kernel) ['b']).trans (by decide +kernel)

/-- The count after a call. -/
theorem size_step {op : HashmapOp V} (hinv : HashmapInv limit P m)
    (h : Represents hashWin m.data f) (hok : FreshOk limit m op)
    (hsize : m.size = entries m.data) :
    (hashmapStep limit m op).size = entries (hashmapStep limit m op).data := by
  cases op with
  | put key value =>
    have hf : f key = none := by
      rw [← hashmapGet_of_represents h]
      exact hok.2
    exact (hashmapPutFuel_done h hinv.pos hok.putOk.2 hok.1).size hf hsize
  | remove key =>
    rw [hashmapStep]
    rcases hashmapRemove_cases m key with ⟨p, hp, -, heq⟩ | ⟨-, heq⟩
    · obtain ⟨v, hv⟩ := keyAt_eq_some.mp hp
      have hentries := entries_set_none hv
      rw [heq]
      dsimp only
      omega
    · rw [heq]
      exact hsize
  | removeAll =>
    rw [hashmapStep, hashmapRemoveAll]
    split
    · exact hsize
    · dsimp only
      rw [map_none_eq_replicate, entries_replicate, hsize, Int.sub_self]
      rfl

theorem size_run {ops : List (HashmapOp V)} (hinv : HashmapInv limit (fun _ _ => True) m)
    (h : Represents hashWin m.data f) (hsize : m.size = entries m.data)
    (hok : RunOk (hashmapStep limit) (FreshOk limit) m ops) :
    Represents hashWin (ops.foldl (hashmapStep limit) m).data (ops.foldl mapStep f) ∧
      (ops.foldl (hashmapStep limit) m).size =
        entries (ops.foldl (hashmapStep limit) m).data := by
  induction ops generalizing m f with
  | nil => exact ⟨h, hsize⟩
  | cons op ops ih =>
    exact ih (hinv.step fun _ _ _ => trivial) (represents_step hinv h hok.1.putOk)
      (size_step hinv h hok.1 hsize) hok.2

/-- **As long as every put is for a new key, `hashmap_length` is the number of keys.** -/
theorem hashmap_run_length {ops : List (HashmapOp V)}
    (h : RunOk (hashmapStep limit) (FreshOk limit) hashmapNew ops) :
    ∃ keys : List Str, keys.Nodup ∧
      (∀ k, k ∈ keys ↔ (ops.foldl mapStep (fun _ => none) k).isSome = true) ∧
      hashmapLength (ops.foldl (hashmapStep limit) hashmapNew) = keys.length := by
  have hnew : (hashmapNew : HashmapMap V).size = entries (hashmapNew : HashmapMap V).data := by
    rw [hashmapNew, entries_replicate]
    rfl
  obtain ⟨hr, hsize⟩ := size_run hashmapInv_new (represents_replicate _) hnew h
  refine ⟨keysOf (ops.foldl (hashmapStep limit) hashmapNew).data, hr.single.nodup_keysOf,
    hr.mem_keysOf, ?_⟩
  rw [hashmapLength, hsize, length_keysOf]

theorem hashmap_run_length_two :
    ∃ keys : List Str, keys.Nodup ∧
      (∀ k, k ∈ keys ↔ ([.put ['a'] 1, .put ['b'] 2, .remove ['a'], .put ['a'] 3].foldl mapStep
        (fun _ => none) k).isSome = true) ∧
      hashmapLength ([.put ['a'] 1, .put ['b'] 2, .remove ['a'], .put ['a'] 3].foldl
        (hashmapStep 256) hashmapNew) = keys.length :=
  hashmap_run_length (by decide +kernel)

/-! ## A put that does not fit -/

theorem hashmapPut_of_hash {index : Nat} (h : hashmapHash m key = some index) :
    hashmapPut limit m key value = (.ok, hashmapStore m index key value) := by
  rw [hashmapPut]
  cases limit - m.tableSize with
  | zero => rw [hashmapPutFuel, h]
  | succ fuel => rw [hashmapPutFuel, h]

/-- **A put into an element that is not in use, before the one with the key**, succeeds and is
found. But removing the key brings back the table from before, and with it the data from before. -/
theorem hashmap_gap (hpos : 0 < m.tableSize) (h : ¬ PutFits m key) :
    (hashmapPut limit m key value).1 = .ok ∧
      hashmapGet (hashmapPut limit m key value).2 key = some value ∧
      hashmapRemove (hashmapPut limit m key value).2 key = (.ok, m) ∧
      hashmapGet m key ≠ none := by
  obtain ⟨index, hindex, hn, hget⟩ : ∃ index, hashmapHash m key = some index ∧
      keyAt m.data index = none ∧ hashmapGet m key ≠ none := by
    by_contra hno
    refine h fun index hindex hn => ?_
    by_contra hget
    exact hno ⟨index, hindex, hn, hget⟩
  obtain ⟨-, hfree⟩ := hashmapHash_some hindex
  have hlt : index < m.data.length := lt_of_mem_hashWin hpos (freeFor_some hfree).1
  have hgetElem : m.data[index] = none :=
    Option.some.inj ((List.getElem?_eq_getElem hlt).symm.trans ((keyAt_eq_none hlt).mp hn))
  rw [hashmapPut_of_hash hindex]
  refine ⟨rfl, hashmapGet_hashmapStore hpos hindex, ?_, hget⟩
  have hfound : findLoop (hashmapStore m index key value) key
      (hashmapHashInt (hashmapStore m index key value).tableSize key) maxChainLength =
      some index := by
    rw [findLoop_eq, tableSize_hashmapStore]
    exact slotOf_set_freeFor hfree hlt
  have hback : (m.data.set index (some (key, value))).set index none = m.data := by
    rw [List.set_set, ← hgetElem, List.set_getElem_self]
  rw [hashmapRemove, hfound]
  dsimp only [hashmapStore]
  rw [hback, Int.add_sub_cancel]

/-- The table after two keys with one hash were put and the first of them was removed. -/
def gapMap : HashmapMap Nat :=
  [.put ['k'] 1, .put ['x'] 2, .remove ['k']].foldl (hashmapStep 256) hashmapNew

theorem hashmap_gap_old :
    hashmapGet (hashmapPut 256 gapMap ['x'] 3).2 ['x'] = some 3 ∧
      hashmapRemove (hashmapPut 256 gapMap ['x'] 3).2 ['x'] = (.ok, gapMap) ∧
      hashmapGet gapMap ['x'] = some 2 :=
  have h := @hashmap_gap Nat 256 gapMap ['x'] 3 (by decide +kernel) (by decide +kernel)
  ⟨h.2.1, h.2.2.1, by decide +kernel⟩

/-- **A put of a table that stands for a map leaves one exactly if it fits.** -/
theorem hashmapPut_represents_iff (h : Represents hashWin m.data f) (hpos : 0 < m.tableSize)
    (hok : (hashmapPut limit m key value).1 = .ok) :
    (∃ g, Represents hashWin (hashmapPut limit m key value).2.data g) ↔ PutFits m key := by
  constructor
  · intro hg
    by_contra hfits
    refine hfits fun index hindex hn => ?_
    rw [hashmapPut_of_hash hindex] at hg
    obtain ⟨-, hfree⟩ := hashmapHash_some hindex
    have hlt : index < m.data.length := lt_of_mem_hashWin hpos (freeFor_some hfree).1
    rw [hashmapGet_of_represents h]
    cases hf : f key with
    | none => rfl
    | some v =>
      obtain ⟨q, hq⟩ := (h.iff key v).mpr hf
      have hkey : keyAt m.data q = some key := keyAt_eq_some.mpr ⟨v, hq⟩
      have hne : q ≠ index := by
        rintro rfl
        rw [hn] at hkey
        cases hkey
      exact absurd hg (not_represents_set hlt hkey hne)
  · intro hfits
    exact ⟨_, (hashmapPutFuel_done h hpos hfits hok).represents⟩

theorem represents_gapMap : Represents hashWin gapMap.data
    ([.put ['k'] 1, .put ['x'] 2, .remove ['k']].foldl mapStep fun _ => none) :=
  @represents_run Nat 256 _ _ _ hashmapInv_new (represents_replicate _) (by decide +kernel)

theorem hashmapPut_represents_gap :
    ¬ ∃ g, Represents hashWin (hashmapPut 256 gapMap ['x'] 3).2.data g := by
  rw [hashmapPut_represents_iff represents_gapMap (by decide +kernel) (by decide +kernel)]
  decide +kernel

end OnuFirmware.Cfg
