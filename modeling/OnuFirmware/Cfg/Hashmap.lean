import OnuFirmware.Lib.Run
import OnuFirmware.Lib.Window
import OnuFirmware.Romfile.Frame

/-!
# The hash map of the cfg library (`hashmap.c`)

An open addressing table of 256 elements or more. A key is in one of the eight elements from its
hash on. `hashmap_put` takes the first of them that is not in use or has the key, and doubles the
table when there is none or when half of the table is counted as used; `hashmap_get` and
`hashmap_remove` go through all eight. Putting a key that is there counts once more, and an element
that is not in use before the one with the key takes the key a second time.

An element in use is `some` of its key and data. Keys are compared by their text; the table keeps
the pointer of the caller, who is not to change the text. `limit` is the greatest number of elements
that `calloc` has memory for.
-/

namespace OnuFirmware.Cfg

open Lib Clib Romfile

/-! ## The table -/

/-- What the functions return; `MAP_FULL` is only returned by `hashmap_hash`. -/
inductive MapStatus
  | ok
  | omem
  | missing
deriving Repr, DecidableEq

def hashmapInitialSize : Nat := 256
def maxChainLength : Nat := 8

/-- `hashmap_map`; `table_size` is the number of elements. -/
structure HashmapMap (V : Type) where
  data : List (Option (Str × V))
  size : Int
deriving Repr, DecidableEq

variable {V : Type}

def HashmapMap.tableSize (m : HashmapMap V) : Nat := m.data.length

/-- `hashmap_new`, if there is memory. -/
def hashmapNew : HashmapMap V := ⟨List.replicate hashmapInitialSize none, 0⟩

/-- `crc32`. The table `crc32_tab` is that of the romfile, but the first value is 0 here. -/
def crc32 (s : Str) : UInt32 := s.foldl (fun crc c => updc32 c.toNat.toUInt8 crc) 0

/-- `hashmap_hash_int`, where `unsigned long` has 32 bits. -/
def hashmapHashInt (tableSize : Nat) (keystring : Str) : Nat :=
  let key := crc32 keystring
  let key := key + (key <<< 12)
  let key := key ^^^ (key >>> 22)
  let key := key + (key <<< 4)
  let key := key ^^^ (key >>> 9)
  let key := key + (key <<< 10)
  let key := key ^^^ (key >>> 2)
  let key := key + (key <<< 7)
  let key := key ^^^ (key >>> 12)
  let key := (key >>> 3) * 2654435761
  key.toNat % tableSize

/-- The loop of `hashmap_hash`. -/
def hashLoop (m : HashmapMap V) (key : Str) : Nat → Nat → Option Nat
  | _, 0 => none
  | curr, i + 1 =>
    match m.data.getD curr none with
    | none => some curr
    | some e => if e.1 = key then some curr else hashLoop m key ((curr + 1) % m.tableSize) i

/-- `hashmap_hash`, with `none` for `MAP_FULL`. -/
def hashmapHash (m : HashmapMap V) (key : Str) : Option Nat :=
  if ((m.tableSize / 2 : Nat) : Int) ≤ m.size then none
  else hashLoop m key (hashmapHashInt m.tableSize key) maxChainLength

/-- The end of `hashmap_put`. -/
def hashmapStore (m : HashmapMap V) (index : Nat) (key : Str) (value : V) : HashmapMap V :=
  ⟨m.data.set index (some (key, value)), m.size + 1⟩

/-- The loop of `hashmap_rehash` over the elements before, with the function that puts one. -/
def rehashLoop (put : HashmapMap V → Str → V → MapStatus × HashmapMap V) :
    List (Option (Str × V)) → HashmapMap V → MapStatus × HashmapMap V
  | [], m => (.ok, m)
  | none :: curr, m => rehashLoop put curr m
  | some e :: curr, m =>
    match put m e.1 e.2 with
    | (.ok, m) => rehashLoop put curr m
    | (status, m) => (status, m)

/-- The table that `hashmap_rehash` allocates. -/
def rehashTable (m : HashmapMap V) : HashmapMap V := ⟨List.replicate (2 * m.tableSize) none, 0⟩

/-- `hashmap_put`, as long as the table is doubled no more often than `fuel` says. -/
def hashmapPutFuel (limit : Nat) : Nat → HashmapMap V → Str → V → MapStatus × HashmapMap V
  | 0, m, key, value =>
    match hashmapHash m key with
    | some index => (.ok, hashmapStore m index key value)
    | none => (.omem, m)
  | fuel + 1, m, key, value =>
    match hashmapHash m key with
    | some index => (.ok, hashmapStore m index key value)
    | none =>
      if limit < 2 * m.tableSize then (.omem, m)
      else
        match rehashLoop (hashmapPutFuel limit fuel) m.data (rehashTable m) with
        | (.ok, m) => hashmapPutFuel limit fuel m key value
        | (status, m) => (status, m)

/-- `hashmap_put`. A table of `n` elements is doubled less often than `limit - n` times. -/
def hashmapPut (limit : Nat) (m : HashmapMap V) (key : Str) (value : V) :
    MapStatus × HashmapMap V :=
  hashmapPutFuel limit (limit - m.tableSize) m key value

/-- `hashmap_rehash`. -/
def hashmapRehash (limit : Nat) (m : HashmapMap V) : MapStatus × HashmapMap V :=
  if limit < 2 * m.tableSize then (.omem, m)
  else rehashLoop (hashmapPut limit) m.data (rehashTable m)

/-- The loop of `hashmap_get` and `hashmap_remove`. -/
def findLoop (m : HashmapMap V) (key : Str) : Nat → Nat → Option Nat
  | _, 0 => none
  | curr, i + 1 =>
    match m.data.getD curr none with
    | none => findLoop m key ((curr + 1) % m.tableSize) i
    | some e => if e.1 = key then some curr else findLoop m key ((curr + 1) % m.tableSize) i

/-- `hashmap_get`: `*arg`, or `none` for `MAP_MISSING`. -/
def hashmapGet (m : HashmapMap V) (key : Str) : Option V :=
  (findLoop m key (hashmapHashInt m.tableSize key) maxChainLength).bind fun curr =>
    (m.data.getD curr none).map Prod.snd

/-- `hashmap_remove`. -/
def hashmapRemove (m : HashmapMap V) (key : Str) : MapStatus × HashmapMap V :=
  match findLoop m key (hashmapHashInt m.tableSize key) maxChainLength with
  | some curr => (.ok, ⟨m.data.set curr none, m.size - 1⟩)
  | none => (.missing, m)

/-- `hashmap_length`. -/
def hashmapLength (m : HashmapMap V) : Int := m.size

/-- `hashmap_remove_all`: every element that is in use counts down. -/
def hashmapRemoveAll (m : HashmapMap V) : MapStatus × HashmapMap V :=
  if hashmapLength m ≤ 0 then (.missing, m)
  else (.ok, ⟨m.data.map fun _ => none, m.size - entries m.data⟩)

/-! ## The loops are searches in the window of a key -/

/-- The elements in which a key may be. -/
def hashWin (tableSize : Nat) (key : Str) : List Nat :=
  probes tableSize (hashmapHashInt tableSize key) maxChainLength

theorem hashmapHashInt_lt {tableSize : Nat} (h : 0 < tableSize) (key : Str) :
    hashmapHashInt tableSize key < tableSize := Nat.mod_lt _ h

theorem lt_of_mem_hashWin {tableSize p : Nat} {key : Str} (h : 0 < tableSize)
    (hp : p ∈ hashWin tableSize key) : p < tableSize :=
  lt_of_mem_probes (hashmapHashInt_lt h key) hp

theorem hashLoop_eq (m : HashmapMap V) (key : Str) (curr i : Nat) :
    hashLoop m key curr i = freeFor m.data key (probes m.tableSize curr i) := by
  induction i generalizing curr with
  | zero => rfl
  | succ i ih =>
    rw [hashLoop, probes, freeFor, List.find?_cons]
    cases hs : m.data.getD curr none with
    | none =>
      have hkey : keyAt m.data curr = none := by rw [keyAt, hs, Option.map_none]
      rw [decide_eq_true (.inl hkey)]
    | some e =>
      have hkey : keyAt m.data curr = some e.1 := by rw [keyAt, hs, Option.map_some]
      by_cases he : e.1 = key
      · rw [decide_eq_true (.inr (hkey.trans (congrArg some he)))]
        exact if_pos he
      · rw [decide_eq_false (by rw [hkey]; simpa using he)]
        exact (if_neg he).trans (ih _)

theorem findLoop_eq (m : HashmapMap V) (key : Str) (curr i : Nat) :
    findLoop m key curr i = slotOf m.data key (probes m.tableSize curr i) := by
  induction i generalizing curr with
  | zero => rfl
  | succ i ih =>
    rw [findLoop, probes, slotOf, List.find?_cons]
    cases hs : m.data.getD curr none with
    | none =>
      have hkey : keyAt m.data curr = none := by rw [keyAt, hs, Option.map_none]
      rw [decide_eq_false (by rw [hkey]; exact (Option.some_ne_none key).symm)]
      exact ih _
    | some e =>
      have hkey : keyAt m.data curr = some e.1 := by rw [keyAt, hs, Option.map_some]
      by_cases he : e.1 = key
      · rw [decide_eq_true (hkey.trans (congrArg some he))]
        exact if_pos he
      · rw [decide_eq_false (by rw [hkey]; simpa using he)]
        exact (if_neg he).trans (ih _)

/-- What `hashmap_hash` finds. -/
theorem hashmapHash_some {m : HashmapMap V} {key : Str} {index : Nat}
    (h : hashmapHash m key = some index) :
    m.size < (m.tableSize / 2 : Nat) ∧
      freeFor m.data key (hashWin m.data.length key) = some index := by
  rw [hashmapHash] at h
  split at h
  · cases h
  · rw [hashLoop_eq] at h
    exact ⟨by omega, h⟩

theorem hashmapGet_eq (m : HashmapMap V) (key : Str) :
    hashmapGet m key = (slotOf m.data key (hashWin m.data.length key)).bind fun p =>
      (m.data.getD p none).map Prod.snd := by
  rw [hashmapGet, findLoop_eq]
  rfl

variable {limit : Nat} {m : HashmapMap V} {key : Str} {value : V}

/-! ## Doubling ends -/

theorem tableSize_hashmapStore (m : HashmapMap V) (index : Nat) (key : Str) (value : V) :
    (hashmapStore m index key value).tableSize = m.tableSize := List.length_set

theorem tableSize_rehashTable (m : HashmapMap V) :
    (rehashTable m).tableSize = 2 * m.tableSize := List.length_replicate

theorem le_tableSize_rehashLoop {put : HashmapMap V → Str → V → MapStatus × HashmapMap V}
    (hput : ∀ m key value, m.tableSize ≤ (put m key value).2.tableSize)
    (curr : List (Option (Str × V))) (m : HashmapMap V) :
    m.tableSize ≤ (rehashLoop put curr m).2.tableSize := by
  induction curr generalizing m with
  | nil => exact Nat.le_refl _
  | cons s curr ih =>
    cases s with
    | none => exact ih m
    | some e =>
      have hone := hput m e.1 e.2
      rw [rehashLoop]
      generalize put m e.1 e.2 = r at hone
      cases r with
      | mk status m' =>
        cases status with
        | ok => exact Nat.le_trans hone (ih m')
        | omem => exact hone
        | missing => exact hone

/-- The table does not get smaller. -/
theorem le_tableSize_putFuel (limit fuel : Nat) (m : HashmapMap V) (key : Str) (value : V) :
    m.tableSize ≤ (hashmapPutFuel limit fuel m key value).2.tableSize := by
  induction fuel generalizing m key value with
  | zero =>
    rw [hashmapPutFuel]
    cases hashmapHash m key with
    | some index => exact Nat.le_of_eq (tableSize_hashmapStore m index key value).symm
    | none => exact Nat.le_refl _
  | succ fuel ih =>
    rw [hashmapPutFuel]
    cases hashmapHash m key with
    | some index => exact Nat.le_of_eq (tableSize_hashmapStore m index key value).symm
    | none =>
      dsimp only
      split
      · exact Nat.le_refl _
      · have hloop := le_tableSize_rehashLoop (fun m key value => ih m key value) m.data
          (rehashTable m)
        rw [tableSize_rehashTable] at hloop
        generalize rehashLoop (hashmapPutFuel limit fuel) m.data (rehashTable m) = r at hloop
        cases r with
        | mk status m' =>
          cases status with
          | ok => exact Nat.le_trans (Nat.le_trans (by omega) hloop) (ih m' key value)
          | omem => exact Nat.le_trans (by omega) hloop
          | missing => exact Nat.le_trans (by omega) hloop

theorem rehashLoop_congr {put put' : HashmapMap V → Str → V → MapStatus × HashmapMap V} {n : Nat}
    (hle : ∀ m key value, m.tableSize ≤ (put m key value).2.tableSize)
    (hput : ∀ m key value, n ≤ m.tableSize → put m key value = put' m key value)
    (curr : List (Option (Str × V))) (m : HashmapMap V) (hm : n ≤ m.tableSize) :
    rehashLoop put curr m = rehashLoop put' curr m := by
  induction curr generalizing m with
  | nil => rfl
  | cons s curr ih =>
    cases s with
    | none => exact ih m hm
    | some e =>
      have hone := hle m e.1 e.2
      rw [rehashLoop, rehashLoop, ← hput m e.1 e.2 hm]
      generalize put m e.1 e.2 = r at hone
      cases r with
      | mk status m' =>
        cases status with
        | ok => exact ih m' (Nat.le_trans hm hone)
        | omem => rfl
        | missing => rfl

/-- **Any fuel that allows the doublings there is memory for gives the same.** -/
theorem hashmapPutFuel_eq {fuel fuel' : Nat} (hpos : 0 < m.tableSize)
    (h : limit - m.tableSize ≤ fuel) (h' : limit - m.tableSize ≤ fuel') :
    hashmapPutFuel limit fuel m key value = hashmapPutFuel limit fuel' m key value := by
  induction fuel generalizing fuel' m key value with
  | zero =>
    cases fuel' with
    | zero => rfl
    | succ fuel' =>
      rw [hashmapPutFuel, hashmapPutFuel]
      cases hashmapHash m key with
      | some index => rfl
      | none =>
        dsimp only
        rw [if_pos (by omega)]
  | succ fuel ih =>
    cases fuel' with
    | zero =>
      rw [hashmapPutFuel, hashmapPutFuel]
      cases hashmapHash m key with
      | some index => rfl
      | none =>
        dsimp only
        rw [if_pos (by omega)]
    | succ fuel' =>
      rw [hashmapPutFuel, hashmapPutFuel]
      cases hashmapHash m key with
      | some index => rfl
      | none =>
        dsimp only
        split
        · rfl
        · have hbig : 2 * m.tableSize ≤ (rehashTable m).tableSize :=
            Nat.le_of_eq (tableSize_rehashTable m).symm
          have hsame : ∀ (m₁ : HashmapMap V) key value, 2 * m.tableSize ≤ m₁.tableSize →
              hashmapPutFuel limit fuel m₁ key value = hashmapPutFuel limit fuel' m₁ key value :=
            fun m₁ key value hm₁ => ih (by omega) (by omega) (by omega)
          have hloop := rehashLoop_congr (fun m key value => le_tableSize_putFuel limit fuel m key value)
            hsame m.data (rehashTable m) hbig
          have hle := le_tableSize_rehashLoop
            (fun m key value => le_tableSize_putFuel limit fuel m key value) m.data
            (rehashTable m)
          rw [← hloop]
          generalize rehashLoop (hashmapPutFuel limit fuel) m.data (rehashTable m) = r at hle
          cases r with
          | mk status m' =>
            cases status with
            | ok => exact hsame m' key value (Nat.le_trans hbig hle)
            | omem => rfl
            | missing => rfl

/-- **`hashmap_put` as the source has it**: until there is an element, the table is doubled. -/
theorem hashmapPut_eq (hpos : 0 < m.tableSize) : hashmapPut limit m key value =
    match hashmapHash m key with
    | some index => (.ok, hashmapStore m index key value)
    | none =>
      match hashmapRehash limit m with
      | (.ok, m) => hashmapPut limit m key value
      | (status, m) => (status, m) := by
  rw [hashmapPut, hashmapRehash]
  cases hfuel : limit - m.tableSize with
  | zero =>
    rw [hashmapPutFuel, if_pos (by omega)]
  | succ fuel =>
    rw [hashmapPutFuel]
    cases hashmapHash m key with
    | some index => rfl
    | none =>
      dsimp only
      split
      · rfl
      · have hbig : 2 * m.tableSize ≤ (rehashTable m).tableSize :=
            Nat.le_of_eq (tableSize_rehashTable m).symm
        have hsame : ∀ (m₁ : HashmapMap V) key value, 2 * m.tableSize ≤ m₁.tableSize →
            hashmapPutFuel limit fuel m₁ key value = hashmapPut limit m₁ key value :=
          fun m₁ key value hm₁ => hashmapPutFuel_eq (by omega) (by omega) (Nat.le_refl _)
        have hle := le_tableSize_rehashLoop
          (fun m key value => le_tableSize_putFuel limit fuel m key value) m.data
          (rehashTable m)
        rw [← rehashLoop_congr (fun m key value => le_tableSize_putFuel limit fuel m key value)
          hsame m.data (rehashTable m) hbig]
        generalize rehashLoop (hashmapPutFuel limit fuel) m.data (rehashTable m) = r at hle
        cases r with
        | mk status m' =>
          cases status with
          | ok => exact hsame m' key value (Nat.le_trans hbig hle)
          | omem => rfl
          | missing => rfl

end OnuFirmware.Cfg
