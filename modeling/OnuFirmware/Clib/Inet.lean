import OnuFirmware.Clib.Hex
import OnuFirmware.Lib.Bytes

/-!
# `inet_pton` and `inet_ntop`

An address is a string of bytes in network order, four for `AF_INET` and sixteen for `AF_INET6`. The
text of an IPv4 address is four decimal numbers with dots between them. The text of an IPv6 address
is up to eight groups of hexadecimal digits with colons between them, where `::` stands for one or
more groups of zeros and an IPv4 address may stand for the last two groups.
-/

namespace OnuFirmware.Clib

open Lib

/-- An address of `n` bytes in network order. -/
abbrev InAddr (n : Nat) := { l : List UInt8 // l.length = n }

/-- The bytes as an address, if there are `n` of them. -/
def toAddr (n : Nat) (l : List UInt8) : Option (InAddr n) :=
  if h : l.length = n then some ⟨l, h⟩ else none

/-! ## `AF_INET` -/

/-- One of the numbers: up to three decimal digits with a value of at most 255. -/
def ptonOctet (s : Str) : Option UInt8 :=
  if s ≠ [] ∧ s.length ≤ 3 ∧ s.all isDigit = true ∧ digitsVal 0 s ≤ 255 then
    some (UInt8.ofNat (digitsVal 0 s))
  else none

/-- The bytes of an IPv4 text. -/
def pton4 (s : Str) : Option (List UInt8) := (s.splitOn '.').mapM ptonOctet

/-- `inet_pton(AF_INET, s, addr)`. -/
def inetPton4 (s : Str) : Option (InAddr 4) := (pton4 s).bind (toAddr 4)

/-- `inet_ntop(AF_INET, l, ..)`. -/
def inetNtop4 (l : List UInt8) : Str := ['.'].intercalate (l.map fun b => fmtNat b.toNat)

/-! ## `AF_INET6` -/

/-- The two bytes of a word. -/
def wordBytes (w : Nat) : List UInt8 := [UInt8.ofNat (w / 256), UInt8.ofNat w]

/-- A group: up to four hexadecimal digits. -/
def ptonGroup (s : Str) : Option (List UInt8) :=
  if s ≠ [] ∧ s.length ≤ 4 ∧ s.all (fun c => (hexVal c).isSome) = true then
    some (wordBytes (hexDigitsVal 0 s))
  else none

/-- The last group of the text may be an IPv4 address. -/
def ptonLast (s : Str) : Option (List UInt8) :=
  if '.' ∈ s then (inetPton4 s).map Subtype.val else ptonGroup s

/-- The bytes of a text without `::`. -/
def ptonGroups (last : Str → Option (List UInt8)) : List Str → Option (List UInt8)
  | [] => some []
  | [s] => last s
  | s :: t => do
    let x ← ptonGroup s
    let y ← ptonGroups last t
    pure (x ++ y)

/-- The groups on one side of `::`, where there may be none. -/
def ptonSide (last : Str → Option (List UInt8)) (s : Str) : Option (List UInt8) :=
  if s = [] then some [] else ptonGroups last (s.splitOn ':')

/-- The text before and behind the first `::`. -/
def cutGap : Str → Option (Str × Str)
  | ':' :: ':' :: s => some ([], s)
  | c :: s => (cutGap s).map fun p => (c :: p.1, p.2)
  | [] => none

/-- `inet_pton(AF_INET6, s, addr)`. -/
def inetPton6 (s : Str) : Option (InAddr 16) :=
  match cutGap s with
  | none => (ptonGroups ptonLast (s.splitOn ':')).bind (toAddr 16)
  | some (a, b) => do
    let x ← ptonSide ptonGroup a
    let y ← ptonSide ptonLast b
    if x.length + y.length ≤ 14 then
      toAddr 16 (x ++ List.replicate (16 - (x.length + y.length)) 0 ++ y)
    else none

/-- The eight words of an address. -/
def wordsOf : List UInt8 → List Nat
  | x :: y :: l => (x.toNat * 256 + y.toNat) :: wordsOf l
  | _ => []

/-- The zero words from each position on. -/
def zeroRuns (ws : List Nat) : List (Nat × Nat) :=
  (List.range ws.length).map fun i => (i, ((ws.drop i).takeWhile (· == 0)).length)

/-- The longest run of two or more zero words, the first one of several. -/
def bestRun (ws : List Nat) : Option (Nat × Nat) :=
  let best := (zeroRuns ws).foldl (fun best run => if best.2 < run.2 then run else best) (0, 0)
  if 2 ≤ best.2 then some best else none

/-- Groups with colons between them. -/
def joinGroups (ws : List Nat) : Str := [':'].intercalate (ws.map fmtHex)

/-- `inet_ntop(AF_INET6, addr, ..)`. -/
def inetNtop6 (a : InAddr 16) : Str :=
  match bestRun (wordsOf a.val) with
  | none => joinGroups (wordsOf a.val)
  | some (base, len) =>
    let quad := inetNtop4 (a.val.drop 12)
    if base = 0 ∧ len = 6 then "::".toList ++ quad
    else if base = 0 ∧ len = 5 ∧ (wordsOf a.val)[5]? = some 0xffff then "::ffff:".toList ++ quad
    else joinGroups ((wordsOf a.val).take base) ++ "::".toList ++
      joinGroups ((wordsOf a.val).drop (base + len))

/-! ## Reading the fields -/

theorem mem_intercalate {α : Type*} {x c : α} : ∀ {ls : List (List α)},
    c ∈ [x].intercalate ls → c = x ∨ ∃ l ∈ ls, c ∈ l
  | [], h => by simp at h
  | [l], h => .inr ⟨l, by simp, by simpa using h⟩
  | l :: l' :: ls, h => by
    rw [List.intercalate_cons_cons, List.append_assoc, List.mem_append, List.mem_append,
      List.mem_singleton] at h
    rcases h with hl | rfl | ht
    · exact .inr ⟨l, by simp, hl⟩
    · exact .inl rfl
    · refine (mem_intercalate ht).imp id fun ⟨k, hk, hc⟩ => ⟨k, List.mem_cons_of_mem l hk, hc⟩

/-- Fields of at most `k` characters. -/
theorem length_intercalate_le {α : Type*} {x : α} {k : Nat} : ∀ {ls : List (List α)}, ls ≠ [] →
    (∀ l ∈ ls, l.length ≤ k) → ([x].intercalate ls).length + 1 ≤ (k + 1) * ls.length
  | [], hne, _ => absurd rfl hne
  | [l], _, h => by
    have hl := h l (by simp)
    simp
    omega
  | l :: l' :: ls, _, h => by
    have hl := h l (by simp)
    have ih := @length_intercalate_le α x k (l' :: ls) (by simp)
      fun m hm => h m (List.mem_cons_of_mem l hm)
    rw [List.intercalate_cons_cons, List.append_assoc, List.length_append, List.length_append,
      List.length_singleton, List.length_cons (a := l), Nat.mul_add, Nat.mul_one]
    omega

theorem mapM_eq_some {α β : Type*} {f : α → Option β} : ∀ {l : List α} {r : List β},
    l.mapM f = some r → r.length = l.length ∧ ∀ a ∈ l, ∃ b, f a = some b
  | [], r, h => by
    obtain rfl : [] = r := by simpa using h
    simp
  | a :: l, r, h => by
    rw [List.mapM_cons] at h
    simp only [Option.bind_eq_bind, Option.bind_eq_some_iff, Option.pure_def,
      Option.some.injEq] at h
    obtain ⟨b, hb, t, ht, rfl⟩ := h
    obtain ⟨hlen, hall⟩ := mapM_eq_some ht
    refine ⟨by simp [hlen], fun c hc => ?_⟩
    rcases List.mem_cons.mp hc with rfl | hc
    · exact ⟨b, hb⟩
    · exact hall c hc

/-! ## What is in the text of an address -/

theorem ptonOctet_some {s : Str} {b : UInt8} (h : ptonOctet s = some b) :
    s.length ≤ 3 ∧ ∀ c ∈ s, isDigit c = true := by
  rw [ptonOctet] at h
  split at h
  · next hs => exact ⟨hs.2.1, List.all_eq_true.mp hs.2.2.1⟩
  · exact absurd h (by simp)

theorem toAddr_some {n : Nat} {l : List UInt8} {x : InAddr n} (h : toAddr n l = some x) :
    x.val = l := by
  rw [toAddr] at h
  split at h
  · rw [← Option.some.inj h]
  · exact absurd h (by simp)

theorem toAddr_of_length {n : Nat} {l : List UInt8} (h : l.length = n) :
    toAddr n l = some ⟨l, h⟩ := dif_pos h

/-- The text of an IPv4 address has at most 15 characters, which are digits and dots. -/
theorem inetPton4_some {s : Str} {x : InAddr 4} (h : inetPton4 s = some x) :
    s.length ≤ 15 ∧ ∀ c ∈ s, isDigit c = true ∨ c = '.' := by
  obtain ⟨l, hl, hx⟩ := Option.bind_eq_some_iff.mp h
  obtain ⟨hlen, hall⟩ := mapM_eq_some hl
  have hfields : (s.splitOn '.').length = 4 := by
    rw [← hlen, ← toAddr_some hx, x.property]
  constructor
  · have hle := @length_intercalate_le _ '.' 3 _ (List.splitOn_ne_nil '.' s) fun f hf => by
      obtain ⟨b, hb⟩ := hall f hf
      exact (ptonOctet_some hb).1
    rw [List.intercalate_splitOn, hfields] at hle
    omega
  · intro c hc
    have hs : ['.'].intercalate (s.splitOn '.') = s := List.intercalate_splitOn '.'
    rw [← hs] at hc
    rcases mem_intercalate hc with rfl | ⟨f, hf, hcf⟩
    · exact .inr rfl
    · obtain ⟨b, hb⟩ := hall f hf
      exact .inl ((ptonOctet_some hb).2 c hcf)

/-- The characters of IPv6 texts. -/
def isAddrChar (c : Char) : Bool := (hexVal c).isSome || c = '.' || c = ':'

theorem hexVal_of_isDigit {c : Char} (h : isDigit c = true) : (hexVal c).isSome = true := by
  rw [hexVal, if_pos h]
  rfl

theorem ptonGroup_some {s : Str} {l : List UInt8} (h : ptonGroup s = some l) :
    s.length ≤ 4 ∧ l.length = 2 ∧ ∀ c ∈ s, isAddrChar c = true := by
  rw [ptonGroup] at h
  split at h
  · next hs =>
    rw [← Option.some.inj h]
    refine ⟨hs.2.1, rfl, fun c hc => ?_⟩
    rw [isAddrChar, List.all_eq_true.mp hs.2.2 c hc]
    rfl
  · exact absurd h (by simp)

/-- How the length of the text of some groups is bounded by the number of bytes. -/
structure GroupText (s : Str) (l : List UInt8) : Prop where
  length : s.length ≤ 3 * l.length + 3
  chars : ∀ c ∈ s, isAddrChar c = true

theorem ptonGroup_text {s : Str} {l : List UInt8} (h : ptonGroup s = some l) : GroupText s l := by
  obtain ⟨hs, hl, hc⟩ := ptonGroup_some h
  exact ⟨by omega, hc⟩

theorem ptonLast_text {s : Str} {l : List UInt8} (h : ptonLast s = some l) : GroupText s l := by
  rw [ptonLast] at h
  split at h
  · obtain ⟨x, hx, rfl⟩ := Option.map_eq_some_iff.mp h
    obtain ⟨hlen, hc⟩ := inetPton4_some hx
    refine ⟨?_, fun c hcs => ?_⟩
    · rw [x.property]
      omega
    · rw [isAddrChar]
      rcases hc c hcs with hd | rfl
      · rw [hexVal_of_isDigit hd]
        rfl
      · rfl
  · exact ptonGroup_text h

theorem ptonGroups_text {last : Str → Option (List UInt8)}
    (hlast : ∀ s l, last s = some l → GroupText s l) : ∀ {fs : List Str} {l : List UInt8},
    ptonGroups last fs = some l → GroupText ([':'].intercalate fs) l
  | [], l, _ => ⟨by simp, by simp⟩
  | [s], l, h => by
    rw [List.intercalate_singleton]
    exact hlast s l h
  | s :: s' :: fs, l, h => by
    rw [ptonGroups] at h
    · simp only [Option.bind_eq_bind, Option.bind_eq_some_iff, Option.pure_def,
        Option.some.injEq] at h
      obtain ⟨x, hx, y, hy, rfl⟩ := h
      obtain ⟨hs, hx2, hc⟩ := ptonGroup_some hx
      have ih := ptonGroups_text hlast hy
      have hlen := ih.length
      rw [List.intercalate_cons_cons]
      refine ⟨?_, fun c hmem => ?_⟩
      · simp only [List.length_append, List.length_singleton]
        omega
      · rw [List.append_assoc, List.mem_append, List.mem_append, List.mem_singleton] at hmem
        rcases hmem with hl | rfl | ht
        · exact hc c hl
        · rfl
        · exact ih.chars c ht
    · simp

theorem ptonSide_text {last : Str → Option (List UInt8)}
    (hlast : ∀ s l, last s = some l → GroupText s l) {s : Str} {l : List UInt8}
    (h : ptonSide last s = some l) : GroupText s l := by
  rw [ptonSide] at h
  split at h
  · next hs => exact ⟨by simp [hs], by simp [hs]⟩
  · have := ptonGroups_text hlast h
    rwa [List.intercalate_splitOn] at this

theorem cutGap_some : ∀ {s a b : Str}, cutGap s = some (a, b) → s = a ++ "::".toList ++ b
  | [], a, b, h => by simp [cutGap] at h
  | c :: s, a, b, h => by
    unfold cutGap at h
    split at h
    · next heq =>
      obtain ⟨rfl, rfl⟩ := Prod.mk.inj (Option.some.inj h)
      exact heq
    · next heq =>
      obtain ⟨rfl, rfl⟩ := List.cons.inj heq
      obtain ⟨⟨a', b'⟩, hp, hab⟩ := Option.map_eq_some_iff.mp h
      obtain ⟨rfl, rfl⟩ := Prod.mk.inj hab
      rw [cutGap_some hp]
      rfl
    · next heq => exact absurd heq (by simp)

/-- The text of an IPv6 address has at most 51 characters, which are digits, dots and colons. -/
theorem inetPton6_some {s : Str} {x : InAddr 16} (h : inetPton6 s = some x) :
    s.length ≤ 51 ∧ ∀ c ∈ s, isAddrChar c = true := by
  rw [inetPton6] at h
  split at h
  · obtain ⟨l, hl, hx⟩ := Option.bind_eq_some_iff.mp h
    have ht := ptonGroups_text (fun _ _ => ptonLast_text) hl
    rw [List.intercalate_splitOn] at ht
    have hlen := ht.length
    rw [← toAddr_some hx, x.property] at hlen
    exact ⟨hlen, ht.chars⟩
  · next a b hcut =>
    simp only [Option.bind_eq_bind, Option.bind_eq_some_iff] at h
    obtain ⟨l, hl, r, hr, h⟩ := h
    split at h
    · next hle =>
      have ha := ptonSide_text (fun _ _ => ptonGroup_text) hl
      have hb := ptonSide_text (fun _ _ => ptonLast_text) hr
      have hla := ha.length
      have hlb := hb.length
      rw [cutGap_some hcut]
      refine ⟨?_, fun c hc => ?_⟩
      · simp only [List.length_append, String.reduceToList, List.length_cons, List.length_nil]
        omega
      · rw [List.mem_append, List.mem_append] at hc
        rcases hc with (hc | hc) | hc
        · exact ha.chars c hc
        · have hcolon : c = ':' := by simpa using hc
          rw [hcolon]
          rfl
        · exact hb.chars c hc
    · exact absurd h (by simp)

/-! ## Reading a printed address -/

theorem mapM_map_some {α β γ : Type*} {f : β → Option γ} {g : α → β} {k : α → γ} :
    ∀ {l : List α}, (∀ a ∈ l, f (g a) = some (k a)) → (l.map g).mapM f = some (l.map k)
  | [], _ => rfl
  | a :: l, h => by
    rw [List.map_cons, List.mapM_cons, h a (by simp),
      mapM_map_some fun b hb => h b (List.mem_cons_of_mem a hb)]
    rfl

theorem ptonOctet_fmtNat (b : UInt8) : ptonOctet (fmtNat b.toNat) = some b := by
  have hb : b.toNat < 256 := b.toNat_lt
  have hlen : (fmtNat b.toNat).length ≤ 3 := (length_fmtNat_le (by decide)).mpr (by omega)
  have hdig : (fmtNat b.toNat).all isDigit = true :=
    List.all_eq_true.mpr fun c hc => isDigit_of_mem_fmtNat hc
  rw [ptonOctet, digitsVal_fmtNat, if_pos ⟨fmtNat_ne_nil _, hlen, hdig, by omega⟩,
    UInt8.ofNat_toNat]

theorem dot_notMem_fmtNat (n : Nat) : '.' ∉ fmtNat n := fun h =>
  absurd (isDigit_of_mem_fmtNat h) (by decide)

theorem pton4_inetNtop4 {l : List UInt8} (hl : l ≠ []) : pton4 (inetNtop4 l) = some l := by
  have hsplit : (inetNtop4 l).splitOn '.' = l.map fun b => fmtNat b.toNat := by
    refine List.splitOn_intercalate '.' (fun f hf => ?_) (by simpa using hl)
    obtain ⟨b, -, rfl⟩ := List.mem_map.mp hf
    exact dot_notMem_fmtNat _
  rw [pton4, hsplit, mapM_map_some fun b _ => ptonOctet_fmtNat b, List.map_id']

/-- **An IPv4 address is read back.** -/
theorem inetPton4_inetNtop4 (x : InAddr 4) : inetPton4 (inetNtop4 x.val) = some x := by
  have hne : x.val ≠ [] := by
    intro h
    have := x.property
    simp [h] at this
  rw [inetPton4, pton4_inetNtop4 hne, Option.bind_some, toAddr_of_length x.property]

theorem dot_mem_inetNtop4 (x : InAddr 4) : '.' ∈ inetNtop4 x.val := by
  obtain ⟨l, hl⟩ := x
  rcases l with _ | ⟨a, _ | ⟨b, l⟩⟩
  · simp at hl
  · simp at hl
  · simp [inetNtop4]

theorem colon_notMem_inetNtop4 (x : InAddr 4) : ':' ∉ inetNtop4 x.val := fun h => by
  rcases (inetPton4_some (inetPton4_inetNtop4 x)).2 _ h with hd | hd
  · exact absurd hd (by decide)
  · exact absurd hd (by decide)

/-! ### Groups -/

theorem length_wordsOf : ∀ l : List UInt8, (wordsOf l).length = l.length / 2
  | [] => rfl
  | [_] => by simp [wordsOf]
  | x :: y :: l => by
    rw [wordsOf, List.length_cons, length_wordsOf l, List.length_cons, List.length_cons]
    omega

theorem wordsOf_lt : ∀ {l : List UInt8}, ∀ w ∈ wordsOf l, w < 65536
  | [], w, h | [_], w, h => by simp [wordsOf] at h
  | x :: y :: l, w, h => by
    rcases List.mem_cons.mp h with rfl | h
    · have hx := x.toNat_lt
      have hy := y.toNat_lt
      omega
    · exact wordsOf_lt w h

theorem wordBytes_eq (x y : UInt8) : wordBytes (x.toNat * 256 + y.toNat) = [x, y] := by
  have hy : y.toNat < 256 := y.toNat_lt
  have hdiv : (x.toNat * 256 + y.toNat) / 256 = x.toNat := by omega
  have hmod : UInt8.ofNat (x.toNat * 256 + y.toNat) = y := by
    refine UInt8.toNat_inj.mp ?_
    rw [UInt8.toNat_ofNat']
    omega
  rw [wordBytes, hdiv, hmod, UInt8.ofNat_toNat]

/-- The bytes of the words are the bytes. -/
theorem flatMap_wordsOf : ∀ {l : List UInt8}, l.length % 2 = 0 → (wordsOf l).flatMap wordBytes = l
  | [], _ => rfl
  | [_], h => by simp at h
  | x :: y :: l, h => by
    rw [List.length_cons, List.length_cons] at h
    rw [wordsOf, List.flatMap_cons, wordBytes_eq, flatMap_wordsOf (by omega)]
    rfl

theorem length_flatMap_wordBytes (ws : List Nat) :
    (ws.flatMap wordBytes).length = 2 * ws.length := by
  induction ws with
  | nil => rfl
  | cons w ws ih =>
    rw [List.flatMap_cons, List.length_append, ih, List.length_cons]
    show 2 + 2 * ws.length = _
    omega

theorem notMem_fmtHex {c : Char} (h : hexVal c = none) (n : Nat) : c ∉ fmtHex n := fun hc => by
  obtain ⟨v, hv⟩ := hexVal_of_mem_fmtHex hc
  rw [h] at hv
  exact absurd hv (by simp)

theorem ptonGroup_fmtHex {w : Nat} (hw : w < 65536) :
    ptonGroup (fmtHex w) = some (wordBytes w) := by
  have hlen : (fmtHex w).length ≤ 4 := (length_fmtHex_le (by decide)).mpr hw
  have hhex : (fmtHex w).all (fun c => (hexVal c).isSome) = true :=
    List.all_eq_true.mpr fun c hc => by
      obtain ⟨v, hv⟩ := hexVal_of_mem_fmtHex hc
      rw [hv]
      rfl
  rw [ptonGroup, hexDigitsVal_fmtHex, if_pos ⟨fmtHex_ne_nil w, hlen, hhex⟩]

theorem ptonLast_fmtHex {w : Nat} (hw : w < 65536) : ptonLast (fmtHex w) = some (wordBytes w) := by
  rw [ptonLast, if_neg (notMem_fmtHex (by decide) w), ptonGroup_fmtHex hw]

theorem ptonGroups_map {last : Str → Option (List UInt8)}
    (hlast : ∀ w < 65536, last (fmtHex w) = some (wordBytes w)) : ∀ {ws : List Nat},
    (∀ w ∈ ws, w < 65536) → ptonGroups last (ws.map fmtHex) = some (ws.flatMap wordBytes)
  | [], _ => rfl
  | [w], h => by
    rw [List.map_singleton, ptonGroups, hlast w (h w (by simp)), List.flatMap_singleton]
  | w :: w' :: ws, h => by
    have ih := ptonGroups_map hlast fun v hv => h v (List.mem_cons_of_mem w hv)
    rw [List.map_cons] at ih ⊢
    rw [List.map_cons, ptonGroups, ptonGroup_fmtHex (h w (by simp)), ih]
    · rfl
    · simp

theorem splitOn_joinGroups {ws : List Nat} (h : ws ≠ []) :
    (joinGroups ws).splitOn ':' = ws.map fmtHex := by
  refine List.splitOn_intercalate ':' (fun f hf => ?_) (by simpa using h)
  obtain ⟨w, -, rfl⟩ := List.mem_map.mp hf
  exact notMem_fmtHex (by decide) w

@[simp] theorem joinGroups_singleton (w : Nat) : joinGroups [w] = fmtHex w := by
  simp [joinGroups]

theorem joinGroups_eq_nil_iff (ws : List Nat) : joinGroups ws = [] ↔ ws = [] := by
  constructor
  · rcases ws with _ | ⟨w, _ | ⟨w', ws⟩⟩
    · exact fun _ => rfl
    · intro h
      rw [joinGroups_singleton] at h
      exact absurd h (fmtHex_ne_nil w)
    · intro h
      simp [joinGroups] at h
  · rintro rfl
    rfl

theorem ptonSide_joinGroups {last : Str → Option (List UInt8)}
    (hlast : ∀ w < 65536, last (fmtHex w) = some (wordBytes w)) {ws : List Nat}
    (h : ∀ w ∈ ws, w < 65536) : ptonSide last (joinGroups ws) = some (ws.flatMap wordBytes) := by
  rw [ptonSide]
  split
  · next hnil =>
    rw [(joinGroups_eq_nil_iff ws).mp hnil]
    rfl
  · next hne =>
    rw [splitOn_joinGroups fun hws => hne ((joinGroups_eq_nil_iff ws).mpr hws),
      ptonGroups_map hlast h]

/-! ### The gap -/

theorem cutGap_append {g : Str} (hg : ':' ∉ g) (s : Str) :
    cutGap (g ++ s) = (cutGap s).map fun p => (g ++ p.1, p.2) := by
  induction g with
  | nil => simp
  | cons c g ih =>
    have hc : c ≠ ':' := fun h => hg (h ▸ List.mem_cons_self)
    rw [List.cons_append, cutGap, ih fun h => hg (List.mem_cons_of_mem c h), Option.map_map]
    · rfl
    · exact fun _ h => absurd h hc

theorem cutGap_colon {s : Str} (h : ∀ r, s ≠ ':' :: r) :
    cutGap (':' :: s) = (cutGap s).map fun p => (':' :: p.1, p.2) := by
  rw [cutGap]
  exact fun s' _ hs => absurd hs (h s')

/-- The groups before the gap are skipped. -/
theorem cutGap_joinGroups (s : Str) : ∀ ws : List Nat,
    cutGap (joinGroups ws ++ s) = (cutGap s).map fun p => (joinGroups ws ++ p.1, p.2)
  | [] => by simp [joinGroups]
  | [w] => by
    rw [joinGroups_singleton]
    exact cutGap_append (notMem_fmtHex (by decide) w) s
  | w :: w' :: ws => by
    have hjoin : joinGroups (w :: w' :: ws) = fmtHex w ++ ':' :: joinGroups (w' :: ws) := by
      simp [joinGroups]
    have hhead : ∀ r, joinGroups (w' :: ws) ++ s ≠ ':' :: r := by
      intro r hr
      rcases hw : fmtHex w' with _ | ⟨c, t⟩
      · exact absurd hw (fmtHex_ne_nil w')
      · have hmem : ':' ∉ fmtHex w' := notMem_fmtHex (by decide) w'
        have hstart : ∃ u, joinGroups (w' :: ws) = c :: u := by
          rcases ws with _ | ⟨v, ws⟩
          · exact ⟨t, by simp [joinGroups, hw]⟩
          · exact ⟨t ++ ':' :: joinGroups (v :: ws), by simp [joinGroups, hw]⟩
        obtain ⟨u, hu⟩ := hstart
        rw [hu, List.cons_append] at hr
        rw [hw, (List.cons.inj hr).1] at hmem
        exact hmem List.mem_cons_self
    rw [hjoin, List.append_assoc, cutGap_append (notMem_fmtHex (by decide) w), List.cons_append,
      cutGap_colon hhead, cutGap_joinGroups s (w' :: ws), Option.map_map, Option.map_map]
    congr 1
    funext p
    simp

/-! ### The run of zeros -/

theorem replicate_append_drop (ws : List Nat) :
    ws = List.replicate (ws.takeWhile (· == 0)).length 0 ++
      ws.drop (ws.takeWhile (· == 0)).length := by
  induction ws with
  | nil => rfl
  | cons w ws ih =>
    by_cases hw : w = 0
    · subst hw
      exact congrArg (0 :: ·) ih
    · rw [List.takeWhile_cons_of_neg (by simpa using hw)]
      rfl

/-- The run is one of the zero words. -/
theorem bestRun_some {ws : List Nat} {base len : Nat} (h : bestRun ws = some (base, len)) :
    2 ≤ len ∧ ws = ws.take base ++ List.replicate len 0 ++ ws.drop (base + len) := by
  have hmem : ∀ (runs : List (Nat × Nat)) (b : Nat × Nat),
      runs.foldl (fun best run => if best.2 < run.2 then run else best) b ∈ b :: runs := by
    intro runs
    induction runs with
    | nil => simp
    | cons run runs ih =>
      intro b
      rw [List.foldl_cons]
      split
      · exact List.mem_cons_of_mem b (ih run)
      · rcases List.mem_cons.mp (ih b) with h | h
        · rw [h]
          exact List.mem_cons_self
        · exact List.mem_cons_of_mem b (List.mem_cons_of_mem run h)
  have hbest := hmem (zeroRuns ws) (0, 0)
  rw [bestRun] at h
  generalize (zeroRuns ws).foldl (fun best run => if best.2 < run.2 then run else best) (0, 0) = b
    at h hbest
  split at h
  · next hle =>
    obtain rfl := Option.some.inj h
    refine ⟨hle, ?_⟩
    rcases List.mem_cons.mp hbest with h0 | hrun
    · rw [h0] at hle
      exact absurd hle (by decide)
    · obtain ⟨i, -, hi⟩ := List.mem_map.mp hrun
      obtain ⟨rfl, rfl⟩ := Prod.mk.inj hi
      rw [← List.drop_drop, List.append_assoc, ← replicate_append_drop, List.take_append_drop]
  · exact absurd h (by simp)

/-! ### The whole address -/

theorem flatMap_replicate_zero (n : Nat) :
    (List.replicate n 0).flatMap wordBytes = List.replicate (2 * n) 0 := by
  induction n with
  | zero => rfl
  | succ n ih =>
    rw [List.replicate_succ, List.flatMap_cons, ih]
    rfl

/-- Reading a text with a gap. -/
theorem inetPton6_gap {s p q : Str} {x y : List UInt8} (hs : cutGap s = some (p, q))
    (hx : ptonSide ptonGroup p = some x) (hy : ptonSide ptonLast q = some y)
    (hlen : x.length + y.length ≤ 14) :
    inetPton6 s = toAddr 16 (x ++ List.replicate (16 - (x.length + y.length)) 0 ++ y) := by
  rw [inetPton6, hs]
  show (ptonSide ptonGroup p).bind _ = _
  rw [hx, Option.bind_some, hy]
  show (if _ then _ else _) = _
  rw [if_pos hlen]

theorem ptonLast_inetNtop4 (x : InAddr 4) : ptonLast (inetNtop4 x.val) = some x.val := by
  rw [ptonLast, if_pos (dot_mem_inetNtop4 x), inetPton4_inetNtop4, Option.map_some]

theorem inetNtop4_ne_nil (x : InAddr 4) : inetNtop4 x.val ≠ [] :=
  List.ne_nil_of_mem (dot_mem_inetNtop4 x)

/-- An IPv4 address behind the gap, possibly with one group before it. -/
theorem ptonSide_inetNtop4 (x : InAddr 4) : ptonSide ptonLast (inetNtop4 x.val) = some x.val := by
  rw [ptonSide, if_neg (inetNtop4_ne_nil x), List.splitOn_eq_singleton (colon_notMem_inetNtop4 x),
    ptonGroups, ptonLast_inetNtop4]

theorem ptonSide_ffff (x : InAddr 4) :
    ptonSide ptonLast ("ffff:".toList ++ inetNtop4 x.val) = some (255 :: 255 :: x.val) := by
  have hsplit : ("ffff:".toList ++ inetNtop4 x.val).splitOn ':' =
      ["ffff".toList, inetNtop4 x.val] := by
    have hffff : ':' ∉ "ffff".toList := by decide
    have h := List.splitOn_append_cons_self_of_not_mem hffff (inetNtop4 x.val)
    rwa [List.splitOn_eq_singleton (colon_notMem_inetNtop4 x)] at h
  have hffff : ptonGroup "ffff".toList = some [255, 255] := by decide
  rw [ptonSide, if_neg (by simp), hsplit, ptonGroups, hffff]
  · show (ptonLast (inetNtop4 x.val)).bind _ = _
    rw [ptonLast_inetNtop4]
    rfl
  · simp

/-- **An IPv6 address is read back.** -/
theorem inetPton6_inetNtop6 (a : InAddr 16) : inetPton6 (inetNtop6 a) = some a := by
  have hlen := length_wordsOf a.val
  have hlt : ∀ w ∈ wordsOf a.val, w < 65536 := wordsOf_lt
  have hbytes : (wordsOf a.val).flatMap wordBytes = a.val :=
    flatMap_wordsOf (by rw [a.property])
  have hdrop : (a.val.drop 12).length = 4 := by rw [List.length_drop, a.property]
  have hquad : inetNtop4 (a.val.drop 12) = inetNtop4 (⟨a.val.drop 12, hdrop⟩ : InAddr 4).val := rfl
  rw [a.property] at hlen
  rw [inetNtop6]
  generalize wordsOf a.val = ws at *
  cases hrun : bestRun ws with
  | none =>
    have hne : ws ≠ [] := List.ne_nil_of_length_pos (by omega)
    have hcut := cutGap_joinGroups [] ws
    rw [List.append_nil] at hcut
    rw [inetPton6, hcut]
    show (ptonGroups ptonLast _).bind (toAddr 16) = some a
    rw [splitOn_joinGroups hne, ptonGroups_map (fun w => ptonLast_fmtHex) hlt, hbytes,
      Option.bind_some, toAddr_of_length a.property]
  | some run =>
    obtain ⟨base, len⟩ := run
    obtain ⟨hle, hws⟩ := bestRun_some hrun
    have hcount := congrArg List.length hws
    simp only [List.length_append, List.length_take, List.length_replicate, List.length_drop]
      at hcount
    -- the address is the bytes before the run, zeros and the bytes behind it
    have hparts : a.val = (ws.take base).flatMap wordBytes ++ List.replicate (2 * len) 0 ++
        (ws.drop (base + len)).flatMap wordBytes := by
      rw [← hbytes, ← flatMap_replicate_zero, ← List.flatMap_append, ← List.flatMap_append, ← hws]
    dsimp only
    split
    · next h6 =>
      obtain ⟨rfl, rfl⟩ := h6
      have hcut : cutGap ("::".toList ++ inetNtop4 (a.val.drop 12)) =
          some ([], inetNtop4 (a.val.drop 12)) := rfl
      have htail : (ws.drop (0 + 6)).flatMap wordBytes = a.val.drop 12 := by
        rw [hparts]
        simp
      rw [inetPton6_gap hcut rfl (hquad ▸ ptonSide_inetNtop4 _) (by simp [hdrop])]
      rw [htail] at hparts
      simp only [hdrop, List.length_nil]
      rw [← show a.val = [] ++ List.replicate 12 0 ++ a.val.drop 12 from hparts,
        toAddr_of_length a.property]
    · split
      · next h5 =>
        obtain ⟨rfl, rfl, hffff⟩ := h5
        have hcut : cutGap ("::ffff:".toList ++ inetNtop4 (a.val.drop 12)) =
            some ([], "ffff:".toList ++ inetNtop4 (a.val.drop 12)) := rfl
        have hword : ws.drop (0 + 5) = 0xffff :: ws.drop 6 :=
          List.drop_eq_getElem?_toList_append.trans (by rw [hffff]; rfl)
        have htail : (ws.drop 6).flatMap wordBytes = a.val.drop 12 := by
          rw [hparts, hword]
          simp [wordBytes]
        rw [inetPton6_gap hcut rfl (hquad ▸ ptonSide_ffff _) (by simp [hdrop])]
        rw [hword, List.flatMap_cons, htail] at hparts
        simp only [hdrop, List.length_nil, List.length_cons]
        rw [← show a.val = [] ++ List.replicate 10 0 ++ 255 :: 255 :: a.val.drop 12 from hparts,
          toAddr_of_length a.property]
      · have hcut : cutGap (joinGroups (ws.take base) ++ "::".toList ++
            joinGroups (ws.drop (base + len))) =
            some (joinGroups (ws.take base), joinGroups (ws.drop (base + len))) := by
          rw [List.append_assoc, cutGap_joinGroups]
          show some (joinGroups (ws.take base) ++ [], joinGroups (ws.drop (base + len))) = _
          rw [List.append_nil]
        have htake := ptonSide_joinGroups (fun w => ptonGroup_fmtHex)
          fun w (hw : w ∈ ws.take base) => hlt w (List.mem_of_mem_take hw)
        have hrest := ptonSide_joinGroups (fun w => ptonLast_fmtHex)
          fun w (hw : w ∈ ws.drop (base + len)) => hlt w (List.mem_of_mem_drop hw)
        have hzeros : 16 - (((ws.take base).flatMap wordBytes).length +
            ((ws.drop (base + len)).flatMap wordBytes).length) = 2 * len := by
          rw [length_flatMap_wordBytes, length_flatMap_wordBytes, List.length_take,
            List.length_drop]
          omega
        rw [inetPton6_gap hcut htake hrest, hzeros, ← hparts, toAddr_of_length a.property]
        rw [length_flatMap_wordBytes, length_flatMap_wordBytes, List.length_take, List.length_drop]
        omega

end OnuFirmware.Clib
