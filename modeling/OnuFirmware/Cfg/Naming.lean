import OnuFirmware.Cfg.Address
import OnuFirmware.Cfg.Legacy
import OnuFirmware.Cfg.Named

/-!
# Legacy names against element names

A node has two names: the elements on the way to it in a saved file, and the legacy name that joins
the same element names with underscores. `cfg_xml_node_to_path` and `cfg_parse_node_name` make a
path of the one and of the other. They split instance numbers off by different rules, so the paths
lead to the same ids only where the rules read each name alike.
-/

namespace OnuFirmware.Cfg

open Lib Clib

/-! ## Token lists below a type -/

section Below

variable {tt : TypeTree} {node : Option CfgTypePtr}

/-- The chain that tokens name below a type. -/
def below (tt : TypeTree) (node : Option CfgTypePtr) (ts : List Str) :
    Option (List (CfgTypePtr × Nat)) := (parseChain ts).bind (resolveChain tt node)

/-- The list does not start with a number. -/
def NameFirst (ts : List Str) : Prop := ∀ t ∈ ts.head?, tokenDigit t = 0

instance : DecidablePred NameFirst := fun ts =>
  inferInstanceAs (Decidable (∀ t ∈ ts.head?, tokenDigit t = 0))

theorem nameFirst_cons {t : Str} (h : tokenDigit t = 0) (ts : List Str) : NameFirst (t :: ts) := by
  rintro _ ⟨rfl⟩
  exact h

theorem lastNode_append (ch ch' : List (CfgTypePtr × Nat)) : ∀ node : Option CfgTypePtr,
    lastNode node (ch ++ ch') = lastNode (lastNode node ch) ch' := by
  induction ch with
  | nil => exact fun _ => rfl
  | cons l ch ih => exact fun _ => ih (some l.1)

theorem resolveChain_append (g' : List (Str × Nat)) : ∀ (g : List (Str × Nat))
    (node : Option CfgTypePtr), resolveChain tt node (g ++ g') =
      (resolveChain tt node g).bind fun ch =>
        (resolveChain tt (lastNode node ch) g').map (ch ++ ·)
  | [], node => by
    simp only [resolveChain, List.nil_append, Option.bind_some, lastNode]
    exact Option.map_id'.symm
  | (x, n) :: g, node => by
    rw [List.cons_append, resolveChain, resolveChain]
    cases cfgTypeQueryChild tt node x with
    | none => rfl
    | some t =>
      simp only [resolveChain_append g' g (some t)]
      cases resolveChain tt (some t) g with
      | none => rfl
      | some ch =>
        simp only [Option.map_some, Option.bind_some, lastNode, Option.map_map]
        rfl

/-- Tokens can be followed in two parts, if the second one starts with a name. -/
theorem below_append {us : List Str} (hu : NameFirst us) (ts : List Str) :
    below tt node (ts ++ us) = (below tt node ts).bind fun ch =>
      (below tt (lastNode node ch) us).map (ch ++ ·) := by
  simp only [below, parseChain_append hu]
  cases parseChain ts with
  | none => rfl
  | some g =>
    simp only [Option.bind_some]
    cases parseChain us with
    | none =>
      simp only [Option.map_none, Option.bind_none]
      cases resolveChain tt node g <;> rfl
    | some g' =>
      simp only [Option.map_some, Option.bind_some]
      exact resolveChain_append g' g node

/-- A name in front decides about the type, the number behind it about the instance. -/
theorem below_name {k : Str} (hk : tokenDigit k = 0) (us : List Str) :
    below tt node (k :: us) = (cfgTypeQueryChild tt node k).bind fun t =>
      (below tt (some t) (nextNum us).2).map ((t, (nextNum us).1) :: ·) := by
  simp only [below, parseChain_cons hk]
  cases parseChain (nextNum us).2 with
  | none => cases cfgTypeQueryChild tt node k <;> rfl
  | some g =>
    simp only [Option.map_some, Option.bind_some, resolveChain]
    cases cfgTypeQueryChild tt node k <;> rfl

theorem nextNum_number {d : Str} (hd : tokenDigit d ≠ 0) (us : List Str) :
    nextNum (d :: us) = (tokenDigit d, us) := if_pos hd

theorem nextNum_nameFirst : ∀ {us : List Str}, NameFirst us → nextNum us = (1, us)
  | [], _ => rfl
  | u :: us, h => by
    rw [nextNum, if_neg (by simpa using h u rfl)]

/-- The number of names in a token list. -/
def nameCount (ts : List Str) : Nat := ts.countP fun t => tokenDigit t == 0

theorem nameCount_cons (t : Str) (ts : List Str) :
    nameCount (t :: ts) = nameCount ts + if tokenDigit t = 0 then 1 else 0 := by
  simp [nameCount, List.countP_cons]

theorem nameCount_nextNum : ∀ ts : List Str, nameCount (nextNum ts).2 = nameCount ts
  | [] => rfl
  | d :: ts => by
    rw [nextNum]
    split
    · next hd => rw [nameCount_cons, if_neg hd, Nat.add_zero]
    · rfl

/-- A chain has one link for each name. -/
theorem length_below : ∀ {ts : List Str} {node : Option CfgTypePtr} {ch : List (CfgTypePtr × Nat)},
    below tt node ts = some ch → ch.length = nameCount ts
  | [], _, _, h => by
    obtain rfl := Option.some.inj h
    rfl
  | x :: ts, node, ch, h => by
    by_cases hx : tokenDigit x = 0
    swap
    · rw [below, parseChain_cons_digit hx] at h
      exact absurd h (by simp)
    have hlen := length_nextNum_le ts
    rw [below_name hx] at h
    obtain ⟨t, -, h⟩ := Option.bind_eq_some_iff.mp h
    obtain ⟨ch', hch, rfl⟩ := Option.map_eq_some_iff.mp h
    rw [List.length_cons, length_below hch, nameCount_nextNum, nameCount_cons, if_pos hx]
termination_by ts => ts.length
decreasing_by simp only [List.length_cons]; omega

theorem below_ne_nil {ts : List Str} {ch : List (CfgTypePtr × Nat)}
    (h : below tt node ts = some ch) (hne : ts ≠ []) : ch ≠ [] := by
  have hcount := length_below h
  rintro rfl
  cases ts with
  | nil => exact hne rfl
  | cons t ts =>
    by_cases ht : tokenDigit t = 0
    · rw [nameCount_cons, if_pos ht] at hcount
      exact absurd hcount (by simp)
    · rw [below, parseChain_cons_digit ht] at h
      exact absurd h (by simp)

/-- A chain from the root ends in a type. -/
theorem below_last {ts : List Str} {ch : List (CfgTypePtr × Nat)} (h : below tt none ts = some ch)
    (hne : ts ≠ []) : ∃ t ∈ tt.types.entries, lastNode none ch = some t := by
  obtain ⟨ch', l, rfl⟩ := (List.eq_nil_or_concat' ch).resolve_left (below_ne_nil h hne)
  obtain ⟨g, -, hg⟩ := Option.bind_eq_some_iff.mp h
  exact ⟨l.1, resolveChain_mem (by simp) hg l (by simp), lastNode_concat ch' l none⟩

/-- What is followed at all is followed up to any place. -/
theorem below_of_append {us : List Str} : ∀ {ts : List Str} {node : Option CfgTypePtr}
    {ch : List (CfgTypePtr × Nat)}, below tt node (ts ++ us) = some ch →
    ∃ ch', below tt node ts = some ch'
  | [], node, _, _ => ⟨[], rfl⟩
  | x :: ts, node, ch, h => by
    by_cases hx : tokenDigit x = 0
    swap
    · rw [List.cons_append, below, parseChain_cons_digit hx] at h
      exact absurd h (by simp)
    rw [List.cons_append, below_name hx] at h
    rw [below_name hx]
    obtain ⟨t, ht, h⟩ := Option.bind_eq_some_iff.mp h
    obtain ⟨ch', hch, -⟩ := Option.map_eq_some_iff.mp h
    rw [ht, Option.bind_some]
    cases ts with
    | nil => exact ⟨_, rfl⟩
    | cons d ts =>
      by_cases hd : tokenDigit d = 0
      · rw [List.cons_append, nextNum_nameFirst (nameFirst_cons hd _)] at hch
        rw [nextNum_nameFirst (nameFirst_cons hd _)]
        have hds : below tt (some t) ((d :: ts) ++ us) = some ch' := hch
        obtain ⟨ch'', hch''⟩ := below_of_append hds
        exact ⟨_, by rw [hch'']; rfl⟩
      · rw [List.cons_append, nextNum_number hd] at hch
        rw [nextNum_number hd]
        obtain ⟨ch'', hch''⟩ := below_of_append hch
        exact ⟨_, by rw [hch'']; rfl⟩
termination_by ts => ts.length

end Below

/-! ## Prefixes that lead to one place -/

section SameBelow

variable {tt : TypeTree} {free : Prop} {ts us ns : List Str}

/-- Behind `ts` and behind `us` the same tokens are followed to the same chain, and behind `ns` to
the same type; unless `free` holds, a number in front is not allowed. -/
def SameBelow (tt : TypeTree) (free : Prop) (ts us ns : List Str) : Prop :=
  ∀ l, free ∨ NameFirst l →
    below tt none (ts ++ l) = below tt none (us ++ l) ∧
    (below tt none (ns ++ l)).bind (lastNode none) = (below tt none (ts ++ l)).bind (lastNode none)

theorem sameBelow_refl (ts : List Str) : SameBelow tt free ts ts ts := fun _ _ => ⟨rfl, rfl⟩

theorem SameBelow.here (h : SameBelow tt free ts us ns) :
    below tt none ts = below tt none us ∧
    (below tt none ns).bind (lastNode none) = (below tt none ts).bind (lastNode none) := by
  have hnil := h [] (.inr fun _ hu => absurd hu (by simp))
  simpa using hnil

theorem SameBelow.plain (h : SameBelow tt free ts us ns) {s : Str} (hs : free ∨ tokenDigit s = 0) :
    SameBelow tt True (ts ++ [s]) (us ++ [s]) (ns ++ [s]) := by
  intro l _
  have hl := h (s :: l) (hs.imp_right fun hs => nameFirst_cons hs l)
  simpa using hl

/-- A number does not change the type that is reached. -/
theorem below_number_type {k d : Str} (hk : tokenDigit k = 0) (hd : tokenDigit d ≠ 0)
    {l : List Str} (hl : NameFirst l) (ts : List Str) :
    (below tt none (ts ++ k :: d :: l)).bind (lastNode none) =
      (below tt none (ts ++ k :: l)).bind (lastNode none) := by
  rw [below_append (nameFirst_cons hk _), below_append (nameFirst_cons hk _)]
  cases below tt none ts with
  | none => rfl
  | some ch =>
    simp only [Option.bind_some, below_name hk, nextNum_number hd, nextNum_nameFirst hl]
    cases cfgTypeQueryChild tt (lastNode none ch) k with
    | none => rfl
    | some t =>
      simp only [Option.bind_some]
      cases below tt (some t) l with
      | none => rfl
      | some ch' => simp [lastNode_append, lastNode]

theorem below_one {k d : Str} (hk : tokenDigit k = 0) (hd : tokenDigit d = 1)
    {l : List Str} (hl : NameFirst l) (ts : List Str) :
    below tt none (ts ++ k :: d :: l) = below tt none (ts ++ k :: l) := by
  rw [below_append (nameFirst_cons hk _), below_append (nameFirst_cons hk _)]
  simp only [below_name hk, nextNum_number (show tokenDigit d ≠ 0 by omega), nextNum_nameFirst hl,
    hd]

/-- A name with its number, on both sides. -/
theorem SameBelow.number (h : SameBelow tt free ts us ns) {k d : Str} (hk : tokenDigit k = 0)
    (hd : tokenDigit d ≠ 0) : SameBelow tt False (ts ++ [k, d]) (us ++ [k, d]) (ns ++ [k]) := by
  intro l hl
  have hl := hl.resolve_left id
  simp only [List.append_assoc, List.cons_append, List.nil_append]
  refine ⟨(h _ (.inr (nameFirst_cons hk _))).1, ?_⟩
  rw [(h _ (.inr (nameFirst_cons hk l))).2, below_number_type hk hd hl]

/-- A name with number one on one side, without a number on the other. -/
theorem SameBelow.one (h : SameBelow tt free ts us ns) {k d : Str} (hk : tokenDigit k = 0)
    (hd : tokenDigit d = 1) : SameBelow tt False (ts ++ [k, d]) (us ++ [k]) (ns ++ [k]) := by
  intro l hl
  have hl := hl.resolve_left id
  have hdig : tokenDigit d ≠ 0 := by omega
  simp only [List.append_assoc, List.cons_append, List.nil_append]
  refine ⟨?_, ?_⟩
  · rw [(h _ (.inr (nameFirst_cons hk _))).1, below_one hk hd hl]
  · rw [(h _ (.inr (nameFirst_cons hk l))).2, below_number_type hk hdig hl]

end SameBelow

/-! ## Types and ids at the end of a path -/

section Ends

variable {tt : TypeTree} {ts : List Str}

/-- `cfg_type_query` finds a type at the end of the path. -/
def TypeAt (tt : TypeTree) (ts : List Str) (t : CfgTypePtr) : Prop :=
  cfgTypeQuery tt (joinDots ts) = .ok (some t)

theorem typeAt_iff (h : ∀ t ∈ ts, IsToken t) (hlen : ts.length < cfgMaxNodeLevel) {t : CfgTypePtr} :
    TypeAt tt ts t ↔ (below tt none ts).bind (lastNode none) = some t := by
  rw [TypeAt, cfgTypeQuery_eq_some, pathChain_joinDots h, tokensOf,
    pathTokens_joinDots _ _ h (Nat.lt_succ_self _)]
  simp only [hlen, true_and]
  rw [Option.bind_eq_some_iff]
  rfl

theorem oidArray_iff (h : ∀ t ∈ ts, IsToken t) (hne : ts ≠ []) (hlen : ts.length < cfgMaxNodeLevel)
    {ids : List Nat} : cfgPathToOidArray tt (joinDots ts) = .ok (some ids) ↔
      ∃ ch, below tt none ts = some ch ∧ ids = ch.map linkOid := by
  rw [cfgPathToOidArray_eq_some, pathChain_joinDots h]
  constructor
  · rintro (⟨hnil, -⟩ | ⟨ch, hch, -, -, rfl⟩)
    · exact absurd hnil (joinDots_ne_nil hne h)
    · exact ⟨ch, hch, rfl⟩
  · rintro ⟨ch, hch, rfl⟩
    have hcount := length_below hch
    refine .inr ⟨ch, hch, below_ne_nil hch hne, ?_, rfl⟩
    have hle : nameCount ts ≤ ts.length := List.countP_le_length
    omega

end Ends

/-! ## The two readings of a name -/

/-- The name is `pre` with a digit behind it. -/
def numberedAs (pre s : Str) : Bool := pre.isPrefixOf s && s[pre.length]?.any isDigit

/-- The name is split into a type name and a number by `cfg_xml_node_to_path`. -/
def isNumbered (s : Str) : Bool := numberedAs "entry".toList s || numberedAs "pvc".toList s

/-- The components that `cfg_xml_node_to_path` makes of a name in lower case. -/
def elementPart (s : Str) : List Str :=
  if numberedAs "entry".toList s then
    ["entry".toList, fmtInt (intSucc (atoi (s.drop 5)))]
  else if numberedAs "pvc".toList s then ["pvc".toList, fmtInt (intSucc (atoi (s.drop 3)))]
  else [s]

/-- A name in lower case and the type name that `cfg_parse_node_name` takes it for, if it takes it
for an instance. -/
abbrev Part := Option Str × Str

/-- The type names that `cfg_parse_node_name` looks for. -/
def legacyKeys : List Str := ["entry".toList, "pvc".toList, "rai".toList, "ra".toList]

/-- What a name in second place is taken for, `x` being the name in first place. -/
def secondKey (x y : Str) : Option Str :=
  if rowStarts "entry".toList y then some "entry".toList
  else if rowStarts "pvc".toList y then some "pvc".toList
  else if rowStarts "info".toList x then
    if rowStarts "nas".toList y then none
    else if rowStarts "rai".toList y then some "rai".toList
    else if rowStarts "ra".toList y then some "ra".toList
    else none
  else none

/-- What a name in third place is taken for. -/
def thirdKey (z : Str) : Option Str :=
  if rowStarts "entry".toList z then some "entry".toList else none

/-- One to three names in lower case, as `cfg_parse_node_name` takes them. -/
def nameParts : List Str → List Part
  | [x] => [(none, x)]
  | [x, y] => [(none, x), (secondKey x y, y)]
  | [x, y, z] => [(none, x), (secondKey x y, y), (thirdKey z, z)]
  | _ => []

section Parts

variable (tt : TypeTree) (st : ObjState) (index : Nat → List Str)

/-- The components of the path that `cfg_parse_node_name` makes of parts, behind the components
`ts`. -/
def legacyTokens : List Str → List Part → Except Fault (List Str)
  | ts, [] => .ok ts
  | ts, (none, s) :: ps => legacyTokens (ts ++ [s]) ps
  | ts, (some k, s) :: ps => do
    let num ← cfgParseEntryPvcNumber tt st index (joinDots (ts ++ [k])) s
    legacyTokens (ts ++ [k, fmtInt num]) ps

/-- A name that starts with `k` is read alike as an instance of the type `t`, which is called `k`.
With a number the type is `MULTIPLE`, or the number stands for instance one. Without a number it is
the name of the type, and instance one is what is shown on the web pages. -/
def ReadAlike (t : TypeInfo) (k s : Str) : Prop :=
  if isNumbered s then
    atoi (s.drop k.length) < intMax ∧
      (t.hasFlag cfgTypeFlagMultiple = false → atoi (s.drop k.length) = 0)
  else
    s = k ∧ (t.hasFlag cfgTypeFlagMultiple = true → k ≠ "rai".toList →
      webNumber tt st (index t.id) = .ok 1)

instance (t : TypeInfo) (k s : Str) : Decidable (ReadAlike tt st index t k s) :=
  inferInstanceAs (Decidable (ite _ _ _))

/-- What it means for a part that leads to the type `t` to be read alike. -/
def AlikeAt (t : TypeInfo) (p : Part) : Prop :=
  match p.1 with
  | none => isNumbered p.2 = false
  | some k => ReadAlike tt st index t k p.2

instance (t : TypeInfo) (p : Part) : Decidable (AlikeAt tt st index t p) :=
  match p with
  | (none, s) => inferInstanceAs (Decidable (isNumbered s = false))
  | (some k, s) => inferInstanceAs (Decidable (ReadAlike tt st index t k s))

/-- A part behind the names `ns` leads to a type and is read alike. -/
def PartAlike (ns : List Str) (p : Part) : Prop :=
  ∃ t, TypeAt tt (ns ++ [p.1.getD p.2]) t ∧ AlikeAt tt st index t.1 p

theorem partAlike_iff (ns : List Str) (p : Part) : PartAlike tt st index ns p ↔
    (match cfgTypeQuery tt (joinDots (ns ++ [p.1.getD p.2])) with
      | .ok (some t) => decide (AlikeAt tt st index t.1 p)
      | _ => false) = true := by
  simp only [PartAlike, TypeAt]
  split
  · next t ht => simp [ht]
  · next hno =>
    refine iff_of_false ?_ (by simp)
    rintro ⟨t, ht, -⟩
    exact hno t ht

instance (ns : List Str) (p : Part) : Decidable (PartAlike tt st index ns p) :=
  decidable_of_iff _ (partAlike_iff tt st index ns p).symm

/-- All parts are read alike, and none that is taken for an instance stands in front of a name that
starts with a digit. -/
def PartsAlike : List Str → List Part → Prop
  | _, [] => True
  | ns, p :: ps =>
    PartAlike tt st index ns p ∧ (p.1.isSome → NameFirst (ps.map Prod.snd)) ∧
      PartsAlike (ns ++ [p.1.getD p.2]) ps

instance decidablePartsAlike : ∀ (ns : List Str) (ps : List Part),
    Decidable (PartsAlike tt st index ns ps)
  | _, [] => isTrue trivial
  | ns, p :: ps =>
    have := decidablePartsAlike (ns ++ [p.1.getD p.2]) ps
    inferInstanceAs (Decidable (_ ∧ _ ∧ _))

end Parts

/-- A part of a name that fits into a row: it is in lower case and starts with what it is taken
for. -/
structure PartOk (p : Part) : Prop where
  token : IsToken p.2
  lower : cfgStrToLower p.2 = p.2
  short : p.2.length < maxNodeName - 1
  key : ∀ k ∈ p.1, k ∈ legacyKeys ∧ k <+: p.2

/-- No number that is read in the names or from the web pages is larger than an instance number. -/
structure NumbersSmall (tt : TypeTree) (st : ObjState) (index : Nat → List Str) (ss : List Str) :
    Prop where
  names : ∀ s ∈ ss, ∀ n, atoi (s.drop n) < 65535
  web : ∀ t w, webNumber tt st (index t) = .ok w → w < 65536

/-! ## Numbers in names -/

section Numbers

variable {s k : Str}

theorem intSucc_eq {n : Int} (h : -1 ≤ n) (hlt : n < intMax) : intSucc n = n + 1 := by
  simp only [intMax] at hlt
  rw [intSucc, Int.bmod_eq_of_le (by omega) (by omega)]

theorem natAbs_intSucc_le (n : Int) : (intSucc n).natAbs ≤ 2147483648 := by
  have h1 := Int.le_bmod (x := n + 1) (m := 0x100000000) (by decide)
  have h2 := Int.bmod_lt (x := n + 1) (m := 0x100000000) (by decide)
  rw [intSucc]
  omega

theorem tokenDigit_fmtInt {n : Int} (h : 0 < n) (hmax : n ≤ intMax) :
    tokenDigit (fmtInt n) = n.toNat := by
  obtain ⟨m, rfl⟩ := Int.eq_ofNat_of_zero_le (Int.le_of_lt h)
  rw [fmtInt_natCast, tokenDigit_fmtNat (by omega) (by omega), Int.toNat_natCast]

theorem tokenDigit_fmtInt_le {n : Int} (h : n ≤ 0) : tokenDigit (fmtInt n) = 0 := by
  rw [fmtInt]
  split
  · rfl
  · obtain rfl : n = 0 := by omega
    rfl

theorem isToken_fmtInt {n : Int} (h : n.natAbs ≤ 2147483648) : IsToken (fmtInt n) := by
  have hlen := (@length_fmtNat_le n.natAbs 10 (by decide)).mpr (by omega)
  have hdot : '.' ∉ fmtNat n.natAbs := fun hd => absurd (isDigit_of_mem_fmtNat hd) (by decide)
  rw [fmtInt]
  split
  · refine ⟨by simp, by simpa using hdot, ?_⟩
    simp only [List.length_cons, cfgMaxTypeName]
    omega
  · refine ⟨fmtNat_ne_nil _, hdot, ?_⟩
    simp only [cfgMaxTypeName]
    omega

theorem tokenDigit_of_key (hk : k ∈ legacyKeys) (hpre : k <+: s) : tokenDigit s = 0 := by
  obtain ⟨r, rfl⟩ := hpre
  simp only [legacyKeys, List.mem_cons, List.not_mem_nil, or_false] at hk
  rcases hk with rfl | rfl | rfl | rfl <;> rfl

theorem numberedAs_iff {pre : Str} : numberedAs pre s = true ↔
    ∃ c r, s = pre ++ c :: r ∧ isDigit c = true := by
  rw [numberedAs, Bool.and_eq_true, List.isPrefixOf_iff_prefix]
  constructor
  · rintro ⟨⟨r, rfl⟩, hd⟩
    rw [List.getElem?_append_right (Nat.le_refl _), Nat.sub_self] at hd
    cases r with
    | nil => exact absurd hd (by simp)
    | cons c r => exact ⟨c, r, rfl, by simpa using hd⟩
  · rintro ⟨c, r, rfl, hc⟩
    refine ⟨List.prefix_append _ _, ?_⟩
    rw [List.getElem?_append_right (Nat.le_refl _), Nat.sub_self]
    simpa using hc

theorem mem_legacyKeys (hk : k ∈ ["entry".toList, "pvc".toList]) : k ∈ legacyKeys := by
  revert k
  decide

/-- A name starts with one of the numbered keys and no other key. -/
theorem key_unique {k' : Str} (hk : k ∈ ["entry".toList, "pvc".toList]) (hk' : k' ∈ legacyKeys)
    (h : k <+: s) (h' : k' <+: s) : k' = k := by
  have hall : ∀ k ∈ ["entry".toList, "pvc".toList], ∀ k' ∈ legacyKeys,
      k' <+: k ∨ k <+: k' → k' = k := by decide
  exact hall k hk k' hk' (List.prefix_or_prefix_of_prefix h' h)

theorem rowAtoi_short (hs : s.length < maxNodeName - 1) (n : Nat) :
    rowAtoi s n = .ok (atoi (s.drop n)) := by
  rw [rowAtoi, if_neg]
  omega

/-- A numbered name: its type name, its number, and what both functions make of it. -/
theorem isNumbered_cases (h : isNumbered s = true) : ∃ k ∈ ["entry".toList, "pvc".toList],
    k <+: s ∧ s ≠ k ∧ 0 ≤ atoi (s.drop k.length) ∧
    elementPart s = [k, fmtInt (intSucc (atoi (s.drop k.length)))] ∧
    (s.length < maxNodeName - 1 → rowNumber s = .ok (atoi (s.drop k.length))) := by
  have hspec : ∀ {k : Str}, numberedAs k s = true → k <+: s ∧ s ≠ k ∧ k.length < s.length ∧
      0 ≤ atoi (s.drop k.length) := by
    intro k hk
    obtain ⟨c, r, rfl, hc⟩ := numberedAs_iff.mp hk
    refine ⟨List.prefix_append _ _, by simp, by simp, ?_⟩
    rw [List.drop_left, atoi_of_isDigit hc]
    exact Int.natCast_nonneg _
  by_cases he : numberedAs "entry".toList s = true
  · obtain ⟨hpre, hne, hlen, hpos⟩ := hspec he
    refine ⟨_, by simp, hpre, hne, hpos, ?_, fun hs => ?_⟩
    · rw [elementPart, if_pos he]
      rfl
    · rw [rowNumber, if_pos ⟨List.isPrefixOf_iff_prefix.mpr hpre, hlen⟩, rowAtoi_short hs]
      rfl
  · have hp : numberedAs "pvc".toList s = true := by
      rw [isNumbered, Bool.or_eq_true] at h
      exact h.resolve_left he
    obtain ⟨hpre, hne, hlen, hpos⟩ := hspec hp
    refine ⟨_, by simp, hpre, hne, hpos, ?_, fun hs => ?_⟩
    · rw [elementPart, if_neg he, if_pos hp]
      rfl
    · have hno : ¬ (rowStarts "entry".toList s = true ∧ 5 < s.length) := by
        rintro ⟨hentry, -⟩
        exact absurd (key_unique (by simp) (by simp [legacyKeys]) hpre
          (List.isPrefixOf_iff_prefix.mp hentry)) (by decide)
      rw [rowNumber, if_neg hno, if_pos ⟨List.isPrefixOf_iff_prefix.mpr hpre, hlen⟩,
        rowAtoi_short hs]
      rfl

theorem elementPart_plain (h : isNumbered s = false) : elementPart s = [s] := by
  rw [isNumbered, Bool.or_eq_false_iff] at h
  rw [elementPart, if_neg (Bool.eq_false_iff.mp h.1), if_neg (Bool.eq_false_iff.mp h.2)]

/-- The number in a row comes from a place in it. -/
theorem rowNumber_short (hs : s.length < maxNodeName - 1) :
    rowNumber s = .ok (-1) ∨ ∃ n, rowNumber s = .ok (atoi (s.drop n)) := by
  simp only [rowNumber, rowAtoi_short hs]
  split
  · exact .inr ⟨5, rfl⟩
  split
  · exact .inr ⟨3, rfl⟩
  split
  · exact .inr ⟨3, rfl⟩
  split
  · exact .inr ⟨2, rfl⟩
  · exact .inl rfl

/-- Behind a type name alone there is no number, but `rai` is `ra` and something behind it. -/
theorem rowNumber_key (hk : k ∈ legacyKeys) :
    rowNumber k = .ok (if k = "rai".toList then 0 else -1) := by
  revert k
  decide

end Numbers

/-! ## What is printed for a part -/

section Printed

variable {tt : TypeTree} {st : ObjState} {index : Nat → List Str}

theorem webNumber_le : ∀ {attrs : List Str} {n : Int}, webNumber tt st attrs = .ok n →
    n.natAbs ≤ 2147483648
  | [], n, h => by
    obtain rfl := Except.ok.inj h
    decide
  | attr :: attrs, n, h => by
    rw [webNumber] at h
    cases hval : cfgObjGetObjectAttr tt st cfgWebIndexNode attr 32 with
    | error e =>
      rw [hval] at h
      exact absurd h (by simp [bind, Except.bind])
    | ok val =>
      simp only [hval, bind, Except.bind] at h
      split at h
      · obtain rfl := Except.ok.inj h
        exact natAbs_intSucc_le _
      · exact webNumber_le h

/-- The number for an instance of a type that was found. -/
theorem cfgParseEntryPvcNumber_eq {path s : Str} {t : CfgTypePtr}
    (h : cfgTypeQuery tt path = .ok (some t)) {v : Int} (hv : rowNumber s = .ok v) :
    cfgParseEntryPvcNumber tt st index path s =
      if t.1.hasFlag cfgTypeFlagMultiple = false then .ok 1
      else if 0 ≤ v then .ok (intSucc v) else webNumber tt st (index t.1.id) := by
  simp only [cfgParseEntryPvcNumber, h, hv, bind, Except.bind]
  cases t.1.hasFlag cfgTypeFlagMultiple <;> rfl

theorem natAbs_number_le {path s : Str} {n : Int} (hs : s.length < maxNodeName - 1)
    (h : cfgParseEntryPvcNumber tt st index path s = .ok n) : n.natAbs ≤ 2147483648 := by
  obtain ⟨v, hv⟩ : ∃ v, rowNumber s = .ok v := by
    rcases rowNumber_short hs with hv | ⟨k, hv⟩
    · exact ⟨_, hv⟩
    · exact ⟨_, hv⟩
  cases hq : cfgTypeQuery tt path with
  | error e =>
    simp only [cfgParseEntryPvcNumber, hq, bind, Except.bind] at h
    exact absurd h (by simp)
  | ok o =>
    cases o with
    | none =>
      simp only [cfgParseEntryPvcNumber, hq, bind, Except.bind] at h
      obtain rfl := Except.ok.inj h
      decide
    | some t =>
      rw [cfgParseEntryPvcNumber_eq hq hv] at h
      split at h
      · obtain rfl := Except.ok.inj h
        decide
      split at h
      · obtain rfl := Except.ok.inj h
        exact natAbs_intSucc_le _
      · exact webNumber_le h

theorem PartOk.tokenDigit_key {p : Part} (h : PartOk p) {k : Str} (hk : p.1 = some k) :
    tokenDigit k = 0 ∧ tokenDigit p.2 = 0 := by
  obtain ⟨hmem, hpre⟩ := h.key k hk
  exact ⟨tokenDigit_of_key hmem (List.prefix_refl k), tokenDigit_of_key hmem hpre⟩

theorem isToken_key {k : Str} (hk : k ∈ legacyKeys) : IsToken k := by
  simp only [legacyKeys, List.mem_cons, List.not_mem_nil, or_false] at hk
  rcases hk with rfl | rfl | rfl | rfl <;> exact ⟨by decide, by decide, by decide⟩

theorem isToken_elementPart {s : Str} (hs : IsToken s) : ∀ t ∈ elementPart s, IsToken t := by
  cases hn : isNumbered s with
  | false =>
    rw [elementPart_plain hn]
    simpa using hs
  | true =>
    obtain ⟨k, hk, -, -, -, heq, -⟩ := isNumbered_cases hn
    have hmem := mem_legacyKeys hk
    rw [heq]
    intro t ht
    rcases List.mem_cons.mp ht with rfl | ht
    · exact isToken_key hmem
    · rw [List.mem_singleton.mp ht]
      exact isToken_fmtInt (natAbs_intSucc_le _)

theorem length_elementParts_le : ∀ l : List Str, (l.flatMap elementPart).length ≤ 2 * l.length
  | [] => Nat.zero_le _
  | s :: l => by
    have hl := length_elementParts_le l
    have hs : (elementPart s).length ≤ 2 := by
      rw [elementPart]
      split
      · simp
      split <;> simp
    rw [List.flatMap_cons, List.length_append, List.length_cons]
    omega

/-- A name becomes one link, wherever a number is split off. -/
theorem nameCount_elementPart {s : Str} (hsmall : ∀ n, atoi (s.drop n) < 65535) :
    nameCount (elementPart s) = nameCount [s] := by
  cases hn : isNumbered s with
  | false => rw [elementPart_plain hn]
  | true =>
    obtain ⟨k, hk, hpre, -, hpos, heq, -⟩ := isNumbered_cases hn
    have hmem := mem_legacyKeys hk
    have hlt := hsmall k.length
    have hsucc := intSucc_eq (n := atoi (s.drop k.length)) (by omega)
      (by simp only [intMax]; omega)
    have hdig : tokenDigit (fmtInt (intSucc (atoi (s.drop k.length)))) ≠ 0 := by
      rw [hsucc, tokenDigit_fmtInt (by omega) (by simp only [intMax]; omega)]
      omega
    simp only [heq, nameCount_cons, if_neg hdig, if_pos (tokenDigit_of_key hmem hpre),
      if_pos (tokenDigit_of_key hmem (List.prefix_refl k))]

theorem nameCount_append (ts us : List Str) : nameCount (ts ++ us) = nameCount ts + nameCount us :=
  List.countP_append

/-- What `legacyTokens` adds: at least one name for each link of the elements, and the number in
front, if there is one. -/
theorem legacyTokens_tail : ∀ {ps : List Part} {ts r : List Str},
    legacyTokens tt st index ts ps = .ok r → (∀ p ∈ ps, PartOk p) →
    (∀ p ∈ ps, ∀ n, atoi (p.2.drop n) < 65535) →
    ∃ l, r = ts ++ l ∧ (∀ t ∈ l, IsToken t) ∧ l.length ≤ 2 * ps.length ∧
      nameCount (ps.flatMap fun p => elementPart p.2) ≤ nameCount l ∧
      (nextNum l).1 = (nextNum (ps.map Prod.snd)).1 ∧
      (NameFirst l ↔ NameFirst (ps.map Prod.snd))
  | [], ts, r, h, _, _ => by
    obtain rfl := Except.ok.inj h
    exact ⟨[], by simp, by simp, Nat.le_refl _, Nat.le_refl _, rfl, Iff.rfl⟩
  | (none, s) :: ps, ts, r, h, hok, hsmall => by
    rw [legacyTokens] at h
    obtain ⟨l, rfl, htok, hlen, hcount, -, -⟩ := legacyTokens_tail h
      (fun p hp => hok p (List.mem_cons_of_mem _ hp))
      fun p hp => hsmall p (List.mem_cons_of_mem _ hp)
    refine ⟨s :: l, by simp, ?_, ?_, ?_, ?_, Iff.rfl⟩
    · intro t ht
      rcases List.mem_cons.mp ht with rfl | ht
      · exact (hok _ List.mem_cons_self).token
      · exact htok t ht
    · simp only [List.length_cons]
      omega
    · have hs := nameCount_elementPart (hsmall (none, s) List.mem_cons_self)
      rw [List.flatMap_cons, nameCount_append, hs, nameCount_cons, nameCount_cons]
      simp only [nameCount, List.countP_nil] at hcount ⊢
      omega
    · rw [List.map_cons, nextNum, nextNum]
      split <;> rfl
  | (some k, s) :: ps, ts, r, h, hok, hsmall => by
    have hp := hok _ List.mem_cons_self
    obtain ⟨hk, hs⟩ := hp.tokenDigit_key rfl
    rw [legacyTokens] at h
    cases hnum : cfgParseEntryPvcNumber tt st index (joinDots (ts ++ [k])) s with
    | error e =>
      rw [hnum] at h
      exact absurd h (by simp [bind, Except.bind])
    | ok num =>
      rw [hnum] at h
      obtain ⟨l, rfl, htok, hlen, hcount, -, -⟩ := legacyTokens_tail h
        (fun p hp => hok p (List.mem_cons_of_mem _ hp))
        fun p hp => hsmall p (List.mem_cons_of_mem _ hp)
      refine ⟨k :: fmtInt num :: l, by simp, ?_, ?_, ?_, ?_, ?_⟩
      · intro t ht
        rcases List.mem_cons.mp ht with rfl | ht
        · exact isToken_key (hp.key _ rfl).1
        rcases List.mem_cons.mp ht with rfl | ht
        · exact isToken_fmtInt (natAbs_number_le hp.short hnum)
        · exact htok t ht
      · simp only [List.length_cons]
        omega
      · have hcs := nameCount_elementPart (hsmall (some k, s) List.mem_cons_self)
        rw [List.flatMap_cons, nameCount_append, hcs, nameCount_cons, nameCount_cons,
          nameCount_cons, if_pos hk, if_pos hs]
        simp only [nameCount, List.countP_nil] at hcount ⊢
        omega
      · rw [List.map_cons, nextNum_nameFirst (nameFirst_cons hk _),
          nextNum_nameFirst (nameFirst_cons hs _)]
      · exact iff_of_true (nameFirst_cons hk _) (nameFirst_cons hs _)

end Printed

/-! ## Alike is necessary -/

section Necessary

variable {tt : TypeTree} {st : ObjState} {index : Nat → List Str} {free : Prop}
  {ts us ns : List Str}

/-- The next links of two chains with the same ids. -/
theorem SameBelow.next_link (h : SameBelow tt free ts us ns) {k k' : Str} (hk : tokenDigit k = 0)
    (hk' : tokenDigit k' = 0) {l l' : List Str} {c c' : List (CfgTypePtr × Nat)}
    (hc : below tt none (ts ++ k :: l) = some c) (hc' : below tt none (us ++ k' :: l') = some c')
    (hids : c.map linkOid = c'.map linkOid) : ∃ ch t t', below tt none ts = some ch ∧
      cfgTypeQueryChild tt (lastNode none ch) k = some t ∧
      cfgTypeQueryChild tt (lastNode none ch) k' = some t' ∧
      mkOid t.1.id (nextNum l).1 = mkOid t'.1.id (nextNum l').1 := by
  rw [below_append (nameFirst_cons hk _)] at hc
  rw [below_append (nameFirst_cons hk' _), ← h.here.1] at hc'
  obtain ⟨ch, hch, hc⟩ := Option.bind_eq_some_iff.mp hc
  rw [hch, Option.bind_some] at hc'
  obtain ⟨r, hr, rfl⟩ := Option.map_eq_some_iff.mp hc
  obtain ⟨r', hr', rfl⟩ := Option.map_eq_some_iff.mp hc'
  rw [below_name hk] at hr
  rw [below_name hk'] at hr'
  obtain ⟨t, ht, hr⟩ := Option.bind_eq_some_iff.mp hr
  obtain ⟨t', ht', hr'⟩ := Option.bind_eq_some_iff.mp hr'
  obtain ⟨r₁, -, rfl⟩ := Option.map_eq_some_iff.mp hr
  obtain ⟨r₁', -, rfl⟩ := Option.map_eq_some_iff.mp hr'
  refine ⟨ch, t, t', hch, ht, ht', ?_⟩
  rw [List.map_append, List.map_append, List.append_cancel_left_eq, List.map_cons,
    List.map_cons] at hids
  exact (List.cons.inj hids).1

/-- Links with the same id are of one type and number, and their names are the same. -/
theorem link_unique {node : Option CfgTypePtr} (hnode : ∀ p ∈ node, p ∈ tt.types.entries)
    {k k' : Str} (hk : IsToken k) (hk' : IsToken k') {t t' : CfgTypePtr}
    (ht : cfgTypeQueryChild tt node k = some t) (ht' : cfgTypeQueryChild tt node k' = some t')
    {m n : Nat} (hm : m < 65536) (hn : n < 65536) (h : mkOid t.1.id m = mkOid t'.1.id n) :
    cfgStrToLower k = cfgStrToLower k' ∧ m = n := by
  have hmem := cfgTypeQueryChild_mem hnode ht
  have hmem' := cfgTypeQueryChild_mem hnode ht'
  have hlt := (typeId_lt hmem).2
  have hlt' := (typeId_lt hmem').2
  obtain ⟨hid, rfl⟩ := (mkOid_inj (by omega) (by omega) hm hn).mp h
  obtain rfl : t = t' := Lcrs.entry_unique tt.nodup_ids hmem hmem' hid
  exact ⟨(cfgTypeQueryChild_name hk ht).symm.trans (cfgTypeQueryChild_name hk' ht'), rfl⟩

/-- The type at the end of the names is the one at the end of the components. -/
theorem SameBelow.typeAt (h : SameBelow tt free ts us ns) (htok : ∀ t ∈ ts ++ ns, IsToken t)
    (hlen : ts.length < cfgMaxNodeLevel) (hle : ns.length < cfgMaxNodeLevel) {t : CfgTypePtr} :
    TypeAt tt ns t ↔ TypeAt tt ts t := by
  rw [typeAt_iff (fun t ht => htok t (List.mem_append_right _ ht)) hle,
    typeAt_iff (fun t ht => htok t (List.mem_append_left _ ht)) hlen, h.here.2]

/-- The number that is printed for an instance, if no number is too large. -/
theorem number_lt {path s : Str} {t : CfgTypePtr} (h : cfgTypeQuery tt path = .ok (some t))
    (hs : s.length < maxNodeName - 1) (hsmall : ∀ n, atoi (s.drop n) < 65535)
    (hweb : ∀ w, webNumber tt st (index t.1.id) = .ok w → w < 65536) {n : Int}
    (hn : cfgParseEntryPvcNumber tt st index path s = .ok n) : n < 65536 := by
  obtain ⟨v, hv, hlt⟩ : ∃ v, rowNumber s = .ok v ∧ v < 65535 := by
    rcases rowNumber_short hs with hv | ⟨k, hv⟩
    · exact ⟨_, hv, by decide⟩
    · exact ⟨_, hv, hsmall k⟩
  rw [cfgParseEntryPvcNumber_eq h hv] at hn
  split at hn
  · obtain rfl := Except.ok.inj hn
    decide
  split at hn
  · next hpos =>
    obtain rfl := Except.ok.inj hn
    rw [intSucc_eq (by omega) (by simp only [intMax]; omega)]
    omega
  · exact hweb n hn

/-- **A name is read alike if the links made of it are the same.** -/
theorem readAlike_of_number {path s k : Str}
    {t : CfgTypePtr} (h : cfgTypeQuery tt path = .ok (some t))
    (hp : PartOk (some k, s)) (hsmall : ∀ n, atoi (s.drop n) < 65535) {n : Int}
    (hn : cfgParseEntryPvcNumber tt st index path s = .ok n)
    (hnum : isNumbered s = true → n = atoi (s.drop k.length) + 1)
    (hplain : isNumbered s = false → s = k ∧ n = 1) : ReadAlike tt st index t.1 k s := by
  obtain ⟨hk, hpre⟩ := hp.key k rfl
  rw [ReadAlike]
  split
  · next hs =>
    have heq := hnum hs
    obtain ⟨k', hk', hpre', -, -, -, hrow⟩ := isNumbered_cases hs
    obtain rfl := key_unique hk' hk hpre' hpre
    have hlt := hsmall k.length
    refine ⟨by simp only [intMax]; omega, fun hmult => ?_⟩
    rw [cfgParseEntryPvcNumber_eq h (hrow hp.short), if_pos hmult] at hn
    have := Except.ok.inj hn
    omega
  · next hs =>
    obtain ⟨rfl, rfl⟩ := hplain (by simpa using hs)
    refine ⟨rfl, fun hmult hrai => ?_⟩
    rw [cfgParseEntryPvcNumber_eq h (rowNumber_key hk), if_neg (by simp [hmult]), if_neg hrai] at hn
    simpa using hn

/-- A part with its number on both sides. -/
theorem SameBelow.part (h : SameBelow tt free ts us ns) {k s : Str} (hp : PartOk (some k, s))
    {n : Int} (hpos : 0 < n) (hmax : n ≤ intMax)
    (hnum : isNumbered s = true → n = intSucc (atoi (s.drop k.length)))
    (hplain : isNumbered s = false → s = k ∧ n = 1) :
    SameBelow tt False (ts ++ [k, fmtInt n]) (us ++ elementPart s) (ns ++ [k]) := by
  obtain ⟨hmem, hpre⟩ := hp.key k rfl
  have hk := (hp.tokenDigit_key rfl).1
  have hdig := tokenDigit_fmtInt hpos hmax
  cases hs : isNumbered s with
  | true =>
    obtain ⟨k', hk', hpre', -, -, heq, -⟩ := isNumbered_cases hs
    obtain rfl := key_unique hk' hmem hpre' hpre
    rw [heq, ← hnum hs]
    exact h.number hk (by omega)
  | false =>
    obtain ⟨rfl, rfl⟩ := hplain hs
    rw [elementPart_plain hs]
    exact h.one hk hdig

theorem tokenDigit_le (s : Str) : tokenDigit s ≤ (atoi s).toNat := by
  cases s with
  | nil => exact Nat.zero_le _
  | cons c s =>
    rw [tokenDigit]
    split
    · exact Nat.le_refl _
    · exact Nat.zero_le _

theorem nextNum_lt : ∀ {ss : List Str}, (∀ s ∈ ss, ∀ n, atoi (s.drop n) < 65535) →
    (nextNum ss).1 < 65536
  | [], _ => by decide
  | s :: ss, h => by
    have hs := h s List.mem_cons_self 0
    have hle := tokenDigit_le s
    rw [List.drop_zero] at hs
    rw [nextNum]
    split
    · show tokenDigit s < 65536
      omega
    · show 1 < 65536
      omega

theorem nameFirst_elementParts : ∀ {ps : List Part}, NameFirst (ps.map Prod.snd) →
    NameFirst (ps.flatMap fun p => elementPart p.2)
  | [], _ => fun t ht => absurd ht (by simp)
  | p :: ps, h => by
    rw [List.flatMap_cons]
    cases hs : isNumbered p.2 with
    | false =>
      rw [elementPart_plain hs]
      exact nameFirst_cons (h p.2 rfl) _
    | true =>
      obtain ⟨k, hk, -, -, -, heq, -⟩ := isNumbered_cases hs
      rw [heq]
      exact nameFirst_cons (tokenDigit_of_key (mem_legacyKeys hk) (List.prefix_refl k)) _

theorem lower_key {k : Str} (hk : k ∈ legacyKeys) : cfgStrToLower k = k := by
  revert k
  decide

theorem NumbersSmall.tail {s : Str} {ss : List Str} (h : NumbersSmall tt st index (s :: ss)) :
    NumbersSmall tt st index ss :=
  ⟨fun x hx => h.names x (List.mem_cons_of_mem _ hx), h.web⟩

/-- A name in a place where it is not looked for is not split by the other function either. -/
theorem SameBelow.plain_name (h : SameBelow tt free ts us ns) (hne : ts ≠ []) {s : Str}
    (hp : PartOk (none, s)) (hsmall : ∀ n, atoi (s.drop n) < 65535) {l l' : List Str}
    (hl : (nextNum l).1 < 65536) {c c' : List (CfgTypePtr × Nat)}
    (hc : below tt none (ts ++ s :: l) = some c)
    (hc' : below tt none (us ++ (elementPart s ++ l')) = some c')
    (hids : c.map linkOid = c'.map linkOid) : isNumbered s = false := by
  by_contra hs
  rw [Bool.not_eq_false] at hs
  obtain ⟨k, hk, hpre, hsk, hpos, heq, -⟩ := isNumbered_cases hs
  have hmem := mem_legacyKeys hk
  have hlt := hsmall k.length
  rw [heq, List.cons_append, List.cons_append, List.nil_append] at hc'
  obtain ⟨ch, t, t', hch, ht, ht', hoid⟩ := h.next_link (tokenDigit_of_key hmem hpre)
    (tokenDigit_of_key hmem (List.prefix_refl k)) hc hc' hids
  obtain ⟨u, hu, hlast⟩ := below_last hch hne
  have hsucc := intSucc_eq (n := atoi (s.drop k.length)) (by omega) (by simp only [intMax]; omega)
  have hdig := @tokenDigit_fmtInt (atoi (s.drop k.length) + 1) (by omega)
    (by simp only [intMax]; omega)
  rw [hsucc, nextNum_number (by omega), hdig] at hoid
  have hlow := (link_unique (by rw [hlast]; simpa using hu) hp.token (isToken_key hmem) ht ht' hl
    (by omega) hoid).1
  have hlower : cfgStrToLower s = s := hp.lower
  rw [hlower, lower_key hmem] at hlow
  exact hsk hlow

/-- A name that is taken for an instance gets a number other than zero, and no number follows. -/
theorem SameBelow.key_number (h : SameBelow tt free ts us ns) {k s : Str}
    (hk : tokenDigit k = 0) (hs : tokenDigit s = 0) (hsmall : ∀ n, atoi (s.drop n) < 65535)
    {n : Int} (hmax : n < 65536) {l l' : List Str} (hcount : nameCount l' ≤ nameCount l)
    {c c' : List (CfgTypePtr × Nat)} (hc : below tt none (ts ++ k :: fmtInt n :: l) = some c)
    (hc' : below tt none (us ++ (elementPart s ++ l')) = some c')
    (hids : c.map linkOid = c'.map linkOid) : 0 < n ∧ NameFirst l := by
  have hpos : 0 < n := by
    by_contra hn
    obtain ⟨ch, hch⟩ := below_of_append hc
    have hlen := congrArg List.length hids
    have hts := (length_below hch).symm.trans (length_below (h.here.1.symm.trans hch))
    rw [List.length_map, List.length_map, length_below hc, length_below hc', nameCount_append,
      nameCount_append, nameCount_append, nameCount_elementPart hsmall, nameCount_cons,
      nameCount_cons, nameCount_cons, if_pos hk, if_pos hs,
        if_pos (tokenDigit_fmtInt_le (by omega)),
      hts] at hlen
    simp only [nameCount, List.countP_nil] at hlen hcount
    omega
  refine ⟨hpos, ?_⟩
  intro d hd
  by_contra hdig
  cases l with
  | nil => exact absurd hd (by simp)
  | cons x l =>
    obtain rfl : x = d := by simpa using hd
    have hnum := tokenDigit_fmtInt hpos (by simp only [intMax]; omega)
    have hnone : parseChain (ts ++ k :: fmtInt n :: x :: l) = none := by
      have htwo := parseChain_two_numbers l (show tokenDigit (fmtInt n) ≠ 0 by omega) hdig
        (ts ++ [k])
      rwa [List.append_assoc] at htwo
    rw [below, hnone] at hc
    exact absurd hc (by simp)

/-- The two links that are made of a name that is taken for an instance are the same only if the
name is read alike. -/
theorem SameBelow.key_link (h : SameBelow tt free ts us ns) (hne : ts ≠ []) {k s : Str}
    (hp : PartOk (some k, s)) (hsmall : ∀ n, atoi (s.drop n) < 65535) {n : Int} (hpos : 0 < n)
    (hmax : n < 65536) {l l' : List Str} (hl' : NameFirst l')
    {c c' : List (CfgTypePtr × Nat)} (hc : below tt none (ts ++ k :: fmtInt n :: l) = some c)
    (hc' : below tt none (us ++ (elementPart s ++ l')) = some c')
    (hids : c.map linkOid = c'.map linkOid) :
    (isNumbered s = true → n = atoi (s.drop k.length) + 1) ∧
      (isNumbered s = false → s = k ∧ n = 1) := by
  obtain ⟨hmem, hpre⟩ := hp.key k rfl
  obtain ⟨hk, hs⟩ := hp.tokenDigit_key rfl
  have hdig := tokenDigit_fmtInt hpos (by simp only [intMax]; omega)
  constructor
  · intro hnum
    obtain ⟨k', hk', hpre', -, hpos', heq, -⟩ := isNumbered_cases hnum
    obtain rfl := key_unique hk' hmem hpre' hpre
    have hlt := hsmall k.length
    rw [heq, List.cons_append, List.cons_append, List.nil_append] at hc'
    obtain ⟨ch, t, t', hch, ht, ht', hoid⟩ := h.next_link hk hk hc hc' hids
    obtain ⟨u, hu, hlast⟩ := below_last hch hne
    have hsucc := intSucc_eq (n := atoi (s.drop k.length)) (by omega)
      (by simp only [intMax]; omega)
    have hdig' := @tokenDigit_fmtInt (atoi (s.drop k.length) + 1) (by omega)
      (by simp only [intMax]; omega)
    rw [hsucc, nextNum_number (by omega), nextNum_number (by omega), hdig, hdig'] at hoid
    have heq := (link_unique (by rw [hlast]; simpa using hu) (isToken_key hmem) (isToken_key hmem)
      ht ht' (by omega) (by omega) hoid).2
    omega
  · intro hplain
    rw [elementPart_plain hplain, List.cons_append, List.nil_append] at hc'
    obtain ⟨ch, t, t', hch, ht, ht', hoid⟩ := h.next_link hk hs hc hc' hids
    obtain ⟨u, hu, hlast⟩ := below_last hch hne
    rw [nextNum_number (by omega), nextNum_nameFirst hl', hdig] at hoid
    obtain ⟨hlow, hone⟩ := link_unique (by rw [hlast]; simpa using hu) (isToken_key hmem) hp.token
      ht ht' (by omega) (show 1 < 65536 by omega) hoid
    have hlower : cfgStrToLower s = s := hp.lower
    rw [hlower, lower_key hmem] at hlow
    exact ⟨hlow.symm, by omega⟩

/-- The type that a prefix of followed components leads to. -/
theorem SameBelow.exists_typeAt (h : SameBelow tt free ts us ns) (htok : ∀ t ∈ ts ++ ns, IsToken t)
    (hlen : ts.length < cfgMaxNodeLevel) (hle : ns.length ≤ ts.length) (hne : ts ≠ [])
    {l : List Str} {c : List (CfgTypePtr × Nat)} (hc : below tt none (ts ++ l) = some c) :
    ∃ t, TypeAt tt ns t ∧ TypeAt tt ts t := by
  obtain ⟨ch, hch⟩ := below_of_append hc
  obtain ⟨t, -, ht⟩ := below_last hch hne
  have hat : TypeAt tt ts t := by
    rw [typeAt_iff (fun t ht => htok t (List.mem_append_left _ ht)) hlen, hch]
    exact ht
  exact ⟨t, (h.typeAt htok hlen (by omega)).mpr hat, hat⟩

theorem isToken_concat {s : Str} (htok : ∀ t ∈ ts ++ ns, IsToken t) (hs : IsToken s) :
    ∀ t ∈ (ts ++ [s]) ++ (ns ++ [s]), IsToken t := by
  simp only [List.mem_append, List.mem_singleton] at htok ⊢
  rintro t ((ht | rfl) | ht | rfl)
  · exact htok t (.inl ht)
  · exact hs
  · exact htok t (.inr ht)
  · exact hs

theorem isToken_step {k s : Str} (htok : ∀ t ∈ ts ++ ns, IsToken t) (hk : IsToken k)
    (hs : IsToken s) : ∀ t ∈ (ts ++ [k, s]) ++ (ns ++ [k]), IsToken t := by
  simp only [List.mem_append, List.mem_cons, List.not_mem_nil, or_false] at htok ⊢
  rintro t ((ht | rfl | rfl) | ht | rfl)
  · exact htok t (.inl ht)
  · exact hk
  · exact hs
  · exact htok t (.inr ht)
  · exact hk

/-- **If both paths lead to the same ids, all parts are read alike.** -/
theorem partsAlike_of_oids : ∀ (ps : List Part) {ts us ns r : List Str} {free : Prop}
    {c c' : List (CfgTypePtr × Nat)}, SameBelow tt free ts us ns → ts ≠ [] →
    (∀ t ∈ ts ++ ns, IsToken t) → ts.length + 2 * ps.length < cfgMaxNodeLevel →
    ns.length ≤ ts.length → (∀ p ∈ ps, PartOk p) → NumbersSmall tt st index (ps.map Prod.snd) →
    free ∨ NameFirst (ps.map Prod.snd) → legacyTokens tt st index ts ps = .ok r →
    below tt none r = some c →
    below tt none (us ++ ps.flatMap fun p => elementPart p.2) = some c' →
    c.map linkOid = c'.map linkOid → PartsAlike tt st index ns ps
  | [], _, _, _, _, _, _, _, _, _, _, _, _, _, _, _, _, _, _, _ => trivial
  | (none, s) :: ps, ts, us, ns, r, free, c, c', h, hne, htok, hlen, hle, hok, hsmall, hfirst, hr,
      hc, hc', hids => by
    have hp := hok _ List.mem_cons_self
    have hs := hsmall.names s List.mem_cons_self
    rw [List.length_cons] at hlen
    rw [legacyTokens] at hr
    obtain ⟨l, rfl, -, -, -, hnext, -⟩ := legacyTokens_tail hr
      (fun p hp => hok p (List.mem_cons_of_mem _ hp)) fun p hp =>
        hsmall.names p.2 (List.mem_map_of_mem (List.mem_cons_of_mem _ hp))
    have hl : (nextNum l).1 < 65536 := by
      rw [hnext]
      exact nextNum_lt fun x hx => hsmall.names x (List.mem_cons_of_mem _ hx)
    have hc₁ := hc
    rw [List.append_assoc] at hc₁
    rw [List.flatMap_cons] at hc'
    have hplain := h.plain_name hne hp hs hl hc₁ hc' hids
    have hstep := h.plain (s := s) (hfirst.imp_right fun hf => hf s rfl)
    have htok' := isToken_concat htok hp.token
    obtain ⟨t, hat, -⟩ := hstep.exists_typeAt htok'
      (by rw [List.length_append, List.length_singleton]; omega)
      (by rw [List.length_append, List.length_append, List.length_singleton]; omega) (by simp) hc
    refine ⟨⟨t, hat, hplain⟩, fun hsome => absurd hsome (by simp), ?_⟩
    refine partsAlike_of_oids ps hstep (by simp) htok' ?_ ?_
      (fun p hp => hok p (List.mem_cons_of_mem _ hp)) hsmall.tail (.inl trivial) hr hc ?_ hids
    · simp only [List.length_append, List.length_singleton]
      omega
    · simp only [List.length_append, List.length_singleton]
      omega
    · rw [List.append_assoc]
      rwa [elementPart_plain hplain] at hc'
  | (some k, s) :: ps, ts, us, ns, r, free, c, c', h, hne, htok, hlen, hle, hok, hsmall, hfirst, hr,
      hc, hc', hids => by
    have hp := hok _ List.mem_cons_self
    obtain ⟨hk, hs0⟩ := hp.tokenDigit_key rfl
    have hs := hsmall.names s List.mem_cons_self
    rw [List.length_cons] at hlen
    rw [legacyTokens] at hr
    cases hnum : cfgParseEntryPvcNumber tt st index (joinDots (ts ++ [k])) s with
    | error e =>
      rw [hnum] at hr
      exact absurd hr (by simp [bind, Except.bind])
    | ok n =>
      rw [hnum] at hr
      have hr : legacyTokens tt st index (ts ++ [k, fmtInt n]) ps = .ok r := hr
      obtain ⟨l, rfl, -, -, hcount, -, hfirst'⟩ := legacyTokens_tail hr
        (fun p hp => hok p (List.mem_cons_of_mem _ hp)) fun p hp =>
          hsmall.names p.2 (List.mem_map_of_mem (List.mem_cons_of_mem _ hp))
      rw [List.flatMap_cons] at hc'
      -- the type that is looked up for the number
      have hkey : SameBelow tt True (ts ++ [k]) (us ++ [k]) (ns ++ [k]) := h.plain (.inr hk)
      have htok' := isToken_concat htok (isToken_key (hp.key _ rfl).1)
      have hc₁ : below tt none (ts ++ [k] ++ fmtInt n :: l) = some c := by
        rw [List.append_assoc] at hc ⊢
        exact hc
      have hc₂ : below tt none (ts ++ k :: fmtInt n :: l) = some c := by
        rwa [List.append_assoc] at hc
      obtain ⟨t, hat, htype⟩ := hkey.exists_typeAt htok'
        (by rw [List.length_append, List.length_singleton]; omega)
        (by rw [List.length_append, List.length_append, List.length_singleton]; omega) (by simp) hc₁
      have hmax := number_lt htype hp.short hs (hsmall.web _) hnum
      obtain ⟨hpos, hlname⟩ := h.key_number hk hs0 hs hmax hcount hc₂ hc' hids
      have hname := hfirst'.mp hlname
      obtain ⟨hnumbered, hplain⟩ := h.key_link hne hp hs hpos hmax (nameFirst_elementParts hname)
        hc₂ hc' hids
      refine ⟨⟨t, hat, readAlike_of_number htype hp hs hnum hnumbered hplain⟩, fun _ => hname, ?_⟩
      have hlt := hs k.length
      have hstep := h.part hp hpos (by simp only [intMax]; omega)
        (fun hn => by
          have := hnumbered hn
          rw [intSucc_eq (by omega) (by simp only [intMax]; omega)]
          exact this) hplain
      refine partsAlike_of_oids ps hstep (by simp) (isToken_step htok (isToken_key (hp.key _ rfl).1)
          (isToken_fmtInt (by omega))) ?_ ?_ (fun p hp => hok p (List.mem_cons_of_mem _ hp))
        hsmall.tail (.inr hname) hr hc ?_ hids
      · simp only [List.length_append, List.length_cons, List.length_nil]
        omega
      · simp only [List.length_append, List.length_cons, List.length_nil]
        omega
      · rwa [List.append_assoc]

end Necessary

/-! ## Alike is sufficient -/

section Sufficient

variable {tt : TypeTree} {st : ObjState} {index : Nat → List Str}

/-- The number that is printed for a name that is read alike. -/
theorem number_of_readAlike {path s k : Str}
    {t : CfgTypePtr} (h : cfgTypeQuery tt path = .ok (some t))
    (hp : PartOk (some k, s)) (ha : ReadAlike tt st index t.1 k s) :
    ∃ n, cfgParseEntryPvcNumber tt st index path s = .ok n ∧ 0 < n ∧ n ≤ intMax ∧
      (isNumbered s = true → n = intSucc (atoi (s.drop k.length))) ∧
      (isNumbered s = false → s = k ∧ n = 1) := by
  obtain ⟨hk, hpre⟩ := hp.key k rfl
  rw [ReadAlike] at ha
  split at ha
  · next hs =>
    obtain ⟨hlt, hzero⟩ := ha
    obtain ⟨k', hk', hpre', -, hpos, -, hrow⟩ := isNumbered_cases hs
    obtain rfl := key_unique hk' hk hpre' hpre
    have hsucc := intSucc_eq (n := atoi (s.drop k.length)) (by omega) hlt
    refine ⟨intSucc (atoi (s.drop k.length)), ?_, by omega, by omega, fun _ => rfl,
      fun hn => absurd hs (by simp [hn])⟩
    rw [cfgParseEntryPvcNumber_eq h (hrow hp.short)]
    split
    · next hmult =>
      rw [hzero hmult]
      rfl
    · rfl
  · next hs =>
    obtain ⟨rfl, hweb⟩ := ha
    refine ⟨1, ?_, by decide, by decide, fun hn => absurd hn hs, fun _ => ⟨rfl, rfl⟩⟩
    rw [cfgParseEntryPvcNumber_eq h (rowNumber_key hk)]
    split
    · rfl
    · next hmult =>
      by_cases hrai : s = "rai".toList
      · rw [if_pos hrai]
        rfl
      · rw [if_neg hrai]
        exact hweb (by simpa using hmult) hrai

/-- **If all parts are read alike, both paths lead to the same chain.** -/
theorem oids_of_partsAlike : ∀ (ps : List Part) {ts us ns : List Str} {free : Prop}
    {ch : List (CfgTypePtr × Nat)}, SameBelow tt free ts us ns → (∀ t ∈ ts ++ ns, IsToken t) →
    ts.length + 2 * ps.length < cfgMaxNodeLevel → ns.length ≤ ts.length → (∀ p ∈ ps, PartOk p) →
    free ∨ NameFirst (ps.map Prod.snd) → PartsAlike tt st index ns ps →
    below tt none ts = some ch →
    ∃ r c, legacyTokens tt st index ts ps = .ok r ∧ below tt none r = some c ∧
      below tt none (us ++ ps.flatMap fun p => elementPart p.2) = some c ∧
      (∀ t ∈ r, IsToken t) ∧ r.length ≤ ts.length + 2 * ps.length ∧ ts <+: r
  | [], ts, us, ns, free, ch, h, htok, _, _, _, _, _, hch =>
    ⟨ts, ch, rfl, hch, by simpa using h.here.1.symm.trans hch,
      fun t ht => htok t (List.mem_append_left _ ht), Nat.le_refl _, List.prefix_refl _⟩
  | (none, s) :: ps, ts, us, ns, free, ch, h, htok, hlen, hle, hok, hfirst, ha, hch => by
    have hp := hok _ List.mem_cons_self
    rw [List.length_cons] at hlen
    obtain ⟨⟨t, hat, hplain⟩, -, hrest⟩ := ha
    have hplain : isNumbered s = false := hplain
    have hstep := h.plain (s := s) (hfirst.imp_right fun hf => hf s rfl)
    have htok' := isToken_concat htok hp.token
    have hat := (hstep.typeAt htok'
      (by simp only [List.length_append, List.length_singleton]; omega)
      (by simp only [List.length_append, List.length_singleton]; omega)).mp hat
    rw [typeAt_iff (fun t ht => htok' t (List.mem_append_left _ ht))
      (by simp only [List.length_append, List.length_singleton]; omega)] at hat
    obtain ⟨ch', hch', -⟩ := Option.bind_eq_some_iff.mp hat
    obtain ⟨r, c, hr, hc, hc', hrtok, hrlen, hpre⟩ := oids_of_partsAlike ps hstep htok'
      (by simp only [List.length_append, List.length_singleton]; omega)
      (by simp only [List.length_append, List.length_singleton]; omega)
      (fun p hp => hok p (List.mem_cons_of_mem _ hp)) (.inl trivial) hrest hch'
    refine ⟨r, c, hr, hc, ?_, hrtok, ?_, (List.prefix_append _ _).trans hpre⟩
    · rw [List.flatMap_cons, elementPart_plain hplain, ← List.append_assoc]
      exact hc'
    · simp only [List.length_append, List.length_cons, List.length_nil] at hrlen ⊢
      omega
  | (some k, s) :: ps, ts, us, ns, free, ch, h, htok, hlen, hle, hok, hfirst, ha, hch => by
    have hp := hok _ List.mem_cons_self
    have hk := (hp.tokenDigit_key rfl).1
    have hkey := isToken_key (hp.key _ rfl).1
    rw [List.length_cons] at hlen
    obtain ⟨⟨t, hat, hread⟩, hname, hrest⟩ := ha
    have htype : SameBelow tt True (ts ++ [k]) (us ++ [k]) (ns ++ [k]) := h.plain (.inr hk)
    have htok' := isToken_concat htok hkey
    have hat : TypeAt tt (ts ++ [k]) t :=
      (htype.typeAt htok' (by simp only [List.length_append, List.length_singleton]; omega)
        (by simp only [List.length_append, List.length_singleton]; omega)).mp hat
    obtain ⟨n, hn, hpos, hmax, hnumbered, hplain⟩ := number_of_readAlike hat hp hread
    have hstep := h.part hp hpos hmax hnumbered hplain
    have htok'' := isToken_step htok hkey (isToken_fmtInt (n := n) (by
      simp only [intMax] at hmax
      omega))
    rw [typeAt_iff (fun t ht => htok' t (List.mem_append_left _ ht))
      (by simp only [List.length_append, List.length_singleton]; omega)] at hat
    obtain ⟨ch', hch'⟩ : ∃ ch', below tt none (ts ++ [k, fmtInt n]) = some ch' := by
      have hnum := @below_number_type tt _ _ hk
        (show tokenDigit (fmtInt n) ≠ 0 by rw [tokenDigit_fmtInt hpos hmax]; omega)
        (l := []) (fun _ hu => absurd hu (by simp)) ts
      rw [hat] at hnum
      obtain ⟨ch', hch', -⟩ := Option.bind_eq_some_iff.mp hnum
      exact ⟨ch', hch'⟩
    obtain ⟨r, c, hr, hc, hc', hrtok, hrlen, hpre⟩ := oids_of_partsAlike ps hstep htok''
      (by simp only [List.length_append, List.length_cons, List.length_nil]; omega)
      (by simp only [List.length_append, List.length_cons, List.length_nil]; omega)
      (fun p hp => hok p (List.mem_cons_of_mem _ hp)) (.inr (hname rfl)) hrest hch'
    refine ⟨r, c, ?_, hc, ?_, hrtok, ?_, (List.prefix_append _ _).trans hpre⟩
    · rw [legacyTokens, hn]
      exact hr
    · rw [List.flatMap_cons, ← List.append_assoc]
      exact hc'
    · simp only [List.length_append, List.length_cons, List.length_nil] at hrlen ⊢
      omega

end Sufficient

/-! ## Names of elements -/

/-- A name that an element can have: not empty, at most 31 bytes, without underscore or dot. -/
structure IsElemName (x : Str) : Prop where
  ne_nil : x ≠ []
  no_underscore : '_' ∉ x
  no_dot : '.' ∉ x
  short : x.length < cfgMaxTypeName

/-- The ids that the path for a legacy name leads to. -/
def legacyOids (tt : TypeTree) (st : ObjState) (index : Nat → List Str) (names : List Str) :
    Except Fault (Option (List Nat)) := do
  match ← cfgParseNodeName tt st index (List.intercalate ['_'] names) cfgMaxPathName with
  | none => .ok none
  | some path => cfgPathToOidArray tt path

/-- The ids that the path for elements below `ROMFILE` leads to. -/
def elementOids (tt : TypeTree) (names : List Str) : Except Fault (Option (List Nat)) := do
  let path ← cfgXmlNodeToPath tt (names.reverse ++ ["ROMFILE".toList])
  cfgPathToOidArray tt path

/-- Both paths lead to the same ids. -/
def SchemesAgree (tt : TypeTree) (st : ObjState) (index : Nat → List Str) (names : List Str) :
    Prop := ∃ ids, legacyOids tt st index names = .ok (some ids) ∧
      elementOids tt names = .ok (some ids)

/-- The names fit into their rows with a NUL, and each is read alike. -/
def AgreeCond (tt : TypeTree) (st : ObjState) (index : Nat → List Str) (names : List Str) : Prop :=
  (∀ x ∈ names, x.length < maxNodeName - 1) ∧
    PartsAlike tt st index ["root".toList] (nameParts (names.map cfgStrToLower))

instance (tt : TypeTree) (st : ObjState) (index : Nat → List Str) (names : List Str) :
    Decidable (AgreeCond tt st index names) :=
  inferInstanceAs (Decidable (_ ∧ _))

section Names

theorem not_mem_cfgStrToLower {x : Str} {d : Char} (hd : ¬ ('a' ≤ d ∧ d ≤ 'z')) (h : d ∉ x) :
    d ∉ cfgStrToLower x := by
  intro hm
  obtain ⟨c, hc, heq⟩ := List.mem_map.mp hm
  exact h (toLower_eq hd heq ▸ hc)

theorem length_cfgStrToLower (x : Str) : (cfgStrToLower x).length = x.length := List.length_map _

theorem IsElemName.lower {x : Str} (h : IsElemName x) : IsElemName (cfgStrToLower x) where
  ne_nil := by simpa [cfgStrToLower] using h.ne_nil
  no_underscore := not_mem_cfgStrToLower (by decide) h.no_underscore
  no_dot := not_mem_cfgStrToLower (by decide) h.no_dot
  short := by rw [length_cfgStrToLower]; exact h.short

theorem IsElemName.token {x : Str} (h : IsElemName x) : IsToken x := ⟨h.ne_nil, h.no_dot, h.short⟩

/-! ### Splitting a legacy name -/

theorem intercalate_cons (x : Str) : ∀ l : List Str,
    List.intercalate ['_'] (x :: l) = x ++ l.flatMap ('_' :: ·)
  | [] => by simp [List.intercalate]
  | y :: l => by
    have ih := intercalate_cons y l
    rw [List.intercalate] at ih ⊢
    rw [List.flatMap_cons, List.intersperse_cons_cons, List.flatten_cons, List.flatten_cons, ih]
    rfl

theorem span_name {x r : Str} (h : '_' ∉ x) :
    (x ++ '_' :: r).takeWhile (· != '_') = x ∧ (x ++ '_' :: r).dropWhile (· != '_') = '_' :: r := by
  have hp : ∀ c ∈ x, (c != '_') = true := fun c hc => by
    simpa using fun he : c = '_' => h (he ▸ hc)
  rw [List.takeWhile_append_of_pos hp, List.dropWhile_append_of_pos hp]
  simp

theorem span_names {x : Str} (h : '_' ∉ x) (l : List Str) :
    (x ++ l.flatMap ('_' :: ·)).takeWhile (· != '_') = x ∧
      (x ++ l.flatMap ('_' :: ·)).dropWhile (· != '_') = l.flatMap ('_' :: ·) := by
  cases l with
  | nil =>
    have hp : ∀ c ∈ x, (c != '_') = true := fun c hc => by
      simpa using fun he : c = '_' => h (he ▸ hc)
    rw [List.takeWhile_append_of_pos hp, List.dropWhile_append_of_pos hp]
    simp
  | cons y l =>
    rw [List.flatMap_cons, List.cons_append]
    exact span_name h

theorem dropWhile_name {x : Str} (hne : x ≠ []) (h : '_' ∉ x) (r : Str) :
    (x ++ r).dropWhile (· == '_') = x ++ r ∧ (x ++ r).takeWhile (· == '_') = [] := by
  cases x with
  | nil => exact absurd rfl hne
  | cons c x =>
    have hc : c ≠ '_' := fun hc => h (hc ▸ List.mem_cons_self)
    simp [hc]

theorem strtok_names : ∀ (l : List Str) (n : Nat), (∀ x ∈ l, IsElemName x) → l.length ≤ n →
    strtok '_' n (l.flatMap ('_' :: ·)) = l
  | [], 0, _, _ => rfl
  | [], n + 1, _, _ => rfl
  | x :: l, 0, _, hn => absurd hn (by simp)
  | x :: l, n + 1, h, hn => by
    have hx := h x List.mem_cons_self
    obtain ⟨hdrop, -⟩ := dropWhile_name hx.ne_nil hx.no_underscore (l.flatMap ('_' :: ·))
    obtain ⟨htake, hrest⟩ := span_names hx.no_underscore l
    have hlead : ((x :: l).flatMap ('_' :: ·)).dropWhile (· == '_') =
        x ++ l.flatMap ('_' :: ·) := by
      rw [List.flatMap_cons, List.cons_append, List.dropWhile_cons_of_pos (by simp), hdrop]
    have ih := strtok_names l n (fun y hy => h y (List.mem_cons_of_mem _ hy))
      (Nat.le_of_succ_le_succ hn)
    rw [strtok, hlead]
    cases hxl : x ++ l.flatMap ('_' :: ·) with
    | nil => exact absurd (List.append_eq_nil_iff.mp hxl).1 hx.ne_nil
    | cons c r =>
      dsimp only
      rw [← hxl, htake, hrest, ih]

/-- A legacy name is split into the names it was joined from. -/
theorem cfgParseSplitName_names {x : Str} {l : List Str} (h : ∀ y ∈ x :: l, IsElemName y)
    (hlen : l.length < maxNodeLevel) :
    cfgParseSplitName '_' (List.intercalate ['_'] (x :: l)) = x :: l := by
  have hx := h x List.mem_cons_self
  obtain ⟨hdrop, hlead⟩ := dropWhile_name hx.ne_nil hx.no_underscore (l.flatMap ('_' :: ·))
  obtain ⟨htake, hrest⟩ := span_names hx.no_underscore l
  rw [cfgParseSplitName, intercalate_cons, hdrop, hlead, htake, hrest,
    strtok_names l _ (fun y hy => h y (List.mem_cons_of_mem _ hy)) (by omega)]
  rfl

theorem cfgStrToLower_intercalate (x : Str) (l : List Str) :
    cfgStrToLower (List.intercalate ['_'] (x :: l)) =
      List.intercalate ['_'] ((x :: l).map cfgStrToLower) := by
  rw [List.map_cons, intercalate_cons, intercalate_cons, cfgStrToLower, List.map_append,
    List.map_flatMap, List.flatMap_map]
  rfl

theorem cfgStrToLower_idem (x : Str) : cfgStrToLower (cfgStrToLower x) = cfgStrToLower x := by
  rw [cfgStrToLower, cfgStrToLower, List.map_map]
  exact List.map_congr_left fun c _ => toLower_toLower c

/-! ### The path of a legacy name -/

variable {tt : TypeTree} {st : ObjState} {index : Nat → List Str}

theorem plainPath_short {ts : List Str} (hts : ts ≠ [])
    {s : Str} (hs : s.length < maxNodeName - 1) :
    plainPath (joinDots ts) s = .ok (joinDots (ts ++ [s])) := by
  rw [plainPath, rowString, if_neg (by omega), joinDots_concat s hts]
  rfl

theorem numberedPath_eq {ts : List Str} (hts : ts ≠ []) (k s : Str) :
    numberedPath tt st index (joinDots ts) k s =
      (legacyTokens tt st index ts [(some k, s)]).map joinDots := by
  have hk : joinDots ts ++ '.' :: k = joinDots (ts ++ [k]) := (joinDots_concat k hts).symm
  simp only [numberedPath, legacyTokens, hk]
  cases cfgParseEntryPvcNumber tt st index (joinDots (ts ++ [k])) s with
  | error e => rfl
  | ok n =>
    show Except.ok (joinDots (ts ++ [k]) ++ '.' :: fmtInt n) =
      .ok (joinDots (ts ++ [k, fmtInt n]))
    have happ : ts ++ [k, fmtInt n] = (ts ++ [k]) ++ [fmtInt n] := by simp
    rw [happ, joinDots_concat (fmtInt n) (by simp)]

theorem nasRow_eq {s : Str} (h : '.' ∉ s) : nasRow s = s := by
  have hp : ∀ c ∈ s, (c != '.') = true := fun c hc => by
    simpa using fun he : c = '.' => h (he ▸ hc)
  have hdrop : s.dropWhile (· != '.') = [] := by
    simpa using @List.dropWhile_append_of_pos _ _ s [] hp
  rw [nasRow, hdrop]

theorem secondLevel_eq {ts : List Str} (hts : ts ≠ []) (x : Str) {y : Str}
    (hy : y.length < maxNodeName - 1) (hdot : '.' ∉ y) :
    secondLevel tt st index (joinDots ts) x y =
      (legacyTokens tt st index ts [(secondKey x y, y)]).map joinDots := by
  have hplain : plainPath (joinDots ts) y =
      (legacyTokens tt st index ts [(none, y)]).map joinDots := plainPath_short hts hy
  simp only [secondLevel, secondKey, nasRow_eq hdot, hplain, numberedPath_eq hts]
  split
  · rfl
  split
  · rfl
  split
  · split
    · rfl
    split
    · rfl
    split <;> rfl
  · rfl

theorem thirdLevel_eq {ts : List Str} (hts : ts ≠ []) {z : Str} (hz : z.length < maxNodeName - 1) :
    thirdLevel tt st index (joinDots ts) z =
      (legacyTokens tt st index ts [(thirdKey z, z)]).map joinDots := by
  have hplain : plainPath (joinDots ts) z =
      (legacyTokens tt st index ts [(none, z)]).map joinDots := plainPath_short hts hz
  simp only [thirdLevel, thirdKey, hplain, numberedPath_eq hts]
  split <;> rfl

theorem legacyTokens_cons (ts : List Str) (p : Part) (ps : List Part) :
    legacyTokens tt st index ts (p :: ps) = (legacyTokens tt st index ts [p]).bind fun ts =>
      legacyTokens tt st index ts ps := by
  obtain ⟨k, s⟩ := p
  cases k with
  | none => rfl
  | some k =>
    simp only [legacyTokens]
    cases cfgParseEntryPvcNumber tt st index (joinDots (ts ++ [k])) s <;> rfl

theorem legacyTokens_ne_nil {ts r : List Str} {ps : List Part} (hts : ts ≠ [])
    (h : legacyTokens tt st index ts ps = .ok r) : r ≠ [] := by
  induction ps generalizing ts with
  | nil =>
    obtain rfl := Except.ok.inj h
    exact hts
  | cons p ps ih =>
    obtain ⟨k, s⟩ := p
    cases k with
    | none => exact ih (by simp) h
    | some k =>
      rw [legacyTokens] at h
      cases hn : cfgParseEntryPvcNumber tt st index (joinDots (ts ++ [k])) s with
      | error e =>
        rw [hn] at h
        exact absurd h (by simp [bind, Except.bind])
      | ok n =>
        rw [hn] at h
        exact @ih (ts ++ [k, fmtInt n]) (by simp) h

theorem length_flatMap_names : ∀ {l : List Str}, (∀ y ∈ l, IsElemName y) →
    (l.flatMap ('_' :: ·)).length ≤ 32 * l.length
  | [], _ => Nat.zero_le _
  | y :: l, h => by
    have hy := (h y List.mem_cons_self).short
    have hl := length_flatMap_names fun z hz => h z (List.mem_cons_of_mem _ hz)
    simp only [List.flatMap_cons, List.length_append, List.length_cons, cfgMaxTypeName] at *
    omega

theorem length_intercalate_lt {x : Str} {l : List Str} (h : ∀ y ∈ x :: l, IsElemName y)
    (hlen : l.length ≤ 2) : (List.intercalate ['_'] (x :: l)).length < cfgMaxPathName := by
  have hx := (h x List.mem_cons_self).short
  have hl := length_flatMap_names fun y hy => h y (List.mem_cons_of_mem _ hy)
  rw [intercalate_cons, List.length_append]
  simp only [cfgMaxTypeName, cfgMaxPathName] at *
  omega

theorem rowsPath_eq (hroot : (cfgTypeGetRoot tt).1.name = "root".toList) {x : Str} {l : List Str}
    (h : ∀ y ∈ x :: l, IsElemName y) (hshort : ∀ y ∈ x :: l, y.length < maxNodeName - 1)
    (hlen : l.length ≤ 2) : rowsPath tt st index (x :: l) =
      (legacyTokens tt st index ["root".toList] (nameParts (x :: l))).map fun ts =>
        some (joinDots ts) := by
  have hfirst : plainPath (cfgTypeGetRoot tt).1.name x = .ok (joinDots ["root".toList, x]) := by
    rw [hroot]
    exact @plainPath_short ["root".toList] (by simp) _ (hshort x List.mem_cons_self)
  match l, hlen with
  | [], _ =>
    rw [rowsPath, hfirst]
    rfl
  | [y], _ =>
    have hy : y ∈ [x, y] := by simp
    simp only [rowsPath, hfirst, bind, Except.bind]
    rw [secondLevel_eq (by simp) x (hshort y hy) (h y hy).no_dot]
    show _ = (legacyTokens tt st index ["root".toList, x] [(secondKey x y, y)]).map _
    cases legacyTokens tt st index ["root".toList, x] [(secondKey x y, y)] <;> rfl
  | [y, z], _ =>
    have hy : y ∈ [x, y, z] := by simp
    have hz : z ∈ [x, y, z] := by simp
    simp only [rowsPath, hfirst, bind, Except.bind]
    rw [secondLevel_eq (by simp) x (hshort y hy) (h y hy).no_dot]
    show _ = (legacyTokens tt st index ["root".toList, x]
      [(secondKey x y, y), (thirdKey z, z)]).map _
    rw [legacyTokens_cons _ _ [(thirdKey z, z)]]
    cases hr : legacyTokens tt st index ["root".toList, x] [(secondKey x y, y)] with
    | error e => rfl
    | ok r =>
      show (thirdLevel tt st index (joinDots r) z).map some =
        (legacyTokens tt st index r [(thirdKey z, z)]).map _
      rw [thirdLevel_eq (legacyTokens_ne_nil (by simp) hr) (hshort z hz)]
      cases legacyTokens tt st index r [(thirdKey z, z)] <;> rfl

/-- **The path that `cfg_parse_node_name` makes of names that fit into their rows.** -/
theorem cfgParseNodeName_eq (hroot : (cfgTypeGetRoot tt).1.name = "root".toList) {names : List Str}
    (h : ∀ x ∈ names, IsElemName x) (hshort : ∀ x ∈ names, x.length < maxNodeName - 1)
    (hne : names ≠ []) (hlen : names.length ≤ 3) :
    cfgParseNodeName tt st index (List.intercalate ['_'] names) cfgMaxPathName =
      (legacyTokens tt st index ["root".toList] (nameParts (names.map cfgStrToLower))).bind fun ts =>
        if cfgMaxPathName ≤ (joinDots ts).length then .error .overrun
        else .ok (some (joinDots ts)) := by
  cases names with
  | nil => exact absurd rfl hne
  | cons x l =>
    rw [List.length_cons] at hlen
    have hlower : ∀ y ∈ (x :: l).map cfgStrToLower, IsElemName y ∧ y.length < maxNodeName - 1 := by
      intro y hy
      obtain ⟨z, hz, rfl⟩ := List.mem_map.mp hy
      exact ⟨(h z hz).lower, by rw [length_cfgStrToLower]; exact hshort z hz⟩
    have hfit := length_intercalate_lt h (by omega)
    have hsplit : cfgParseSplitName '_' (List.intercalate ['_'] ((x :: l).map cfgStrToLower)) =
        (x :: l).map cfgStrToLower :=
      cfgParseSplitName_names (fun y hy => (hlower y hy).1)
        (by rw [List.length_map, maxNodeLevel]; omega)
    have hrows : rowsPath tt st index ((x :: l).map cfgStrToLower) = _ :=
      rowsPath_eq hroot (fun y hy => (hlower y hy).1) (fun y hy => (hlower y hy).2)
        (by rw [List.length_map]; omega)
    rw [cfgParseNodeName, if_neg (by omega), if_neg (by omega), cfgStrToLower_intercalate, hsplit,
      hrows]
    rw [List.map_cons]
    cases legacyTokens tt st index ["root".toList]
      (nameParts (cfgStrToLower x :: l.map cfgStrToLower)) <;> rfl

/-! ### The path of elements -/

theorem entryToPath_eq (pre s : Str) : entryToPath pre s =
    if numberedAs pre s = true then pre ++ '.' :: fmtInt (intSucc (atoi (s.drop pre.length)))
    else s := by
  have hiff : (s.take pre.length = pre ∧ s[pre.length]?.any isDigit = true) ↔
      numberedAs pre s = true := by
    rw [numberedAs, Bool.and_eq_true, List.isPrefixOf_iff_prefix, List.prefix_iff_eq_take]
    exact and_congr_left fun _ => eq_comm
  simp only [entryToPath, hiff, intSucc]

theorem entryToPath_elementPart (s : Str) :
    entryToPath "pvc".toList (entryToPath "entry".toList s) = joinDots (elementPart s) := by
  rw [entryToPath_eq "entry".toList, elementPart]
  split
  · rw [entryToPath_eq, if_neg]
    · rfl
    · intro hpvc
      obtain ⟨c, r, heq, -⟩ := numberedAs_iff.mp hpvc
      exact absurd (List.cons.inj heq).1 (by decide)
  · rw [entryToPath_eq]
    split <;> rfl

theorem xmlNameToPath_eq (x : Str) : xmlNameToPath x =
    if x.length < maxNodeName - 1 then .ok (joinDots (elementPart (cfgStrToLower x)))
    else .error .uninit := by
  rw [xmlNameToPath, entryToPath_elementPart, maxNodeName, cfgMaxTypeName]
  split
  · rw [if_neg (by omega)]
  · rw [if_pos (by omega)]

theorem elementPart_ne_nil (s : Str) : elementPart s ≠ [] := by
  rw [elementPart]
  split
  · simp
  split <;> simp

theorem intercalate_joinDots (l : List (List Str)) (h : ∀ ts ∈ l, ts ≠ []) :
    List.intercalate ['.'] (l.map joinDots) = joinDots l.flatten := by
  induction l with
  | nil => rfl
  | cons ts l ih =>
    have hts := h ts List.mem_cons_self
    have ih := ih fun us hus => h us (List.mem_cons_of_mem _ hus)
    cases l with
    | nil => simp [List.intercalate]
    | cons us l =>
      have hus := h us (List.mem_cons_of_mem _ List.mem_cons_self)
      have hne : (us :: l).flatten ≠ [] := by
        rw [List.flatten_cons]
        exact fun hnil => hus (List.append_eq_nil_iff.mp hnil).1
      have hflat : (ts :: us :: l).flatten = ts ++ (us :: l).flatten := rfl
      rw [List.intercalate] at ih ⊢
      rw [List.map_cons, List.map_cons, List.intersperse_cons_cons, List.flatten_cons,
        List.flatten_cons, ← List.map_cons, ih, hflat, joinDots_append hts hne]
      rfl

/-- The rows of names that fit; any other name leaves a row without its NUL. -/
theorem mapM_xmlNameToPath : ∀ names : List Str, names.mapM xmlNameToPath =
    if ∀ x ∈ names, x.length < maxNodeName - 1 then
      .ok (names.map fun x => joinDots (elementPart (cfgStrToLower x)))
    else .error .uninit
  | [] => by simp [pure, Except.pure]
  | x :: names => by
    rw [List.mapM_cons, xmlNameToPath_eq, mapM_xmlNameToPath names]
    by_cases hx : x.length < maxNodeName - 1
    · rw [if_pos hx]
      by_cases hn : ∀ y ∈ names, y.length < maxNodeName - 1
      · rw [if_pos hn, if_pos (by simpa using ⟨hx, hn⟩)]
        rfl
      · have hno : ¬ ∀ y ∈ x :: names, y.length < maxNodeName - 1 := fun h =>
          hn fun y hy => h y (List.mem_cons_of_mem _ hy)
        rw [if_neg hn, if_neg hno]
        rfl
    · have hno : ¬ ∀ y ∈ x :: names, y.length < maxNodeName - 1 := fun h =>
        hx (h x List.mem_cons_self)
      rw [if_neg hx, if_neg hno]
      rfl

/-- **The path that `cfg_xml_node_to_path` makes of elements below the root element.** -/
theorem cfgXmlNodeToPath_eq (hroot : (cfgTypeGetRoot tt).1.name = "root".toList) {names : List Str}
    (hlen : names.length < cfgMaxNodeLevel) :
    cfgXmlNodeToPath tt (names.reverse ++ ["ROMFILE".toList]) =
      if ∀ x ∈ names, x.length < maxNodeName - 1 then
        .ok (joinDots ("root".toList ::
          (names.map cfgStrToLower).flatMap elementPart))
      else .error .uninit := by
  have htmp : ((names.reverse ++ ["ROMFILE".toList]).take cfgMaxNodeLevel).dropLast ++
      [(cfgTypeGetRoot tt).1.name] = (names.reverse ++ ["root".toList]) := by
    rw [List.take_of_length_le (by simp; omega), List.dropLast_concat, hroot]
  have hall : (∀ x ∈ names.reverse ++ ["root".toList], x.length < maxNodeName - 1) ↔
      ∀ x ∈ names, x.length < maxNodeName - 1 := by
    simp only [List.mem_append, List.mem_reverse, List.mem_singleton, or_imp, forall_and,
      forall_eq, and_iff_left_iff_imp]
    exact fun _ => by decide
  simp only [cfgXmlNodeToPath, htmp, mapM_xmlNameToPath, hall]
  split
  · show Except.ok _ = Except.ok _
    have hparts : (("root".toList :: names).map fun x => joinDots (elementPart (cfgStrToLower x))) =
        (["root".toList] :: names.map fun x => elementPart (cfgStrToLower x)).map joinDots := by
      rw [List.map_cons, List.map_cons, List.map_map]
      rfl
    rw [← List.map_reverse, List.reverse_append, List.reverse_reverse]
    rw [List.reverse_singleton, List.singleton_append, hparts, intercalate_joinDots]
    · rw [List.flatten_cons, List.flatMap_map]
      rfl
    · intro ts hts
      rcases List.mem_cons.mp hts with rfl | hts
      · simp
      · obtain ⟨x, -, rfl⟩ := List.mem_map.mp hts
        exact elementPart_ne_nil _
  · rfl

end Names

/-! ## When both paths lead to the same ids -/

section Agree

variable {tt : TypeTree} {st : ObjState} {index : Nat → List Str} {names : List Str}

theorem map_snd_nameParts {l : List Str} (hne : l ≠ []) (hlen : l.length ≤ 3) :
    (nameParts l).map Prod.snd = l := by
  match l, hlen with
  | [], _ => exact absurd rfl hne
  | [x], _ => rfl
  | [x, y], _ => rfl
  | [x, y, z], _ => rfl

theorem mem_secondKey {x y k : Str} (h : secondKey x y = some k) : k ∈ legacyKeys ∧ k <+: y := by
  have hmem : ∀ {k : Str}, k ∈ legacyKeys → rowStarts k y = true → k ∈ legacyKeys ∧ k <+: y :=
    fun hk hy => ⟨hk, List.isPrefixOf_iff_prefix.mp hy⟩
  rw [secondKey] at h
  split at h
  · next hy =>
    obtain rfl := Option.some.inj h
    exact hmem (by simp [legacyKeys]) hy
  split at h
  · next hy =>
    obtain rfl := Option.some.inj h
    exact hmem (by simp [legacyKeys]) hy
  split at h
  · split at h
    · exact absurd h (by simp)
    split at h
    · next hy =>
      obtain rfl := Option.some.inj h
      exact hmem (by simp [legacyKeys]) hy
    split at h
    · next hy =>
      obtain rfl := Option.some.inj h
      exact hmem (by simp [legacyKeys]) hy
    · exact absurd h (by simp)
  · exact absurd h (by simp)

theorem mem_thirdKey {z k : Str} (h : thirdKey z = some k) : k ∈ legacyKeys ∧ k <+: z := by
  rw [thirdKey] at h
  split at h
  · next hz =>
    obtain rfl := Option.some.inj h
    exact ⟨by simp [legacyKeys], List.isPrefixOf_iff_prefix.mp hz⟩
  · exact absurd h (by simp)

theorem key_nameParts {l : List Str} :
    ∀ p ∈ nameParts l, ∀ k ∈ p.1, k ∈ legacyKeys ∧ k <+: p.2 := by
  match l with
  | [] => simp [nameParts]
  | [x] => simp [nameParts]
  | [x, y] =>
    rintro p hp k hk
    simp only [nameParts, List.mem_cons, List.not_mem_nil, or_false] at hp
    rcases hp with rfl | rfl
    · exact absurd hk (by simp)
    · exact mem_secondKey hk
  | [x, y, z] =>
    rintro p hp k hk
    simp only [nameParts, List.mem_cons, List.not_mem_nil, or_false] at hp
    rcases hp with rfl | rfl | rfl
    · exact absurd hk (by simp)
    · exact mem_secondKey hk
    · exact mem_thirdKey hk
  | _ :: _ :: _ :: _ :: _ => simp [nameParts]

theorem partOk_nameParts (h : ∀ x ∈ names, IsElemName x)
    (hshort : ∀ x ∈ names, x.length < maxNodeName - 1) (hne : names ≠ [])
    (hlen : names.length ≤ 3) : ∀ p ∈ nameParts (names.map cfgStrToLower), PartOk p := by
  intro p hp
  have hmem : p.2 ∈ names.map cfgStrToLower := by
    rw [← @map_snd_nameParts (names.map cfgStrToLower) (by simpa using hne) (by simpa using hlen)]
    exact List.mem_map_of_mem hp
  obtain ⟨x, hx, hlow⟩ := List.mem_map.mp hmem
  refine ⟨?_, ?_, ?_, key_nameParts p hp⟩
  · rw [← hlow]
    exact (h x hx).lower.token
  · rw [← hlow, cfgStrToLower_idem]
  · rw [← hlow, length_cfgStrToLower]
    exact hshort x hx

theorem length_joinDots_le : ∀ {ts : List Str}, (∀ t ∈ ts, IsToken t) →
    (joinDots ts).length ≤ 32 * ts.length
  | [], _ => Nat.zero_le _
  | [t], h => by
    have ht := (h t List.mem_cons_self).short
    simp only [joinDots, List.length_singleton, cfgMaxTypeName] at *
    omega
  | t :: u :: ts, h => by
    have ht := (h t List.mem_cons_self).short
    have hrest := length_joinDots_le fun x hx => h x (List.mem_cons_of_mem t hx)
    simp only [joinDots, List.length_append, List.length_cons, cfgMaxTypeName] at *
    omega

theorem isToken_rootNames : ∀ t ∈ ["root".toList] ++ ["root".toList], IsToken t := by
  simp only [List.mem_append, List.mem_singleton, or_self]
  rintro t rfl
  exact ⟨by decide, by decide, by decide⟩

theorem below_root (hroot : (cfgTypeGetRoot tt).1.name = "root".toList) :
    below tt none ["root".toList] = some [(cfgTypeGetRoot tt, 1)] := by
  have hq : cfgTypeQueryChild tt none "root".toList = some (cfgTypeGetRoot tt) := by
    rw [cfgTypeQueryChild, hroot]
    rfl
  rw [below_name (by rfl), hq]
  rfl

/-- The ids of a legacy name are those of its components. -/
theorem legacyOids_iff (hroot : (cfgTypeGetRoot tt).1.name = "root".toList)
    (h : ∀ x ∈ names, IsElemName x) (hshort : ∀ x ∈ names, x.length < maxNodeName - 1)
    (hne : names ≠ []) (hlen : names.length ≤ 3) {ids : List Nat} :
    legacyOids tt st index names = .ok (some ids) ↔
      ∃ ts, legacyTokens tt st index ["root".toList] (nameParts (names.map cfgStrToLower)) = .ok ts ∧
        (joinDots ts).length < cfgMaxPathName ∧
        cfgPathToOidArray tt (joinDots ts) = .ok (some ids) := by
  rw [legacyOids, cfgParseNodeName_eq hroot h hshort hne hlen]
  cases legacyTokens tt st index ["root".toList] (nameParts (names.map cfgStrToLower)) with
  | error e => simp [Except.bind, bind]
  | ok ts =>
    simp only [Except.bind, bind, Except.ok.injEq, exists_eq_left']
    by_cases hfit : cfgMaxPathName ≤ (joinDots ts).length
    · simp [hfit, Nat.not_lt.mpr hfit]
    · simp [hfit, Nat.not_le.mp hfit]

/-- The ids of the elements are those of their components. -/
theorem elementOids_iff (hroot : (cfgTypeGetRoot tt).1.name = "root".toList)
    (h : ∀ x ∈ names, IsElemName x) (hlen : names.length ≤ 3) {ids : List Nat} :
    elementOids tt names = .ok (some ids) ↔
      (∀ x ∈ names, x.length < maxNodeName - 1) ∧
        ∃ ch, below tt none ("root".toList :: (names.map cfgStrToLower).flatMap elementPart) =
          some ch ∧ ids = ch.map linkOid := by
  have htok : ∀ t ∈ "root".toList :: (names.map cfgStrToLower).flatMap elementPart,
      IsToken t := by
    intro t ht
    rcases List.mem_cons.mp ht with rfl | ht
    · exact isToken_rootNames _ (by simp)
    · obtain ⟨y, hy, ht⟩ := List.mem_flatMap.mp ht
      obtain ⟨x, hx, rfl⟩ := List.mem_map.mp hy
      exact isToken_elementPart (h x hx).lower.token t ht
  have hcount : ("root".toList :: (names.map cfgStrToLower).flatMap elementPart).length <
      cfgMaxNodeLevel := by
    have hle := length_elementParts_le (names.map cfgStrToLower)
    rw [List.length_map] at hle
    rw [List.length_cons, cfgMaxNodeLevel]
    omega
  rw [← oidArray_iff htok (by simp) hcount, elementOids,
    cfgXmlNodeToPath_eq hroot (by rw [cfgMaxNodeLevel]; omega)]
  by_cases hshort : ∀ x ∈ names, x.length < maxNodeName - 1
  · simp only [if_pos hshort, bind, Except.bind]
    exact (and_iff_right hshort).symm
  · simp only [if_neg hshort, bind, Except.bind]
    exact iff_of_false (by simp) fun hand => hshort hand.1

/-- **The paths for legacy names and for element names lead to the same ids if every name is read
alike**, and, while no number is larger than an instance number, only then. -/
theorem legacy_agrees_iff (hroot : (cfgTypeGetRoot tt).1.name = "root".toList)
    (h : ∀ x ∈ names, IsElemName x) (hne : names ≠ []) (hlen : names.length ≤ 3) :
    (AgreeCond tt st index names → SchemesAgree tt st index names) ∧
      (NumbersSmall tt st index (names.map cfgStrToLower) →
        (SchemesAgree tt st index names ↔ AgreeCond tt st index names)) := by
  have hparts : (nameParts (names.map cfgStrToLower)).map Prod.snd = names.map cfgStrToLower :=
    map_snd_nameParts (by simpa using hne) (by simpa using hlen)
  have hflat : (nameParts (names.map cfgStrToLower)).flatMap (fun p => elementPart p.2) =
      (names.map cfgStrToLower).flatMap elementPart := by
    rw [← hparts, List.flatMap_map]
    rw [hparts]
  have hcount : (nameParts (names.map cfgStrToLower)).length = names.length := by
    rw [← List.length_map (f := Prod.snd), hparts, List.length_map]
  have hlength : ["root".toList].length + 2 * (nameParts (names.map cfgStrToLower)).length <
      cfgMaxNodeLevel := by
    rw [hcount, List.length_singleton, cfgMaxNodeLevel]
    omega
  have hsuff : AgreeCond tt st index names → SchemesAgree tt st index names := by
    rintro ⟨hshort, halike⟩
    have hok := partOk_nameParts h hshort hne hlen
    obtain ⟨r, c, hr, hc, hc', hrtok, hrlen, hpre⟩ := oids_of_partsAlike _
      (@sameBelow_refl tt True ["root".toList]) isToken_rootNames hlength (Nat.le_refl _) hok
      (.inl trivial) halike (below_root hroot)
    rw [hflat] at hc'
    have hrne : r ≠ [] := legacyTokens_ne_nil (by simp) hr
    have hfit := length_joinDots_le hrtok
    refine ⟨c.map linkOid, (legacyOids_iff hroot h hshort hne hlen).mpr ⟨r, hr, ?_,
      (oidArray_iff hrtok hrne (by omega)).mpr ⟨c, hc, rfl⟩⟩,
      (elementOids_iff hroot h hlen).mpr ⟨hshort, c, hc', rfl⟩⟩
    simp only [cfgMaxNodeLevel, cfgMaxPathName] at *
    omega
  refine ⟨hsuff, fun hsmall => ⟨?_, hsuff⟩⟩
  rintro ⟨ids, hlegacy, helement⟩
  obtain ⟨hshort, c', hc', rfl⟩ := (elementOids_iff hroot h hlen).mp helement
  obtain ⟨r, hr, -, hoids⟩ := (legacyOids_iff hroot h hshort hne hlen).mp hlegacy
  have hok := partOk_nameParts h hshort hne hlen
  rw [← hparts] at hsmall
  obtain ⟨l, hrl, hltok, hllen, -⟩ := legacyTokens_tail hr hok fun p hp =>
    hsmall.names p.2 (List.mem_map_of_mem hp)
  have hrtok : ∀ t ∈ r, IsToken t := by
    rw [hrl]
    intro t ht
    rcases List.mem_append.mp ht with ht | ht
    · exact isToken_rootNames t (List.mem_append_left _ ht)
    · exact hltok t ht
  have hrlen : r.length < cfgMaxNodeLevel := by
    rw [hrl, List.length_append]
    omega
  obtain ⟨c, hc, hids⟩ := (oidArray_iff hrtok (legacyTokens_ne_nil (by simp) hr) hrlen).mp hoids
  refine ⟨hshort, partsAlike_of_oids _ (@sameBelow_refl tt True ["root".toList]) (by simp)
    isToken_rootNames hlength (Nat.le_refl _) hok hsmall (.inl trivial) hr hc ?_ hids.symm⟩
  rw [hflat]
  exact hc'

end Agree

/-! ## Names that are saved -/

/-- Names of elements that `cfg_obj_save_tree` writes one below the other for objects below one of
type `p`. -/
def SavedBelow : CfgTypePtr → List Str → Prop
  | _, [] => True
  | p, x :: l => ∃ t n, p.2.findSib (fun s => s.id == t.1.id) = some t ∧
      t.1.hasFlag cfgTypeFlagMemory = false ∧ 0 < n ∧ n < 65536 ∧
      x = saveName t.1 ⟨0, mkOid t.1.id n, none, []⟩ ∧ SavedBelow t l

/-- A dynamic type of which there are many instances. -/
def multipleType (name : Str) : TypeInfo :=
  { name := name, create := true, flag := cfgTypeFlagMultiple }

/-- Types with the names that the two functions treat in their own way. -/
def namingTypes : TypeTree where
  decl := { name := "root".toList }
  subtype :=
    .node { name := "Wan".toList }
      (.node (multipleType "PVC".toList) (.node (multipleType "Entry".toList) .nil .nil) .nil)
    (.node { name := "Lan".toList }
      (.node (multipleType "BSR".toList) .nil
        (.node { name := "EntryMode".toList }
          (.node (multipleType "PVC".toList) .nil .nil)
          (.node { name := "Pool".toList } (.node (multipleType "PVC".toList) .nil .nil) .nil)))
    (.node (multipleType "Entry".toList) .nil
    (.node { name := "InfoVoIP".toList } (.node { name := "Rate".toList } .nil .nil)
    (.node { name := List.replicate 31 'a' } .nil .nil))))
  fits := by decide
  static := create_root

/-- The type of `namingTypes` at a place of the cache. -/
def namingType (n : Nat) : CfgTypePtr :=
  (namingTypes.types.entries[n]?).getD (cfgTypeGetRoot namingTypes)

theorem legacy_agrees_sample :
    SchemesAgree namingTypes (cfgObjLoadFromType namingTypes fun _ => true) (fun _ => [])
      ["Wan".toList, "PVC0".toList, "Entry1".toList] := by
  have hnames : ∀ x ∈ ["Wan".toList, "PVC0".toList, "Entry1".toList], IsElemName x := by
    intro x hx
    simp only [List.mem_cons, List.not_mem_nil, or_false] at hx
    rcases hx with rfl | rfl | rfl <;> exact ⟨by decide, by decide, by decide, by decide⟩
  have hsmall : NumbersSmall namingTypes (cfgObjLoadFromType namingTypes fun _ => true)
    (fun _ => [])
      (["Wan".toList, "PVC0".toList, "Entry1".toList].map cfgStrToLower) := by
    refine ⟨fun x hx n => ?_, fun t w hw => ?_⟩
    · have hall : ∀ x ∈ ["Wan".toList, "PVC0".toList, "Entry1".toList].map cfgStrToLower,
          x.length ≤ 6 ∧ ∀ n < 7, atoi (x.drop n) < 65535 := by decide
      obtain ⟨hlen, hlt⟩ := hall x hx
      rcases Nat.lt_or_ge n 7 with hn | hn
      · exact hlt n hn
      · rw [List.drop_eq_nil_of_le (by omega)]
        decide
    · obtain rfl := Except.ok.inj hw
      decide
  exact ((legacy_agrees_iff (by decide) hnames (by decide) (by decide)).2 hsmall).mpr
    (by decide +kernel)

/-- Names that are saved and read in two ways, or by no rule: an instance of a type that is called
neither `entry` nor `pvc`, a type whose name starts with `entry`, instances in first and third
place, a name behind one that starts with `info`, and a name of 31 bytes. -/
def unlikeNames : List (List Str) :=
  [["Lan".toList, "BSR0".toList], ["Lan".toList, "EntryMode".toList], ["Entry0".toList],
    ["Lan".toList, "Pool".toList, "PVC0".toList], ["InfoVoIP".toList, "Rate".toList],
    [List.replicate 31 'a']]

theorem savedBelow_unlikeNames :
    ∀ names ∈ unlikeNames, SavedBelow (cfgTypeGetRoot namingTypes) names := by
  intro names h
  simp only [unlikeNames, List.mem_cons, List.not_mem_nil, or_false] at h
  rcases h with rfl | rfl | rfl | rfl | rfl | rfl
  · exact ⟨namingType 4, 1, by decide +kernel, by decide, by decide, by decide, by decide +kernel,
      namingType 5, 1, by decide +kernel, by decide, by decide, by decide,
        by decide +kernel, trivial⟩
  · exact ⟨namingType 4, 1, by decide +kernel, by decide, by decide, by decide, by decide +kernel,
      namingType 6, 1, by decide +kernel, by decide, by decide, by decide,
        by decide +kernel, trivial⟩
  · exact ⟨namingType 10, 1, by decide +kernel, by decide, by decide, by decide, by decide +kernel,
      trivial⟩
  · exact ⟨namingType 4, 1, by decide +kernel, by decide, by decide, by decide, by decide +kernel,
      namingType 8, 1, by decide +kernel, by decide, by decide, by decide, by decide +kernel,
      namingType 9, 1, by decide +kernel, by decide, by decide, by decide,
        by decide +kernel, trivial⟩
  · exact ⟨namingType 11, 1, by decide +kernel, by decide, by decide, by decide, by decide +kernel,
      namingType 12, 1, by decide +kernel, by decide, by decide, by decide, by decide +kernel,
      trivial⟩
  · exact ⟨namingType 13, 1, by decide +kernel, by decide, by decide, by decide, by decide +kernel,
      trivial⟩

/-- The two ways to read these names do not lead to one place. -/
theorem unlikeNames_disagree : ∀ names ∈ unlikeNames,
    ¬ SchemesAgree namingTypes (cfgObjLoadFromType namingTypes fun _ =>
    true) (fun _ => []) names := by
  rintro names h ⟨ids, hlegacy, helement⟩
  have hall : ∀ names ∈ unlikeNames, (legacyOids namingTypes
      (cfgObjLoadFromType namingTypes fun _ => true) (fun _ => []) names = .ok none ∨
      elementOids namingTypes names = .error .uninit) := by decide +kernel
  rcases hall names h with hnone | herr
  · rw [hnone] at hlegacy
    exact absurd hlegacy (by simp)
  · rw [herr] at helement
    exact absurd helement (by simp)

theorem not_legacy_agrees :
    (¬ ∀ (tt : TypeTree) (st : ObjState) (index : Nat → List Str) (names : List Str),
      (cfgTypeGetRoot tt).1.name = "root".toList → SavedBelow (cfgTypeGetRoot tt) names →
      (∀ x ∈ names, x ≠ [] ∧ '_' ∉ x ∧ '.' ∉ x ∧ x.length ≤ 31) → names ≠ [] →
      names.length ≤ 3 → SchemesAgree tt st index names) ∧
    ∀ names ∈ unlikeNames, SavedBelow (cfgTypeGetRoot namingTypes) names ∧
      ¬ SchemesAgree namingTypes (cfgObjLoadFromType namingTypes fun _ => true) (fun _ => [])
        names := by
  refine ⟨fun h => ?_, fun names hn =>
    ⟨savedBelow_unlikeNames names hn, unlikeNames_disagree names hn⟩⟩
  have hmem : ["Lan".toList, "EntryMode".toList] ∈ unlikeNames := by simp [unlikeNames]
  exact unlikeNames_disagree _ hmem (h _ _ _ _ (by decide) (savedBelow_unlikeNames _ hmem)
    (by decide) (by decide) (by decide))

end OnuFirmware.Cfg
