import OnuFirmware.Clib.Num
import OnuFirmware.Cfg.Parent

/-!
# Paths that are printed from names and numbers

Most callers print the path of an object with `snprintf`: type names, some with an instance number
behind them. `namedPath` is such a path, and `namedIds` the ids it leads to when `typeChain` knows
its names: a name without a number means instance `1` (`cfgPathToOidArray_named`).
-/

namespace OnuFirmware.Cfg

open Lib Clib

/-- A type name in a path, with the instance number behind it, if there is one. -/
abbrev PathName := Str × Option Nat

/-- The components of a path of names. -/
def nameTokens : List PathName → List Str
  | [] => []
  | (x, none) :: l => x :: nameTokens l
  | (x, some n) :: l => x :: fmtNat n :: nameTokens l

/-- The path that is printed for names and numbers. -/
def namedPath (l : List PathName) : Str := joinDots (nameTokens l)

/-- The instance number that a name stands for. -/
def PathName.number (x : PathName) : Nat := x.2.getD 1

/-- A name that a path can spell, and a number that `atoi` reads back. -/
structure PathName.Ok (x : PathName) : Prop where
  token : IsToken x.1
  name : tokenDigit x.1 = 0
  pos : 0 < x.number
  small : x.number ≤ intMax

/-- The types that names lead to, from `node` downwards. -/
def typeChain (tt : TypeTree) : Option CfgTypePtr → List Str → Option (List CfgTypePtr)
  | _, [] => some []
  | node, name :: names =>
    match cfgTypeQueryChild tt node name with
    | none => none
    | some t => (typeChain tt (some t) names).map (t :: ·)

/-- The ids of the objects on the way down a path of names. -/
def namedIds (ts : List CfgTypePtr) (l : List PathName) : List Nat :=
  List.zipWith (fun t x => mkOid t.1.id x.number) ts l

theorem ok_name {x : Str} (h : IsToken x) (hd : tokenDigit x = 0) : PathName.Ok (x, none) :=
  ⟨h, hd, Nat.one_pos, Nat.succ_le_succ (Nat.zero_le _)⟩

theorem ok_number {x : Str} {n : Nat} (h : IsToken x) (hd : tokenDigit x = 0) (hn : 0 < n)
    (hs : n ≤ intMax) : PathName.Ok (x, some n) := ⟨h, hd, hn, hs⟩

/-- A name that a path can spell, as a condition to evaluate. -/
def isPathName (x : Str) : Bool :=
  !x.isEmpty && x.all (· != '.') && decide (x.length < cfgMaxTypeName) && tokenDigit x == 0

theorem isToken_of_isPathName {x : Str} (h : isPathName x = true) :
    IsToken x ∧ tokenDigit x = 0 := by
  simp only [isPathName, Bool.and_eq_true, Bool.not_eq_true', List.isEmpty_eq_false_iff,
    decide_eq_true_eq, beq_iff_eq, List.all_eq_true, bne_iff_ne] at h
  exact ⟨⟨h.1.1.1, fun hd => h.1.1.2 _ hd rfl, h.1.2⟩, h.2⟩

/-- The condition on the components of a path, as one to evaluate. -/
theorem ok_of_isPathName {l : List PathName} (h : (l.map Prod.fst).all isPathName = true)
    (hn : ∀ n ∈ l.filterMap Prod.snd, 0 < n ∧ n ≤ intMax) : ∀ x ∈ l, x.Ok := by
  intro x hx
  obtain ⟨htok, hd⟩ := isToken_of_isPathName (List.all_eq_true.mp h x.1 (List.mem_map_of_mem hx))
  obtain ⟨x, n⟩ := x
  cases n with
  | none => exact ok_name htok hd
  | some n =>
    obtain ⟨hpos, hs⟩ := hn n (List.mem_filterMap.mpr ⟨_, hx, rfl⟩)
    exact ok_number htok hd hpos hs

/-! ## Printed numbers as components -/

/-- The text of a number other than zero does not start with a zero. -/
theorem fmtNat_head {n : Nat} (hn : 0 < n) : ∃ c s, fmtNat n = c :: s ∧ '1' ≤ c ∧ c ≤ '9' := by
  obtain ⟨c, s, hf, hc⟩ := fmtNat_cons n
  obtain ⟨h0, h9⟩ := isDigit_iff.mp hc
  refine ⟨c, s, hf, ?_, h9⟩
  by_contra h1
  -- otherwise the other digits alone give the number, which is then too small for its length
  have hz : c = '0' := by
    refine Char.le_antisymm (Char.not_lt.mp fun hlt => h1 ?_) h0
    have hlt : '0'.toNat < c.toNat := hlt
    show '1'.toNat ≤ c.toNat
    exact hlt
  have hdig : ∀ d ∈ s, isDigit d = true := fun d hd =>
    isDigit_of_mem_fmtNat (n := n) (hf ▸ List.mem_cons_of_mem c hd)
  have hval : digitsVal 0 s = n := by
    rw [← digitsVal_fmtNat n, hf, hz, digitsVal]
    rfl
  have hlen : (fmtNat n).length = s.length + 1 := by rw [hf, List.length_cons]
  have hlt := digitsVal_lt hdig
  rw [hval] at hlt
  cases s with
  | nil =>
    rw [digitsVal] at hval
    omega
  | cons d s =>
    have := (length_fmtNat_le (by simp)).mpr hlt
    omega

theorem tokenDigit_fmtNat {n : Nat} (hn : 0 < n) (h : n ≤ intMax) : tokenDigit (fmtNat n) = n := by
  obtain ⟨c, s, hf, hc⟩ := fmtNat_head hn
  rw [hf, tokenDigit, if_pos hc, ← hf, atoi_fmtNat h, Int.toNat_natCast]

theorem isToken_fmtNat {n : Nat} (h : n ≤ intMax) : IsToken (fmtNat n) where
  ne_nil := fmtNat_ne_nil n
  no_dot := fun hd => absurd (isDigit_of_mem_fmtNat hd) (by decide)
  short := by
    have := (length_fmtNat_le (n := n) (k := 10) (by decide)).mpr
      (by simp only [intMax] at h; omega)
    simp only [cfgMaxTypeName]
    omega

theorem isToken_nameTokens : ∀ {l : List PathName}, (∀ x ∈ l, x.Ok) →
    ∀ t ∈ nameTokens l, IsToken t
  | [], _, t, ht => absurd ht List.not_mem_nil
  | (x, none) :: l, h, t, ht => by
    rcases List.mem_cons.mp ht with rfl | ht
    · exact (h _ List.mem_cons_self).token
    · exact isToken_nameTokens (fun y hy => h y (List.mem_cons_of_mem _ hy)) t ht
  | (x, some n) :: l, h, t, ht => by
    have hx := h _ List.mem_cons_self
    rcases List.mem_cons.mp ht with rfl | ht
    · exact hx.token
    rcases List.mem_cons.mp ht with rfl | ht
    · exact isToken_fmtNat hx.small
    · exact isToken_nameTokens (fun y hy => h y (List.mem_cons_of_mem _ hy)) t ht

theorem nextNum_nameTokens {l : List PathName} (h : ∀ x ∈ l, x.Ok) :
    nextNum (nameTokens l) = (1, nameTokens l) := by
  cases l with
  | nil => rfl
  | cons x l =>
    have hx := (h x List.mem_cons_self).name
    obtain ⟨x, n⟩ := x
    cases n <;> rw [nameTokens, nextNum, if_neg (by simpa using hx)]

/-- The names and numbers are read back. -/
theorem parseChain_nameTokens : ∀ {l : List PathName}, (∀ x ∈ l, x.Ok) →
    parseChain (nameTokens l) = some (l.map fun x => (x.1, x.number))
  | [], _ => rfl
  | (x, none) :: l, h => by
    have hl : ∀ y ∈ l, y.Ok := fun y hy => h y (List.mem_cons_of_mem _ hy)
    rw [nameTokens, parseChain_cons (h _ List.mem_cons_self).name, nextNum_nameTokens hl,
      parseChain_nameTokens hl]
    rfl
  | (x, some n) :: l, h => by
    have hx := h _ List.mem_cons_self
    have hl : ∀ y ∈ l, y.Ok := fun y hy => h y (List.mem_cons_of_mem _ hy)
    have hpos : 0 < n := hx.pos
    have hn : tokenDigit (fmtNat n) = n := tokenDigit_fmtNat hpos hx.small
    rw [nameTokens, parseChain_cons hx.name, nextNum, if_pos (by omega), hn,
      parseChain_nameTokens hl]
    rfl

/-! ## The ids -/

theorem resolveChain_eq_typeChain (tt : TypeTree) :
    ∀ (l : List PathName) (node : Option CfgTypePtr),
    resolveChain tt node (l.map fun x => (x.1, x.number)) =
      (typeChain tt node (l.map Prod.fst)).map fun ts => ts.zip (l.map PathName.number)
  | [], _ => rfl
  | x :: l, node => by
    simp only [List.map_cons]
    rw [resolveChain, typeChain]
    cases cfgTypeQueryChild tt node x.1 with
    | none => rfl
    | some t =>
      dsimp only
      rw [resolveChain_eq_typeChain tt l, Option.map_map, Option.map_map]
      rfl

theorem typeChain_cons {tt : TypeTree} {node : Option CfgTypePtr} {name : Str} {names : List Str}
    {t : CfgTypePtr} {ts : List CfgTypePtr} (h : cfgTypeQueryChild tt node name = some t)
    (hts : typeChain tt (some t) names = some ts) :
    typeChain tt node (name :: names) = some (t :: ts) := by
  rw [typeChain, h]
  dsimp only
  rw [hts]
  rfl

theorem length_typeChain {tt : TypeTree} : ∀ {names : List Str} {node : Option CfgTypePtr}
    {ts : List CfgTypePtr}, typeChain tt node names = some ts → ts.length = names.length
  | [], _, _, h => by
    obtain rfl := Option.some.inj h
    rfl
  | name :: names, node, ts, h => by
    rw [typeChain] at h
    split at h
    · exact absurd h (by simp)
    · obtain ⟨ts', hts, rfl⟩ := Option.map_eq_some_iff.mp h
      rw [List.length_cons, List.length_cons, length_typeChain hts]

theorem pathChain_named {tt : TypeTree} {l : List PathName} (h : ∀ x ∈ l, x.Ok) :
    pathChain tt (namedPath l) =
      (typeChain tt none (l.map Prod.fst)).map fun ts => ts.zip (l.map PathName.number) := by
  rw [namedPath, pathChain_joinDots (isToken_nameTokens h), parseChain_nameTokens h,
    Option.bind_some, resolveChain_eq_typeChain]

/-- **A path of names leads to the ids of its types with its numbers.** -/
theorem cfgPathToOidArray_named {tt : TypeTree} {l : List PathName} {ts : List CfgTypePtr}
    (h : ∀ x ∈ l, x.Ok) (hne : l ≠ []) (hlen : l.length ≤ cfgMaxNodeLevel)
    (hts : typeChain tt none (l.map Prod.fst) = some ts) :
    cfgPathToOidArray tt (namedPath l) = .ok (some (namedIds ts l)) := by
  have hl := length_typeChain hts
  rw [List.length_map] at hl
  refine cfgPathToOidArray_eq_some.mpr (.inr ⟨ts.zip (l.map PathName.number), ?_, ?_, ?_, ?_⟩)
  · rw [pathChain_named h, hts]
    rfl
  · intro hz
    have hz := congrArg List.length hz
    have := List.length_pos_of_ne_nil hne
    simp only [List.length_zip, List.length_map, List.length_nil] at hz
    omega
  · simp only [List.length_zip, List.length_map]
    omega
  · rw [namedIds, List.zip, List.map_zipWith, List.zipWith_map_right]
    rfl

theorem length_nameTokens_le : ∀ l : List PathName, (nameTokens l).length ≤ 2 * l.length
  | [] => Nat.le_refl 0
  | (x, none) :: l => by
    have := length_nameTokens_le l
    simp only [nameTokens, List.length_cons]
    omega
  | (x, some n) :: l => by
    have := length_nameTokens_le l
    simp only [nameTokens, List.length_cons]
    omega

/-- The type at the end of a path of names. -/
theorem cfgTypeQuery_named {tt : TypeTree} {l : List PathName} {u : List CfgTypePtr}
    {t : CfgTypePtr} (h : ∀ x ∈ l, x.Ok) (hlen : 2 * l.length < cfgMaxNodeLevel)
    (hts : typeChain tt none (l.map Prod.fst) = some (u ++ [t])) :
    cfgTypeQuery tt (namedPath l) = .ok (some t) := by
  have hl := length_typeChain hts
  rw [List.length_map, List.length_append, List.length_singleton] at hl
  obtain ⟨l', x, rfl⟩ := (List.eq_nil_or_concat' l).resolve_left (by rintro rfl; simp at hl)
  refine cfgTypeQuery_eq_some.mpr ⟨?_, _, by rw [pathChain_named h, hts]; rfl, ?_⟩
  · rw [tokensOf, namedPath, pathTokens_joinDots _ _ (isToken_nameTokens h) (Nat.lt_succ_self _)]
    exact Nat.lt_of_le_of_lt (length_nameTokens_le _) hlen
  · have hlen' : u.length = (l'.map PathName.number).length := by
      rw [List.length_append, List.length_singleton] at hl
      rw [List.length_map]
      omega
    show lastNode none ((u ++ [t]).zip ((l' ++ [x]).map PathName.number)) = some t
    rw [List.map_append, List.zip_append hlen']
    exact lastNode_concat _ _ _

/-- A path with a name that is not found below the type in front of it. -/
theorem cfgTypeQuery_named_none {tt : TypeTree} {l : List PathName} (h : ∀ x ∈ l, x.Ok)
    (hts : typeChain tt none (l.map Prod.fst) = none) :
    cfgTypeQuery tt (namedPath l) = .ok none := by
  have hchain : pathChain tt (namedPath l) = none := by rw [pathChain_named h, hts, Option.map_none]
  have hok : ∃ o, cfgTypeQuery tt (namedPath l) = .ok o := by
    rw [cfgTypeQuery_eq_walk, tokensOf, namedPath,
      pathTokens_joinDots _ _ (isToken_nameTokens h) (Nat.lt_succ_self _)]
    exact queryWalk_ok _ _ _ _
  obtain ⟨o, ho⟩ := hok
  cases o with
  | none => exact ho
  | some t =>
    obtain ⟨-, ch, hch, -⟩ := cfgTypeQuery_eq_some.mp ho
    rw [hchain] at hch
    exact absurd hch (by simp)

/-! ## Telling ids apart -/

/-- Types that are found below one type under different names have different ids. -/
theorem typeId_ne {tt : TypeTree} {p t u : CfgTypePtr} {x y : Str} (hp : p ∈ tt.types.entries)
    (hx : IsToken x) (hy : IsToken y) (hxy : cfgStrToLower x ≠ cfgStrToLower y)
    (ht : cfgTypeQueryChild tt (some p) x = some t)
    (hu : cfgTypeQueryChild tt (some p) y = some u) : t.1.id ≠ u.1.id := by
  intro hid
  have hp' : ∀ q ∈ some p, q ∈ tt.types.entries := fun q hq => by
    obtain rfl := Option.some.inj hq
    exact hp
  have htu : t = u := Lcrs.entry_unique tt.nodup_ids (cfgTypeQueryChild_mem hp' ht)
    (cfgTypeQueryChild_mem hp' hu) hid
  rw [htu] at ht
  exact hxy ((cfgTypeQueryChild_name hx ht).symm.trans (cfgTypeQueryChild_name hy hu))

/-- An id determines the type and the instance number it is made of. -/
theorem mkOid_inj {a c m n : Nat} (ha : a < 65536) (hc : c < 65536) (hm : m < 65536)
    (hn : n < 65536) : mkOid a m = mkOid c n ↔ a = c ∧ m = n := by
  constructor
  · intro h
    have h1 := split_mkOid a m ha hm
    have h2 := split_mkOid c n hc hn
    rw [h] at h1
    exact ⟨h1.1.symm.trans h2.1, h1.2.symm.trans h2.2⟩
  · rintro ⟨rfl, rfl⟩
    rfl

end OnuFirmware.Cfg
