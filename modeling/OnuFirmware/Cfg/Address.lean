import OnuFirmware.Cfg.Chain

/-!
# How far the ids of a path determine the path

`cfg_path_to_oid_array` packs a type id and an instance number into one word without checking that
the number fits into its half. As long as all numbers fit, two paths have the same ids exactly when
they name the same types, up to case, with the same numbers; a number that does not fit runs into
the type half.
-/

namespace OnuFirmware.Cfg

open Lib Clib

/-! ## What a path says -/

/-- The names of a path in lower case, with their instance numbers. -/
def namedChain (path : Str) : Option (List (Str × Nat)) :=
  (parseChain (tokensOf path).1).map (List.map fun l => (cfgStrToLower l.1, l.2))

/-- The instance numbers of a path, `1` where none is given. -/
def instances (path : Str) : List Nat :=
  ((parseChain (tokensOf path).1).getD []).map Prod.snd

/-- The pairs of type id and instance number that `cfg_path_to_oid_array` packs. -/
def builtFrom (tt : TypeTree) (path : Str) : List (Nat × Nat) :=
  match pathChain tt path with
  | none => []
  | some [] => [(0, 0)]
  | some ch => ch.map fun l => (l.1.1.id, l.2)

/-- Each id splits back into the type id and the instance number it was built from. -/
def SplitsBack (tt : TypeTree) (path : Str) (ids : List Nat) : Prop :=
  ids.map (fun oid => (cfgOidToTid oid, cfgOidToId oid)) = builtFrom tt path

/-- The ids of two paths tell them apart as the paths themselves do, and can be taken apart. -/
structure AddressFaithful (tt : TypeTree) (p q : Str) (ps qs : List Nat) : Prop where
  same : ps = qs ↔ namedChain p = namedChain q
  left : SplitsBack tt p ps
  right : SplitsBack tt q qs

/-! ## Names and types -/

theorem take_of_isToken {t : Str} (h : IsToken t) : t.take (cfgMaxTypeName - 1) = t :=
  List.take_of_length_le (by have := h.short; simp only [cfgMaxTypeName] at *; omega)

theorem cfgTypeCompare_token {s t : Str} (h : IsToken t) :
    cfgTypeCompare s t = true ↔ cfgStrToLower (s.take (cfgMaxTypeName - 1)) = cfgStrToLower t := by
  rw [cfgTypeCompare, take_of_isToken h, beq_iff_eq]

/-- Names that agree up to case are looked up alike. -/
theorem cfgTypeQueryChild_congr (tt : TypeTree) (node : Option CfgTypePtr) {x y : Str}
    (hx : IsToken x) (hy : IsToken y) (h : cfgStrToLower x = cfgStrToLower y) :
    cfgTypeQueryChild tt node x = cfgTypeQueryChild tt node y := by
  have hcmp : ∀ s, cfgTypeCompare s x = cfgTypeCompare s y := fun s => by
    rw [cfgTypeCompare, cfgTypeCompare, take_of_isToken hx, take_of_isToken hy, h]
  cases node <;> simp only [cfgTypeQueryChild, hcmp]

/-- A type that was found has the name asked for, up to case. -/
theorem cfgTypeQueryChild_name {tt : TypeTree} {node : Option CfgTypePtr} {x : Str}
    {t : CfgTypePtr} (hx : IsToken x) (h : cfgTypeQueryChild tt node x = some t) :
    cfgStrToLower (t.1.name.take (cfgMaxTypeName - 1)) = cfgStrToLower x := by
  rw [← cfgTypeCompare_token hx]
  cases node with
  | none =>
    simp only [cfgTypeQueryChild] at h
    split at h
    · next hc =>
      obtain rfl := Option.some.inj h
      exact hc
    · exact absurd h (by simp)
  | some p => exact (Lcrs.findSib_some h).2.2

theorem isToken_of_mem_parseChain : ∀ {ts : List Str} {g : List (Str × Nat)},
    (∀ t ∈ ts, IsToken t) → parseChain ts = some g → ∀ l ∈ g, IsToken l.1
  | [], g, _, h => by
    obtain rfl := Option.some.inj h
    simp
  | x :: ts, g, hts, h => by
    by_cases hx : tokenDigit x = 0
    swap
    · rw [parseChain_cons_digit hx] at h
      exact absurd h (by simp)
    rw [parseChain_cons hx] at h
    obtain ⟨g', hg, rfl⟩ := Option.map_eq_some_iff.mp h
    have hsub : ∀ t ∈ (nextNum ts).2, IsToken t := fun t ht =>
      hts t (List.mem_cons_of_mem x (mem_of_mem_nextNum ht))
    have hlen := length_nextNum_le ts
    intro l hl
    rcases List.mem_cons.mp hl with rfl | hl
    · exact hts x List.mem_cons_self
    · exact isToken_of_mem_parseChain hsub hg l hl
termination_by ts => ts.length
decreasing_by simp only [List.length_cons]; omega

/-- Chains with the same names up to case and the same numbers resolve alike. -/
theorem resolveChain_congr (tt : TypeTree) : ∀ {g g' : List (Str × Nat)}
    (node : Option CfgTypePtr), (∀ l ∈ g, IsToken l.1) → (∀ l ∈ g', IsToken l.1) →
    g.map (fun l => (cfgStrToLower l.1, l.2)) = g'.map (fun l => (cfgStrToLower l.1, l.2)) →
    resolveChain tt node g = resolveChain tt node g'
  | [], [], _, _, _, _ => rfl
  | [], _ :: _, _, _, _, h => by simp at h
  | _ :: _, [], _, _, _, h => by simp at h
  | (x, n) :: g, (y, m) :: g', node, hg, hg', h => by
    simp only [List.map_cons, List.cons.injEq, Prod.mk.injEq] at h
    obtain ⟨⟨hxy, rfl⟩, h⟩ := h
    rw [resolveChain, resolveChain, cfgTypeQueryChild_congr tt node
      (hg _ List.mem_cons_self) (hg' _ List.mem_cons_self) hxy]
    have ih := fun t => resolveChain_congr tt t
      (fun l hl => hg l (List.mem_cons_of_mem _ hl))
      (fun l hl => hg' l (List.mem_cons_of_mem _ hl)) h
    simp only [ih]

/-- The names of a chain can be read off the types it resolves to. -/
theorem resolveChain_names {tt : TypeTree} : ∀ {g : List (Str × Nat)} {node : Option CfgTypePtr}
    {ch : List (CfgTypePtr × Nat)}, (∀ l ∈ g, IsToken l.1) → resolveChain tt node g = some ch →
    g.map (fun l => (cfgStrToLower l.1, l.2)) =
      ch.map fun l => (cfgStrToLower (l.1.1.name.take (cfgMaxTypeName - 1)), l.2)
  | [], _, _, _, h => by
    obtain rfl := Option.some.inj h
    rfl
  | (x, n) :: g, node, ch, hg, h => by
    rw [resolveChain] at h
    split at h
    · exact absurd h (by simp)
    · next t ht =>
      obtain ⟨ch', hch, rfl⟩ := Option.map_eq_some_iff.mp h
      rw [List.map_cons, List.map_cons, cfgTypeQueryChild_name (hg _ List.mem_cons_self) ht,
        resolveChain_names (fun l hl => hg l (List.mem_cons_of_mem _ hl)) hch]

theorem resolveChain_mem {tt : TypeTree} : ∀ {g : List (Str × Nat)} {node : Option CfgTypePtr}
    {ch : List (CfgTypePtr × Nat)}, (∀ p ∈ node, p ∈ tt.types.entries) →
    resolveChain tt node g = some ch → ∀ l ∈ ch, l.1 ∈ tt.types.entries
  | [], _, _, _, h => by
    obtain rfl := Option.some.inj h
    simp
  | (x, n) :: g, node, ch, hn, h => by
    rw [resolveChain] at h
    split at h
    · exact absurd h (by simp)
    · next t ht =>
      obtain ⟨ch', hch, rfl⟩ := Option.map_eq_some_iff.mp h
      have hm := cfgTypeQueryChild_mem hn ht
      intro l hl
      rcases List.mem_cons.mp hl with rfl | hl
      · exact hm
      · exact resolveChain_mem (by simpa using hm) hch l hl

/-! ## Packing -/

theorem pathChain_some {tt : TypeTree} {path : Str} {ch : List (CfgTypePtr × Nat)}
    (h : pathChain tt path = some ch) :
    (tokensOf path).2 = .ok [] ∧ ∃ g, parseChain (tokensOf path).1 = some g ∧
      resolveChain tt none g = some ch ∧ (∀ l ∈ g, IsToken l.1) ∧
      ∀ l ∈ ch, l.1 ∈ tt.types.entries := by
  rw [pathChain] at h
  split at h
  · next hres =>
    obtain ⟨g, hg, hch⟩ := Option.bind_eq_some_iff.mp h
    exact ⟨hres, g, hg, hch, isToken_of_mem_parseChain (fun t => isToken_of_mem_pathTokens) hg,
      resolveChain_mem (by simp) hch⟩
  · exact absurd h (by simp)

theorem builtFrom_eq {tt : TypeTree} {path : Str} {ch : List (CfgTypePtr × Nat)}
    (h : pathChain tt path = some ch) (hne : ch ≠ []) :
    builtFrom tt path = ch.map fun l => (l.1.1.id, l.2) := by
  obtain ⟨l, ch, rfl⟩ := List.exists_cons_of_ne_nil hne
  simp only [builtFrom, h]

/-- An accepted path has a chain, and its ids are the packed links of the chain. -/
theorem accepted_chain {tt : TypeTree} {path : Str} {ids : List Nat}
    (h : cfgPathToOidArray tt path = .ok (some ids)) :
    ∃ ch, pathChain tt path = some ch ∧
      ids = (builtFrom tt path).map fun b => mkOid b.1 b.2 := by
  rcases cfgPathToOidArray_eq_some.mp h with ⟨rfl, rfl⟩ | ⟨ch, hch, hne, -, rfl⟩
  · exact ⟨[], rfl, rfl⟩
  · refine ⟨ch, hch, ?_⟩
    rw [builtFrom_eq hch hne, List.map_map]
    rfl

theorem namedChain_eq {tt : TypeTree} {path : Str} {ch : List (CfgTypePtr × Nat)}
    (h : pathChain tt path = some ch) : namedChain path =
      some (ch.map fun l => (cfgStrToLower (l.1.1.name.take (cfgMaxTypeName - 1)), l.2)) := by
  obtain ⟨-, g, hg, hch, htok, -⟩ := pathChain_some h
  rw [namedChain, hg, Option.map_some, resolveChain_names htok hch]

theorem instances_eq {tt : TypeTree} {path : Str} {ch : List (CfgTypePtr × Nat)}
    (h : pathChain tt path = some ch) : instances path = ch.map Prod.snd := by
  obtain ⟨-, g, hg, hch, htok, -⟩ := pathChain_some h
  have := congrArg (List.map Prod.snd) (resolveChain_names htok hch)
  simpa [instances, hg, List.map_map, Function.comp_def] using this

/-- A chain is determined by the ids of its types and its numbers. -/
theorem links_eq {tt : TypeTree} : ∀ {ch ch' : List (CfgTypePtr × Nat)},
    (∀ l ∈ ch, l.1 ∈ tt.types.entries) → (∀ l ∈ ch', l.1 ∈ tt.types.entries) →
    ch.map (fun l => (l.1.1.id, l.2)) = ch'.map (fun l => (l.1.1.id, l.2)) → ch = ch'
  | [], [], _, _, _ => rfl
  | [], _ :: _, _, _, h => by simp at h
  | _ :: _, [], _, _, h => by simp at h
  | (t, n) :: ch, (u, m) :: ch', hc, hc', h => by
    simp only [List.map_cons, List.cons.injEq, Prod.mk.injEq] at h
    obtain ⟨⟨hid, rfl⟩, h⟩ := h
    have htu : t = u := Lcrs.entry_unique tt.nodup_ids (hc _ List.mem_cons_self)
      (hc' _ List.mem_cons_self) hid
    rw [htu, links_eq (fun l hl => hc l (List.mem_cons_of_mem _ hl))
      (fun l hl => hc' l (List.mem_cons_of_mem _ hl)) h]

/-- What a path packs determines what it says, and the other way round. -/
theorem builtFrom_eq_iff {tt : TypeTree} {p q : Str} {ch ch' : List (CfgTypePtr × Nat)}
    (hp : pathChain tt p = some ch) (hq : pathChain tt q = some ch') :
    builtFrom tt p = builtFrom tt q ↔ namedChain p = namedChain q := by
  obtain ⟨-, g, -, hg, htok, hmem⟩ := pathChain_some hp
  obtain ⟨-, g', -, hg', htok', hmem'⟩ := pathChain_some hq
  rw [namedChain_eq hp, namedChain_eq hq]
  constructor
  · intro h
    suffices hch : ch = ch' by rw [hch]
    rw [builtFrom, builtFrom, hp, hq] at h
    cases ch with
    | nil =>
      cases ch' with
      | nil => rfl
      | cons l ch' =>
        have := (typeId_lt (hmem' l List.mem_cons_self)).1
        simp only [List.map_cons, List.cons.injEq, Prod.mk.injEq] at h
        omega
    | cons l ch =>
      cases ch' with
      | nil =>
        have := (typeId_lt (hmem l List.mem_cons_self)).1
        simp only [List.map_cons, List.cons.injEq, Prod.mk.injEq] at h
        omega
      | cons l' ch' => exact links_eq hmem hmem' h
  · intro h
    rw [Option.some.injEq, ← resolveChain_names htok hg, ← resolveChain_names htok' hg'] at h
    have hres := resolveChain_congr tt none htok htok' h
    rw [hg, hg', Option.some.injEq] at hres
    rw [builtFrom, builtFrom, hp, hq, hres]

/-- The ids of an accepted path can be taken apart exactly when its numbers fit. -/
theorem splitsBack_iff {tt : TypeTree} {path : Str} {ids : List Nat}
    (h : cfgPathToOidArray tt path = .ok (some ids)) :
    SplitsBack tt path ids ↔ ∀ n ∈ instances path, n < 65536 := by
  obtain ⟨ch, hch, rfl⟩ := accepted_chain h
  obtain ⟨-, -, -, -, -, hmem⟩ := pathChain_some hch
  rw [SplitsBack, instances_eq hch, List.map_map]
  cases ch with
  | nil => simp [builtFrom, hch, mkOid, cfgOidToTid, cfgOidToId]
  | cons l ch =>
    rw [builtFrom_eq hch (by simp)]
    simp only [List.map_map, List.map_inj_left, List.mem_map, forall_exists_index, and_imp,
      forall_apply_eq_imp_iff₂, Function.comp_apply, Prod.mk.injEq]
    refine forall₂_congr fun l hl => ?_
    have ht := (typeId_lt (hmem l hl)).2
    constructor
    · rintro ⟨-, h2⟩
      rw [← h2, cfgOidToId_mkOid]
      exact Nat.mod_lt _ (by decide)
    · exact fun hn => split_mkOid _ _ (by omega) hn

/-- **Two accepted paths are addressed faithfully exactly when every instance number in them fits
into the lower half of an id.** -/
theorem addressFaithful_iff {tt : TypeTree} {p q : Str} {ps qs : List Nat}
    (hp : cfgPathToOidArray tt p = .ok (some ps)) (hq : cfgPathToOidArray tt q = .ok (some qs)) :
    AddressFaithful tt p q ps qs ↔ ∀ n ∈ instances p ++ instances q, n < 65536 := by
  rw [List.forall_mem_append, ← splitsBack_iff hp, ← splitsBack_iff hq]
  constructor
  · exact fun h => ⟨h.left, h.right⟩
  · rintro ⟨hl, hr⟩
    refine ⟨?_, hl, hr⟩
    obtain ⟨ch, hch, hps⟩ := accepted_chain hp
    obtain ⟨ch', hch', hqs⟩ := accepted_chain hq
    rw [← builtFrom_eq_iff hch hch']
    constructor
    · rintro rfl
      rw [← hl, ← hr]
    · intro h
      rw [hps, hqs, h]

/-- A small type tree: `root`, below it the dynamic type `a`, below that the dynamic type `x`, and
below that the static type `y`. -/
def sampleTypes : TypeTree where
  decl := { name := "root".toList }
  subtype :=
    .node { name := "a".toList, create := true, flag := cfgTypeFlagMultiple }
      (.node { name := "x".toList, create := true, flag := cfgTypeFlagMultiple }
        (.node { name := "y".toList } .nil .nil) .nil) .nil
  fits := by decide
  static := create_root

theorem addressFaithful_sample :
    AddressFaithful sampleTypes "root.a.5".toList "ROOT.A.x.7".toList
      [mkOid 100 1, mkOid 101 5] [mkOid 100 1, mkOid 101 1, mkOid 102 7] :=
  (addressFaithful_iff (by decide) (by decide)).mpr (by decide)

/-- Instances `5` and `65541` of `a` have one address: the excess bit is already in the type id. -/
theorem not_addressFaithful : ¬ ∀ (tt : TypeTree) (p q : Str) (ps qs : List Nat),
    cfgPathToOidArray tt p = .ok (some ps) → cfgPathToOidArray tt q = .ok (some qs) →
    AddressFaithful tt p q ps qs := by
  intro h
  have hf := h sampleTypes "root.a.5".toList "root.a.65541".toList
    [mkOid 100 1, mkOid 101 5] [mkOid 100 1, mkOid 101 5] (by decide) (by decide)
  exact absurd (hf.same.mp rfl) (by decide)

end OnuFirmware.Cfg
