import OnuFirmware.Cfg.Run
import OnuFirmware.Filter.Commit

/-!
# Which objects a deleted filter rule takes along

The delete functions remove an entry and its twin on the other side. The ranges of the filter
entries are cut by comparisons that miss the last entry of each range: its path stays empty, and the
empty path is the root object. Where the tables of two builds differ in size, an entry has no twin,
a twin that is not looked for, or two of them. On the chain side the commit at the end may take
along the entries that a deletion on the pages listed. `filterDeleteOk_iff`,
`chainEntryDeleteOk_iff` and `chainDeleteOk_iff` say when exactly the entry and its twins go.
-/

namespace OnuFirmware.Filter

open Lib Clib Cfg

/-! ## A loop of deletions -/

section Steps

variable {tt : TypeTree} {st : ObjState}

theorem deleteObjects_removes (notes : List (List Nat)) : ∀ (l : List (Str × List Nat))
    {st : ObjState}, Rooted tt st → (∀ x ∈ l, LeadsTo tt x.1 x.2 ∧ x.2 ≠ []) →
    ∃ st', deleteObjects tt st (l.map Prod.fst) = .ok st' ∧
      Removes tt notes (fun ks => ∃ x ∈ l, x.2 <+: ks) st st'
  | [], st, h, _ => ⟨st, rfl, (Removes.refl h).congr fun ks => by simp⟩
  | x :: l, st, h, hl => by
    obtain ⟨hp, hne⟩ := hl x List.mem_cons_self
    obtain ⟨n, st₁, hdel, hrem⟩ := cfgObjDeleteObject_removes notes h hp hne
    obtain ⟨st₂, hloop, hrem₂⟩ := deleteObjects_removes notes l hrem.rooted fun y hy =>
      hl y (List.mem_cons_of_mem _ hy)
    refine ⟨st₂, ?_, (hrem.trans hrem₂).congr fun ks => by simp⟩
    rw [deleteObjects] at hloop ⊢
    rw [List.map_cons, List.foldlM_cons, hdel]
    exact hloop

end Steps

/-! ## Deleting a filter entry -/

section FilterEntry

variable {b : Build} {tt : TypeTree} (ht : FilterTypes tt) {st : ObjState} {e : Nat}

/-- The deletion removes exactly the filter entry `e` and the chain entries that are filled from
it. -/
def FilterDeleteOk (b : Build) (st : ObjState) (e : Nat) : Prop :=
  ∃ n st', cfgTypeIpmacfilterEntryFuncDelete b tt st (ipmacfilterEntryNNode e) = .ok (n, st') ∧
    Removes tt [] (fun ks => ht.filterIds e <+: ks ∨
      ∃ k i, FilledFrom b k i e ∧ ht.chainEntryIds k i <+: ks) st st'

/-- The number of a filter entry is inside one of the ranges, so that a path is printed. -/
def Named (b : Build) (e : Nat) : Prop :=
  e ≠ b.maxMacFilterRule ∧ e ≠ b.maxMacFilterRule + b.maxIpupFilterRule ∧
    (e = b.maxIpmacfilterRule → e < b.maxMacFilterRule + b.maxIpupFilterRule)

/-- When exactly the entry and its twins are removed. The last three fields are about entry numbers
for which a chain entry is deleted that is not filled, or filled but not deleted. -/
structure FilterCond (b : Build) (ht : FilterTypes tt) (st : ObjState) (e : Nat) : Prop where
  named : Named b e
  upBeyond : 2 * b.maxMacFilterRule < e → e < b.maxMacFilterRule + b.maxIpupFilterRule →
    attrsAt st.tree (ht.chainEntryIds 2 (e - b.maxMacFilterRule)) = none
  upAlso : b.maxMacFilterRule + b.maxIpupFilterRule < e → e ≤ 2 * b.maxMacFilterRule →
    attrsAt st.tree (ht.chainEntryIds 2 (e - b.maxMacFilterRule)) = none
  downBeyond : 2 * b.maxMacFilterRule + b.maxIpupFilterRule < e → e < b.maxIpmacfilterRule →
    attrsAt st.tree (ht.chainEntryIds 3 (e - b.maxMacFilterRule - b.maxIpupFilterRule)) = none

theorem filledFrom_iff {k i : Nat} : FilledFrom b k i e ↔
    (0 < i ∧ i ≤ b.maxMacFilterRule) ∧ ((k = 1 ∧ i = e) ∨ (k = 2 ∧ i + b.maxMacFilterRule = e) ∨
      (k = 3 ∧ i + b.maxMacFilterRule + b.maxIpupFilterRule = e)) := by
  rw [FilledFrom, chainEntries, List.mem_range'_1, Build.tr181FirewallChainEntryNum, syncedFilter]
  simp only [macFilterRuleFlag, ipUpFilterRuleFlag, ipDownFilterRuleFlag]
  refine and_congr (by omega) ?_
  by_cases h1 : k = 1
  · simp [h1]
  by_cases h2 : k = 2
  · simp [h2]
  by_cases h3 : k = 3
  · simp [h3]
  · simp [h1, h2, h3]

theorem not_printed (hn : ¬ Named b e) (hmax : e ≤ b.maxIpmacfilterRule) (k i : Nat) :
    ¬ Printed b k i e := by
  obtain ⟨hm, hu, hr⟩ := b.sizes
  rw [Named] at hn
  rw [Printed]
  omega

theorem exists_printed (he : 0 < e) (hmax : e ≤ b.maxIpmacfilterRule) (hn : Named b e) :
    ∃ k i, Printed b k i e := by
  obtain ⟨hm, hu, hr⟩ := b.sizes
  obtain ⟨h1, h2, h3⟩ := hn
  rcases Nat.lt_or_ge e b.maxMacFilterRule with hlt | hge
  · exact ⟨1, e, .inl ⟨rfl, rfl, hlt⟩⟩
  rcases Nat.lt_or_ge e (b.maxMacFilterRule + b.maxIpupFilterRule) with hlt | hge'
  · exact ⟨2, e - b.maxMacFilterRule, .inr (.inl (by omega))⟩
  · exact ⟨3, e - b.maxMacFilterRule - b.maxIpupFilterRule, .inr (.inr (by omega))⟩

theorem filledFrom_bounds {k i : Nat} (h : FilledFrom b k i e) :
    k < 65536 ∧ i < 65536 := by
  obtain ⟨hm, -, -⟩ := b.sizes
  rw [filledFrom_iff] at h
  omega

/-- The conditions on single chain entries, together. -/
theorem filterCond_iff (he : 0 < e) (hmax : e ≤ b.maxIpmacfilterRule) (hn : Named b e) :
    FilterCond b ht st e ↔ ∀ k i, ¬ (Printed b k i e ↔ FilledFrom b k i e) →
      attrsAt st.tree (ht.chainEntryIds k i) = none := by
  obtain ⟨hm, hu, hr⟩ := b.sizes
  obtain ⟨h1, h2, h3⟩ := id hn
  constructor
  · rintro ⟨-, hup, hup', hdown⟩ k i hne
    by_cases hp : Printed b k i e
    · have hf : ¬ FilledFrom b k i e := fun hf => hne (iff_of_true hp hf)
      rw [filledFrom_iff] at hf
      rcases hp with ⟨rfl, rfl, hlt⟩ | ⟨rfl, hi, hpos, hlt⟩ | ⟨rfl, hi, hpos, hlt⟩
      · exact absurd ⟨⟨he, by omega⟩, .inl ⟨rfl, rfl⟩⟩ hf
      · have hbig : ¬ i ≤ b.maxMacFilterRule := fun hle =>
          hf ⟨⟨hpos, hle⟩, .inr (.inl ⟨rfl, hi⟩)⟩
        obtain rfl : i = e - b.maxMacFilterRule := by omega
        exact hup (by omega) (by omega)
      · have hbig : ¬ i ≤ b.maxMacFilterRule := fun hle =>
          hf ⟨⟨hpos, hle⟩, .inr (.inr ⟨rfl, hi⟩)⟩
        obtain rfl : i = e - b.maxMacFilterRule - b.maxIpupFilterRule := by omega
        exact hdown (by omega) (by omega)
    · have hf : FilledFrom b k i e := (not_iff.mp hne).mp hp
      rw [filledFrom_iff] at hf
      rcases hf with ⟨⟨hpos, hle⟩, ⟨rfl, rfl⟩ | ⟨rfl, hi⟩ | ⟨rfl, hi⟩⟩
      · exact absurd (.inl ⟨rfl, rfl, by omega⟩) hp
      · have hbig : ¬ i < b.maxIpupFilterRule := fun hlt =>
          hp (.inr (.inl ⟨rfl, hi, hpos, hlt⟩))
        obtain rfl : i = e - b.maxMacFilterRule := by omega
        exact hup' (by omega) (by omega)
      · have hbig : ¬ e < b.maxIpmacfilterRule := fun hlt =>
          hp (.inr (.inr ⟨rfl, hi, hpos, hlt⟩))
        exact absurd (h3 (by omega)) (by omega)
  · intro h
    refine ⟨hn, fun ha hb => h _ _ fun hiff => ?_, fun ha hb => h _ _ fun hiff => ?_,
      fun ha hb => h _ _ fun hiff => ?_⟩
    · have hfill := hiff.mp (.inr (.inl (by omega)))
      rw [filledFrom_iff] at hfill
      omega
    · have hprint := hiff.mpr (filledFrom_iff.mpr (by omega))
      rw [Printed] at hprint
      omega
    · have hfill := hiff.mp (.inr (.inr (by omega)))
      rw [filledFrom_iff] at hfill
      omega

/-- Two chain entries are the same object if their numbers are the same. -/
theorem prefix_chainEntryIds_iff {k i k' i' : Nat} (hk : k < 65536)
    (hi : i < 65536) (hk' : k' < 65536) (hi' : i' < 65536) :
    ht.chainEntryIds k i <+: ht.chainEntryIds k' i' ↔ k' = k ∧ i' = i := by
  obtain ⟨hc, -⟩ := typeId_small (cfgTypeGetRoot_mem tt) ht.chains_eq
  obtain ⟨hv, hv'⟩ := typeId_small hc ht.chain_eq
  obtain ⟨-, hn'⟩ := typeId_small hv ht.chainEntry_eq
  constructor
  · intro h
    have heq := h.eq_of_length rfl
    simp only [FilterTypes.chainEntryIds, List.cons.injEq, and_true, true_and] at heq
    rw [mkOid_inj hv' hv' hk hk', mkOid_inj hn' hn' hi hi'] at heq
    exact ⟨heq.1.2.symm, heq.2.2.symm⟩
  · rintro ⟨rfl, rfl⟩
    exact List.prefix_refl _

theorem not_prefix_filterIds {n k i : Nat} : ¬ ht.filterIds n <+: ht.chainEntryIds k i := by
  rw [FilterTypes.filterIds, FilterTypes.chainEntryIds, List.cons_prefix_cons]
  exact fun h => filter_ne_chains ht h.1

theorem ne_none_above {tree : CfgNodeObj} {ids ks : List Nat} (h : (attrsAt tree ks).isSome)
    (hpre : ids <+: ks) : attrsAt tree ids ≠ none := fun hnone => by
  rw [attrsAt_eq_none_below hnone hpre] at h
  exact absurd h (by decide)

/-- **Deleting filter entry `e` removes exactly it and its twins if and only if the condition
holds.** -/
theorem filterDeleteOk_iff (h : Rooted tt st) (he : 0 < e) (hmax : e ≤ b.maxIpmacfilterRule) :
    FilterDeleteOk ht b st e ↔ FilterCond b ht st e := by
  obtain ⟨hm, hu, hr⟩ := b.sizes
  have hsmall : e ≤ intMax := by simp only [intMax]; omega
  by_cases hn : Named b e
  swap
  · -- the path is empty and the root object is deleted
    refine iff_of_false (fun hok => ?_) fun hc => hn hc.named
    obtain ⟨n, st', hdel, -⟩ := hok
    rw [entryFuncDelete_dangling h hsmall (not_printed hn hmax)] at hdel
    exact absurd hdel (by simp)
  obtain ⟨k, i, hp⟩ := exists_printed he hmax hn
  obtain ⟨hk, hk', hi, hi'⟩ := hp.bounds he
  obtain ⟨n, st', hdel, hrem⟩ := entryFuncDelete_printed ht [] h he hp
  rw [FilterDeleteOk, hrem.exists_iff hdel, filterCond_iff ht he hmax hn]
  constructor
  · intro hgone k' i' hne
    by_contra hpresent
    refine hne ?_
    have hbounds : Printed b k' i' e ∨ FilledFrom b k' i' e → k' < 65536 ∧ i' < 65536 := by
      rintro (hp' | hf)
      · exact ⟨(hp'.bounds he).2.1, (hp'.bounds he).2.2.2⟩
      · exact filledFrom_bounds hf
    have hiff := hgone _ (Option.ne_none_iff_isSome.mp hpresent)
    simp only [not_prefix_filterIds, or_false, false_or] at hiff
    constructor
    · intro hp'
      obtain ⟨hk₁, hi₁⟩ := hbounds (.inl hp')
      obtain ⟨k₂, i₂, hf, hpre⟩ := hiff.mp
        ((prefix_chainEntryIds_iff ht hk' hi' hk₁ hi₁).mpr (hp.unique hp'))
      obtain ⟨hk₂, hi₂⟩ := filledFrom_bounds hf
      obtain ⟨rfl, rfl⟩ := (prefix_chainEntryIds_iff ht hk₂ hi₂ hk₁ hi₁).mp hpre
      exact hf
    · intro hf
      obtain ⟨hk₁, hi₁⟩ := hbounds (.inr hf)
      obtain ⟨rfl, rfl⟩ := (prefix_chainEntryIds_iff ht hk' hi' hk₁ hi₁).mp
        (hiff.mpr ⟨k', i', hf, List.prefix_refl _⟩)
      exact hp
  · intro habsent ks hks
    refine or_comm.trans (or_congr_right ?_)
    constructor
    · intro hpre
      refine ⟨k, i, ?_, hpre⟩
      by_contra hf
      exact ne_none_above hks hpre (habsent k i fun hiff => hf (hiff.mp hp))
    · rintro ⟨k', i', hf, hpre⟩
      by_cases hp' : Printed b k' i' e
      · obtain ⟨rfl, rfl⟩ := hp.unique hp'
        exact hpre
      · exact absurd (habsent k' i' fun hiff => hp' (hiff.mpr hf)) (ne_none_above hks hpre)

end FilterEntry

/-! ## Deleting on the chain side -/

section Chain

variable {b : Build} {env : Env} {tt : TypeTree} (ht : FilterTypes tt) {st : ObjState} {k i : Nat}

/-- The ids of the filter or access control entry that is deleted with entry `i` of chain `k`. -/
def twinIds (b : Build) (ht : FilterTypes tt) (k i : Nat) : Option (List Nat) :=
  if k = aclFilterRuleFlag then some (ht.aclIds i) else (syncedFilter b k i).map ht.filterIds

/-- The twins of the entries `l` of chain `k`, and what is below them. -/
def TwinsGone (b : Build) (ht : FilterTypes tt) (k : Nat) (l ks : List Nat) : Prop :=
  ∃ i ∈ l, ∃ ids ∈ twinIds b ht k i, ids <+: ks

/-- What belongs to entry `i` of chain `k`: the entry and, if it is one that is filled, its twin. -/
def ChainEntryGone (b : Build) (ht : FilterTypes tt) (k i : Nat) (ks : List Nat) : Prop :=
  ht.chainEntryIds k i <+: ks ∨ TwinsGone b ht k ((chainEntries b).filter (· == i)) ks

/-- What belongs to chain `k`: the chain and the twins of the entries that are filled. -/
def ChainGone (b : Build) (ht : FilterTypes tt) (k : Nat) (ks : List Nat) : Prop :=
  ht.chainIds k <+: ks ∨ TwinsGone b ht k (chainEntries b) ks

/-- Exactly entry `i` of chain `k` is removed and, if the entry is one that is filled, its twin. -/
def ChainEntryDeleteOk (b : Build) (env : Env) (ht : FilterTypes tt) (st : ObjState) (k i : Nat) :
    Prop :=
  ∃ n st', cfgTypeFirewallchPvcEntryFuncDelete b env tt st (tr181FirewallchPvcEntryNode k i) =
      .ok (n, st') ∧ Removes tt ht.notes (ChainEntryGone b ht k i) st st'

/-- Exactly chain `k` is removed and the twins of the entries that are filled. -/
def ChainDeleteOk (b : Build) (env : Env) (ht : FilterTypes tt) (st : ObjState) (k : Nat) : Prop :=
  ∃ n st', cfgTypeFirewallchPvcFuncDelete b env tt st (chainNode k) = .ok (n, st') ∧
    Removes tt ht.notes (ChainGone b ht k) st st'

theorem twinIds_filter (hk : k = 1 ∨ k = 2 ∨ k = 3) :
    ∃ n, i ≤ n ∧ n ≤ i + 200 ∧ twinIds b ht k i = some (ht.filterIds n) ∧
      ipmacfilterNodeName b k i = snprintf maxlenNodeName (ipmacfilterEntryNNode n) := by
  obtain ⟨hm, hu, -⟩ := b.sizes
  rcases hk with rfl | rfl | rfl
  · exact ⟨i, Nat.le_refl i, by omega, rfl, rfl⟩
  · refine ⟨i + b.maxMacFilterRule, by omega, by omega, rfl, ?_⟩
    rw [Nat.cast_add]
    rfl
  · refine ⟨i + b.maxMacFilterRule + b.maxIpupFilterRule, by omega, by omega, rfl, ?_⟩
    rw [Nat.cast_add, Nat.cast_add]
    rfl

theorem not_chainEntryIds_prefix_twinIds {k' i' : Nat} {ids : List Nat}
    (hids : ids ∈ twinIds b ht k i) : ¬ ht.chainEntryIds k' i' <+: ids := by
  intro hpre
  rw [Option.mem_def, twinIds] at hids
  split at hids
  · obtain rfl := Option.some.inj hids
    rw [FilterTypes.aclIds, FilterTypes.chainEntryIds, List.cons_prefix_cons] at hpre
    exact acl_ne_chains ht hpre.1.symm
  · obtain ⟨n, -, rfl⟩ := Option.map_eq_some_iff.mp hids
    rw [FilterTypes.filterIds, FilterTypes.chainEntryIds, List.cons_prefix_cons] at hpre
    exact filter_ne_chains ht hpre.1.symm

theorem TwinsGone.mono {l ids ks : List Nat} (h : TwinsGone b ht k l ids) (hpre : ids <+: ks) :
    TwinsGone b ht k l ks := by
  obtain ⟨i, hi, ids', hids, hpre'⟩ := h
  exact ⟨i, hi, ids', hids, hpre'.trans hpre⟩

theorem not_twinsGone_state {l : List Nat} : ¬ TwinsGone b ht k l ht.stateIds := by
  rintro ⟨i, -, ids, hids, hpre⟩
  rw [twinIds] at hids
  split at hids
  · obtain rfl := Option.some.inj hids
    rw [FilterTypes.aclIds, FilterTypes.stateIds, List.cons_prefix_cons] at hpre
    exact acl_ne_state ht hpre.1
  · obtain ⟨n, -, rfl⟩ := Option.map_eq_some_iff.mp hids
    rw [FilterTypes.filterIds, FilterTypes.stateIds, List.cons_prefix_cons] at hpre
    exact filter_ne_state ht hpre.1

/-- The twins of the entries that are filled are other objects than `root.ipmacfilter.common`. -/
theorem not_twinsGone_common {l : List Nat} (hl : ∀ i ∈ l, i ∈ chainEntries b) :
    ¬ TwinsGone b ht k l ht.commonIds := by
  obtain ⟨hm, hu, -⟩ := b.sizes
  rintro ⟨i, hi, ids, hids, hpre⟩
  have hle := hl i hi
  rw [chainEntries, List.mem_range'_1, Build.tr181FirewallChainEntryNum] at hle
  rw [twinIds] at hids
  split at hids
  · obtain rfl := Option.some.inj hids
    rw [FilterTypes.aclIds, FilterTypes.commonIds, List.cons_prefix_cons] at hpre
    exact filter_ne_acl ht hpre.1.symm
  · obtain ⟨n, hn, rfl⟩ := Option.map_eq_some_iff.mp hids
    have heq := hpre.eq_of_length (by simp [FilterTypes.filterIds, FilterTypes.commonIds])
    refine filterIds_ne_commonIds ht ?_ heq
    rw [syncedFilter] at hn
    split_ifs at hn <;> simp only [Option.some.injEq] at hn <;> omega

/-- The entry numbers that the commit after a deletion in chain `k` takes up, from the attributes
before it. -/
def chainDeletes (b : Build) (env : Env) (ht : FilterTypes tt) (st : ObjState) (k : Nat) :
    List Nat :=
  if (k = macFilterRuleFlag ∨ k = ipUpFilterRuleFlag ∨ k = ipDownFilterRuleFlag) ∧
      env.lock ipmacfilterNode then
    commitDeletes b (attrsAt st.tree [mkOid ht.state.1.id 1]) (attrsAt st.tree ht.commonIds)
  else []

/-- A call that removes the twins of the entries `l` of chain `k` and commits: it takes up the
numbers listed in the state before, where it does not remove the object that lists them. -/
def TakesTwins (b : Build) (env : Env) (ht : FilterTypes tt) (k : Nat) (l : List Nat)
    (st : ObjState) (r : Except Fault ObjState) : Prop :=
  ∃ ns, Takes b tt ht.notes ns (fun ks => TwinsGone b ht k l ks ∨ Doomed b ht ns ks) st r ∧
    (¬ (TwinsGone b ht k l ht.commonIds ∧ attrsAt st.tree ht.commonIds ≠ none) →
      ns = chainDeletes b env ht st k)

/-- A loop of deletions and the commit after it. -/
theorem deleteTwins_takes {commit : ObjState → Except Fault ObjState} {node : Str} {t : CfgTypePtr}
    {name : Nat → Str} (ns : ObjState → List Nat) (h : Rooted tt st)
    (hstate : (attrsAt st.tree ht.stateIds).isSome)
    (hcommit : ∀ st₀ st₁, Rooted tt st₁ → Flagged ht st₁ →
      (∀ ids ≠ ht.stateIds, attrsAt st₁.tree ids = attrsAt st₀.tree ids) →
      Takes b tt ht.writeNotes (ns st₀) (Doomed b ht (ns st₀)) st₁ (commit st₁))
    (hns : ∀ st₀,
      attrsAt st₀.tree [mkOid ht.state.1.id 1] = attrsAt st.tree [mkOid ht.state.1.id 1] →
      attrsAt st₀.tree ht.commonIds = attrsAt st.tree ht.commonIds →
      (if env.lock node then ns st₀ else []) = chainDeletes b env ht st k)
    (hq : cfgTypeQuery tt node = .ok (some t)) (l : List Nat)
    (hl : ∀ i ∈ l, ∃ ids, twinIds b ht k i = some ids ∧ ids.length = 2 ∧ LeadsTo tt (name i) ids) :
    TakesTwins b env ht k l st (do
      let st ← deleteObjects tt st (l.map name)
      cfgTr181CommitObject env tt commit st node) := by
  have hl' : ∀ x ∈ l.map fun i => (name i, (twinIds b ht k i).getD []),
      LeadsTo tt x.1 x.2 ∧ x.2 ≠ [] := by
    intro x hx
    obtain ⟨i, hi, rfl⟩ := List.mem_map.mp hx
    obtain ⟨ids, hids, hlen, hp⟩ := hl i hi
    simp only [hids, Option.getD_some]
    exact ⟨hp, List.ne_nil_of_length_pos (by omega)⟩
  obtain ⟨st₁, hdel, hrem⟩ := deleteObjects_removes [] _ h hl'
  have hgone : ∀ ks, (∃ x ∈ l.map fun i => (name i, (twinIds b ht k i).getD []), x.2 <+: ks) ↔
      TwinsGone b ht k l ks := by
    intro ks
    simp only [List.mem_map, exists_exists_and_eq_and, TwinsGone]
    refine exists_congr fun i => and_congr_right fun hi => ?_
    obtain ⟨ids, hids, -⟩ := hl i hi
    simp [hids]
  have hrem := hrem.congr hgone
  have htakes : Takes b tt ht.notes (if env.lock node then ns st₁ else [])
      (Doomed b ht (if env.lock node then ns st₁ else [])) st₁
      (cfgTr181CommitObject env tt commit st₁ node) :=
    cfgTr181CommitObject_takes ht hrem.rooted
      (hrem.isSome hstate (not_twinsGone_state ht)) (hcommit st₁) hq
  rw [List.map_map] at hdel
  have hdel : deleteObjects tt st (l.map name) = .ok st₁ := hdel
  refine ⟨_, ⟨fun hall => ?_, fun hn => ?_⟩, fun hkeep => hns st₁ ?_ ?_⟩
  · obtain ⟨st₂, hcom, hrem₂⟩ := htakes.ok hall
    exact ⟨st₂, by rw [hdel]; exact hcom, (hrem.mono (List.nil_subset _)).trans hrem₂⟩
  · obtain ⟨f, hcom⟩ := htakes.fault hn
    exact ⟨f, by rw [hdel]; exact hcom⟩
  · -- a twin is not above `root.globalstate`
    refine hrem.attrs _ List.not_mem_nil ?_
    rintro ⟨i, hi, ids, hids, hpre⟩
    obtain ⟨ids', hids', hlen, -⟩ := hl i hi
    rw [hids'] at hids
    obtain rfl := Option.some.inj hids
    exact absurd hpre.length_le (by simp [hlen])
  · by_cases htwin : TwinsGone b ht k l ht.commonIds
    · have hnone : attrsAt st.tree ht.commonIds = none := by
        by_contra hsome
        exact hkeep ⟨htwin, hsome⟩
      rw [hnone, ← Option.not_isSome_iff_eq_none, hrem.objects]
      exact fun hsome => absurd hsome.1 (by simp [hnone])
    · exact hrem.attrs _ List.not_mem_nil htwin

theorem deleteFilterTwins_takes (h : Rooted tt st) (hstate : (attrsAt st.tree ht.stateIds).isSome)
    (hk : k = 1 ∨ k = 2 ∨ k = 3) (l : List Nat) (hl : ∀ i ∈ l, 0 < i ∧ i < 65536) :
    TakesTwins b env ht k l st (do
      let st ← deleteObjects tt st (l.map fun i : Nat => ipmacfilterNodeName b k i)
      cfgTr181CommitObject env tt (cfgTypeIpmacfilterEntryCommit b env tt) st ipmacfilterNode) := by
  refine deleteTwins_takes ht (fun st₀ => commitDeletes b
      (attrsAt st₀.tree [mkOid ht.state.1.id 1]) (attrsAt st₀.tree ht.commonIds)) h hstate
    (fun st₀ st₁ hst₁ hf hsame => ?_) (fun st₀ hglobal hcommon => ?_)
    (cfgTypeQuery_ipmacfilterNode ht) l fun i hi => ?_
  · refine cfgTypeIpmacfilterEntryCommit_takes ht hst₁ hf ?_
    rw [hsame _ (by simp [FilterTypes.stateIds]),
      hsame _ (by simp [FilterTypes.stateIds, FilterTypes.commonIds, filter_ne_state])]
  · rw [hglobal, hcommon, chainDeletes]
    simp only [macFilterRuleFlag, ipUpFilterRuleFlag, ipDownFilterRuleFlag, hk, true_and]
  · obtain ⟨hpos, hsmall⟩ := hl i hi
    obtain ⟨n, hin, hn, hids, hname⟩ := @twinIds_filter b tt ht k i hk
    have hmax : n ≤ intMax := by simp only [intMax]; omega
    rw [hname, snprintf_filterEntry hmax]
    exact ⟨_, hids, rfl, leadsTo_filterEntry ht (by omega) hmax⟩

theorem deleteAclTwins_takes (h : Rooted tt st) (hstate : (attrsAt st.tree ht.stateIds).isSome)
    (l : List Nat) (hl : ∀ i ∈ l, 0 < i ∧ i < 65536) :
    TakesTwins b env ht aclFilterRuleFlag l st (do
      let st ← deleteObjects tt st (l.map fun i : Nat => snprintf maxlenNodeName (aclEntryNNode i))
      cfgTr181CommitObject env tt (cfgTypeAclCommit env tt) st aclNode) := by
  refine deleteTwins_takes ht (fun _ => []) h hstate
    (fun _ _ hst₁ hf _ => cfgTypeAclCommit_takes ht hst₁ hf) (fun _ _ _ => ?_)
    (cfgTypeQuery_aclNode ht) l fun i hi => ?_
  · rw [ite_self, chainDeletes, if_neg]
    simp [aclFilterRuleFlag, macFilterRuleFlag, ipUpFilterRuleFlag, ipDownFilterRuleFlag]
  · obtain ⟨hpos, hsmall⟩ := hl i hi
    have hmax : i ≤ intMax := by simp only [intMax]; omega
    rw [snprintf_aclEntry hmax]
    exact ⟨_, rfl, rfl, leadsTo_aclEntry ht hpos hmax⟩

/-- The chains that have twins, and all others. -/
theorem chain_cases (k : Nat) : k = 1 ∨ k = 2 ∨ k = 3 ∨ k = 4 ∨
    ((k : Int) ≠ macFilterRuleFlag ∧ (k : Int) ≠ ipUpFilterRuleFlag ∧
      (k : Int) ≠ ipDownFilterRuleFlag ∧ (k : Int) ≠ aclFilterRuleFlag) := by
  simp only [macFilterRuleFlag, ipUpFilterRuleFlag, ipDownFilterRuleFlag, aclFilterRuleFlag]
  omega

theorem not_twinsGone {l ks : List Nat} (h : (k : Int) ≠ macFilterRuleFlag ∧
    (k : Int) ≠ ipUpFilterRuleFlag ∧ (k : Int) ≠ ipDownFilterRuleFlag ∧
    (k : Int) ≠ aclFilterRuleFlag) : ¬ TwinsGone b ht k l ks := by
  obtain ⟨h1, h2, h3, h4⟩ := h
  rintro ⟨i, -, ids, hids, -⟩
  rw [twinIds, if_neg (by omega), syncedFilter, if_neg (by omega), if_neg (by omega),
    if_neg (by omega)] at hids
  exact absurd hids (by simp)

theorem chainEntries_bounds : ∀ i ∈ chainEntries b, 0 < i ∧ i < 65536 := by
  obtain ⟨hm, -, -⟩ := b.sizes
  intro i hi
  rw [chainEntries, List.mem_range'_1, Build.tr181FirewallChainEntryNum] at hi
  omega

/-- The branches of the delete functions on the chain side: `filter` deletes filter entries, `acl`
those of the access control, and `next` is what follows. -/
theorem deleteBranches_takes (h : Rooted tt st) (hstate : (attrsAt st.tree ht.stateIds).isSome)
    {l : List Nat} (hl : ∀ i ∈ l, 0 < i ∧ i < 65536) (filter : Nat → Except Fault ObjState)
    (acl : Except Fault ObjState) (next : ObjState → Except Fault (Int × ObjState))
    (hfilter : ∀ flag, filter flag = do
      let st ← deleteObjects tt st (l.map fun i : Nat => ipmacfilterNodeName b flag i)
      cfgTr181CommitObject env tt (cfgTypeIpmacfilterEntryCommit b env tt) st ipmacfilterNode)
    (hacl : acl = do
      let st ← deleteObjects tt st (l.map fun i : Nat => snprintf maxlenNodeName (aclEntryNNode i))
      cfgTr181CommitObject env tt (cfgTypeAclCommit env tt) st aclNode) :
    ∃ r, (if (k : Int) = macFilterRuleFlag then filter macFilterRuleFlag >>= next
        else if (k : Int) = ipUpFilterRuleFlag then filter ipUpFilterRuleFlag >>= next
        else if (k : Int) = ipDownFilterRuleFlag then filter ipDownFilterRuleFlag >>= next
        else if (k : Int) = aclFilterRuleFlag then acl >>= next else next st) = r >>= next ∧
      TakesTwins b env ht k l st r := by
  have hfilters : ∀ flag, flag = 1 ∨ flag = 2 ∨ flag = 3 →
      TakesTwins b env ht flag l st (filter flag) := fun flag hflag => by
    rw [hfilter]
    exact deleteFilterTwins_takes ht h hstate hflag l hl
  rcases chain_cases k with rfl | rfl | rfl | rfl | hother
  · exact ⟨_, rfl, hfilters 1 (.inl rfl)⟩
  · exact ⟨_, rfl, hfilters 2 (.inr (.inl rfl))⟩
  · exact ⟨_, rfl, hfilters 3 (.inr (.inr rfl))⟩
  · refine ⟨acl, rfl, ?_⟩
    rw [hacl]
    exact deleteAclTwins_takes ht h hstate l hl
  · rw [if_neg hother.1, if_neg hother.2.1, if_neg hother.2.2.1, if_neg hother.2.2.2]
    refine ⟨.ok st, rfl, [], (Takes.of_removes (.refl h)).congr fun ks =>
      iff_of_false id (not_or.mpr ⟨not_twinsGone ht hother, fun hd => doomed_nil.mp hd⟩),
      fun _ => ?_⟩
    rw [chainDeletes, if_neg]
    omega

/-! ### The conditions -/

/-- The numbers that a commit takes up have paths, and no objects besides those that `gone` says. -/
structure CommitCond (b : Build) (ht : FilterTypes tt) (st : ObjState) (ns : List Nat)
    (gone : List Nat → Prop) : Prop where
  printed : AllPrinted b ns
  absent : ∀ n ∈ ns, ∀ ids, (ids = ht.filterIds n ∨
    ∃ k i, Printed b k i n ∧ ids = ht.chainEntryIds k i) → attrsAt st.tree ids ≠ none → gone ids

/-- The condition is about whole objects, so it is enough to look at the topmost ones. -/
theorem commitCond_iff {ns : List Nat} {gone : List Nat → Prop}
    (hup : ∀ ids ks, gone ids → ids <+: ks → gone ks) :
    CommitCond b ht st ns gone ↔ AllPrinted b ns ∧
      ∀ ks, (attrsAt st.tree ks).isSome → Doomed b ht ns ks → gone ks := by
  constructor
  · rintro ⟨hall, habsent⟩
    refine ⟨hall, fun ks hks hdoomed => ?_⟩
    obtain ⟨n, hn, ids, hids, hpre⟩ := hdoomed
    exact hup ids ks (habsent n hn ids hids (ne_none_above hks hpre)) hpre
  · rintro ⟨hall, hgone⟩
    exact ⟨hall, fun n hn ids hids hne => hgone ids (Option.ne_none_iff_isSome.mp hne)
      ⟨n, hn, ids, hids, List.prefix_refl ids⟩⟩

/-- A call that takes up numbers, and the deletion after it, remove exactly what `gone'` says. -/
theorem Takes.exactly_iff {r : Except Fault ObjState} {ns ids : List Nat} {path : Str}
    {gone gone' : List Nat → Prop} (h : Takes b tt ht.notes ns gone st r)
    (hp : LeadsTo tt path ids) (hne : ids ≠ []) :
    (∃ n st', (r >>= fun st => cfgObjDeleteObject tt st path) = .ok (n, st') ∧
      Removes tt ht.notes gone' st st') ↔
    AllPrinted b ns ∧ ∀ ks, (attrsAt st.tree ks).isSome → (gone ks ∨ ids <+: ks ↔ gone' ks) := by
  by_cases hall : AllPrinted b ns
  · obtain ⟨st₁, rfl, hrem⟩ := h.ok hall
    obtain ⟨n, st₂, hdel, hrem₂⟩ := cfgObjDeleteObject_removes ht.notes hrem.rooted hp hne
    exact ((hrem.trans hrem₂).exists_iff hdel).trans (and_iff_right hall).symm
  · obtain ⟨f, rfl⟩ := h.fault hall
    refine iff_of_false ?_ fun hc => hall hc.1
    rintro ⟨n, st', hrun, -⟩
    exact absurd (show Except.error f = .ok (n, st') from hrun) (by simp)

/-- **Deleting a chain removes exactly it and the entries that it shows, if and only if the commit
takes up nothing else.** -/
theorem chainDeleteOk_iff (h : Rooted tt st) (hstate : (attrsAt st.tree ht.stateIds).isSome)
    (hk : 0 < k) (hmax : k < 65536) : ChainDeleteOk b env ht st k ↔
      CommitCond b ht st (chainDeletes b env ht st k) (ChainGone b ht k) := by
  have hint : k ≤ intMax := by simp only [intMax]; omega
  have hrun : ∃ r, cfgTypeFirewallchPvcFuncDelete b env tt st (chainNode k) =
      (r >>= fun st => cfgObjDeleteObject tt st (chainNode k)) ∧
      TakesTwins b env ht k (chainEntries b) st r := by
    simp only [cfgTypeFirewallchPvcFuncDelete, getEntryNumberCfg2_chain hint]
    exact deleteBranches_takes ht h hstate chainEntries_bounds
      (deleteIpmacfilterNodeRangeByPvcIdx b env tt st) (deleteAclNodeRangeByPvcIdx b env tt st)
      (cfgObjDeleteObject tt · (chainNode k)) (fun _ => rfl) rfl
  obtain ⟨r, hrun, ns, htakes, hns⟩ := hrun
  obtain rfl := hns fun hc => not_twinsGone_common ht (fun _ => id) hc.1
  rw [ChainDeleteOk, hrun, htakes.exactly_iff ht (leadsTo_chain ht hk hint)
    (by simp [FilterTypes.chainIds]), commitCond_iff ht]
  · refine and_congr_right fun _ => forall₂_congr fun ks _ => ?_
    rw [ChainGone]
    tauto
  · rintro ids ks (hpre' | htwin) hpre
    · exact .inl (hpre'.trans hpre)
    · exact .inr (htwin.mono ht hpre)

/-- Behind the entries that are filled the number of another entry is computed. -/
def ChainEntryCond (b : Build) (ht : FilterTypes tt) (st : ObjState) (k i : Nat) : Prop :=
  b.tr181FirewallChainEntryNum < i → ∀ ids ∈ twinIds b ht k i, attrsAt st.tree ids = none

/-- The twin is removed only where the entry is one that is filled. -/
theorem chainEntryCond_iff (hi : 0 < i) : ChainEntryCond b ht st k i ↔
    ∀ ks, (attrsAt st.tree ks).isSome → TwinsGone b ht k [i] ks → ChainEntryGone b ht k i ks := by
  have htwin : ∀ ks, TwinsGone b ht k [i] ks ↔ ∃ ids ∈ twinIds b ht k i, ids <+: ks :=
    fun ks => by simp [TwinsGone]
  by_cases hin : i ∈ chainEntries b
  · -- an entry that is filled
    have hself : i ∈ (chainEntries b).filter (· == i) := by simp [hin]
    have hle : ¬ b.tr181FirewallChainEntryNum < i := by
      rw [chainEntries, List.mem_range'_1] at hin
      omega
    refine iff_of_true (fun hlt => absurd hlt hle) fun ks _ hgone => .inr ?_
    obtain ⟨ids, hids, hpre⟩ := (htwin ks).mp hgone
    exact ⟨i, hself, ids, hids, hpre⟩
  · -- an entry behind those
    have hlt : b.tr181FirewallChainEntryNum < i := by
      rw [chainEntries, List.mem_range'_1] at hin
      omega
    have hfilled : ∀ ks, ¬ TwinsGone b ht k ((chainEntries b).filter (· == i)) ks := fun ks => by
      simp [TwinsGone, hin]
    constructor
    · intro habsent ks hks hgone
      obtain ⟨ids, hids, hpre⟩ := (htwin ks).mp hgone
      exact absurd (habsent hlt ids hids) (ne_none_above hks hpre)
    · intro hgone _ ids hids
      by_contra hpresent
      have hpre := hgone ids (Option.ne_none_iff_isSome.mp hpresent)
        ((htwin ids).mpr ⟨ids, hids, List.prefix_refl _⟩)
      rcases hpre with hpre | hpre
      · exact not_chainEntryIds_prefix_twinIds ht hids hpre
      · exact hfilled ids hpre

/-- **Deleting a chain entry removes exactly it and its twin, if and only if the conditions on its
number and on the commit hold.** -/
theorem chainEntryDeleteOk_iff (h : Rooted tt st) (hstate : (attrsAt st.tree ht.stateIds).isSome)
    (hk : 0 < k) (hmax : k < 65536) (hi : 0 < i) (hmax' : i < 65536) :
    ChainEntryDeleteOk b env ht st k i ↔ ChainEntryCond b ht st k i ∧
      CommitCond b ht st (chainDeletes b env ht st k) (ChainEntryGone b ht k i) := by
  have hint : k ≤ intMax := by simp only [intMax]; omega
  have hint' : i ≤ intMax := by simp only [intMax]; omega
  have hone : ∀ j ∈ [i], 0 < j ∧ j < 65536 := by simpa using ⟨hi, hmax'⟩
  have hrun : ∃ r, cfgTypeFirewallchPvcEntryFuncDelete b env tt st
      (tr181FirewallchPvcEntryNode k i) =
        (r >>= fun st => cfgObjDeleteObject tt st (tr181FirewallchPvcEntryNode k i)) ∧
      TakesTwins b env ht k [i] st r := by
    simp only [cfgTypeFirewallchPvcEntryFuncDelete, getEntryNumberCfg2_chainEntry hint hint']
    exact deleteBranches_takes ht h hstate hone
      (fun flag => deleteIpmacfilterNodeEntryByPvcIdx b env tt st flag i)
      (deleteAclNodeEntryByEntryIdx env tt st i)
      (cfgObjDeleteObject tt · (tr181FirewallchPvcEntryNode k i)) (fun _ => rfl) rfl
  obtain ⟨r, hrun, ns, htakes, hns⟩ := hrun
  have hfilled : ∀ ks, TwinsGone b ht k ((chainEntries b).filter (· == i)) ks →
      TwinsGone b ht k [i] ks := by
    rintro ks ⟨j, hj, hids⟩
    exact ⟨j, by simpa using (List.mem_filter.mp hj).2, hids⟩
  rw [ChainEntryDeleteOk, hrun, htakes.exactly_iff ht (leadsTo_chainEntry ht hk hint hi hint')
    (by simp [FilterTypes.chainEntryIds]), chainEntryCond_iff ht hi]
  by_cases hlost : TwinsGone b ht k [i] ht.commonIds ∧ attrsAt st.tree ht.commonIds ≠ none
  · -- the object that lists the numbers goes itself, which neither side allows
    obtain ⟨htwin, hpresent⟩ := hlost
    have hsome := Option.ne_none_iff_isSome.mp hpresent
    have hnot : ¬ ChainEntryGone b ht k i ht.commonIds := by
      rintro (hpre | hgone)
      · exact absurd hpre.length_le (by simp [FilterTypes.chainEntryIds, FilterTypes.commonIds])
      · exact not_twinsGone_common ht (fun j hj => (List.mem_filter.mp hj).1) hgone
    exact iff_of_false (fun hc => hnot ((hc.2 _ hsome).mp (.inl (.inl htwin))))
      fun hc => hnot (hc.1 _ hsome htwin)
  · obtain rfl := hns hlost
    rw [commitCond_iff ht]
    · constructor
      · rintro ⟨hall, hgone⟩
        exact ⟨fun ks hks htwin => (hgone ks hks).mp (.inl (.inl htwin)), hall,
          fun ks hks hdoomed => (hgone ks hks).mp (.inl (.inr hdoomed))⟩
      · rintro ⟨htwin, hall, hdoomed⟩
        refine ⟨hall, fun ks hks => ⟨?_, ?_⟩⟩
        · rintro ((hgone | hgone) | hpre)
          · exact htwin ks hks hgone
          · exact hdoomed ks hks hgone
          · exact .inl hpre
        · rintro (hpre | hgone)
          · exact .inr hpre
          · exact .inl (.inl (hfilled ks hgone))
    · rintro ids ks (hpre' | hgone) hpre
      · exact .inl (hpre'.trans hpre)
      · exact .inr (hgone.mono ht hpre)

end Chain

/-! ## All deletions -/

/-- **A deletion takes exactly the entry and its twins, if and only if the conditions on the entry
and on the commit hold.** The chain side needs the object with the commit flag, which is there from
the start. -/
theorem deletes_exactly_iff {b : Build} {env : Env} {tt : TypeTree} (ht : FilterTypes tt)
    {st : ObjState} (h : Rooted tt st) :
    (∀ e, 0 < e → e ≤ b.maxIpmacfilterRule →
      (FilterDeleteOk ht b st e ↔ FilterCond b ht st e)) ∧
    ((attrsAt st.tree ht.stateIds).isSome →
      (∀ k i, 0 < k → k < 65536 → 0 < i → i < 65536 →
        (ChainEntryDeleteOk b env ht st k i ↔ ChainEntryCond b ht st k i ∧
          CommitCond b ht st (chainDeletes b env ht st k) (ChainEntryGone b ht k i))) ∧
      ∀ k, 0 < k → k < 65536 → (ChainDeleteOk b env ht st k ↔
        CommitCond b ht st (chainDeletes b env ht st k) (ChainGone b ht k))) :=
  ⟨fun _ he hmax => filterDeleteOk_iff ht h he hmax, fun hstate =>
    ⟨fun _ _ hk hmax hi hmax' => chainEntryDeleteOk_iff ht h hstate hk hmax hi hmax',
      fun _ hk hmax => chainDeleteOk_iff ht h hstate hk hmax⟩⟩

/-- The types of the filters, the chains and the global state, as the source declares them. -/
def filterTypes : TypeTree where
  decl := { name := "root".toList }
  subtype :=
    .node { name := "IpMacFilter".toList }
      (.node { name := "Entry".toList, create := true, flag := cfgTypeFlagMultiple } .nil
        (.node { name := "Common".toList } .nil .nil))
    (.node { name := "FirewallCh".toList }
      (.node { name := "PVC".toList, create := true, flag := cfgTypeFlagMultiple }
        (.node { name := "Entry".toList, create := true, flag := cfgTypeFlagMultiple } .nil .nil)
        .nil)
    (.node { name := "ACL".toList }
      (.node { name := "Entry".toList, create := true, flag := cfgTypeFlagMultiple } .nil .nil)
    (.node { name := "Globalstate".toList, flag := cfgTypeFlagMemory }
      (.node { name := "common".toList } .nil .nil)
    (.node { name := "WebCurSet".toList, flag := cfgTypeFlagMemory }
      (.node { name := "Entry".toList, flag := cfgTypeFlagMemory } .nil .nil) .nil))))
  fits := by decide
  static := create_root

/-- The type of `filterTypes` at a place of the cache. -/
def filterType (n : Nat) : CfgTypePtr :=
  (filterTypes.types.entries[n]?).getD (cfgTypeGetRoot filterTypes)

def namedFilterTypes : FilterTypes filterTypes where
  filter := filterType 1
  filterEntry := filterType 2
  filterCommon := filterType 3
  chains := filterType 4
  chain := filterType 5
  chainEntry := filterType 6
  acl := filterType 7
  aclEntry := filterType 8
  state := filterType 9
  stateCommon := filterType 10
  webcurset := filterType 11
  webcursetEntry := filterType 12
  root_eq := by decide +kernel
  filter_eq := by decide +kernel
  filterEntry_eq := by decide +kernel
  filterCommon_eq := by decide +kernel
  chains_eq := by decide +kernel
  chain_eq := by decide +kernel
  chainEntry_eq := by decide +kernel
  acl_eq := by decide +kernel
  aclEntry_eq := by decide +kernel
  state_eq := by decide +kernel
  stateCommon_eq := by decide +kernel
  webcurset_eq := by decide +kernel
  webcursetEntry_eq := by decide +kernel
  filterEntry_leaf := fun _ => rfl

/-- The calls that make two filter entries and three chain entries, and leave the list of a deletion
on the pages behind. -/
def filterOps : List Op :=
  [.create (ipmacfilterEntryNNode 100), .create (ipmacfilterEntryNNode 150),
    .create (tr181FirewallchPvcEntryNode 1 100), .create (tr181FirewallchPvcEntryNode 1 150),
    .create (tr181FirewallchPvcEntryNode 2 50),
    .setAttr globalstateNode "g_ip_mac_flag".toList "1".toList,
    .setAttr ipmacfilterCommonNode "IpMacType".toList "Mac".toList,
    .setAttr ipmacfilterCommonNode "ListTypeMac".toList "Black".toList,
    .setAttr ipmacfilterCommonNode "Action".toList "Del".toList,
    .setAttr ipmacfilterCommonNode "DeleteIndex".toList "149,".toList]

/-- The tree after these calls. -/
def filterState : ObjState :=
  (run filterTypes (cfgObjLoadFromType filterTypes fun _ => true) filterOps).toOption.getD
    (cfgObjLoadFromType filterTypes fun _ => true)

theorem rooted_filterState : Rooted filterTypes filterState := by
  obtain ⟨st, hst, hinv⟩ := run_ok filterOps (stateInv_cfgObjLoadFromType filterTypes fun _ => true)
    (by decide +kernel)
  have heq : filterState = st := by
    rw [filterState, hst]
    rfl
  exact ⟨heq ▸ hinv, by decide +kernel⟩

/-- All files can be opened, and the chains are left alone. -/
def quietEnv : Env where
  lock := fun _ => true
  script := fun _ => true
  tmpFile := fun _ => true
  updateFireWallChByIpmacfilter := .ok
  updateFireWallChByAclfilter := .ok

/-- The default sizes, with the E8 pages. -/
def e8Build : Build := ⟨false, false, true⟩

/-- The objects of the tree that the examples are about. -/
theorem objects_filterState :
    (attrsAt filterState.tree namedFilterTypes.stateIds).isSome ∧
    (attrsAt filterState.tree (namedFilterTypes.filterIds 100)).isSome ∧
    (attrsAt filterState.tree (namedFilterTypes.filterIds 150)).isSome ∧
    (attrsAt filterState.tree (namedFilterTypes.chainEntryIds 1 150)).isSome ∧
    (attrsAt filterState.tree (namedFilterTypes.chainIds 1)).isSome := by decide +kernel

theorem chainDeletes_filterState :
    chainDeletes e8Build quietEnv namedFilterTypes filterState 2 = [150] := by decide +kernel

/-- The list names filter entry 150, which is shown in entry 50 of the second chain. -/
theorem commitCond_filterState {gone : List Nat → Prop}
    (hfilter : gone (namedFilterTypes.filterIds 150))
    (hchain : gone (namedFilterTypes.chainEntryIds 2 50)) :
    CommitCond e8Build namedFilterTypes filterState
      (chainDeletes e8Build quietEnv namedFilterTypes filterState 2) gone := by
  have hp : Printed e8Build 2 50 150 := .inr (.inl (by decide))
  rw [chainDeletes_filterState]
  refine ⟨fun n hn => ⟨2, 50, by rwa [List.mem_singleton.mp hn]⟩, fun n hn ids hids _ => ?_⟩
  obtain rfl := List.mem_singleton.mp hn
  rcases hids with rfl | ⟨k, i, hp', rfl⟩
  · exact hfilter
  · obtain ⟨rfl, rfl⟩ := hp.unique hp'
    exact hchain

theorem deletes_exactly_sample :
    FilterDeleteOk namedFilterTypes e8Build filterState 150 ∧
    ChainEntryDeleteOk e8Build quietEnv namedFilterTypes filterState 2 50 ∧
    ChainDeleteOk e8Build quietEnv namedFilterTypes filterState 2 := by
  obtain ⟨hfilter, hchain⟩ := @deletes_exactly_iff e8Build quietEnv filterTypes
    namedFilterTypes filterState rooted_filterState
  obtain ⟨hentry, hwhole⟩ := hchain objects_filterState.1
  refine ⟨(hfilter 150 (by decide) (by decide)).mpr ⟨?_, ?_, ?_, ?_⟩,
    (hentry 2 50 (by decide) (by decide) (by decide) (by decide)).mpr
      ⟨fun hlt => absurd hlt (by decide), commitCond_filterState ?_ ?_⟩,
    (hwhole 2 (by decide) (by decide)).mpr (commitCond_filterState ?_ ?_)⟩
  · rw [Named]
    decide
  · exact fun hlt => absurd hlt (by decide)
  · exact fun hlt => absurd hlt (by decide)
  · exact fun hlt => absurd hlt (by decide)
  · exact .inr ⟨50, by decide, _, rfl, List.prefix_refl _⟩
  · exact .inl (List.prefix_refl _)
  · exact .inr ⟨50, by decide, _, rfl, List.prefix_refl _⟩
  · exact .inl (by decide +kernel)

/-- An object is removed that should stay. -/
theorem not_removes {tt : TypeTree} {notes : List (List Nat)} {gone : List Nat → Prop}
    {st : ObjState} {r : Except Fault (Int × ObjState)} {ids : List Nat}
    (hpresent : (attrsAt st.tree ids).isSome) (hkeep : ¬ gone ids)
    (hgone : (r.toOption.all fun r => (attrsAt r.2.tree ids).isNone) = true) :
    ¬ ∃ n st', r = .ok (n, st') ∧ Removes tt notes gone st st' := by
  rintro ⟨n, st', rfl, hrem⟩
  have hsome := hrem.isSome hpresent hkeep
  simp only [Except.toOption, Option.all_some, Option.isNone_iff_eq_none] at hgone
  rw [hgone] at hsome
  exact absurd hsome (by decide)

/-- Deleting filter entry 100 frees the root object, with and without its chain entry; deleting
entry 150 of the first chain takes along filter entry 150, which the second chain shows; and so does
deleting the whole first chain, where the list of a deletion on the pages still names that entry. -/
theorem not_deletes_exactly :
    (¬ ∀ (b : Build) (tt : TypeTree) (ht : FilterTypes tt) (st : ObjState) (e : Nat), Rooted tt st →
      0 < e → e ≤ b.maxIpmacfilterRule → (attrsAt st.tree (ht.filterIds e)).isSome →
      FilterDeleteOk ht b st e) ∧
    (¬ ∀ (b : Build) (env : Env) (tt : TypeTree) (ht : FilterTypes tt) (st : ObjState) (k i : Nat),
      Rooted tt st → (attrsAt st.tree ht.stateIds).isSome →
      (attrsAt st.tree (ht.chainEntryIds k i)).isSome → ChainEntryDeleteOk b env ht st k i) ∧
    ¬ ∀ (b : Build) (env : Env) (tt : TypeTree) (ht : FilterTypes tt) (st : ObjState) (k : Nat),
      Rooted tt st → (attrsAt st.tree ht.stateIds).isSome →
      (attrsAt st.tree (ht.chainIds k)).isSome → ChainDeleteOk b env ht st k := by
  obtain ⟨hstate, hfilter, hpresent, hentry, hchain⟩ := objects_filterState
  refine ⟨fun h => ?_, fun h => ?_, fun h => ?_⟩
  · obtain ⟨n, st', hdel, -⟩ := h e8Build filterTypes namedFilterTypes filterState 100
      rooted_filterState (by decide) (by decide) hfilter
    have herr : (cfgTypeIpmacfilterEntryFuncDelete e8Build filterTypes filterState
        (ipmacfilterEntryNNode (100 : Nat))).toOption.isSome = false := by decide +kernel
    rw [hdel] at herr
    exact absurd herr (by simp [Except.toOption])
  · refine not_removes hpresent ?_ ?_ (h ⟨false, false, false⟩ quietEnv filterTypes
      namedFilterTypes filterState 1 150 rooted_filterState hstate hentry)
    · simp only [ChainEntryGone, TwinsGone]
      decide +kernel
    · decide +kernel
  · refine not_removes hpresent ?_ ?_ (h e8Build quietEnv filterTypes namedFilterTypes
      filterState 1 rooted_filterState hstate hchain)
    · simp only [ChainGone, TwinsGone]
      decide +kernel
    · decide +kernel

end OnuFirmware.Filter
