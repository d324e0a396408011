import OnuFirmware.Cfg.Access
import OnuFirmware.Filter.Rules

/-!
# The objects of the filters and their paths

The paths of the filter entries, the access control entries and the chains are printed from type
names and numbers. Where the type tree knows the names (`FilterTypes`), each of them leads to the
ids given here, and the numbers are read back from it.
-/

namespace OnuFirmware.Filter

open Lib Clib Cfg

/-! ## The types on the paths -/

/-- The types that the paths of the filters, the chains and the attributes of a commit name. A
filter entry has no types below it. -/
structure FilterTypes (tt : TypeTree) where
  filter : CfgTypePtr
  filterEntry : CfgTypePtr
  filterCommon : CfgTypePtr
  chains : CfgTypePtr
  chain : CfgTypePtr
  chainEntry : CfgTypePtr
  acl : CfgTypePtr
  aclEntry : CfgTypePtr
  state : CfgTypePtr
  stateCommon : CfgTypePtr
  webcurset : CfgTypePtr
  webcursetEntry : CfgTypePtr
  root_eq : cfgTypeQueryChild tt none "root".toList = some (cfgTypeGetRoot tt)
  filter_eq : cfgTypeQueryChild tt (some (cfgTypeGetRoot tt)) "ipmacfilter".toList = some filter
  filterEntry_eq : cfgTypeQueryChild tt (some filter) "entry".toList = some filterEntry
  filterCommon_eq : cfgTypeQueryChild tt (some filter) "common".toList = some filterCommon
  chains_eq : cfgTypeQueryChild tt (some (cfgTypeGetRoot tt)) "firewallch".toList = some chains
  chain_eq : cfgTypeQueryChild tt (some chains) "pvc".toList = some chain
  chainEntry_eq : cfgTypeQueryChild tt (some chain) "entry".toList = some chainEntry
  acl_eq : cfgTypeQueryChild tt (some (cfgTypeGetRoot tt)) "acl".toList = some acl
  aclEntry_eq : cfgTypeQueryChild tt (some acl) "entry".toList = some aclEntry
  state_eq : cfgTypeQueryChild tt (some (cfgTypeGetRoot tt)) "globalstate".toList = some state
  stateCommon_eq : cfgTypeQueryChild tt (some state) "common".toList = some stateCommon
  webcurset_eq : cfgTypeQueryChild tt (some (cfgTypeGetRoot tt)) "webcurset".toList = some webcurset
  webcursetEntry_eq : cfgTypeQueryChild tt (some webcurset) "entry".toList = some webcursetEntry
  filterEntry_leaf : ∀ x, cfgTypeQueryChild tt (some filterEntry) x = none

section Paths

variable {tt : TypeTree} (ht : FilterTypes tt)

/-- The ids of `root.ipmacfilter.entry.n` below the root. -/
def FilterTypes.filterIds (n : Nat) : List Nat :=
  [mkOid ht.filter.1.id 1, mkOid ht.filterEntry.1.id n]

/-- The ids of `root.acl.entry.n`. -/
def FilterTypes.aclIds (n : Nat) : List Nat := [mkOid ht.acl.1.id 1, mkOid ht.aclEntry.1.id n]

/-- The ids of `root.firewallch.pvc.k`. -/
def FilterTypes.chainIds (k : Nat) : List Nat := [mkOid ht.chains.1.id 1, mkOid ht.chain.1.id k]

/-- The ids of `root.firewallch.pvc.k.entry.i`. -/
def FilterTypes.chainEntryIds (k i : Nat) : List Nat :=
  [mkOid ht.chains.1.id 1, mkOid ht.chain.1.id k, mkOid ht.chainEntry.1.id i]

/-- The ids of `root.globalstate.common`. -/
def FilterTypes.stateIds : List Nat := [mkOid ht.state.1.id 1, mkOid ht.stateCommon.1.id 1]

/-- The ids of `root.ipmacfilter.common`. -/
def FilterTypes.commonIds : List Nat := [mkOid ht.filter.1.id 1, mkOid ht.filterCommon.1.id 1]

/-- The objects whose attributes one turn of the filter scripts may set, `DelOnly` apart. -/
def FilterTypes.turnNotes : List (List Nat) :=
  [[mkOid ht.filter.1.id 1], [mkOid ht.webcurset.1.id 1, mkOid ht.webcursetEntry.1.id 1]]

/-- The objects whose attributes go with the filter scripts. -/
def FilterTypes.writeNotes : List (List Nat) :=
  [mkOid ht.state.1.id 1] :: ht.commonIds :: ht.turnNotes

/-- The objects whose attributes a commit sets. -/
def FilterTypes.notes : List (List Nat) := ht.stateIds :: ht.writeNotes

theorem ipmacfilterEntryNNode_eq (n : Nat) : ipmacfilterEntryNNode n =
    namedPath [("root".toList, none), ("ipmacfilter".toList, none), ("entry".toList, some n)] := by
  show "root.ipmacfilter.entry.".toList ++ fmtInt n = _
  rw [fmtInt_natCast]
  rfl

theorem aclEntryNNode_eq (n : Nat) : aclEntryNNode n =
    namedPath [("root".toList, none), ("acl".toList, none), ("entry".toList, some n)] := by
  show "root.acl.entry.".toList ++ fmtInt n = _
  rw [fmtInt_natCast]
  rfl

theorem tr181FirewallchPvcEntryNode_eq (k i : Nat) : tr181FirewallchPvcEntryNode k i =
    namedPath [("root".toList, none), ("firewallch".toList, none), ("pvc".toList, some k),
      ("entry".toList, some i)] := by
  show "root.firewallch.pvc.".toList ++ fmtInt k ++ ".entry.".toList ++ fmtInt i = _
  rw [fmtInt_natCast, fmtInt_natCast, List.append_assoc, List.append_assoc]
  rfl

theorem leadsTo_filterEntry {n : Nat} (hn : 0 < n) (hs : n ≤ intMax) :
    LeadsTo tt (ipmacfilterEntryNNode n) (ht.filterIds n) := by
  rw [ipmacfilterEntryNNode_eq]
  exact leadsTo_named (u := [ht.filter, ht.filterEntry])
    (ok_of_isPathName rfl (by simpa using ⟨hn, hs⟩)) (by simp [cfgMaxNodeLevel])
    (typeChain_cons ht.root_eq (typeChain_cons ht.filter_eq (typeChain_cons ht.filterEntry_eq rfl)))

theorem cfgTypeQuery_filterEntry {n : Nat} (hn : 0 < n) (hs : n ≤ intMax) :
    cfgTypeQuery tt (ipmacfilterEntryNNode n) = .ok (some ht.filterEntry) := by
  rw [ipmacfilterEntryNNode_eq]
  exact cfgTypeQuery_named (u := [cfgTypeGetRoot tt, ht.filter])
    (ok_of_isPathName rfl (by simpa using ⟨hn, hs⟩)) (by simp [cfgMaxNodeLevel])
    (typeChain_cons ht.root_eq (typeChain_cons ht.filter_eq (typeChain_cons ht.filterEntry_eq rfl)))

/-- `0` and negative numbers are read as names, and there are no types below a filter entry. -/
theorem cfgTypeQuery_filterEntry_none (ht : FilterTypes tt) {z : Int} (hz : z ≤ 0)
    (hint : IsInt z) :
    cfgTypeQuery tt (ipmacfilterEntryNNode z) = .ok none := by
  have hdigit : tokenDigit (fmtInt z) = 0 := by
    rcases Int.lt_or_eq_of_le hz with hneg | rfl
    · rw [fmtInt_of_neg hneg]
      rfl
    · rfl
  have htoken : IsToken (fmtInt z) := by
    refine ⟨fmtInt_ne_nil z, fun hd => ?_, ?_⟩
    · rw [fmtInt] at hd
      split at hd
      · rcases List.mem_cons.mp hd with hd | hd
        · exact absurd hd (by decide)
        · exact absurd (isDigit_of_mem_fmtNat hd) (by decide)
      · exact absurd (isDigit_of_mem_fmtNat hd) (by decide)
    · have := length_fmtInt_le hint
      rw [cfgMaxTypeName]
      omega
  have hpath : ipmacfilterEntryNNode z = namedPath [("root".toList, none),
      ("ipmacfilter".toList, none), ("entry".toList, none), (fmtInt z, none)] := rfl
  have hok : ∀ y ∈ [("root".toList, none), ("ipmacfilter".toList, none), ("entry".toList, none)],
      PathName.Ok y := ok_of_isPathName rfl (by simp)
  rw [hpath]
  refine cfgTypeQuery_named_none ?_ ?_
  · intro y hy
    rcases List.mem_append.mp (show y ∈ [("root".toList, none), ("ipmacfilter".toList, none),
        ("entry".toList, none)] ++ [(fmtInt z, none)] from hy) with hy | hy
    · exact hok y hy
    · rw [List.mem_singleton.mp hy]
      exact ok_name htoken hdigit
  · simp only [List.map_cons, List.map_nil, typeChain, ht.root_eq, ht.filter_eq, ht.filterEntry_eq,
      ht.filterEntry_leaf]
    rfl

theorem leadsTo_aclEntry {n : Nat} (hn : 0 < n) (hs : n ≤ intMax) :
    LeadsTo tt (aclEntryNNode n) (ht.aclIds n) := by
  rw [aclEntryNNode_eq]
  exact leadsTo_named (u := [ht.acl, ht.aclEntry])
    (ok_of_isPathName rfl (by simpa using ⟨hn, hs⟩)) (by simp [cfgMaxNodeLevel])
    (typeChain_cons ht.root_eq (typeChain_cons ht.acl_eq (typeChain_cons ht.aclEntry_eq rfl)))

theorem leadsTo_chainEntry {k i : Nat} (hk : 0 < k) (hks : k ≤ intMax) (hi : 0 < i)
    (his : i ≤ intMax) : LeadsTo tt (tr181FirewallchPvcEntryNode k i) (ht.chainEntryIds k i) := by
  rw [tr181FirewallchPvcEntryNode_eq]
  exact leadsTo_named (u := [ht.chains, ht.chain, ht.chainEntry])
    (ok_of_isPathName rfl (by simpa using ⟨⟨hk, hks⟩, hi, his⟩)) (by simp [cfgMaxNodeLevel])
    (typeChain_cons ht.root_eq (typeChain_cons ht.chains_eq (typeChain_cons ht.chain_eq
      (typeChain_cons ht.chainEntry_eq rfl))))

/-- The path of a chain. -/
def chainNode (k : Nat) : Str := "root.firewallch.pvc.".toList ++ fmtNat k

theorem chainNode_eq (k : Nat) : chainNode k =
    namedPath [("root".toList, none), ("firewallch".toList, none), ("pvc".toList, some k)] := rfl

theorem leadsTo_chain {k : Nat} (hk : 0 < k) (hks : k ≤ intMax) :
    LeadsTo tt (chainNode k) (ht.chainIds k) := by
  rw [chainNode_eq]
  exact leadsTo_named (u := [ht.chains, ht.chain])
    (ok_of_isPathName rfl (by simpa using ⟨hk, hks⟩)) (by simp [cfgMaxNodeLevel])
    (typeChain_cons ht.root_eq (typeChain_cons ht.chains_eq (typeChain_cons ht.chain_eq rfl)))

/-- The path of the root, a table and one of its unnumbered children. -/
theorem leadsTo_common (ht : FilterTypes tt) {x y : Str} {t u : CfgTypePtr}
    (hok : ["root".toList, x, y].all isPathName = true)
    (ht' : cfgTypeQueryChild tt (some (cfgTypeGetRoot tt)) x = some t)
    (hu : cfgTypeQueryChild tt (some t) y = some u) :
    LeadsTo tt (namedPath [("root".toList, none), (x, none), (y, none)])
      [mkOid t.1.id 1, mkOid u.1.id 1] :=
  leadsTo_named (u := [t, u]) (ok_of_isPathName hok (by simp)) (by simp [cfgMaxNodeLevel])
    (typeChain_cons ht.root_eq (typeChain_cons ht' (typeChain_cons hu rfl)))

theorem leadsTo_state : LeadsTo tt globalstateCommonNode ht.stateIds :=
  leadsTo_common ht rfl ht.state_eq ht.stateCommon_eq

theorem leadsTo_filterCommon : LeadsTo tt ipmacfilterCommonNode ht.commonIds :=
  leadsTo_common ht rfl ht.filter_eq ht.filterCommon_eq

theorem leadsTo_webcurset : LeadsTo tt webcursetEntryNode
    [mkOid ht.webcurset.1.id 1, mkOid ht.webcursetEntry.1.id 1] :=
  leadsTo_common ht rfl ht.webcurset_eq ht.webcursetEntry_eq

/-- The path of the root and a table. -/
theorem leadsTo_table (ht : FilterTypes tt) {x : Str} {t : CfgTypePtr}
    (hok : ["root".toList, x].all isPathName = true)
    (ht' : cfgTypeQueryChild tt (some (cfgTypeGetRoot tt)) x = some t) :
    LeadsTo tt (namedPath [("root".toList, none), (x, none)]) [mkOid t.1.id 1] :=
  leadsTo_named (u := [t]) (ok_of_isPathName hok (by simp)) (by simp [cfgMaxNodeLevel])
    (typeChain_cons ht.root_eq (typeChain_cons ht' rfl))

theorem leadsTo_globalstate : LeadsTo tt globalstateNode [mkOid ht.state.1.id 1] :=
  leadsTo_table ht rfl ht.state_eq

theorem leadsTo_ipmacfilter : LeadsTo tt ipmacfilterNode [mkOid ht.filter.1.id 1] :=
  leadsTo_table ht rfl ht.filter_eq

theorem cfgTypeQuery_ipmacfilterNode : cfgTypeQuery tt ipmacfilterNode = .ok (some ht.filter) := by
  have hpath : ipmacfilterNode = namedPath [("root".toList, none), ("ipmacfilter".toList, none)] :=
    rfl
  rw [hpath]
  exact cfgTypeQuery_named (u := [cfgTypeGetRoot tt]) (ok_of_isPathName rfl (by simp))
    (by simp [cfgMaxNodeLevel]) (typeChain_cons ht.root_eq (typeChain_cons ht.filter_eq rfl))

theorem cfgTypeQuery_aclNode : cfgTypeQuery tt aclNode = .ok (some ht.acl) := by
  have hpath : aclNode = namedPath [("root".toList, none), ("acl".toList, none)] := rfl
  rw [hpath]
  exact cfgTypeQuery_named (u := [cfgTypeGetRoot tt]) (ok_of_isPathName rfl (by simp))
    (by simp [cfgMaxNodeLevel]) (typeChain_cons ht.root_eq (typeChain_cons ht.acl_eq rfl))

/-! ### Ids of different tables -/

theorem mkOid_ne_of_name {x y : Str} {t u : CfgTypePtr}
    (hx : isPathName x = true) (hy : isPathName y = true)
    (hxy : cfgStrToLower x ≠ cfgStrToLower y)
    (ht' : cfgTypeQueryChild tt (some (cfgTypeGetRoot tt)) x = some t)
    (hu : cfgTypeQueryChild tt (some (cfgTypeGetRoot tt)) y = some u) :
    mkOid t.1.id 1 ≠ mkOid u.1.id 1 := by
  have hroot := cfgTypeGetRoot_mem tt
  have hmem : ∀ {z v}, cfgTypeQueryChild tt (some (cfgTypeGetRoot tt)) z = some v →
      v.1.id < 65536 := fun h => by
    have := (typeId_lt (cfgTypeQueryChild_mem (by simpa using hroot) h)).2
    omega
  rw [ne_eq, mkOid_inj (hmem ht') (hmem hu) (by decide) (by decide)]
  exact fun h => typeId_ne hroot (isToken_of_isPathName hx).1 (isToken_of_isPathName hy).1 hxy
    ht' hu h.1

theorem typeId_small {t : CfgTypePtr} {p : CfgTypePtr} {x : Str} (hp : p ∈ tt.types.entries)
    (h : cfgTypeQueryChild tt (some p) x = some t) : t ∈ tt.types.entries ∧ t.1.id < 65536 := by
  have hmem := cfgTypeQueryChild_mem (by simpa using hp) h
  have := (typeId_lt hmem).2
  exact ⟨hmem, by omega⟩

theorem filter_ne_chains : mkOid ht.filter.1.id 1 ≠ mkOid ht.chains.1.id 1 :=
  mkOid_ne_of_name rfl rfl (by decide) ht.filter_eq ht.chains_eq

theorem acl_ne_chains : mkOid ht.acl.1.id 1 ≠ mkOid ht.chains.1.id 1 :=
  mkOid_ne_of_name rfl rfl (by decide) ht.acl_eq ht.chains_eq

theorem filter_ne_state : mkOid ht.filter.1.id 1 ≠ mkOid ht.state.1.id 1 :=
  mkOid_ne_of_name rfl rfl (by decide) ht.filter_eq ht.state_eq

theorem acl_ne_state : mkOid ht.acl.1.id 1 ≠ mkOid ht.state.1.id 1 :=
  mkOid_ne_of_name rfl rfl (by decide) ht.acl_eq ht.state_eq

theorem filter_ne_acl : mkOid ht.filter.1.id 1 ≠ mkOid ht.acl.1.id 1 :=
  mkOid_ne_of_name rfl rfl (by decide) ht.filter_eq ht.acl_eq

theorem filter_ne_webcurset : mkOid ht.filter.1.id 1 ≠ mkOid ht.webcurset.1.id 1 :=
  mkOid_ne_of_name rfl rfl (by decide) ht.filter_eq ht.webcurset_eq

theorem state_ne_webcurset : mkOid ht.state.1.id 1 ≠ mkOid ht.webcurset.1.id 1 :=
  mkOid_ne_of_name rfl rfl (by decide) ht.state_eq ht.webcurset_eq

theorem commonIds_notMem_turnNotes : ht.commonIds ∉ ht.turnNotes := by
  simp [FilterTypes.commonIds, FilterTypes.turnNotes, filter_ne_webcurset]

theorem stateIds_notMem_writeNotes : ht.stateIds ∉ ht.writeNotes := by
  simp [FilterTypes.stateIds, FilterTypes.writeNotes, FilterTypes.commonIds,
    FilterTypes.turnNotes, state_ne_webcurset, (filter_ne_state ht).symm]

/-- A filter entry is another object than `root.ipmacfilter.common`. -/
theorem filterIds_ne_commonIds {n : Nat} (hn : n < 65536) : ht.filterIds n ≠ ht.commonIds := by
  obtain ⟨hf, -⟩ := typeId_small (cfgTypeGetRoot_mem tt) ht.filter_eq
  obtain ⟨-, he⟩ := typeId_small hf ht.filterEntry_eq
  obtain ⟨-, hc⟩ := typeId_small hf ht.filterCommon_eq
  have hname : isPathName "entry".toList = true ∧ isPathName "common".toList = true := by decide
  intro h
  simp only [FilterTypes.filterIds, FilterTypes.commonIds, List.cons.injEq, true_and, and_true] at h
  rw [mkOid_inj he hc hn (by decide)] at h
  exact typeId_ne hf (isToken_of_isPathName hname.1).1 (isToken_of_isPathName hname.2).1
    (by decide) ht.filterEntry_eq ht.filterCommon_eq h.1

end Paths

/-! ## Names and numbers in the paths -/

theorem getEntryNumberCfg2_filter {e : Nat} (he : e ≤ intMax) :
    getEntryNumberCfg2 (ipmacfilterEntryNNode e) "entry.".toList = some (e : Int) := by
  have hrest : strstrRest "entry.".toList (ipmacfilterEntryNNode e) = some (fmtNat e) := by
    rw [ipmacfilterEntryNNode_eq]
    rfl
  rw [getEntryNumberCfg2, hrest, Option.map_some, atoi_fmtNat he]

theorem getEntryNumberCfg2_chain {k : Nat} (hk : k ≤ intMax) :
    getEntryNumberCfg2 (chainNode k) "pvc.".toList = some (k : Int) := by
  have hrest : strstrRest "pvc.".toList (chainNode k) = some (fmtNat k) := rfl
  rw [getEntryNumberCfg2, hrest, Option.map_some, atoi_fmtNat hk]

theorem getEntryNumberCfg2_chainEntry {k i : Nat} (hk : k ≤ intMax) (hi : i ≤ intMax) :
    getEntryNumberCfg2 (tr181FirewallchPvcEntryNode k i) "pvc.".toList = some (k : Int) ∧
      getEntryNumberCfg2 (tr181FirewallchPvcEntryNode k i) "entry.".toList = some (i : Int) := by
  have hpvc : strstrRest "pvc.".toList (tr181FirewallchPvcEntryNode k i) =
      some (fmtNat k ++ ".entry.".toList ++ fmtNat i) := by
    rw [tr181FirewallchPvcEntryNode_eq, List.append_assoc]
    rfl
  have hentry : strstrRest "entry.".toList (tr181FirewallchPvcEntryNode k i) = some (fmtNat i) := by
    have hskip : 'e' ∉ fmtNat k := fun h => absurd (isDigit_of_mem_fmtNat h) (by decide)
    have hdig := @strstrRest_append 'e' "ntry.".toList _ (".entry.".toList ++ fmtNat i) hskip
    rw [tr181FirewallchPvcEntryNode_eq]
    exact hdig
  constructor
  · rw [getEntryNumberCfg2, hpvc, Option.map_some, List.append_assoc,
      atoi_fmtNat_append hk (by simp [isDigit])]
  · rw [getEntryNumberCfg2, hentry, Option.map_some, atoi_fmtNat hi]

/-! ## The printed paths fit -/

theorem snprintf_filterEntry {n : Nat} (hn : n ≤ intMax) :
    snprintf maxlenNodeName (ipmacfilterEntryNNode n) = ipmacfilterEntryNNode n := by
  show snprintf maxlenNodeName ("root.ipmacfilter.entry.".toList ++ fmtInt n) = _
  rw [fmtInt_natCast, snprintf_append_fmtNat (lt_ten_digits hn) (by decide), ← fmtInt_natCast]
  rfl

theorem snprintf_aclEntry {n : Nat} (hn : n ≤ intMax) :
    snprintf maxlenNodeName (aclEntryNNode n) = aclEntryNNode n := by
  show snprintf maxlenNodeName ("root.acl.entry.".toList ++ fmtInt n) = _
  rw [fmtInt_natCast, snprintf_append_fmtNat (lt_ten_digits hn) (by decide), ← fmtInt_natCast]
  rfl

theorem length_chainEntryNode {k i : Nat} (hk : k < 65536) (hi : i < 65536) :
    (tr181FirewallchPvcEntryNode k i).length < maxlenNodeName := by
  have hk' := (@length_fmtNat_le k 5 (by decide)).mpr (by omega)
  have hi' := (@length_fmtNat_le i 5 (by decide)).mpr (by omega)
  have hlen : (tr181FirewallchPvcEntryNode k i).length =
      20 + (fmtNat k).length + 7 + (fmtNat i).length := by
    show ("root.firewallch.pvc.".toList ++ fmtInt k ++ ".entry.".toList ++ fmtInt i).length = _
    rw [fmtInt_natCast, fmtInt_natCast, List.length_append, List.length_append, List.length_append]
    rfl
  rw [hlen, maxlenNodeName]
  omega

end OnuFirmware.Filter
