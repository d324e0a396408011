import OnuFirmware.Filter.Paths

/-!
# What a commit of the filters removes

`DeleteFilterIndex` runs in the middle of a commit and deletes the entries that the attribute
`DeleteIndex` lists, each with the chain entry whose path is printed for its number. Where no path
is printed the root object is freed. `Takes` says both for a call and the numbers that it takes up:
the objects of these numbers go and nothing else, or there is a fault.
-/

namespace OnuFirmware.Filter

open Lib Clib Cfg

/-! ## The chain entry of a filter entry -/

section Printed

variable {b : Build} {e k i : Nat}

theorem Build.sizes (b : Build) : (b.maxMacFilterRule = 40 ∨ b.maxMacFilterRule = 100) ∧
    (b.maxIpupFilterRule = 40 ∨ b.maxIpupFilterRule = 100) ∧
    b.maxIpmacfilterRule = 3 * b.maxMacFilterRule := by
  refine ⟨?_, ?_, ?_⟩
  · rw [maxMacFilterRule]
    split <;> simp
  · rw [maxIpupFilterRule]
    split <;> simp
  · rw [maxIpmacfilterRule]
    omega

/-- The chain entry whose path is printed for filter entry `e`. -/
def Printed (b : Build) (k i e : Nat) : Prop :=
  (k = 1 ∧ i = e ∧ e < b.maxMacFilterRule) ∨
  (k = 2 ∧ i + b.maxMacFilterRule = e ∧ 0 < i ∧ i < b.maxIpupFilterRule) ∨
  (k = 3 ∧ i + b.maxMacFilterRule + b.maxIpupFilterRule = e ∧ 0 < i ∧ e < b.maxIpmacfilterRule)

/-- A path is printed for each number inside one of the ranges. -/
theorem firewallChNodeName_printed (he : 0 < e) (hp : Printed b k i e) :
    firewallChNodeName b e = tr181FirewallchPvcEntryNode k i := by
  obtain ⟨hm, hu, hr⟩ := b.sizes
  have hshort : snprintf maxlenNodeName (tr181FirewallchPvcEntryNode k i) =
      tr181FirewallchPvcEntryNode k i := by
    refine snprintf_eq (length_chainEntryNode ?_ ?_)
    · rcases hp with ⟨rfl, -⟩ | ⟨rfl, -⟩ | ⟨rfl, -⟩ <;> omega
    · rcases hp with ⟨-, rfl, hlt⟩ | ⟨-, rfl, -, hlt⟩ | ⟨-, rfl, -, hlt⟩ <;> omega
  rw [← hshort, firewallChNodeName]
  rcases hp with ⟨rfl, rfl, hlt⟩ | ⟨rfl, rfl, hi, hlt⟩ | ⟨rfl, rfl, hi, hlt⟩
  · rw [if_pos (by omega)]
    rfl
  · rw [if_neg (by omega), if_pos (by omega)]
    congr 2
    omega
  · rw [if_neg (by omega), if_neg (by omega), if_pos (by omega)]
    congr 2
    omega

/-- Outside the ranges, and for the last number of each, no path is printed. -/
theorem firewallChNodeName_nil (hn : ∀ k i, ¬ Printed b k i e) : firewallChNodeName b e = [] := by
  have h1 : ¬ e < b.maxMacFilterRule := fun h => hn 1 e (.inl ⟨rfl, rfl, h⟩)
  have h2 : ¬ (b.maxMacFilterRule < e ∧ e < b.maxMacFilterRule + b.maxIpupFilterRule) := fun h =>
    hn 2 (e - b.maxMacFilterRule) (.inr (.inl ⟨rfl, by omega, by omega, by omega⟩))
  have h3 : ¬ (b.maxMacFilterRule + b.maxIpupFilterRule < e ∧ e < b.maxIpmacfilterRule) := fun h =>
    hn 3 (e - b.maxMacFilterRule - b.maxIpupFilterRule)
      (.inr (.inr ⟨rfl, by omega, by omega, by omega⟩))
  rw [firewallChNodeName, if_neg (by omega), if_neg (by omega), if_neg (by omega)]

/-- A number belongs to one range at most. -/
theorem Printed.unique {k' i' : Nat} (h : Printed b k i e) (h' : Printed b k' i' e) :
    k' = k ∧ i' = i := by
  rcases h with ⟨rfl, hi, h⟩ | ⟨rfl, hi, h⟩ | ⟨rfl, hi, h⟩ <;>
    rcases h' with ⟨rfl, hi', h'⟩ | ⟨rfl, hi', h'⟩ | ⟨rfl, hi', h'⟩ <;> omega

theorem Printed.lt (h : Printed b k i e) : e < 65536 := by
  obtain ⟨hm, hu, hr⟩ := b.sizes
  rw [Printed] at h
  omega

theorem Printed.bounds (he : 0 < e) (h : Printed b k i e) :
    0 < k ∧ k < 65536 ∧ 0 < i ∧ i < 65536 := by
  obtain ⟨hm, hu, hr⟩ := b.sizes
  rw [Printed] at h
  omega

/-- A path is printed for each of the numbers. -/
def AllPrinted (b : Build) (ns : List Nat) : Prop := ∀ n ∈ ns, ∃ k i, Printed b k i n

end Printed

/-! ## One filter entry -/

section Entry

variable {b : Build} {tt : TypeTree} (ht : FilterTypes tt) {st : ObjState} {e : Nat}

/-- One deletion. -/
theorem cfgObjDeleteObject_removes (notes : List (List Nat)) {path : Str} {ids : List Nat}
    (h : Rooted tt st) (hp : LeadsTo tt path ids) (hne : ids ≠ []) :
    ∃ n st', cfgObjDeleteObject tt st path = .ok (n, st') ∧
      Removes tt notes (ids <+: ·) st st' := by
  obtain ⟨n, st', hdel, hst'⟩ := h.deleteObject hp hne
  exact ⟨n, st', hdel, .of_removeAt hst'⟩

/-- The filter entry goes with the chain entry that is printed for it. -/
theorem entryFuncDelete_printed (notes : List (List Nat)) (h : Rooted tt st) (he : 0 < e)
    {k i : Nat} (hp : Printed b k i e) :
    ∃ n st', cfgTypeIpmacfilterEntryFuncDelete b tt st (ipmacfilterEntryNNode e) = .ok (n, st') ∧
      Removes tt notes (fun ks => ht.chainEntryIds k i <+: ks ∨ ht.filterIds e <+: ks) st st' := by
  obtain ⟨hk, hk', hi, hi'⟩ := hp.bounds he
  have he' := hp.lt
  have hsmall : e ≤ intMax := by simp only [intMax]; omega
  obtain ⟨n₁, st₁, hdel₁, hrem₁⟩ := cfgObjDeleteObject_removes notes h
    (leadsTo_chainEntry ht hk (by simp only [intMax]; omega) hi (by simp only [intMax]; omega))
    (by simp [FilterTypes.chainEntryIds])
  obtain ⟨n₂, st₂, hdel₂, hrem₂⟩ := cfgObjDeleteObject_removes notes hrem₁.rooted
    (leadsTo_filterEntry ht he hsmall) (by simp [FilterTypes.filterIds])
  refine ⟨n₂, st₂, ?_, hrem₁.trans hrem₂⟩
  rw [cfgTypeIpmacfilterEntryFuncDelete, deleteFirewallChNodeByIpmacfilterNode,
    getEntryNumberCfg2_filter hsmall]
  simp only [firewallChNodeName_printed he hp, hdel₁, bind, Except.bind, hdel₂]

/-- Where no path is printed, the root object is deleted. -/
theorem entryFuncDelete_dangling (h : Rooted tt st) (hs : e ≤ intMax)
    (hn : ∀ k i, ¬ Printed b k i e) :
    cfgTypeIpmacfilterEntryFuncDelete b tt st (ipmacfilterEntryNNode e) = .error .dangling := by
  rw [cfgTypeIpmacfilterEntryFuncDelete, deleteFirewallChNodeByIpmacfilterNode,
    getEntryNumberCfg2_filter hs]
  simp only [firewallChNodeName_nil hn, h.deleteObject_empty, bind, Except.bind]

end Entry

/-! ## Calls that take up numbers -/

section Takes

variable {b : Build} {tt : TypeTree} {ht : FilterTypes tt} {st st' : ObjState}
  {notes : List (List Nat)} {ns ms : List Nat} {gone gone' : List Nat → Prop}

/-- Nothing is removed. -/
def Nothing (_ : List Nat) : Prop := False

/-- The objects of the filter entries `ns`: the entries, the chain entries that are printed for
them, and what is below these. -/
def Doomed (b : Build) (ht : FilterTypes tt) (ns ks : List Nat) : Prop :=
  ∃ n ∈ ns, ∃ ids, (ids = ht.filterIds n ∨ ∃ k i, Printed b k i n ∧ ids = ht.chainEntryIds k i) ∧
    ids <+: ks

/-- The call removes what `gone` says, if a path is printed for each of the numbers `ns`, and faults
otherwise. -/
structure Takes (b : Build) (tt : TypeTree) (notes : List (List Nat)) (ns : List Nat)
    (gone : List Nat → Prop) (st : ObjState) (r : Except Fault ObjState) : Prop where
  ok : AllPrinted b ns → ∃ st', r = .ok st' ∧ Removes tt notes gone st st'
  fault : ¬ AllPrinted b ns → ∃ f, r = .error f

theorem allPrinted_nil : AllPrinted b [] := fun _ hn => absurd hn List.not_mem_nil

theorem allPrinted_append : AllPrinted b (ns ++ ms) ↔ AllPrinted b ns ∧ AllPrinted b ms := by
  simp only [AllPrinted, List.mem_append, or_imp, forall_and]

theorem doomed_nil {ks : List Nat} : Doomed b ht [] ks ↔ Nothing ks := by
  simp [Doomed, Nothing]

theorem doomed_append {ks : List Nat} :
    Doomed b ht (ns ++ ms) ks ↔ Doomed b ht ns ks ∨ Doomed b ht ms ks := by
  simp only [Doomed, List.mem_append, or_and_right, exists_or]

/-- The chain entry of a number is the one that is printed for it. -/
theorem doomed_singleton {n k i : Nat} (hp : Printed b k i n) {ks : List Nat} :
    Doomed b ht [n] ks ↔ ht.chainEntryIds k i <+: ks ∨ ht.filterIds n <+: ks := by
  constructor
  · rintro ⟨m, hm, ids, rfl | ⟨k', i', hp', rfl⟩, hpre⟩
    · rw [List.mem_singleton.mp hm] at hpre
      exact .inr hpre
    · rw [List.mem_singleton.mp hm] at hp'
      obtain ⟨rfl, rfl⟩ := hp.unique hp'
      exact .inl hpre
  · rintro (hpre | hpre)
    · exact ⟨n, List.mem_singleton_self n, _, .inr ⟨k, i, hp, rfl⟩, hpre⟩
    · exact ⟨n, List.mem_singleton_self n, _, .inl rfl, hpre⟩

theorem Takes.congr {r : Except Fault ObjState} (h : Takes b tt notes ns gone st r)
    (hg : ∀ ks, gone ks ↔ gone' ks) : Takes b tt notes ns gone' st r :=
  ⟨fun hall => (h.ok hall).imp fun _ hst => ⟨hst.1, hst.2.congr hg⟩, h.fault⟩

/-- A call that takes up no number. -/
theorem Takes.of_removes (h : Removes tt notes gone st st') :
    Takes b tt notes [] gone st (.ok st') :=
  ⟨fun _ => ⟨st', rfl, h⟩, fun hn => absurd allPrinted_nil hn⟩

/-- One call after the other. -/
theorem Takes.bind {r : Except Fault ObjState} {f : ObjState → Except Fault ObjState}
    (h : Takes b tt notes ns gone st r)
    (hf : AllPrinted b ns → ∀ st', Removes tt notes gone st st' →
      Takes b tt notes ms gone' st' (f st')) :
    Takes b tt notes (ns ++ ms) (fun ks => gone ks ∨ gone' ks) st (r >>= f) := by
  by_cases hns : AllPrinted b ns
  · obtain ⟨st₁, rfl, hrem⟩ := h.ok hns
    have hf := hf hns st₁ hrem
    refine ⟨fun hall => ?_, fun hn => hf.fault fun hms => hn (allPrinted_append.mpr ⟨hns, hms⟩)⟩
    obtain ⟨st₂, hst₂, hrem₂⟩ := hf.ok (allPrinted_append.mp hall).2
    exact ⟨st₂, hst₂, hrem.trans hrem₂⟩
  · obtain ⟨f', rfl⟩ := h.fault hns
    exact ⟨fun hall => absurd (allPrinted_append.mp hall).1 hns, fun _ => ⟨f', rfl⟩⟩

theorem Takes.mono {notes' : List (List Nat)} {r : Except Fault ObjState}
    (h : Takes b tt notes ns gone st r) (hn : notes ⊆ notes') : Takes b tt notes' ns gone st r :=
  ⟨fun hall => (h.ok hall).imp fun _ hst => ⟨hst.1, hst.2.mono hn⟩, h.fault⟩

/-- An attribute of an object in the notes. -/
theorem cfgSetObjectAttr_removes (notes : List (List Nat)) {path : Str} {ids : List Nat}
    (h : Rooted tt st) (hp : LeadsTo tt path ids) (hids : ids ∈ notes) {attr : Str}
    (hattr : attr ≠ []) (val : Str) :
    ∃ st', cfgSetObjectAttr tt st path attr val = .ok st' ∧ Removes tt notes Nothing st st' := by
  obtain ⟨n, st', hset, hst'⟩ := h.setAttr hp attr hattr val
  obtain ⟨o, hq⟩ := hp.typeQuery
  cases o with
  | none => exact ⟨st, by rw [cfgSetObjectAttr, hq]; rfl, .refl h⟩
  | some t =>
    refine ⟨st', ?_, .of_setAt hids hst'⟩
    rw [cfgSetObjectAttr, hq]
    show (cfgObjSetObjectAttr tt st path attr val >>= fun r => .ok r.2) = .ok st'
    rw [hset]
    rfl

end Takes

/-! ## `DeleteFilterIndex` -/

section DeleteIndex

variable {b : Build} {tt : TypeTree} (ht : FilterTypes tt) {st : ObjState}

/-- The text of an attribute in a buffer of `size` bytes, empty without the attribute. -/
def textOf (attrs : Option (List (Str × Str))) (attr : Str) (size : Nat) : Str :=
  ((attrs.bind (cfgXmlGetAttr · attr)).getD []).take (size - 1)

theorem getAttr_text {path : Str} {ids : List Nat} (h : Rooted tt st) (hp : LeadsTo tt path ids)
    (attr : Str) {size : Nat} (hs : size ≠ 0) :
    ∃ n, cfgObjGetObjectAttr tt st path attr size =
      .ok (n, textOf (attrsAt st.tree ids) attr size) := by
  rw [h.getAttr hp attr hs, textOf]
  cases attrsAt st.tree ids with
  | none => exact ⟨-1, by simp⟩
  | some attrs =>
    cases hget : cfgXmlGetAttr attrs attr with
    | none => exact ⟨-2, by simp [hget]⟩
    | some tmp => exact ⟨(tmp.take (size - 1)).length, by simp [hget]⟩

/-- The number that an item of `DeleteIndex` stands for, if it is one of an entry. -/
def itemNumber (strnum : Str) : List Nat :=
  if 0 < atoi strnum + 1 then [(atoi strnum + 1).toNat] else []

/-- One turn of `unset_action`. -/
theorem unsetItem_takes (h : Rooted tt st) {strnum : Str} (hlen : strnum.length ≤ 4) :
    Takes b tt ht.turnNotes (itemNumber strnum) (Doomed b ht (itemNumber strnum)) st
      (unsetItem b tt st strnum) := by
  obtain ⟨st₁, hset, hrem⟩ := cfgSetObjectAttr_removes ht.turnNotes h
    (leadsTo_webcurset ht) (by simp [FilterTypes.turnNotes])
    (show "ipfilter_id".toList ≠ [] by decide) strnum
  have hlt := atoi_lt_of_length hlen
  simp only [unsetItem, hset, bind, Except.bind, itemNumber]
  by_cases hpos : 0 < atoi strnum + 1
  · obtain ⟨n, hn⟩ : ∃ n : Nat, atoi strnum + 1 = n := ⟨_, (Int.toNat_of_nonneg (by omega)).symm⟩
    have hn0 : 0 < n := by omega
    have hmax : n ≤ intMax := by simp only [intMax]; omega
    have hq := cfgTypeQuery_filterEntry ht hn0 hmax
    rw [if_pos hpos, hn]
    simp only [Int.toNat_natCast, cfgDeleteObject, hq, bind, Except.bind]
    refine ⟨fun hall => ?_, fun hnot => ?_⟩
    · obtain ⟨k, i, hp⟩ := hall n (List.mem_singleton_self n)
      obtain ⟨r, st₂, hdel, hrem₂⟩ := entryFuncDelete_printed ht ht.turnNotes hrem.rooted hn0 hp
      refine ⟨st₂, by rw [hdel], (hrem.trans hrem₂).congr fun ks => ?_⟩
      rw [doomed_singleton hp]
      exact or_iff_right id
    · have hnone : ∀ k i, ¬ Printed b k i n := fun k i hp => hnot fun m hm => by
        rw [List.mem_singleton.mp hm]
        exact ⟨k, i, hp⟩
      exact ⟨.dangling, by rw [entryFuncDelete_dangling hrem.rooted hmax hnone]⟩
  · have hint : IsInt (atoi strnum + 1) := by
      have hlow := atoi_ge strnum
      rw [IsInt]
      omega
    have hq := cfgTypeQuery_filterEntry_none ht (Int.not_lt.mp hpos) hint
    rw [if_neg hpos]
    simp only [cfgDeleteObject, hq, bind, Except.bind]
    exact (Takes.of_removes hrem).congr fun ks => doomed_nil.symm

theorem unsetItems_takes : ∀ (items : List Str) {st : ObjState}, Rooted tt st →
    (∀ s ∈ items, s.length ≤ 4) →
    Takes b tt ht.turnNotes (items.flatMap itemNumber) (Doomed b ht (items.flatMap itemNumber)) st
      (items.foldlM (unsetItem b tt) st)
  | [], _, h, _ => (Takes.of_removes (.refl h)).congr fun _ => doomed_nil.symm
  | s :: items, st, h, hl => by
    have hone := unsetItem_takes (b := b) ht h (hl s List.mem_cons_self)
    rw [List.foldlM_cons, List.flatMap_cons]
    exact (hone.bind fun _ st' hrem => unsetItems_takes items hrem.rooted fun t ht =>
      hl t (List.mem_cons_of_mem _ ht)).congr fun _ => doomed_append.symm

/-- The numbers of the entries that `DeleteFilterIndex` deletes, from the attributes of
`root.ipmacfilter.common`. -/
def deleteNumbers (common : Option (List (Str × Str))) : List Nat :=
  if textOf common "Action".toList 400 = "Del".toList then
    (unsetItems (textOf common "DeleteIndex".toList 400)).flatMap itemNumber
  else []

/-- **`DeleteFilterIndex` takes up the numbers that are listed.** -/
theorem deleteFilterIndex_takes (h : Rooted tt st) {ns : List Nat}
    (hns : deleteNumbers (attrsAt st.tree ht.commonIds) = ns) :
    Takes b tt ht.turnNotes ns (Doomed b ht ns) st (deleteFilterIndex b tt st) := by
  obtain ⟨n₁, hget₁⟩ := getAttr_text h (leadsTo_filterCommon ht) "Action".toList
    (show 400 ≠ 0 by decide)
  obtain ⟨n₂, hget₂⟩ := getAttr_text h (leadsTo_filterCommon ht) "DeleteIndex".toList
    (show 400 ≠ 0 by decide)
  rw [deleteNumbers] at hns
  simp only [deleteFilterIndex, hget₁, bind, Except.bind, hget₂]
  split
  · next hdel =>
    rw [if_pos hdel] at hns
    rw [← hns]
    refine unsetItems_takes ht _ h fun s hs => ?_
    obtain ⟨t, -, rfl⟩ := List.mem_map.mp hs
    exact List.length_take_le 4 t
  · next hdel =>
    rw [if_neg hdel] at hns
    rw [← hns]
    exact (Takes.of_removes (.refl h)).congr fun _ => doomed_nil.symm

/-- The objects with the attributes that a commit reads stay. -/
theorem not_doomed {ns : List Nat} (hall : AllPrinted b ns) :
    ¬ Doomed b ht ns ht.commonIds ∧ ¬ Doomed b ht ns ht.stateIds := by
  constructor
  · rintro ⟨n, hn, ids, rfl | ⟨k, i, -, rfl⟩, hpre⟩
    · obtain ⟨k, i, hp⟩ := hall n hn
      have heq := hpre.eq_of_length (by simp [FilterTypes.filterIds, FilterTypes.commonIds])
      exact filterIds_ne_commonIds ht hp.lt heq
    · exact absurd hpre.length_le (by simp [FilterTypes.chainEntryIds, FilterTypes.commonIds])
  · rintro ⟨n, -, ids, rfl | ⟨k, i, -, rfl⟩, hpre⟩
    · rw [FilterTypes.filterIds, FilterTypes.stateIds, List.cons_prefix_cons] at hpre
      exact filter_ne_state ht hpre.1
    · exact absurd hpre.length_le (by simp [FilterTypes.chainEntryIds, FilterTypes.stateIds])

end DeleteIndex

/-! ## The filter scripts -/

section Scripts

variable {b : Build} {env : Env} {tt : TypeTree} (ht : FilterTypes tt) {st : ObjState}

/-- Counting the entries sets attributes of `root.ipmacfilter`. -/
theorem countEntries_ok (macIp : Nat) : ∀ (l : List Nat) (acc : ObjState × Bool × Nat),
    Rooted tt acc.1 → (∀ i ∈ l, i < intMax) →
    ∃ acc', l.foldlM (countEntry tt macIp) acc = .ok acc' ∧
      Removes tt ht.turnNotes Nothing acc.1 acc'.1
  | [], acc, h, _ => ⟨acc, rfl, .refl h⟩
  | i :: l, acc, h, hl => by
    have hi := hl i List.mem_cons_self
    obtain ⟨r, hq, -⟩ := h.queryObject (leadsTo_filterEntry ht (Nat.succ_pos i) hi)
    have hone : ∃ acc₁, countEntry tt macIp acc i = .ok acc₁ ∧
        Removes tt ht.turnNotes Nothing acc.1 acc₁.1 := by
      have hattr : addNumAttr macIp ≠ [] := by
        unfold addNumAttr
        split <;> decide
      obtain ⟨st₁, hset, hrem⟩ := cfgSetObjectAttr_removes ht.turnNotes h
        (leadsTo_ipmacfilter ht) (by simp [FilterTypes.turnNotes]) hattr (snprintf 4 (fmtInt i))
      have hq : cfgObjQueryObject tt acc.1 (ipmacfilterEntryNNode (i + 1)) none = .ok r := hq
      simp only [countEntry, hq, bind, Except.bind, hset]
      split_ifs
      · exact ⟨_, rfl, .refl h⟩
      · exact ⟨_, rfl, .refl h⟩
      · exact ⟨_, rfl, hrem⟩
    obtain ⟨acc₁, hcount, hrem⟩ := hone
    obtain ⟨acc₂, hfold, hrem₂⟩ := countEntries_ok macIp l acc₁ hrem.rooted fun j hj =>
      hl j (List.mem_cons_of_mem _ hj)
    refine ⟨acc₂, ?_, (hrem.trans hrem₂).congr fun _ => or_self_iff⟩
    rw [List.foldlM_cons, hcount]
    exact hfold

theorem lt_of_mem_indexes {macIp i : Nat} (h : i ∈ b.indexes macIp) : i < intMax := by
  obtain ⟨hm, hu, hr⟩ := b.sizes
  unfold Build.indexes at h
  split at h
  · rw [List.mem_range] at h
    rw [intMax]
    omega
  · rw [List.mem_range'_1] at h
    rw [intMax]
    omega
  · rw [List.mem_range'_1] at h
    rw [intMax]
    omega

theorem entryFuncGet_ok (h : Rooted tt st) (macIp : Nat) :
    ∃ st', cfgTypeIpmacfilterEntryFuncGet b env tt st macIp = .ok st' ∧
      Removes tt ht.turnNotes Nothing st st' := by
  have hattr : numAttr macIp ≠ [] := by
    unfold numAttr
    split <;> decide
  obtain ⟨r, hq, -⟩ := h.queryObject (leadsTo_ipmacfilter ht)
  obtain ⟨acc, hfold, hrem⟩ := countEntries_ok ht macIp (b.indexes macIp)
    (st, false, 0) h fun _ => lt_of_mem_indexes
  obtain ⟨st₁, hset, hrem₁⟩ := cfgSetObjectAttr_removes ht.turnNotes hrem.rooted
    (leadsTo_ipmacfilter ht) (by simp [FilterTypes.turnNotes]) hattr
    (snprintf 4 (fmtInt acc.2.2))
  simp only [cfgTypeIpmacfilterEntryFuncGet, hq, bind, Except.bind, hfold, hset]
  split
  · exact ⟨st, rfl, .refl h⟩
  · exact ⟨st₁, rfl, (hrem.trans hrem₁).congr fun _ => or_self_iff⟩

/-- A turn for these rules comes to `DeleteFilterIndex`. -/
def turnDeletes (b : Build) (common : Option (List (Str × Str))) (macIp : Nat) : Bool :=
  b.e8gui && listTypeKnown (textOf common (listTypeAttr macIp) 8)

theorem ipMacHandle_idle (h : Rooted tt st) {macIp : Nat}
    (hno : turnDeletes b (attrsAt st.tree ht.commonIds) macIp = false) :
    ipMacHandle b env tt st macIp = .ok (false, st) := by
  obtain ⟨n, hget⟩ := getAttr_text h (leadsTo_filterCommon ht) (listTypeAttr macIp)
    (show 8 ≠ 0 by decide)
  rw [turnDeletes, Bool.and_eq_false_iff] at hno
  simp only [ipMacHandle, hget, bind, Except.bind]
  split_ifs with h1 h2
  · rfl
  · rcases hno with hno | hno
    · exact absurd h2 (by simp [hno])
    · exact absurd hno h1
  · rfl

/-- **A turn takes up the numbers that are listed**; where it does not end the call, the attributes
that the next turn reads are left alone. -/
theorem ipMacHandle_deletes (h : Rooted tt st) {macIp : Nat} {ns : List Nat}
    (hns : deleteNumbers (attrsAt st.tree ht.commonIds) = ns)
    (hyes : turnDeletes b (attrsAt st.tree ht.commonIds) macIp = true) :
    (AllPrinted b ns → ∃ ret st', ipMacHandle b env tt st macIp = .ok (ret, st') ∧
      Removes tt ht.writeNotes (Doomed b ht ns) st st' ∧
      (ret = false → Removes tt ht.turnNotes (Doomed b ht ns) st st')) ∧
    (¬ AllPrinted b ns → ∃ f, ipMacHandle b env tt st macIp = .error f) := by
  obtain ⟨n, hget⟩ := getAttr_text h (leadsTo_filterCommon ht) (listTypeAttr macIp)
    (show 8 ≠ 0 by decide)
  obtain ⟨n₂, hget₂⟩ := getAttr_text h (leadsTo_filterCommon ht) (onOffAttr macIp)
    (show 8 ≠ 0 by decide)
  rw [turnDeletes, Bool.and_eq_true] at hyes
  have htakes := deleteFilterIndex_takes (b := b) ht h hns
  have hsub : ht.turnNotes ⊆ ht.writeNotes := fun _ hx =>
    List.mem_cons_of_mem _ (List.mem_cons_of_mem _ hx)
  simp only [ipMacHandle, hget, hget₂, hyes, bind, Except.bind, Bool.true_eq_false, if_false,
    if_true]
  refine ⟨fun hall => ?_, fun hn => ?_⟩
  · obtain ⟨st₁, hdel, hrem⟩ := htakes.ok hall
    obtain ⟨n₃, hget₃⟩ := getAttr_text hrem.rooted (leadsTo_filterCommon ht) "DelOnly".toList
      (show 8 ≠ 0 by decide)
    obtain ⟨st₂, hset, hrem₂⟩ := cfgSetObjectAttr_removes ht.writeNotes hrem.rooted
      (leadsTo_filterCommon ht) (List.mem_cons_of_mem _ List.mem_cons_self)
      (show "DelOnly".toList ≠ [] by decide) "No".toList
    obtain ⟨st₃, hcount, hrem₃⟩ := @entryFuncGet_ok b env tt ht st₁ hrem.rooted macIp
    have hrem₃ := (hrem.trans hrem₃).congr fun _ => or_iff_left id
    simp only [hdel, hget₃, hset, hcount]
    split_ifs
    · exact ⟨true, st₂, rfl, ((hrem.mono hsub).trans hrem₂).congr fun _ => or_iff_left id,
        fun hf => absurd hf (by decide)⟩
    · exact ⟨false, st₃, rfl, hrem₃.mono hsub, fun _ => hrem₃⟩
    · exact ⟨false, st₁, rfl, hrem.mono hsub, fun _ => hrem⟩
  · obtain ⟨f, hf⟩ := htakes.fault hn
    exact ⟨f, by simp [hf]⟩

/-- The values of `mac_ip` that a commit comes to, from the attributes of `root.globalstate` and
`root.ipmacfilter.common`. -/
def handled (globalstate common : Option (List (Str × Str))) : List Nat :=
  let flag := atoi (textOf globalstate "g_ip_mac_flag".toList 2)
  if common = none then []
  else if flag = 1 then (filterTypeOf (textOf common "IpMacType".toList 8)).toList
  else if flag = 0 then [0, 1, 2]
  else []

/-- The numbers that the turns for the rules `l` take up. -/
def turnsDelete (b : Build) (common : Option (List (Str × Str))) (l : List Nat) : List Nat :=
  if l.any (turnDeletes b common) then deleteNumbers common else []

theorem turnsDelete_subset (common : Option (List (Str × Str))) (l : List Nat) :
    turnsDelete b common l ⊆ deleteNumbers common := by
  rw [turnsDelete]
  split
  · exact List.Subset.refl _
  · exact List.nil_subset _

theorem turnsDelete_cons (common : Option (List (Str × Str))) (macIp : Nat) (l : List Nat) :
    turnsDelete b common (macIp :: l) =
      if turnDeletes b common macIp then deleteNumbers common else turnsDelete b common l := by
  rw [turnsDelete, List.any_cons]
  cases turnDeletes b common macIp <;> rfl

theorem doomed_subset {ns ms ks : List Nat} (hs : ms ⊆ ns) (h : Doomed b ht ms ks) :
    Doomed b ht ns ks := by
  obtain ⟨n, hn, hids⟩ := h
  exact ⟨n, hs hn, hids⟩

/-- The turns, by induction on what is left of them: the attributes `common` stay. -/
theorem ipMacHandles_takes {common : Option (List (Str × Str))} : ∀ (l : List Nat) {st : ObjState},
    Rooted tt st → attrsAt st.tree ht.commonIds = common →
    Takes b tt ht.writeNotes (turnsDelete b common l) (Doomed b ht (turnsDelete b common l)) st
      (ipMacHandles b env tt l st)
  | [], st, h, _ => by
    obtain ⟨st', hset, hrem⟩ := cfgSetObjectAttr_removes ht.writeNotes h
      (leadsTo_globalstate ht) List.mem_cons_self (show "g_ip_mac_flag".toList ≠ [] by decide)
      "1".toList
    rw [ipMacHandles, hset]
    exact (Takes.of_removes hrem).congr fun _ => doomed_nil.symm
  | macIp :: l, st, h, hc => by
    rw [turnsDelete_cons, ipMacHandles]
    split
    · next hyes =>
      obtain ⟨hok, hfault⟩ := @ipMacHandle_deletes b env tt ht st h macIp _ rfl (hc ▸ hyes)
      rw [hc] at hok hfault
      refine ⟨fun hall => ?_, fun hn => ?_⟩
      · obtain ⟨ret, st₁, hturn, hrem, hnext⟩ := hok hall
        rw [hturn]
        cases ret with
        | true => exact ⟨st₁, rfl, hrem⟩
        | false =>
          have hc₁ : attrsAt st₁.tree ht.commonIds = common := by
            rw [(hnext rfl).attrs _ (commonIds_notMem_turnNotes ht) (not_doomed ht hall).1, hc]
          have hsub := @turnsDelete_subset b common l
          obtain ⟨st₂, hrest, hrem₂⟩ := (ipMacHandles_takes l hrem.rooted hc₁).ok
            fun n hn => hall n (hsub hn)
          exact ⟨st₂, hrest, (hrem.trans hrem₂).congr fun ks =>
            or_iff_left_of_imp (doomed_subset ht hsub)⟩
      · obtain ⟨f, hf⟩ := hfault hn
        exact ⟨f, by rw [hf]; rfl⟩
    · next hno =>
      rw [ipMacHandle_idle ht h (by rw [hc]; exact Bool.not_eq_true _ ▸ hno)]
      exact ipMacHandles_takes l h hc

/-- The numbers of the entries that a commit of the filters deletes. -/
def commitDeletes (b : Build) (globalstate common : Option (List (Str × Str))) : List Nat :=
  turnsDelete b common (handled globalstate common)

/-- **What goes with the filter scripts**, read from the attributes before. -/
theorem svcWanRelatedIpmacfilterWrite_takes (h : Rooted tt st) {ns : List Nat}
    (hns : commitDeletes b (attrsAt st.tree [mkOid ht.state.1.id 1])
      (attrsAt st.tree ht.commonIds) = ns) :
    Takes b tt ht.writeNotes ns (Doomed b ht ns) st
      (svcWanRelatedIpmacfilterWrite b env tt st) := by
  obtain ⟨n₁, hget₁⟩ := getAttr_text h (leadsTo_globalstate ht) "g_ip_mac_flag".toList
    (show 2 ≠ 0 by decide)
  obtain ⟨n₂, hget₂⟩ := getAttr_text h (leadsTo_filterCommon ht) "IpMacType".toList
    (show 8 ≠ 0 by decide)
  obtain ⟨r, hq, hr⟩ := h.queryObject (leadsTo_filterCommon ht)
  have hnil : turnsDelete b (attrsAt st.tree ht.commonIds) [] = [] := rfl
  have hnone : Takes b tt ht.writeNotes [] (Doomed b ht []) st (.ok st) :=
    (Takes.of_removes (.refl h)).congr fun _ => doomed_nil.symm
  rw [commitDeletes, handled] at hns
  simp only [svcWanRelatedIpmacfilterWrite, hget₁, hget₂, hq, bind, Except.bind]
  by_cases hcommon : attrsAt st.tree ht.commonIds = none
  · rw [if_pos (by rw [hr, hcommon]; decide)]
    rw [if_pos hcommon, hnil] at hns
    exact hns ▸ hnone
  rw [if_neg hcommon] at hns
  rw [if_neg (by rw [hr, if_pos (Option.ne_none_iff_isSome.mp hcommon)]; decide)]
  split_ifs at hns ⊢ with h1 h2
  · -- the rules that `IpMacType` names
    cases hm : filterTypeOf (textOf (attrsAt st.tree ht.commonIds) "IpMacType".toList 8) with
    | none =>
      rw [hm, Option.toList_none, hnil] at hns
      exact hns ▸ hnone
    | some macIp =>
      rw [hm, Option.toList_some, turnsDelete_cons, hnil] at hns
      dsimp only
      split at hns
      · next hyes =>
        obtain ⟨hok, hfault⟩ := @ipMacHandle_deletes b env tt ht st h macIp ns hns hyes
        refine ⟨fun hall => ?_, fun hn => ?_⟩
        · obtain ⟨ret, st₁, hturn, hrem, -⟩ := hok hall
          exact ⟨st₁, by rw [hturn]; rfl, hrem⟩
        · obtain ⟨f, hf⟩ := hfault hn
          exact ⟨f, by rw [hf]; rfl⟩
      · next hno =>
        rw [ipMacHandle_idle ht h (Bool.not_eq_true _ ▸ hno), ← hns]
        exact hnone
  · exact hns ▸ ipMacHandles_takes ht [0, 1, 2] h rfl
  · exact hns ▸ hnone

end Scripts

/-! ## Commits -/

section Commit

variable {b : Build} {env : Env} {tt : TypeTree} (ht : FilterTypes tt) {st : ObjState}

/-- The commit flag is set. -/
def Flagged (ht : FilterTypes tt) (st : ObjState) : Prop :=
  ∃ attrs, attrsAt st.tree ht.stateIds = some attrs ∧
    cfgXmlGetAttr attrs "CommitFromTR181".toList = some "1".toList

/-- Under the flag the chains are left alone. -/
theorem updateFireWallChByNodeFlag_flagged (h : Rooted tt st) (hf : Flagged ht st)
    (update : ObjState → Except Fault ObjState) :
    updateFireWallChByNodeFlag tt update st = .ok st := by
  obtain ⟨attrs, hattrs, hget⟩ := hf
  simp only [updateFireWallChByNodeFlag,
    h.getAttr (leadsTo_state ht) _ (show (8 : Nat) ≠ 0 by decide), hattrs, hget, bind, Except.bind]
  rfl

/-- A commit of the filters under the flag. -/
theorem cfgTypeIpmacfilterEntryCommit_takes (h : Rooted tt st) (hf : Flagged ht st) {ns : List Nat}
    (hns : commitDeletes b (attrsAt st.tree [mkOid ht.state.1.id 1])
      (attrsAt st.tree ht.commonIds) = ns) :
    Takes b tt ht.writeNotes ns (Doomed b ht ns) st
      (cfgTypeIpmacfilterEntryCommit b env tt st) := by
  have hwrite : Takes b tt ht.writeNotes ns (Doomed b ht ns) st
      (svcWanRelatedIpmacfilterWrite b env tt st) := svcWanRelatedIpmacfilterWrite_takes ht h hns
  refine ⟨fun hall => ?_, fun hn => ?_⟩
  · obtain ⟨st₁, hst₁, hrem⟩ := hwrite.ok hall
    have hf₁ : Flagged ht st₁ := by
      rw [Flagged, hrem.attrs _ (stateIds_notMem_writeNotes ht) (not_doomed ht hall).2]
      exact hf
    refine ⟨st₁, ?_, hrem⟩
    rw [cfgTypeIpmacfilterEntryCommit, hst₁]
    exact updateFireWallChByNodeFlag_flagged ht hrem.rooted hf₁ _
  · obtain ⟨f, hst₁⟩ := hwrite.fault hn
    exact ⟨f, by rw [cfgTypeIpmacfilterEntryCommit, hst₁]; rfl⟩

/-- Under the flag a commit of the access control does nothing to the tree. -/
theorem cfgTypeAclCommit_takes (h : Rooted tt st) (hf : Flagged ht st) :
    Takes b tt ht.writeNotes [] (Doomed b ht []) st (cfgTypeAclCommit env tt st) := by
  rw [cfgTypeAclCommit, updateFireWallChByNodeFlag_flagged ht h hf]
  exact (Takes.of_removes (.refl h)).congr fun _ => doomed_nil.symm

/-- **`cfg_tr181_commit_object` takes up what the commit does**, if the lock file can be opened,
while the object with the flag exists. -/
theorem cfgTr181CommitObject_takes {commit : ObjState → Except Fault ObjState} {node : Str}
    {t : CfgTypePtr} {ns : List Nat} (h : Rooted tt st)
    (hstate : (attrsAt st.tree ht.stateIds).isSome)
    (hcommit : ∀ st₁, Rooted tt st₁ → Flagged ht st₁ →
      (∀ ids ≠ ht.stateIds, attrsAt st₁.tree ids = attrsAt st.tree ids) →
      Takes b tt ht.writeNotes ns (Doomed b ht ns) st₁ (commit st₁))
    (hq : cfgTypeQuery tt node = .ok (some t)) :
    Takes b tt ht.notes (if env.lock node then ns else [])
      (Doomed b ht (if env.lock node then ns else [])) st
      (cfgTr181CommitObject env tt commit st node) := by
  have hnote : ht.stateIds ∈ ht.notes := List.mem_cons_self
  have hsub : ht.writeNotes ⊆ ht.notes := List.subset_cons_self _ _
  obtain ⟨attrs, hattrs⟩ := Option.isSome_iff_exists.mp hstate
  obtain ⟨n₁, st₁, hset₁, hst₁⟩ := h.setAttr (leadsTo_state ht) "CommitFromTR181".toList
    (by decide) "1".toList
  have hf₁ : Flagged ht st₁ := by
    refine ⟨_, ?_, cfgXmlGetAttr_set_self attrs _ _⟩
    rw [hst₁.content, setAt, if_pos rfl, hattrs]
    rfl
  have hkeep : ∀ ids ≠ ht.stateIds, attrsAt st₁.tree ids = attrsAt st.tree ids := fun ids hne => by
    rw [hst₁.content, setAt, if_neg hne]
  -- the commit runs if the lock file can be opened
  have hmid : Takes b tt ht.notes (if env.lock node then ns else [])
      (Doomed b ht (if env.lock node then ns else [])) st₁
      (cfgCommitObject env tt commit st₁ node) := by
    simp only [cfgCommitObject, hq, bind, Except.bind]
    split
    · exact (hcommit st₁ hst₁.rooted hf₁ hkeep).mono hsub
    · exact (Takes.of_removes (.refl hst₁.rooted)).congr fun _ => doomed_nil.symm
  refine ⟨fun hall => ?_, fun hn => ?_⟩
  · obtain ⟨st₂, hst₂, hrem₂⟩ := hmid.ok hall
    obtain ⟨n₃, st₃, hset₃, hst₃⟩ := hrem₂.rooted.setAttr (leadsTo_state ht)
      "CommitFromTR181".toList (by decide) "0".toList
    refine ⟨st₃, ?_, ?_⟩
    · simp only [cfgTr181CommitObject, hset₁, hst₂, hset₃, bind, Except.bind]
    · exact (((Removes.of_setAt hnote hst₁).trans hrem₂).trans (.of_setAt hnote hst₃)).congr
        fun ks => (or_iff_left id).trans (or_iff_right id)
  · obtain ⟨f, hst₂⟩ := hmid.fault hn
    exact ⟨f, by simp only [cfgTr181CommitObject, hset₁, hst₂, bind, Except.bind]⟩

end Commit

end OnuFirmware.Filter
