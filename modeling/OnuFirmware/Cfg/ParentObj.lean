import OnuFirmware.Cfg.Links
import OnuFirmware.Cfg.Lookup
import OnuFirmware.Cfg.Content
import OnuFirmware.Cfg.Naming

/-!
# The parent path and the parent object

`cfg_get_parent_path` scans a path backwards for separators and digits, `cfg_obj_get_obj` reads it
forwards by tokens and types. `parentFound_iff` says for which paths the two agree on who the parent
is: not with a separator at the end, and with a last component that starts with `0` only behind an
instance number that may be left out.
-/

namespace OnuFirmware.Cfg

open Lib Clib

variable {tt : TypeTree} {st : ObjState} {path : Str} {o : CfgObjPtr}

/-- `cfg_get_parent_path` succeeds, and the path it gives leads to the parent of the object. -/
def ParentFound (tt : TypeTree) (st : ObjState) (path : Str) (o : CfgObjPtr) : Prop :=
  ∃ parent p, cfgGetParentPath path = .ok (some parent) ∧
    cfgObjGetObj tt st parent = .ok (some p) ∧ o.1.parent = some p.1.addr

/-- The condition on the path. A component that starts with `0` is a name for the one function and a
number for the other, so two components are cut off; that is right if the first of them is a number
that stands for the same object as no number. The number of the root object is never looked at. -/
structure ParentCond (tt : TypeTree) (path : Str) : Prop where
  separator : path.getLast? ≠ some '.'
  zero : lastHead path = some '0' → ∃ us y x ch t l,
    (tokensOf path).1 = us ++ [y, x] ∧ tokenDigit y ≠ 0 ∧
      pathChain tt path = some (ch ++ [(t, tokenDigit y), l]) ∧
      (ch = [] ∨ mkOid t.1.id (tokenDigit y) = mkOid t.1.id 1)

/-! ## The way to an object -/

/-- An object is not below itself. -/
theorem LinkInv.addr_ne (h : LinkInv st) {e : CfgObjPtr} (he : e ∈ st.tree.entries)
    (ho : o ∈ e.2.entries) : o.1.addr ≠ e.1.addr := by
  intro haddr
  obtain rfl := h.unique (Lcrs.entries_trans he ho) he haddr
  exact Nat.lt_irrefl _ (Lcrs.size_lt_of_mem_entries ho)

theorem cfgObjGetObjLoop_concat (ids : List Nat) (p : CfgObjPtr) (id : Nat) :
    cfgObjGetObjLoop p (ids ++ [id]) =
      (cfgObjGetObjLoop p ids).bind fun q => cfgObjGetChild q id := by
  induction ids generalizing p with
  | nil =>
    rw [List.nil_append, cfgObjGetObjLoop, cfgObjGetObjLoop, Option.bind_some]
    cases cfgObjGetChild p id <;> rfl
  | cons k ids ih =>
    rw [List.cons_append, cfgObjGetObjLoop, cfgObjGetObjLoop]
    cases cfgObjGetChild p k with
    | none => rfl
    | some c => exact ih c

/-- What the object lookup finds for a path with a chain. -/
theorem cfgObjGetObj_chain {r : ObjInfo} {c s : CfgNodeObj} {ch : List (CfgTypePtr × Nat)}
    (htree : st.tree = .node r c s) (hch : pathChain tt path = some ch) (hne : ch ≠ [])
    (hlen : ch.length ≤ cfgMaxNodeLevel) :
    cfgObjGetObj tt st path = .ok (cfgObjGetObjLoop (r, c) (ch.map linkOid).tail) := by
  have hids := cfgPathToOidArray_eq_some.mpr (.inr ⟨ch, hch, hne, hlen, rfl⟩)
  unfold cfgObjGetObj
  rw [htree]
  simp only [hids]

/-- The length of a chain with a first and a last link. -/
theorem length_chain_ends (k l : CfgTypePtr × Nat) (ch : List (CfgTypePtr × Nat)) :
    (k :: ch ++ [l]).length = ch.length + 2 := by
  rw [List.length_append, List.length_cons, List.length_singleton]

/-- **A path of an object that is not the root object has a chain with a last link, and the links
before it lead to the object that lists it.** -/
theorem getObj_below (hinv : LinkInv st) (ho : cfgObjGetObj tt st path = .ok (some o))
    (hroot : st.tree.entries.head? ≠ some o) :
    ∃ r c s k ch l q, st.tree = .node r c s ∧ pathChain tt path = some (k :: ch ++ [l]) ∧
      ch.length + 2 ≤ cfgMaxNodeLevel ∧
      cfgObjGetObjLoop (r, c) (ch.map linkOid) = some q ∧ q ∈ st.tree.entries ∧
      cfgObjGetChild q (linkOid l) = some o ∧ o.1.parent = some q.1.addr := by
  obtain ⟨r, c, s, ids, htree, hids, hloop⟩ := cfgObjGetObj_some ho
  have hr : (r, c) ∈ st.tree.entries := by rw [htree]; exact List.mem_cons_self
  have hnil : ids.tail ≠ [] := by
    intro htail
    rw [htail] at hloop
    obtain rfl := Option.some.inj hloop
    exact hroot (by rw [htree]; rfl)
  rcases cfgPathToOidArray_eq_some.mp hids with ⟨-, rfl⟩ | ⟨ch, hch, hne, hlen, rfl⟩
  · exact absurd rfl hnil
  obtain ⟨k, ch, rfl⟩ := List.exists_cons_of_ne_nil hne
  obtain rfl | ⟨ch, l, rfl⟩ := List.eq_nil_or_concat' ch
  · exact absurd rfl hnil
  rw [List.map_cons, List.tail_cons, List.map_append, List.map_singleton,
    cfgObjGetObjLoop_concat] at hloop
  obtain ⟨q, hq, hchild⟩ := Option.bind_eq_some_iff.mp hloop
  have hqm := mem_entries_of_getObjLoop htree hq
  refine ⟨r, c, s, k, ch, l, q, htree, hch, ?_, hq, hqm, hchild, ?_⟩
  · rwa [← length_chain_ends k l ch]
  · exact hinv.entry hqm (Lcrs.findSib_some hchild).2.1

/-- The object found at the end of a chain below the root object is the one that the path names. -/
theorem getObj_of_chain {r : ObjInfo} {c s : CfgNodeObj} {k : CfgTypePtr × Nat}
    {ch : List (CfgTypePtr × Nat)} {parent : Str} {q : CfgObjPtr} (htree : st.tree = .node r c s)
    (hch : pathChain tt parent = some (k :: ch)) (hlen : ch.length + 1 ≤ cfgMaxNodeLevel)
    (hq : cfgObjGetObjLoop (r, c) (ch.map linkOid) = some q) :
    cfgObjGetObj tt st parent = .ok (some q) := by
  rw [cfgObjGetObj_chain htree hch (by simp) hlen, List.map_cons, List.tail_cons, hq]

/-! ## Paths and their last components -/

/-- The last link of a chain comes from the last name, with the number behind it. -/
theorem below_append_link {us vs : List Str} {nm : Str} {ch : List (CfgTypePtr × Nat)}
    (hnm : tokenDigit nm = 0) (hvs : (nextNum vs).2 = [])
    (h : below tt none (us ++ nm :: vs) = some ch) :
    ∃ ch' t, below tt none us = some ch' ∧ cfgTypeQueryChild tt (lastNode none ch') nm = some t ∧
      ch = ch' ++ [(t, (nextNum vs).1)] := by
  rw [below_append (nameFirst_cons hnm vs)] at h
  obtain ⟨ch', hus, hrest⟩ := Option.bind_eq_some_iff.mp h
  rw [below_name hnm, hvs] at hrest
  obtain ⟨_, hlast, rfl⟩ := Option.map_eq_some_iff.mp hrest
  obtain ⟨t, ht, hlink⟩ := Option.bind_eq_some_iff.mp hlast
  obtain rfl := Option.some.inj hlink
  exact ⟨ch', t, hus, ht, rfl⟩

theorem below_concat_name {us : List Str} {nm : Str} {ch : List (CfgTypePtr × Nat)}
    (hnm : tokenDigit nm = 0) (h : below tt none (us ++ [nm]) = some ch) :
    ∃ ch' t, below tt none us = some ch' ∧ cfgTypeQueryChild tt (lastNode none ch') nm = some t ∧
      ch = ch' ++ [(t, 1)] :=
  @below_append_link tt us [] nm ch hnm rfl h

/-- A number stands behind a name. -/
theorem below_concat_number {us : List Str} {x : Str} {ch : List (CfgTypePtr × Nat)}
    (hx : tokenDigit x ≠ 0) (h : below tt none (us ++ [x]) = some ch) :
    ∃ ws nm ch' t, us = ws ++ [nm] ∧ tokenDigit nm = 0 ∧ below tt none ws = some ch' ∧
      cfgTypeQueryChild tt (lastNode none ch') nm = some t ∧ ch = ch' ++ [(t, tokenDigit x)] := by
  obtain rfl | ⟨ws, nm, rfl⟩ := List.eq_nil_or_concat' us
  · rw [List.nil_append, below, parseChain_cons_digit hx] at h
    exact absurd h (by simp)
  rw [List.append_assoc, List.singleton_append] at h
  have hnm : tokenDigit nm = 0 := by
    by_contra hnm
    rw [below, parseChain_two_numbers [] hnm hx ws] at h
    exact absurd h (by simp)
  have hnext := nextNum_number hx []
  obtain ⟨ch', t, hws, ht, rfl⟩ := below_append_link hnm (by rw [hnext]) h
  exact ⟨ws, nm, ch', t, rfl, hnm, hws, ht, by rw [hnext]⟩

/-- A path that is found and does not end in a separator is short enough for
`cfg_get_parent_path`. -/
theorem length_joinDots_path {ts : List Str} {ch : List (CfgTypePtr × Nat)}
    (h : ∀ t ∈ ts, IsToken t) (hch : below tt none ts = some ch) (hne : ts ≠ [])
    (hlen : ch.length ≤ cfgMaxNodeLevel) : (joinDots ts).length < cfgMaxPathName := by
  obtain ⟨g, hg, hres⟩ := Option.bind_eq_some_iff.mp hch
  have htok := length_tokens_le hg
  have hgl := resolveChain_length hres
  have hlt := length_joinDots_lt h hne
  simp only [cfgMaxTypeName, cfgMaxPathName, cfgMaxNodeLevel] at *
  omega

/-! ## Where the parent is found -/

/-- A parent path with the chain of the object without its last link is right. -/
theorem parentFound_of_chain {r : ObjInfo} {c s : CfgNodeObj} {k : CfgTypePtr × Nat}
    {ch : List (CfgTypePtr × Nat)} {parent : Str} {q : CfgObjPtr}
    (hpath : cfgGetParentPath path = .ok (some parent)) (htree : st.tree = .node r c s)
    (hch : pathChain tt parent = some (k :: ch)) (hlen : ch.length + 2 ≤ cfgMaxNodeLevel)
    (hq : cfgObjGetObjLoop (r, c) (ch.map linkOid) = some q) (hpar : o.1.parent = some q.1.addr) :
    ParentFound tt st path o :=
  ⟨parent, q, hpath, getObj_of_chain htree hch (by omega) hq, hpar⟩

/-- A separator at the end is all that is cut off, and the path still leads to the object. -/
theorem not_parentFound_separator (hinv : LinkInv st) (ho : cfgObjGetObj tt st path = .ok (some o))
    (hroot : st.tree.entries.head? ≠ some o) {ts : List Str} (htok : ∀ t ∈ ts, IsToken t)
    (hne : ts ≠ []) (hpath : path = joinDots ts ++ ['.'])
    (hch : pathChain tt path = pathChain tt (joinDots ts)) : ¬ ParentFound tt st path o := by
  rintro ⟨parent, p, hparent, hp, hpar⟩
  obtain ⟨r, c, s, k, ch, l, q, htree, hchain, hlen, hq, hqm, hchild, hoq⟩ :=
    getObj_below hinv ho hroot
  have hjoin := joinDots_ne_nil hne htok
  have hhead := lastHead_append (b := []) hjoin (by simp)
  rw [lastHead, scanDot_last hjoin (by simp)] at hhead
  -- the parent path is the path without the separator
  have hself : parent = joinDots ts := by
    have hpos := List.length_pos_of_ne_nil hjoin
    rw [hpath] at hparent
    unfold cfgGetParentPath at hparent
    simp only [scanDot_last hjoin (List.not_mem_nil (a := '.')), hhead] at hparent
    split at hparent
    · exact absurd hparent (by simp)
    rw [if_neg (by omega), if_neg (by simp), List.take_left] at hparent
    exact (Option.some.inj (Except.ok.inj hparent)).symm
  have hsame : cfgObjGetObj tt st parent = .ok (some o) := by
    rw [← length_chain_ends k l ch] at hlen
    rw [hself, cfgObjGetObj_chain htree (hch ▸ hchain) (by simp) hlen, ← ho,
      cfgObjGetObj_chain htree hchain (by simp) hlen]
  obtain rfl := Option.some.inj (Except.ok.inj (hsame.symm.trans hp))
  have haddr := Option.some.inj (hpar.symm.trans hoq)
  exact hinv.addr_ne hqm (Lcrs.findSib_some hchild).1 haddr

/-- Two names are cut off: the path leads to the parent of the parent. -/
theorem not_parentFound_two_names (hinv : LinkInv st) {r : ObjInfo} {c s : CfgNodeObj}
    {k l : CfgTypePtr × Nat} {ch : List (CfgTypePtr × Nat)} {parent : Str} {q : CfgObjPtr}
    (hpath : cfgGetParentPath path = .ok (some parent)) (htree : st.tree = .node r c s)
    (hch : pathChain tt parent = some (k :: ch)) (hlen : ch.length + 2 ≤ cfgMaxNodeLevel)
    (hq : cfgObjGetObjLoop (r, c) ((ch ++ [l]).map linkOid) = some q)
    (hpar : o.1.parent = some q.1.addr) : ¬ ParentFound tt st path o := by
  rintro ⟨parent', p, hparent, hp, hop⟩
  obtain rfl := Option.some.inj (Except.ok.inj (hpath.symm.trans hparent))
  rw [List.map_append, List.map_singleton, cfgObjGetObjLoop_concat] at hq
  obtain ⟨g, hg, hchild⟩ := Option.bind_eq_some_iff.mp hq
  have hget := getObj_of_chain htree hch (by omega) hg
  obtain rfl := Option.some.inj (Except.ok.inj (hget.symm.trans hp))
  have haddr := Option.some.inj (hpar.symm.trans hop)
  exact hinv.addr_ne (mem_entries_of_getObjLoop htree hg) (Lcrs.findSib_some hchild).1 haddr

/-- The instance number is cut off with the last component: the path leads to the first instance. -/
theorem parentFound_first_iff (hinv : LinkInv st) {r : ObjInfo} {c s : CfgNodeObj}
    {k : CfgTypePtr × Nat} {t : CfgTypePtr} {n : Nat} {ch : List (CfgTypePtr × Nat)} {parent : Str}
    {q : CfgObjPtr} (hpath : cfgGetParentPath path = .ok (some parent))
    (htree : st.tree = .node r c s) (hch : pathChain tt parent = some (k :: ch ++ [(t, 1)]))
    (hlen : ch.length + 3 ≤ cfgMaxNodeLevel)
    (hq : cfgObjGetObjLoop (r, c) ((ch ++ [(t, n)]).map linkOid) = some q)
    (hpar : o.1.parent = some q.1.addr) :
    ParentFound tt st path o ↔ mkOid t.1.id n = mkOid t.1.id 1 := by
  have hget := cfgObjGetObj_chain htree hch (by simp)
    (by rw [length_chain_ends]; exact Nat.le_of_succ_le hlen)
  rw [List.cons_append, List.map_cons, List.tail_cons] at hget
  constructor
  · rintro ⟨parent', p, hparent, hp, hop⟩
    obtain rfl := Option.some.inj (Except.ok.inj (hpath.symm.trans hparent))
    have hloop := Except.ok.inj (hget.symm.trans hp)
    have hqp : q = p := hinv.unique (mem_entries_of_getObjLoop htree hq)
      (mem_entries_of_getObjLoop htree hloop) (Option.some.inj (hpar.symm.trans hop))
    subst hqp
    rw [List.map_append, List.map_singleton, cfgObjGetObjLoop_concat] at hq hloop
    obtain ⟨g, hg, hchild⟩ := Option.bind_eq_some_iff.mp hq
    obtain ⟨g', hg', hchild'⟩ := Option.bind_eq_some_iff.mp hloop
    have hid := (Lcrs.findSib_some hchild).2.2
    have hid' := (Lcrs.findSib_some hchild').2.2
    rw [beq_iff_eq] at hid hid'
    exact hid.symm.trans hid'
  · intro heq
    refine ⟨parent, q, hpath, ?_, hpar⟩
    have hlink : (ch ++ [(t, 1)]).map linkOid = (ch ++ [(t, n)]).map linkOid := by
      simp [linkOid, heq]
    rw [hget, hlink, hq]

/-- The last component starts with `0`, so `cfg_get_parent_path` takes it for a number. -/
theorem parentFound_zero_iff (hinv : LinkInv st) {r : ObjInfo} {c s : CfgNodeObj}
    {k : CfgTypePtr × Nat} {ch : List (CfgTypePtr × Nat)} {q : CfgObjPtr} {us : List Str}
    {y x : Str} (htok : ∀ t ∈ us ++ [y, x], IsToken t) (hx : x.head?.any isDigit = true)
    (hshort : (joinDots (us ++ [y, x])).length < cfgMaxPathName) (htree : st.tree = .node r c s)
    (hinit : below tt none (us ++ [y]) = some (k :: ch)) (hlen : ch.length + 2 ≤ cfgMaxNodeLevel)
    (hq : cfgObjGetObjLoop (r, c) (ch.map linkOid) = some q) (hpar : o.1.parent = some q.1.addr) :
    ParentFound tt st (joinDots (us ++ [y, x])) o ↔ tokenDigit y ≠ 0 ∧
      ∃ ch' t, k :: ch = ch' ++ [(t, tokenDigit y)] ∧
        (ch' = [] ∨ mkOid t.1.id (tokenDigit y) = mkOid t.1.id 1) := by
  have hus : ∀ t ∈ us, IsToken t := fun t ht => htok t (List.mem_append_left _ ht)
  by_cases hy : tokenDigit y = 0
  · -- two names
    refine iff_of_false ?_ (fun h => h.1 hy)
    obtain ⟨ch', t, hbelow, -, heq⟩ := below_concat_name hy hinit
    by_cases hnil : us = []
    · subst hnil
      rintro ⟨parent, -, hparent, -⟩
      have hyt := htok y (by simp)
      exact cfgGetParentPath_single_number hyt.ne_nil hyt.no_dot (htok x (by simp)).no_dot hx hparent
    have hpath := cfgGetParentPath_number hnil htok hx hshort
    obtain ⟨k', ch', rfl⟩ := List.exists_cons_of_ne_nil (below_ne_nil hbelow hnil)
    rw [List.cons_append] at heq
    obtain ⟨rfl, rfl⟩ := List.cons.inj heq
    refine not_parentFound_two_names hinv hpath htree
      ((pathChain_joinDots hus).trans hbelow) ?_ hq hpar
    rw [List.length_append] at hlen
    omega
  · -- a number behind a name
    obtain ⟨ws, nm, ch', t, rfl, hnm, hws, ht, heq⟩ := below_concat_number hy hinit
    have hpath := cfgGetParentPath_number (by simp) htok hx hshort
    -- the path that is left leads to the first instance
    have hfirst : pathChain tt (joinDots (ws ++ [nm])) = some (ch' ++ [(t, 1)]) := by
      rw [pathChain_joinDots hus]
      show below tt none (ws ++ [nm]) = _
      rw [below_append (nameFirst_cons hnm []), hws, Option.bind_some, below_name hnm, ht]
      rfl
    cases ch' with
    | nil =>
      obtain ⟨-, rfl⟩ := List.cons.inj heq
      exact iff_of_true (parentFound_of_chain hpath htree hfirst hlen hq hpar)
        ⟨hy, [], t, heq, .inl rfl⟩
    | cons k' ch' =>
      rw [List.cons_append] at heq
      obtain ⟨rfl, rfl⟩ := List.cons.inj heq
      rw [List.length_append, List.length_singleton] at hlen
      rw [parentFound_first_iff hinv hpath htree hfirst (by omega) hq hpar]
      constructor
      · intro hid
        exact ⟨hy, k :: ch', t, rfl, .inr hid⟩
      · rintro ⟨-, ch'', t', heq', hid⟩
        have hlast : (k :: ch') ++ [(t, tokenDigit y)] = ch'' ++ [(t', tokenDigit y)] := heq'
        obtain ⟨rfl, hlink⟩ := List.append_inj' hlast rfl
        obtain rfl : t = t' := by simpa using hlink
        exact hid.resolve_left (by simp)

/-- **The parent path leads to the parent object exactly if the path does not end in a separator and
a last component that starts with `0` stands behind a number that may be left out.** -/
theorem parentFound_iff (hinv : LinkInv st) (ho : cfgObjGetObj tt st path = .ok (some o))
    (hroot : st.tree.entries.head? ≠ some o) :
    ParentFound tt st path o ↔ ParentCond tt path := by
  obtain ⟨r, c, s, k, ch, l, q, htree, hchain, hlen, hq, hqm, hchild, hoq⟩ :=
    getObj_below hinv ho hroot
  obtain ⟨hres, -⟩ := pathChain_some hchain
  have hbelow : below tt none (tokensOf path).1 = some (k :: ch ++ [l]) := by
    unfold pathChain at hchain
    rwa [if_pos hres] at hchain
  have htok : ∀ t ∈ (tokensOf path).1, IsToken t := fun t => isToken_of_mem_pathTokens
  have hsplit := joinDots_pathTokens _ (s := path) (Nat.lt_succ_self _) hres
  change path = joinDots (tokensOf path).1 ∨
    (tokensOf path).1 ≠ [] ∧ path = joinDots (tokensOf path).1 ++ ['.'] at hsplit
  rcases hsplit with hpath | ⟨hne, hpath⟩
  swap
  · -- a separator at the end
    have hch : pathChain tt path = pathChain tt (joinDots (tokensOf path).1) := by
      rw [hchain, pathChain_joinDots htok]
      exact hbelow.symm
    refine iff_of_false (not_parentFound_separator hinv ho hroot htok hne hpath hch) fun h => ?_
    exact h.separator (by rw [hpath]; simp)
  rw [hpath]
  have htoks : (tokensOf (joinDots (tokensOf path).1)).1 = (tokensOf path).1 := by rw [← hpath]
  have hchain' : pathChain tt (joinDots (tokensOf path).1) = some (k :: ch ++ [l]) := by
    rw [← hpath, hchain]
  have hshort := length_joinDots_path htok hbelow (by rintro h; rw [h] at hbelow; cases hbelow)
    (by rwa [length_chain_ends])
  generalize (tokensOf path).1 = ts at hbelow htok htoks hchain' hshort
  obtain rfl | ⟨init, x, rfl⟩ := List.eq_nil_or_concat' ts
  · cases hbelow
  have hxt := htok x (by simp)
  have hinitt : ∀ t ∈ init, IsToken t := fun t ht => htok t (List.mem_append_left _ ht)
  have hcount := length_below hbelow
  have hinit : init ≠ [] := by
    rintro rfl
    rw [List.nil_append, nameCount_cons] at hcount
    simp only [nameCount, List.countP_nil, List.length_append, List.length_cons] at hcount
    split at hcount <;> omega
  have hjoin := joinDots_ne_nil hinit hinitt
  have hhead : lastHead (joinDots (init ++ [x])) = x.head? := by
    rw [joinDots_concat x hinit, lastHead_append hjoin hxt.no_dot]
  have hsep : (joinDots (init ++ [x])).getLast? ≠ some '.' := by
    rw [joinDots_concat x hinit]
    obtain ⟨xs, z, hxs⟩ := (List.eq_nil_or_concat' x).resolve_left hxt.ne_nil
    have hz : z ≠ '.' := fun hz => hxt.no_dot (by rw [hxs, hz]; simp)
    rw [hxs, ← List.cons_append, ← List.append_assoc, List.getLast?_concat]
    exact fun h => hz (Option.some.inj h)
  obtain ⟨z, xs, rfl⟩ := List.exists_cons_of_ne_nil hxt.ne_nil
  by_cases hx : tokenDigit (z :: xs) = 0
  · obtain ⟨ch', t, hbi, -, heq⟩ := below_concat_name hx hbelow
    obtain ⟨rfl, hl⟩ := List.append_inj' heq rfl
    by_cases hzero : z = '0'
    · -- a name for the lookup, a number for the parent path
      subst hzero
      obtain ⟨us, y, rfl⟩ := (List.eq_nil_or_concat' init).resolve_left hinit
      have happ : us ++ [y] ++ ['0' :: xs] = us ++ [y, '0' :: xs] := by simp
      rw [happ] at htok htoks hshort hhead hchain' hsep ⊢
      rw [parentFound_zero_iff hinv htok rfl hshort htree hbi (by omega) hq hoq]
      constructor
      · rintro ⟨hy, ch', t', hch', hid⟩
        refine ⟨hsep, fun _ => ⟨us, y, '0' :: xs, ch', t', l, htoks, hy, ?_, hid⟩⟩
        rw [hchain', hch']
        simp
      · intro hcond
        obtain ⟨us', y', x', ch', t', l', htoks', hy, hch', hid⟩ := hcond.zero hhead
        obtain ⟨rfl, hyx⟩ := List.append_inj' (htoks.symm.trans htoks') rfl
        obtain ⟨rfl, -⟩ := List.cons.inj hyx
        refine ⟨hy, ch', t', ?_, hid⟩
        have := Option.some.inj (hchain'.symm.trans hch')
        rw [show ch' ++ [(t', tokenDigit y),
          l'] = (ch' ++ [(t', tokenDigit y)]) ++ [l'] by simp] at this
        exact (List.append_inj' this rfl).1
    · have hdigit := not_isDigit_of_name hx hzero
      have hpar := cfgGetParentPath_name hinit htok (by simpa using hdigit) hshort
      refine iff_of_true (parentFound_of_chain hpar htree ((pathChain_joinDots hinitt).trans hbi)
        (by omega) hq hoq) ⟨hsep, fun h => ?_⟩
      rw [hhead] at h
      exact absurd (Option.some.inj h) hzero
  · obtain ⟨us, nm, ch', t, rfl, -, hus, -, heq⟩ := below_concat_number hx hbelow
    obtain ⟨rfl, hl⟩ := List.append_inj' heq rfl
    have hdigit := isDigit_of_number hx
    have hnil : us ≠ [] := by
      rintro rfl
      exact absurd hus (by simp [below, parseChain, resolveChain])
    have happ : us ++ [nm] ++ [z :: xs] = us ++ [nm, z :: xs] := by simp
    rw [happ] at htok hshort hhead hsep ⊢
    have hpar := cfgGetParentPath_number hnil htok (by simpa using hdigit) hshort
    have hust : ∀ t ∈ us, IsToken t := fun t ht => hinitt t (List.mem_append_left _ ht)
    refine iff_of_true (parentFound_of_chain hpar htree ((pathChain_joinDots hust).trans hus)
      (by omega) hq hoq) ⟨hsep, fun h => ?_⟩
    rw [hhead] at h
    obtain rfl : z = '0' := Option.some.inj h
    exact absurd (tokenDigit_ne_zero.mp hx).1 (by decide)

/-! ## Two paths -/

/-- A root type with one static subtype. -/
def lanTypes : TypeTree where
  decl := { name := "root".toList }
  subtype := .node { name := "lan".toList } .nil .nil
  fits := by decide
  static := create_root

/-- The tree that is made for it. -/
def lanState : ObjState := cfgObjLoadFromType lanTypes fun _ => true

theorem parentFound_sample : ParentFound lanTypes lanState "root.lan".toList
    ({ addr := 1, id := mkOid 101 1, parent := some 0, priv := [] }, .nil) :=
  (parentFound_iff (linkInv_cfgObjLoadFromType _ _) rfl (by decide)).mpr
    ⟨by decide, fun h => absurd h (by decide)⟩

/-- With a separator at the end the parent path leads to the object itself. -/
theorem not_parentFound : ¬ ∀ (tt : TypeTree) (st : ObjState) (path : Str) (o : CfgObjPtr),
    LinkInv st → cfgObjGetObj tt st path = .ok (some o) → st.tree.entries.head? ≠ some o →
    ParentFound tt st path o := by
  intro h
  obtain ⟨parent, p, hparent, hp, hpar⟩ := h lanTypes lanState "root.lan.".toList
    ({ addr := 1, id := mkOid 101 1, parent := some 0, priv := [] }, .nil)
    (linkInv_cfgObjLoadFromType _ _) rfl (by decide)
  obtain rfl : "root.lan".toList = parent := Option.some.inj (Except.ok.inj hparent)
  have hself : cfgObjGetObj lanTypes lanState "root.lan".toList =
      .ok (some ({ addr := 1, id := mkOid 101 1, parent := some 0, priv := [] }, .nil)) := rfl
  obtain rfl := Option.some.inj (Except.ok.inj (hself.symm.trans hp))
  exact absurd hpar (by decide)

end OnuFirmware.Cfg
