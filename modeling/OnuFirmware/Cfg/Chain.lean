import OnuFirmware.Cfg.Tokens

/-!
# What a path names

A token list is a *chain* of names, each with an optional number; `parseChain` reads it and
`resolveChain` looks the names up from the root type downwards. Both loops over a path are
described through its chain:

* `cfgPathToOidArray_eq_some` — one id for each link of the chain, at most eight links
* `cfgTypeQuery_eq_some` — the type of the last link, at most seven tokens

From the first follows how far a path is determined by its ids (`oidArrays_eq_iff_chains`).
-/

namespace OnuFirmware.Cfg

open Lib Clib

/-! ## The loops as walks over the tokens -/

/-- The loop of `cfg_type_query` over collected tokens; `res` is the text left behind them. -/
def queryWalk (tt : TypeTree) (res : Except Fault Str) :
    List Str → Option CfgTypePtr → Bool → Nat → Except Fault (Option CfgTypePtr)
  | [], node, _, level => res.map fun tmp => cfgTypeQueryDone tmp node level
  | t :: ts, node, needAlpha, level =>
    if level < cfgMaxNodeLevel then
      if needAlpha ∧ tokenDigit t ≠ 0 then .ok none
      else if tokenDigit t ≠ 0 then queryWalk tt res ts node true (level + 1)
      else
        match cfgTypeQueryChild tt node t with
        | none => .ok none
        | some n => queryWalk tt res ts (some n) false (level + 1)
    else .ok none

/-- Where the tokens end well, so does the walk over them. -/
theorem queryWalk_ok {tt : TypeTree} {tmp : Str} : ∀ (ts : List Str) (node : Option CfgTypePtr)
    (na : Bool) (level : Nat), ∃ o, queryWalk tt (.ok tmp) ts node na level = .ok o
  | [], _, _, _ => ⟨_, rfl⟩
  | t :: ts, node, na, level => by
    rw [queryWalk]
    split_ifs
    · exact ⟨none, rfl⟩
    · exact queryWalk_ok ts node true (level + 1)
    · cases cfgTypeQueryChild tt node t with
      | none => exact ⟨none, rfl⟩
      | some n => exact queryWalk_ok ts (some n) false (level + 1)
    · exact ⟨none, rfl⟩

/-- The loop of `cfg_path_to_oid_array` over collected tokens. -/
def arrayWalk (tt : TypeTree) (res : Except Fault Str) :
    List Str → List Nat → Option CfgTypePtr → Nat → Nat → Bool → Except Fault (Option (List Nat))
  | [], objid, _, tid, oid, _ => res.map fun tmp => cfgPathToOidArrayDone tmp objid tid oid
  | t :: ts, objid, node, tid, oid, needAlpha =>
    if objid.length < cfgMaxNodeLevel then
      if needAlpha ∧ tokenDigit t ≠ 0 then .ok none
      else if tokenDigit t ≠ 0 then arrayWalk tt res ts objid node tid (tokenDigit t) true
      else
        match cfgTypeQueryChild tt node t with
        | none => .ok none
        | some n =>
          arrayWalk tt res ts (if oid ≠ 0 ∧ tid ≠ 0 then objid ++ [mkOid tid oid] else objid)
            (some n) n.1.id 1 false
    else .ok none

/-- Ids are given only for tokens that end well. -/
theorem res_eq_ok_of_arrayWalk {tt : TypeTree} {res : Except Fault Str} : ∀ (ts : List Str)
    (objid : List Nat) (node : Option CfgTypePtr) (tid oid : Nat) (na : Bool) {ids : List Nat},
    arrayWalk tt res ts objid node tid oid na = .ok (some ids) → ∃ tmp, res = .ok tmp
  | [], _, _, _, _, _, _, h => by
    cases res with
    | error e => exact absurd h (by simp [arrayWalk, Except.map])
    | ok tmp => exact ⟨tmp, rfl⟩
  | t :: ts, objid, node, tid, oid, na, ids, h => by
    rw [arrayWalk] at h
    by_cases hlev : objid.length < cfgMaxNodeLevel
    · by_cases hdigit : tokenDigit t = 0
      · rw [if_pos hlev, if_neg (by simp [hdigit]), if_neg (by simp [hdigit])] at h
        cases hq : cfgTypeQueryChild tt node t with
        | none => exact absurd h (by simp [hq])
        | some n =>
          rw [hq] at h
          exact res_eq_ok_of_arrayWalk ts _ _ _ _ _ h
      · cases na with
        | true => exact absurd h (by simp [hlev, hdigit])
        | false =>
          rw [if_pos hlev, if_neg (by simp), if_pos hdigit] at h
          exact res_eq_ok_of_arrayWalk ts _ _ _ _ _ h
    · exact absurd h (by simp [hlev])

theorem cfgTypeQueryLoop_eq_walk (tt : TypeTree) : ∀ (fuel : Nat) (s : Str)
    (node : Option CfgTypePtr) (na : Bool) (level : Nat), s.length < fuel →
    level ≤ cfgMaxNodeLevel →
    cfgTypeQueryLoop tt fuel s node na level
      = queryWalk tt (pathTokens fuel s).2 (pathTokens fuel s).1 node na level
  | 0, _, _, _, _, hf, _ => absurd hf (Nat.not_lt_zero _)
  | fuel + 1, s, node, na, level, hf, hl => by
    rw [cfgTypeQueryLoop, pathTokens]
    cases hg : cfgGetToken s with
    | error e => rfl
    | ok o =>
      cases o with
      | none => rfl
      | some t =>
        have hlt := cfgGetToken_rest_lt hg
        simp only [queryWalk]
        by_cases hlev : level < cfgMaxNodeLevel
        · simp only [if_pos hlev, cfgTypeQueryLoop_eq_walk tt fuel t.rest _ _ (level + 1)
            (by omega) (by omega)]
          try rfl
        · have : level = cfgMaxNodeLevel := by omega
          simp [cfgTypeQueryDone, this]

theorem cfgPathToOidArrayLoop_eq_walk (tt : TypeTree) : ∀ (fuel : Nat) (s : Str) (objid : List Nat)
    (node : Option CfgTypePtr) (tid oid : Nat) (na : Bool), s.length < fuel →
    objid.length ≤ cfgMaxNodeLevel →
    cfgPathToOidArrayLoop tt fuel s objid node tid oid na
      = arrayWalk tt (pathTokens fuel s).2 (pathTokens fuel s).1 objid node tid oid na
  | 0, _, _, _, _, _, _, hf, _ => absurd hf (Nat.not_lt_zero _)
  | fuel + 1, s, objid, node, tid, oid, na, hf, hl => by
    rw [cfgPathToOidArrayLoop, pathTokens]
    cases hg : cfgGetToken s with
    | error e => rfl
    | ok o =>
      cases o with
      | none => rfl
      | some t =>
        have hlt := cfgGetToken_rest_lt hg
        simp only [arrayWalk]
        by_cases hlev : objid.length < cfgMaxNodeLevel
        · have hpush : (if oid ≠ 0 ∧ tid ≠ 0 then objid ++ [mkOid tid oid] else objid).length
              ≤ cfgMaxNodeLevel := by
            split
            · rw [List.length_append, List.length_singleton]
              omega
            · omega
          simp only [if_pos hlev,
            cfgPathToOidArrayLoop_eq_walk tt fuel t.rest objid _ _ _ _ (by omega) hl,
            cfgPathToOidArrayLoop_eq_walk tt fuel t.rest _ _ _ _ _ (by omega) hpush]
          try rfl
        · have : objid.length = cfgMaxNodeLevel := by omega
          simp [cfgPathToOidArrayDone, this]

/-- The tokens of a path and the text left behind them. -/
def tokensOf (path : Str) : List Str × Except Fault Str := pathTokens (path.length + 1) path

theorem cfgTypeQuery_eq_walk (tt : TypeTree) (path : Str) :
    cfgTypeQuery tt path = queryWalk tt (tokensOf path).2 (tokensOf path).1 none true 0 :=
  cfgTypeQueryLoop_eq_walk tt _ path none true 0 (by omega) (by simp)

theorem cfgPathToOidArray_eq_walk (tt : TypeTree) (path : Str) :
    cfgPathToOidArray tt path
      = arrayWalk tt (tokensOf path).2 (tokensOf path).1 [] none 0 0 true :=
  cfgPathToOidArrayLoop_eq_walk tt _ path [] none 0 0 true (by omega) (by simp)

/-! ## Chains -/

/-- The names of a token list with their instance numbers, `1` where none is given; `none` when a
number stands where a name has to. -/
def parseChain : List Str → Option (List (Str × Nat))
  | [] => some []
  | [t] => if tokenDigit t ≠ 0 then none else some [(t, 1)]
  | t :: d :: ts =>
    if tokenDigit t ≠ 0 then none
    else if tokenDigit d ≠ 0 then (parseChain ts).map ((t, tokenDigit d) :: ·)
    else (parseChain (d :: ts)).map ((t, 1) :: ·)

/-- The instance number that follows a name, and the tokens after it. -/
def nextNum : List Str → Nat × List Str
  | [] => (1, [])
  | d :: ts => if tokenDigit d ≠ 0 then (tokenDigit d, ts) else (1, d :: ts)

theorem parseChain_cons {x : Str} (hx : tokenDigit x = 0) (ts : List Str) :
    parseChain (x :: ts) = (parseChain (nextNum ts).2).map ((x, (nextNum ts).1) :: ·) := by
  cases ts with
  | nil => simp [parseChain, nextNum, hx]
  | cons d ts =>
    by_cases hd : tokenDigit d = 0
    · simp [parseChain, nextNum, hx, hd]
    · simp [parseChain, nextNum, hx, hd]

theorem parseChain_cons_digit {x : Str} (hx : tokenDigit x ≠ 0) (ts : List Str) :
    parseChain (x :: ts) = none := by
  cases ts <;> simp [parseChain, hx]

theorem nextNum_ne_zero : ∀ ts : List Str, (nextNum ts).1 ≠ 0
  | [] => by simp [nextNum]
  | d :: ts => by
    rw [nextNum]
    split
    · assumption
    · exact Nat.one_ne_zero

theorem length_nextNum_le : ∀ ts : List Str, (nextNum ts).2.length ≤ ts.length
  | [] => Nat.le_refl _
  | d :: ts => by
    rw [nextNum]
    split
    · exact Nat.le_succ _
    · exact Nat.le_refl _

theorem mem_of_mem_nextNum {t : Str} : ∀ {ts : List Str}, t ∈ (nextNum ts).2 → t ∈ ts
  | [], h => h
  | d :: ts, h => by
    rw [nextNum] at h
    split at h
    · exact List.mem_cons_of_mem d h
    · exact h

theorem length_le_nextNum : ∀ ts : List Str, ts.length ≤ (nextNum ts).2.length + 1
  | [] => Nat.zero_le _
  | d :: ts => by
    rw [nextNum]
    split
    · exact Nat.le_refl _
    · exact Nat.le_succ _

/-- The types the names of a chain stand for, from `node` downwards. -/
def resolveChain (tt : TypeTree) : Option CfgTypePtr → List (Str × Nat) →
    Option (List (CfgTypePtr × Nat))
  | _, [] => some []
  | node, (name, n) :: g =>
    match cfgTypeQueryChild tt node name with
    | none => none
    | some t => (resolveChain tt (some t) g).map ((t, n) :: ·)

/-- The type at the end of a chain that hangs below `node`. -/
def lastNode : Option CfgTypePtr → List (CfgTypePtr × Nat) → Option CfgTypePtr
  | node, [] => node
  | _, l :: ch => lastNode (some l.1) ch

theorem lastNode_concat (ch : List (CfgTypePtr × Nat)) (l : CfgTypePtr × Nat) :
    ∀ node, lastNode node (ch ++ [l]) = some l.1 := by
  induction ch with
  | nil => exact fun _ => rfl
  | cons k ch ih => exact fun _ => ih (some k.1)

/-- The id that a link of a chain is packed into. -/
def linkOid (l : CfgTypePtr × Nat) : Nat := mkOid l.1.1.id l.2

/-- **The chain of types and instance numbers that a path names.** -/
def pathChain (tt : TypeTree) (path : Str) : Option (List (CfgTypePtr × Nat)) :=
  if (tokensOf path).2 = .ok [] then (parseChain (tokensOf path).1).bind (resolveChain tt none)
  else none

theorem cfgTypeQueryChild_mem {tt : TypeTree} {node : Option CfgTypePtr} {name : Str}
    {t : CfgTypePtr} (hn : ∀ p ∈ node, p ∈ tt.types.entries)
    (h : cfgTypeQueryChild tt node name = some t) : t ∈ tt.types.entries := by
  cases node with
  | none =>
    simp only [cfgTypeQueryChild] at h
    split at h
    · obtain rfl := Option.some.inj h
      exact cfgTypeGetRoot_mem tt
    · exact absurd h (by simp)
  | some p =>
    obtain ⟨hm, _, _⟩ := Lcrs.findSib_some h
    exact mem_types_of_subtype (hn p rfl) hm

section Walks

variable {tt : TypeTree} {res : Except Fault Str} {t : CfgTypePtr} {objid ids : List Nat} {n : Nat}

/-- A name after a pending id: the id is stored and the name looked up below its type. -/
theorem arrayWalk_name {x : Str} {ts : List Str} {na : Bool} (hx : tokenDigit x = 0)
    (ht : t ∈ tt.types.entries) (hn : n ≠ 0) (hl : objid.length < cfgMaxNodeLevel) :
    arrayWalk tt res (x :: ts) objid (some t) t.1.id n na =
      match cfgTypeQueryChild tt (some t) x with
      | none => .ok none
      | some s => arrayWalk tt res ts (objid ++ [mkOid t.1.id n]) (some s) s.1.id 1 false := by
  have hid : t.1.id ≠ 0 := by have := (typeId_lt ht).1; omega
  rw [arrayWalk, if_pos hl, if_neg (by simp [hx]), if_neg (by simp [hx]), if_pos ⟨hn, hid⟩]

theorem arrayWalk_full {x : Str} {ts : List Str} {node : Option CfgTypePtr} {tid oid : Nat}
    {na : Bool} (hl : ¬ objid.length < cfgMaxNodeLevel) :
    arrayWalk tt res (x :: ts) objid node tid oid na = .ok none := by
  rw [arrayWalk, if_neg hl]

/-- After a name the walk takes the number that follows, if there is one. -/
theorem arrayWalk_nextNum {ts : List Str} (hl : objid.length ≤ cfgMaxNodeLevel) :
    arrayWalk tt res ts objid (some t) t.1.id 1 false = .ok (some ids) ↔
      arrayWalk tt res (nextNum ts).2 objid (some t) t.1.id (nextNum ts).1 true
        = .ok (some ids) := by
  cases ts with
  | nil => rfl
  | cons d ts =>
    by_cases hd : tokenDigit d = 0
    · simp [arrayWalk, nextNum, hd]
    · rw [nextNum, if_pos hd]
      by_cases hlev : objid.length < cfgMaxNodeLevel
      · rw [arrayWalk, if_pos hlev, if_neg (by simp), if_pos hd]
      · -- all eight places are taken: whatever follows, the path is refused
        have hfull : objid.length = cfgMaxNodeLevel := by omega
        rw [arrayWalk_full hlev]
        cases ts with
        | nil => cases res <;> simp [arrayWalk, Except.map, cfgPathToOidArrayDone, hfull]
        | cons y ts => rw [arrayWalk_full hlev]

theorem resolveChain_length : ∀ {g : List (Str × Nat)} {node : Option CfgTypePtr}
    {ch : List (CfgTypePtr × Nat)}, resolveChain tt node g = some ch → ch.length = g.length
  | [], _, _, h => by
    obtain rfl := Option.some.inj h
    rfl
  | (name, k) :: g, node, ch, h => by
    rw [resolveChain] at h
    split at h
    · exact absurd h (by simp)
    · obtain ⟨ch', hch, rfl⟩ := Option.map_eq_some_iff.mp h
      rw [List.length_cons, List.length_cons, resolveChain_length hch]

/-- The end of the loop while an id is pending. -/
theorem arrayWalk_nil_eq_some {na : Bool} (hl : objid.length ≤ cfgMaxNodeLevel) :
    arrayWalk tt res [] objid (some t) t.1.id n na = .ok (some ids) ↔
      res = .ok [] ∧ objid.length + 1 ≤ cfgMaxNodeLevel ∧ ids = objid ++ [mkOid t.1.id n] := by
  rw [arrayWalk]
  cases res with
  | error e => simp [Except.map]
  | ok tmp =>
    simp only [Except.map, cfgPathToOidArrayDone, Except.ok.injEq]
    split
    · next h =>
      simp only [reduceCtorEq, false_iff]
      rintro ⟨rfl, h1, -⟩
      rcases h with h | h
      · exact h rfl
      · omega
    · next h =>
      simp only [not_or, ne_eq, Decidable.not_not] at h
      obtain ⟨rfl, h⟩ := h
      simp only [Option.some.injEq, true_and]
      constructor
      · rintro rfl
        exact ⟨by omega, rfl⟩
      · rintro ⟨-, rfl⟩
        rfl

/-- **The loop of `cfg_path_to_oid_array` while the id of type `t` and instance `n` is pending.** -/
theorem arrayWalk_eq_some : ∀ (ts : List Str) (objid : List Nat) (t : CfgTypePtr) (n : Nat),
    t ∈ tt.types.entries → n ≠ 0 → objid.length ≤ cfgMaxNodeLevel →
    (arrayWalk tt res ts objid (some t) t.1.id n true = .ok (some ids) ↔
      res = .ok [] ∧ ∃ ch, (parseChain ts).bind (resolveChain tt (some t)) = some ch ∧
        objid.length + 1 + ch.length ≤ cfgMaxNodeLevel ∧
        ids = objid ++ mkOid t.1.id n :: ch.map linkOid)
  | [], objid, t, n, ht, hn, hl => by
    rw [arrayWalk_nil_eq_some hl]
    simp [parseChain, resolveChain]
  | x :: ts, objid, t, n, ht, hn, hl => by
    by_cases hlev : objid.length < cfgMaxNodeLevel
    swap
    · rw [arrayWalk_full hlev]
      simp only [Except.ok.injEq, reduceCtorEq, false_iff]
      rintro ⟨-, ch, -, h, -⟩
      omega
    by_cases hx : tokenDigit x = 0
    swap
    · rw [arrayWalk, if_pos hlev, if_pos ⟨rfl, hx⟩, parseChain_cons_digit hx]
      simp
    rw [arrayWalk_name hx ht hn hlev, parseChain_cons hx]
    have hpush : (objid ++ [mkOid t.1.id n]).length = objid.length + 1 := by simp
    -- the first name decides; below it the rest of the list is read with a new pending id
    cases hq : cfgTypeQueryChild tt (some t) x with
    | none =>
      cases parseChain (nextNum ts).2 <;> simp [resolveChain, hq]
    | some s =>
      have hs : s ∈ tt.types.entries := cfgTypeQueryChild_mem (by simpa using ht) hq
      have hlen := length_nextNum_le ts
      simp only
      rw [arrayWalk_nextNum (by omega), arrayWalk_eq_some (nextNum ts).2 _ s (nextNum ts).1 hs
        (nextNum_ne_zero ts) (by omega)]
      refine and_congr_right fun _ => ?_
      cases parseChain (nextNum ts).2 with
      | none => simp
      | some g =>
        simp only [Option.map_some, Option.bind_some, resolveChain, hq, Option.map_eq_some_iff]
        constructor
        · rintro ⟨ch, hch, hle, rfl⟩
          refine ⟨(s, (nextNum ts).1) :: ch, ⟨ch, hch, rfl⟩, ?_, ?_⟩
          · rw [List.length_cons]
            omega
          · simp [linkOid]
        · rintro ⟨_, ⟨ch, hch, rfl⟩, hle, rfl⟩
          rw [List.length_cons] at hle
          exact ⟨ch, hch, by omega, by simp [linkOid]⟩
termination_by ts => ts.length
decreasing_by simp only [List.length_cons]; omega

theorem queryWalk_full {ts : List Str} {node : Option CfgTypePtr} {na : Bool} {u : CfgTypePtr} :
    queryWalk tt res ts node na cfgMaxNodeLevel ≠ .ok (some u) := by
  cases ts with
  | nil => cases res <;> simp [queryWalk, Except.map, cfgTypeQueryDone]
  | cons x ts => simp [queryWalk]

/-- After a name `cfg_type_query` takes the number that follows, if there is one, and counts it. -/
theorem queryWalk_nextNum {ts : List Str} {level : Nat} (hl : level < cfgMaxNodeLevel) :
    queryWalk tt res ts (some t) false level =
      queryWalk tt res (nextNum ts).2 (some t) true
        (level + (ts.length - (nextNum ts).2.length)) := by
  cases ts with
  | nil => rfl
  | cons d ts =>
    by_cases hd : tokenDigit d = 0
    · simp [queryWalk, nextNum, hd]
    · rw [nextNum, if_pos hd, queryWalk, if_pos hl, if_neg (by simp), if_pos hd]
      simp

/-- **The loop of `cfg_type_query` below the type `t`.** -/
theorem queryWalk_eq_some {u : CfgTypePtr} : ∀ (ts : List Str) (t : CfgTypePtr) (level : Nat),
    t ∈ tt.types.entries → level ≤ cfgMaxNodeLevel →
    (queryWalk tt res ts (some t) true level = .ok (some u) ↔
      res = .ok [] ∧ level + ts.length < cfgMaxNodeLevel ∧
        ∃ ch, (parseChain ts).bind (resolveChain tt (some t)) = some ch ∧
          lastNode (some t) ch = some u)
  | [], t, level, ht, hl => by
    rw [queryWalk]
    cases res with
    | error e => simp [Except.map]
    | ok tmp =>
      by_cases htmp : tmp = []
      · by_cases hlev : level = cfgMaxNodeLevel
        · simp [Except.map, cfgTypeQueryDone, hlev]
        · have : level < cfgMaxNodeLevel := by omega
          simp [Except.map, cfgTypeQueryDone, parseChain, resolveChain, lastNode, htmp, hlev,
            this]
      · simp [Except.map, cfgTypeQueryDone, htmp]
  | x :: ts, t, level, ht, hl => by
    rcases Nat.lt_or_eq_of_le hl with hlev | rfl
    swap
    · have : ¬ (cfgMaxNodeLevel + (x :: ts).length < cfgMaxNodeLevel) := by omega
      simp only [queryWalk_full, this, false_and, and_false]
    by_cases hx : tokenDigit x = 0
    swap
    · rw [queryWalk, if_pos hlev, if_pos ⟨rfl, hx⟩, parseChain_cons_digit hx]
      simp
    rw [queryWalk, if_pos hlev, if_neg (by simp [hx]), if_neg (by simp [hx]), parseChain_cons hx,
      List.length_cons]
    cases hq : cfgTypeQueryChild tt (some t) x with
    | none =>
      cases parseChain (nextNum ts).2 <;> simp [resolveChain, hq]
    | some s =>
      have hs : s ∈ tt.types.entries := cfgTypeQueryChild_mem (by simpa using ht) hq
      have hlen := length_nextNum_le ts
      have hone := length_le_nextNum ts
      simp only
      rcases Nat.lt_or_eq_of_le (Nat.succ_le_of_lt hlev) with hlev' | hlev'
      · rw [queryWalk_nextNum hlev', queryWalk_eq_some (nextNum ts).2 s _ hs (by omega)]
        refine and_congr_right fun _ => and_congr (by omega) ?_
        cases parseChain (nextNum ts).2 with
        | none => simp
        | some g =>
          simp only [Option.map_some, Option.bind_some, resolveChain, hq, Option.map_eq_some_iff]
          constructor
          · rintro ⟨ch, hch, hu⟩
            exact ⟨(s, (nextNum ts).1) :: ch, ⟨ch, hch, rfl⟩, hu⟩
          · rintro ⟨_, ⟨ch, hch, rfl⟩, hu⟩
            exact ⟨ch, hch, hu⟩
      · have : ¬ (level + (ts.length + 1) < cfgMaxNodeLevel) := by omega
        rw [show level + 1 = cfgMaxNodeLevel from hlev']
        simp [queryWalk_full, this]
termination_by ts => ts.length
decreasing_by simp only [List.length_cons]; omega

end Walks

/-! ## Accepted paths -/

theorem tokensOf_nil_iff (path : Str) :
    (tokensOf path).1 = [] ∧ (tokensOf path).2 = .ok [] ↔ path = [] := by
  constructor
  · rintro ⟨h1, h2⟩
    rw [tokensOf, pathTokens] at h1 h2
    rcases hg : cfgGetToken path with e | t
    · simp [hg] at h2
    · cases t with
      | none => simpa [hg] using h2
      | some t => simp [hg] at h1
  · rintro rfl
    exact ⟨rfl, rfl⟩

/-- **The paths `cfg_path_to_oid_array` accepts, and the ids it gives.** The empty path is accepted
too and gets the id `0`. -/
theorem cfgPathToOidArray_eq_some {tt : TypeTree} {path : Str} {ids : List Nat} :
    cfgPathToOidArray tt path = .ok (some ids) ↔
      (path = [] ∧ ids = [0]) ∨
      ∃ ch, pathChain tt path = some ch ∧ ch ≠ [] ∧ ch.length ≤ cfgMaxNodeLevel ∧
        ids = ch.map linkOid := by
  rw [cfgPathToOidArray_eq_walk, pathChain]
  have hnil := tokensOf_nil_iff path
  generalize tokensOf path = tok at hnil
  obtain ⟨ts, res⟩ := tok
  cases ts with
  | nil =>
    simp only [true_and] at hnil
    rw [← hnil, arrayWalk]
    cases res with
    | error e => simp [Except.map]
    | ok tmp =>
      by_cases htmp : tmp = []
      · simp [Except.map, cfgPathToOidArrayDone, htmp, parseChain, resolveChain, mkOid,
          eq_comm, cfgMaxNodeLevel]
      · simp [Except.map, cfgPathToOidArrayDone, htmp]
  | cons x ts =>
    have hne : path ≠ [] := fun h => by simpa using hnil.mpr h
    simp only [hne, false_and, false_or]
    by_cases hx : tokenDigit x = 0
    swap
    · simp [arrayWalk, hx, parseChain_cons_digit hx, cfgMaxNodeLevel]
    rw [arrayWalk, if_pos (by simp [cfgMaxNodeLevel]), if_neg (by simp [hx]), if_neg (by simp [hx]),
      if_neg (by simp), parseChain_cons hx]
    cases hq : cfgTypeQueryChild tt none x with
    | none => cases parseChain (nextNum ts).2 <;> simp [resolveChain, hq]
    | some s =>
      have hs : s ∈ tt.types.entries := cfgTypeQueryChild_mem (by simp) hq
      simp only
      rw [arrayWalk_nextNum (by simp), arrayWalk_eq_some _ _ s _ hs (nextNum_ne_zero ts) (by simp)]
      by_cases hres : res = .ok []
      swap
      · simp [hres]
      simp only [hres, true_and, if_true]
      cases parseChain (nextNum ts).2 with
      | none => simp
      | some g =>
        simp only [Option.map_some, Option.bind_some, resolveChain, hq, Option.map_eq_some_iff]
        constructor
        · rintro ⟨ch, hch, hle, rfl⟩
          refine ⟨(s, (nextNum ts).1) :: ch, ⟨ch, hch, rfl⟩, by simp, ?_, by simp [linkOid]⟩
          rw [List.length_cons]
          simpa [Nat.add_comm] using hle
        · rintro ⟨_, ⟨ch, hch, rfl⟩, -, hle, rfl⟩
          rw [List.length_cons] at hle
          exact ⟨ch, hch, by simpa [Nat.add_comm] using hle, by simp [linkOid]⟩

/-- **The paths `cfg_type_query` accepts, and the type it gives.** -/
theorem cfgTypeQuery_eq_some {tt : TypeTree} {path : Str} {u : CfgTypePtr} :
    cfgTypeQuery tt path = .ok (some u) ↔
      (tokensOf path).1.length < cfgMaxNodeLevel ∧
        ∃ ch, pathChain tt path = some ch ∧ lastNode none ch = some u := by
  rw [cfgTypeQuery_eq_walk, pathChain]
  generalize tokensOf path = tok
  obtain ⟨ts, res⟩ := tok
  cases ts with
  | nil =>
    cases res <;>
      simp [queryWalk, Except.map, cfgTypeQueryDone, parseChain, resolveChain, lastNode]
  | cons x ts =>
    by_cases hx : tokenDigit x = 0
    swap
    · simp [queryWalk, hx, parseChain_cons_digit hx, cfgMaxNodeLevel]
    rw [queryWalk, if_pos (by simp [cfgMaxNodeLevel]), if_neg (by simp [hx]), if_neg (by simp [hx]),
      parseChain_cons hx]
    cases hq : cfgTypeQueryChild tt none x with
    | none => cases parseChain (nextNum ts).2 <;> simp [resolveChain, hq]
    | some s =>
      have hs : s ∈ tt.types.entries := cfgTypeQueryChild_mem (by simp) hq
      have hlen := length_nextNum_le ts
      have hone := length_le_nextNum ts
      simp only
      rw [queryWalk_nextNum (by simp [cfgMaxNodeLevel]), queryWalk_eq_some _ s _ hs (by
        simp only [cfgMaxNodeLevel]
        omega)]
      by_cases hres : res = .ok []
      swap
      · simp [hres]
      simp only [hres, true_and, if_true, List.length_cons]
      refine and_congr (by omega) ?_
      cases parseChain (nextNum ts).2 with
      | none => simp
      | some g =>
        simp only [Option.map_some, Option.bind_some, resolveChain, hq, Option.map_eq_some_iff]
        constructor
        · rintro ⟨ch, hch, hu⟩
          exact ⟨(s, (nextNum ts).1) :: ch, ⟨ch, hch, rfl⟩, hu⟩
        · rintro ⟨_, ⟨ch, hch, rfl⟩, hu⟩
          exact ⟨ch, hch, hu⟩

end OnuFirmware.Cfg
