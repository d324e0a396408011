import OnuFirmware.Lib.Lcrs

/-!
# Following keys down a first-child / next-sibling tree

`walk key e ks` starts at the entry `e` and takes, for each key of `ks`, the first child with that
key. Operations that find their node in another way, by a predicate `p` that one node satisfies,
are described by what they do to walks: `walk_rewrite` for any of them, `walk_mapVal`,
`walk_mapChild_append` and `walk_mapChild_eraseSib` for the three that set fields, link a new child
and unlink a child.
-/

namespace OnuFirmware.Lib.Lcrs

universe u v

variable {α : Type u} {κ : Type v} [DecidableEq κ] {key : α → κ} {p : α → Bool}

/-- The entry reached from `e` by taking, for each key, the first child with that key. -/
def walk (key : α → κ) : α × Lcrs α → List κ → Option (α × Lcrs α)
  | e, [] => some e
  | e, k :: ks =>
    match e.2.findSib fun a => key a == k with
    | none => none
    | some c => walk key c ks

theorem walk_cons (e : α × Lcrs α) (k : κ) (ks : List κ) :
    walk key e (k :: ks) = (e.2.findSib fun a => key a == k).bind fun c => walk key c ks := by
  rw [walk]
  cases e.2.findSib fun a => key a == k <;> rfl

theorem walk_append : ∀ (ks ls : List κ) (e : α × Lcrs α),
    walk key e (ks ++ ls) = (walk key e ks).bind fun o => walk key o ls
  | [], _, _ => rfl
  | k :: ks, ls, e => by
    rw [List.cons_append, walk_cons, walk_cons, Option.bind_assoc]
    congr 1
    funext c
    exact walk_append ks ls c

/-- Only the first step of a walk looks at the children of its start, none at the start itself. -/
theorem walk_cons_congr {e e' : α × Lcrs α} (h : e.2 = e'.2) (k : κ) (ks : List κ) :
    walk key e (k :: ks) = walk key e' (k :: ks) := by
  rw [walk_cons, walk_cons, h]

/-! ## How often a predicate holds below an entry -/

/-- The fields of an entry and of all nodes below it. -/
def fields (e : α × Lcrs α) : List α := e.1 :: e.2.values

theorem countP_fields (p : α → Bool) (a : α) (c : Lcrs α) :
    (fields (a, c)).countP p = c.values.countP p + if p a = true then 1 else 0 :=
  List.countP_cons

theorem countP_findSib_le {q : α → Bool} : ∀ {f : Lcrs α} {c : α × Lcrs α}, f.findSib q = some c →
    (fields c).countP p ≤ f.values.countP p
  | nil, _, h => nomatch h
  | node a x s, c, h => by
    rw [findSib] at h
    rw [values, List.countP_cons, List.countP_append]
    split at h
    · obtain rfl := Option.some.inj h
      rw [countP_fields]
      omega
    · have := countP_findSib_le h
      omega

/-- Two siblings have no node in common. -/
theorem countP_findSib_add {q q' : α → Bool} (hne : ∀ a, q a = true → q' a = false) :
    ∀ {f : Lcrs α} {c c' : α × Lcrs α}, f.findSib q = some c → f.findSib q' = some c' →
    (fields c).countP p + (fields c').countP p ≤ f.values.countP p
  | nil, _, _, h, _ => nomatch h
  | node a x s, c, c', h, h' => by
    rw [findSib] at h h'
    rw [values, List.countP_cons, List.countP_append]
    split at h
    · next ha =>
      obtain rfl := Option.some.inj h
      rw [if_neg (by simp [hne a ha])] at h'
      have := countP_findSib_le (p := p) h'
      rw [countP_fields]
      omega
    · split at h'
      · obtain rfl := Option.some.inj h'
        have := countP_findSib_le (p := p) h
        have hx := countP_fields p a x
        omega
      · have := countP_findSib_add hne h h'
        omega

theorem one_le_countP_of_walk : ∀ {ks : List κ} {e o : α × Lcrs α}, walk key e ks = some o →
    p o.1 = true → 1 ≤ (fields e).countP p
  | [], e, o, h, ho => by
    obtain rfl := Option.some.inj h
    rw [fields, List.countP_cons, if_pos ho]
    omega
  | k :: ks, e, o, h, ho => by
    rw [walk_cons] at h
    obtain ⟨c, hc, hw⟩ := Option.bind_eq_some_iff.mp h
    have h1 := one_le_countP_of_walk hw ho
    have h2 := countP_findSib_le (p := p) hc
    rw [fields, List.countP_cons]
    omega

/-! ## Rewriting one node -/

/-- `T` rewrites entries so that only the node that satisfies `p`, and what is below it, can
change. -/
structure RewritesAt (key : α → κ) (p : α → Bool) (T : α × Lcrs α → α × Lcrs α) : Prop where
  other : ∀ e, p e.1 = false → (T e).1 = e.1
  child : ∀ e k, p e.1 = false →
    ((T e).2.findSib fun a => key a == k) = (e.2.findSib fun a => key a == k).map T
  absent : ∀ e, (fields e).countP p = 0 → T e = e

/-- **Walks after a rewriting.** A walk through the rewritten node goes on from what it became; any
other walk ends at a node with the same fields as before. -/
theorem walk_rewrite {T : α × Lcrs α → α × Lcrs α} (hT : RewritesAt key p T) :
    ∀ {path : List κ} {e o : α × Lcrs α}, (fields e).countP p ≤ 1 → walk key e path = some o →
    p o.1 = true → ∀ ks, (walk key (T e) ks).map Prod.fst =
      if path <+: ks then (walk key (T o) (ks.drop path.length)).map Prod.fst
      else (walk key e ks).map Prod.fst
  | [], e, o, _, h, _, ks => by
    obtain rfl := Option.some.inj h
    rw [if_pos List.nil_prefix]
    rfl
  | k₀ :: path, e, o, hone, h, ho, ks => by
    rw [walk_cons] at h
    obtain ⟨c, hc, hw⟩ := Option.bind_eq_some_iff.mp h
    have hin := one_le_countP_of_walk hw ho
    have hle := countP_findSib_le (p := p) hc
    rw [fields, List.countP_cons] at hone
    have he : p e.1 = false := by
      rw [Bool.eq_false_iff]
      intro hp
      rw [if_pos hp] at hone
      omega
    cases ks with
    | nil =>
      rw [if_neg (by simp)]
      simp [walk, hT.other e he]
    | cons k ks =>
      rw [walk_cons, walk_cons, hT.child e k he]
      by_cases hk : k = k₀
      · subst hk
        rw [hc, Option.map_some, Option.bind_some, Option.bind_some,
          walk_rewrite hT (by omega) hw ho ks]
        simp [List.cons_prefix_cons]
      · rw [if_neg (by simp [List.cons_prefix_cons, Ne.symm hk])]
        cases hc' : e.2.findSib fun a => key a == k with
        | none => rfl
        | some c' =>
          -- the siblings of the child on the path do not contain the node
          have hadd := countP_findSib_add (p := p)
            (fun a (ha : (key a == k₀) = true) => by
              rw [beq_iff_eq] at ha
              simpa [ha] using Ne.symm hk) hc hc'
          rw [Option.map_some, Option.bind_some, Option.bind_some, hT.absent c' (by omega)]

theorem countP_eq_zero_of_one {a : α} {c : Lcrs α} (ha : p a = true)
    (h : (fields (a, c)).countP p ≤ 1) : c.values.countP p = 0 := by
  rw [countP_fields, if_pos ha] at h
  omega

theorem countP_le_of_walk (p : α → Bool) : ∀ {ks : List κ} {e o : α × Lcrs α},
    walk key e ks = some o →
    (fields o).countP p ≤ (fields e).countP p
  | [], e, o, h => by
    obtain rfl := Option.some.inj h
    exact Nat.le_refl _
  | k :: ks, e, o, h => by
    rw [walk_cons] at h
    obtain ⟨c, hc, hw⟩ := Option.bind_eq_some_iff.mp h
    have h1 := countP_le_of_walk p hw
    have h2 := countP_findSib_le (p := p) hc
    have h3 : e.2.values.countP p ≤ (fields e).countP p := by
      rw [fields, List.countP_cons]
      omega
    omega

/-! ## Setting fields -/

theorem mapVal_eq_self {u : α → α} : ∀ {f : Lcrs α}, f.values.countP p = 0 → f.mapVal p u = f
  | nil, _ => rfl
  | node a c s, h => by
    rw [values, List.countP_cons, List.countP_append] at h
    have ha : p a = false := by
      rw [Bool.eq_false_iff]
      intro hp
      rw [if_pos hp] at h
      omega
    rw [mapVal, mapVal_eq_self (f := c) (by omega), mapVal_eq_self (f := s) (by omega), ha,
      if_neg (by simp)]

theorem findSib_mapVal {u : α → α} (hu : ∀ a, key (u a) = key a) (k : κ) : ∀ f : Lcrs α,
    ((f.mapVal p u).findSib fun a => key a == k) =
      (f.findSib fun a => key a == k).map fun e =>
        (if p e.1 then u e.1 else e.1, e.2.mapVal p u)
  | nil => rfl
  | node a c s => by
    have hkey : key (if p a then u a else a) = key a := by split <;> simp [hu]
    rw [mapVal, findSib, findSib, hkey, findSib_mapVal hu k s]
    split <;> rfl

theorem rewritesAt_mapVal {u : α → α} (hu : ∀ a, key (u a) = key a) :
    RewritesAt key p fun e => (if p e.1 then u e.1 else e.1, e.2.mapVal p u) where
  other := fun e he => by simp [he]
  child := fun e k _ => findSib_mapVal hu k e.2
  absent := fun e he => by
    rw [fields, List.countP_cons] at he
    have ha : p e.1 = false := by
      rw [Bool.eq_false_iff]
      intro hp
      rw [if_pos hp] at he
      omega
    have hc : e.2.mapVal p u = e.2 := mapVal_eq_self (by omega)
    simp only [ha, hc, Bool.false_eq_true, if_false]

/-- **Setting the fields of one node shows at the end of the walk to it and nowhere else.** -/
theorem walk_mapVal {u : α → α} (hu : ∀ a, key (u a) = key a) {path : List κ}
    {e o : α × Lcrs α} (hone : (fields e).countP p ≤ 1) (h : walk key e path = some o)
    (ho : p o.1 = true) (ks : List κ) :
    (walk key (if p e.1 then u e.1 else e.1, e.2.mapVal p u) ks).map Prod.fst =
      if ks = path then some (u o.1) else (walk key e ks).map Prod.fst := by
  have hrew := walk_rewrite (rewritesAt_mapVal (p := p) hu) hone h ho ks
  have hbelow : o.2.values.countP p = 0 := countP_eq_zero_of_one ho
    (Nat.le_trans (countP_le_of_walk p h) hone)
  simp only [ho, if_true, mapVal_eq_self hbelow] at hrew
  rw [hrew]
  by_cases hpre : path <+: ks
  · obtain ⟨rest, rfl⟩ := hpre
    rw [if_pos (List.prefix_append _ _), List.drop_left]
    cases rest with
    | nil => simp [walk]
    | cons k rest =>
      rw [if_neg (by simp), walk_append, h, Option.bind_some]
      exact congrArg _ (walk_cons_congr rfl k rest)
  · have hks : ks ≠ path := fun hk => hpre (hk ▸ List.prefix_refl _)
    rw [if_neg hpre, if_neg hks]

/-! ## Linking a new child -/

theorem findSib_mapChild {g : Lcrs α → Lcrs α} (q : α → Bool) : ∀ f : Lcrs α,
    (f.mapChild p g).findSib q =
      (f.findSib q).map fun e => (e.1, if p e.1 then g e.2 else e.2.mapChild p g)
  | nil => rfl
  | node a c s => by
    rw [mapChild, findSib, findSib, findSib_mapChild q s]
    split <;> rfl

theorem rewritesAt_mapChild (g : Lcrs α → Lcrs α) :
    RewritesAt key p fun e => (e.1, if p e.1 then g e.2 else e.2.mapChild p g) where
  other := fun e _ => rfl
  child := fun e k he => by
    simp only [he, Bool.false_eq_true, if_false]
    exact findSib_mapChild _ e.2
  absent := fun e he => by
    rw [List.countP_eq_zero] at he
    have ha : p e.1 = false := by simpa using he e.1 List.mem_cons_self
    have hc : e.2.mapChild p g = e.2 := mapChild_eq_self fun a ha' => by
      simpa using he a (List.mem_cons_of_mem _ ha')
    simp only [ha, hc, Bool.false_eq_true, if_false]

/-- **Linking a child with a new key behind the children of one node adds the walks through the
child and changes no other.** -/
theorem walk_mapChild_append {new : α} {sub : Lcrs α} {path : List κ} {e o : α × Lcrs α}
    (hone : (fields e).countP p ≤ 1) (h : walk key e path = some o) (ho : p o.1 = true)
    (hnew : (o.2.findSib fun a => key a == key new) = none) (ks : List κ) :
    (walk key (e.1, if p e.1 then e.2.append (node new sub nil)
        else e.2.mapChild p (·.append (node new sub nil))) ks).map Prod.fst =
      if path ++ [key new] <+: ks then
        (walk key (new, sub) (ks.drop (path.length + 1))).map Prod.fst
      else (walk key e ks).map Prod.fst := by
  have hrew := walk_rewrite (rewritesAt_mapChild (p := p) (·.append (node new sub nil))) hone h
    ho ks
  simp only [ho, if_true] at hrew
  rw [hrew]
  by_cases hpre : path <+: ks
  · obtain ⟨rest, rfl⟩ := hpre
    rw [if_pos (List.prefix_append _ _), List.drop_left, walk_append, h, Option.bind_some]
    cases rest with
    | nil =>
      have hlong : ¬ path ++ [key new] <+: path ++ [] := by
        rw [List.prefix_append_right_inj]
        simp
      rw [if_neg hlong]
      rfl
    | cons k rest =>
      have hiff : path ++ [key new] <+: path ++ k :: rest ↔ key new = k := by
        rw [List.prefix_append_right_inj, List.cons_prefix_cons]
        simp
      rw [walk_cons, walk_cons, findSib_append]
      by_cases hk : key new = k
      · rw [if_pos (hiff.mpr hk)]
        subst hk
        have hdrop : (path ++ key new :: rest).drop (path.length + 1) = rest := by
          rw [← List.drop_drop, List.drop_left, List.drop_one, List.tail_cons]
        simp [hnew, findSib, hdrop]
      · have hnone : ((node new sub nil).findSib fun a => key a == k) = none := by
          simp [findSib, hk]
        rw [if_neg (mt hiff.mp hk), hnone, Option.or_none]
  · have hks : ¬ path ++ [key new] <+: ks := fun hk =>
      hpre ((List.prefix_append _ _).trans hk)
    rw [if_neg hpre, if_neg hks]

/-! ## Unlinking a child -/

theorem findSib_eraseSib_ne {k k' : κ} (hk : k' ≠ k) : ∀ f : Lcrs α,
    ((f.eraseSib fun a => key a == k).findSib fun a => key a == k') =
      f.findSib fun a => key a == k'
  | nil => rfl
  | node a c s => by
    rw [eraseSib, findSib]
    split
    · next ha =>
      rw [beq_iff_eq] at ha
      rw [if_neg (by simpa [ha] using Ne.symm hk)]
    · rw [findSib, findSib_eraseSib_ne hk s]

theorem findSib_eraseSib_self {k : κ} {f : Lcrs α} (hn : (f.sibs.map key).Nodup) :
    ((f.eraseSib fun a => key a == k).findSib fun a => key a == k) = none :=
  findSib_eq_none.mpr fun a ha => by simpa using ne_key_of_mem_eraseSib hn a ha

/-- **Unlinking the child with a key below one node ends the walks through the child and changes no
other.** -/
theorem walk_mapChild_eraseSib {k : κ} {g : Lcrs α → Lcrs α} {path : List κ} {e o : α × Lcrs α}
    (hone : (fields e).countP p ≤ 1) (h : walk key e path = some o) (ho : p o.1 = true)
    (hn : (o.2.sibs.map key).Nodup) (hg : g o.2 = o.2.eraseSib fun a => key a == k) (ks : List κ) :
    (walk key (e.1, if p e.1 then g e.2 else e.2.mapChild p g) ks).map Prod.fst =
      if path ++ [k] <+: ks then none else (walk key e ks).map Prod.fst := by
  have hrew := walk_rewrite (rewritesAt_mapChild (p := p) g) hone h ho ks
  simp only [ho, if_true, hg] at hrew
  rw [hrew]
  by_cases hpre : path <+: ks
  · obtain ⟨rest, rfl⟩ := hpre
    rw [if_pos (List.prefix_append _ _), List.drop_left, walk_append, h, Option.bind_some]
    cases rest with
    | nil =>
      rw [if_neg (by rw [List.prefix_append_right_inj]; simp)]
      rfl
    | cons k' rest =>
      have hiff : path ++ [k] <+: path ++ k' :: rest ↔ k' = k := by
        rw [List.prefix_append_right_inj, List.cons_prefix_cons]
        simp [eq_comm]
      rw [walk_cons, walk_cons]
      by_cases hk : k' = k
      · rw [if_pos (hiff.mpr hk), hk, findSib_eraseSib_self hn]
        rfl
      · rw [if_neg (mt hiff.mp hk), findSib_eraseSib_ne hk]
  · have hks : ¬ path ++ [k] <+: ks := fun hk => hpre ((List.prefix_append _ _).trans hk)
    rw [if_neg hpre, if_neg hks]

end OnuFirmware.Lib.Lcrs
