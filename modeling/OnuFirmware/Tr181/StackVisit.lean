import OnuFirmware.Tr181.InterfaceStack

/-!
# What the interface stack holds

The stack is to list the pairs of all chains from the IP interfaces in depth-first order. It does if
no chain comes back to where it was, no entry is left behind the ones that are cleared, and every
lower layer with lower layers of its own is of a kind that the function above looks for.
-/

namespace OnuFirmware.Tr181

open Clib Cfg Lib Relation

/-! ## The chains -/

/-- A decimal number from 1 on. -/
def isNumber (d : Str) : Bool := d.all isDigit && decide (1 ≤ atoi d)

/-- The kinds in the order of `Kind`. -/
def kinds : List Kind := [.ip, .ppp, .vlanT, .link, .bridgePort, .wifiSsid]

/-- The interface that a text names, with its index: a path with a number. -/
def interfaceOf (text : Str) : Option (Kind × Int) :=
  kinds.findSome? fun k =>
    let number := text.drop k.path.length
    if k.path <+: text ∧ isNumber number = true then some (k, atoi number - 1) else none

/-- The text names an interface, be it one without lower layers. -/
def isKnown (text : Str) : Bool :=
  (interfaceOf text).isSome || text == opticalInterface ||
    (etherInterface.isPrefixOf text && isNumber (text.drop etherInterface.length))

variable (A : Interfaces)

/-- The texts of the lower layers of an interface. -/
def Interfaces.texts (a : Kind × Int) : List Str :=
  ((A.lowerAttrs a.1 a.2).filterMap (A.attr a.1 (a.2 + 1))).filter (· ≠ [])

/-- The pairs of an interface with its lower layers, and the interfaces that these name. -/
def Interfaces.kids (a : Kind × Int) : List ((Str × Str) × Option (Kind × Int)) :=
  (A.texts a).map fun text => ((a.1.interface a.2, text), interfaceOf text)

/-- The pairs of the chains from the IP interfaces in depth-first order, up to a depth. -/
def Interfaces.links (n : Nat) : List (Str × Str) :=
  (List.range A.ipInterfaceNum).flatMap fun (i : Nat) => visit A.kids n (.ip, (i : Int))

/-- The pairs of all chains. -/
def Visits (links : List (Str × Str)) : Prop := ∃ n, ∀ m, n ≤ m → A.links m = links

/-- No interface is below itself. -/
def Acyclic : Prop := ∀ a, ¬ TransGen (Child A.kids) a a

/-- All texts name interfaces. -/
def WellFormed : Prop := ∀ a, 0 ≤ a.2 → ∀ text ∈ A.texts a, isKnown text = true

/-- The entries of the stack are the pairs, numbered from 1 to `Num`. -/
def Stack.Lists (s : Stack) (links : List (Str × Str)) : Prop :=
  (∀ i, s.slot i = links[i]?) ∧ s.num = fmtNat links.length

/-- The update ends. If the chains end too and there are not too many pairs, it lists them. -/
def StackRight (s : Stack) : Prop :=
  (∃ s', Updates A s s') ∧
    (Acyclic A → WellFormed A → ∃ links, Visits A links ∧
      (links.length ≤ interfaceStackNum → ∀ s', Updates A s s' → s'.Lists links))

/-- The interface is on a chain from an IP interface. -/
def FromIp (a : Kind × Int) : Prop :=
  ∃ i < A.ipInterfaceNum, ReflTransGen (Child A.kids) a (.ip, (i : Int))

/-- The text fits the buffer. -/
def Fits (text : Str) : Prop := text.length < 256

/-- The function of the kind of `a` looks for the kind of `b`. -/
def looksFor (a b : Kind × Int) : Bool := decide (b.1 ∈ a.1.next)

/-- When the stack is right. -/
structure StackCond (s : Stack) : Prop where
  noCycle : ∀ b, Called A b → ¬ TransGen (StackCall A) b b
  listed : Acyclic A → WellFormed A →
    ∀ links, Visits A links → links.length ≤ interfaceStackNum →
      (∀ i, interfaceStackNum ≤ i → s.slot i = none) ∧
      ∀ a, FromIp A a → (∀ text ∈ A.texts a, Fits text) ∧
        ∀ b, Child A.kids b a → looksFor a b = true ∨ A.texts b = []

/-! ## Texts -/

section Texts

variable {k k' : Kind} {t d : Str}

theorem atoi_of_isNumber (h : isNumber d = true) : (∀ c ∈ d, isDigit c = true) ∧ 1 ≤ atoi d := by
  rw [isNumber, Bool.and_eq_true, List.all_eq_true, decide_eq_true_eq] at h
  exact h

/-- Digits behind a text do not complete a path. -/
theorem hasStr_append_digits (hd : ∀ c ∈ d, isDigit c = true) (t : Str) (k : Kind) :
    hasStr (t ++ d) k.path = hasStr t k.path := by
  rw [Bool.eq_iff_iff, hasStr_iff, hasStr_iff]
  constructor
  · obtain ⟨p, hp⟩ : ∃ p, k.path = p ++ ['.'] := ⟨k.path.dropLast, by cases k <;> rfl⟩
    rw [hp]
    exact infix_of_append_digits hd (by decide)
  · exact fun h => h.trans (List.prefix_append t d).isInfix

theorem hasStr_path (hd : ∀ c ∈ d, isDigit c = true) (k k' : Kind) :
    hasStr (k.path ++ d) k'.path = decide (k' = k) := by
  rw [hasStr_append_digits hd]
  cases k <;> cases k' <;> rfl

theorem mem_kinds (k : Kind) : k ∈ kinds := by cases k <;> decide

theorem interfaceOf_path (hd : isNumber d = true) (k : Kind) :
    interfaceOf (k.path ++ d) = some (k, atoi d - 1) := by
  have hdigit := (atoi_of_isNumber hd).1
  have hself : k.path <+: k.path ++ d ∧ isNumber ((k.path ++ d).drop k.path.length) = true := by
    rw [List.drop_left]
    exact ⟨List.prefix_append _ _, hd⟩
  have hother : ∀ k', k' ≠ k → ¬ (k'.path <+: k.path ++ d ∧
      isNumber ((k.path ++ d).drop k'.path.length) = true) := fun k' hne h => by
    have hin := hasStr_iff.mpr h.1.isInfix
    rw [hasStr_path hdigit, decide_eq_true_eq] at hin
    exact hne hin
  obtain ⟨l₁, l₂, hkinds, hnot⟩ := List.eq_append_cons_of_mem (mem_kinds k)
  refine List.findSome?_eq_some_iff.mpr ⟨l₁, k, l₂, hkinds, ?_, fun k' hk' => ?_⟩
  · rw [if_pos hself, List.drop_left]
  · exact if_neg (hother k' fun he => hnot (he ▸ hk'))

theorem interfaceOf_spec {b : Kind × Int} (h : interfaceOf t = some b) :
    ∃ d, isNumber d = true ∧ t = b.1.path ++ d ∧ b.2 = atoi d - 1 := by
  obtain ⟨k, -, hk⟩ := List.exists_of_findSome?_eq_some h
  simp only at hk
  split at hk
  · next hp =>
    obtain ⟨⟨d, rfl⟩, hd⟩ := hp
    rw [List.drop_left] at hk hd
    obtain rfl := Option.some.inj hk
    exact ⟨d, hd, rfl, rfl⟩
  · exact absurd hk.symm (Option.some_ne_none b)

theorem nextOf_eq_none (h : ∀ k' : Kind, hasStr t k'.path = false) : k.nextOf t = none :=
  List.find?_eq_none.mpr fun k' _ => by rw [h k']; exact Bool.false_ne_true

theorem nextOf_path (hd : ∀ c ∈ d, isDigit c = true) (k k' : Kind) :
    k.nextOf (k'.path ++ d) = if k' ∈ k.next then some k' else none := by
  rw [Kind.nextOf]
  split
  · next hk =>
    obtain ⟨l₁, l₂, hnext, hnot⟩ := List.eq_append_cons_of_mem hk
    refine List.find?_eq_some_iff_append.mpr ⟨?_, l₁, l₂, hnext, fun x hx => ?_⟩
    · rw [hasStr_path hd]
      exact decide_eq_true rfl
    · have hne : x ≠ k' := fun he => hnot (he ▸ hx)
      rw [hasStr_path hd, decide_eq_false hne]
      rfl
  · next hk =>
    refine List.find?_eq_none.mpr fun x hx => ?_
    rw [hasStr_path hd, decide_eq_true_eq]
    exact fun he => hk (he ▸ hx)

theorem scanD_number (h : isNumber d = true) : scanD d = some (atoi d, []) := by
  obtain ⟨hd, hpos⟩ := atoi_of_isNumber h
  refine scanD_digits hd fun hnil => ?_
  rw [hnil] at hpos
  exact absurd hpos (by decide)

/-- The function of a kind follows a text to the interface that the text names, if it looks for its
kind. -/
theorem nextOf_cases (h : isKnown t = true) (a : Kind × Int) :
    (a.1.nextOf t = none ∧ (interfaceOf t).filter (looksFor a) = none) ∨
      ∃ b, a.1.nextOf t = some b.1 ∧ (interfaceOf t).filter (looksFor a) = some b ∧ 0 ≤ b.2 ∧
        scanD (t.drop b.1.path.length) = some (b.2 + 1, []) := by
  rw [isKnown, Bool.or_eq_true, Bool.or_eq_true] at h
  rcases h with (h | h) | h
  · obtain ⟨b, hb⟩ := Option.isSome_iff_exists.mp h
    obtain ⟨d, hd, rfl, hb2⟩ := interfaceOf_spec hb
    obtain ⟨hdigit, hpos⟩ := atoi_of_isNumber hd
    rw [hb, Option.filter_some, nextOf_path hdigit, looksFor]
    by_cases hnext : b.1 ∈ a.1.next
    · rw [if_pos hnext, if_pos (decide_eq_true hnext)]
      refine .inr ⟨b, rfl, rfl, by omega, ?_⟩
      rw [List.drop_left, scanD_number hd, hb2, Int.sub_add_cancel]
    · rw [if_neg hnext, if_neg (by rwa [decide_eq_true_eq])]
      exact .inl ⟨rfl, rfl⟩
  · obtain rfl := eq_of_beq h
    have hnone : interfaceOf opticalInterface = none := by decide
    exact .inl ⟨nextOf_eq_none fun k' => by cases k' <;> decide, by rw [hnone]; rfl⟩
  · rw [Bool.and_eq_true] at h
    obtain ⟨⟨d, rfl⟩, hd⟩ := And.imp_left List.isPrefixOf_iff_prefix.mp h
    rw [List.drop_left] at hd
    have hno : ∀ k : Kind, hasStr (etherInterface ++ d) k.path = false := fun k => by
      rw [hasStr_append_digits (atoi_of_isNumber hd).1]
      cases k <;> decide
    have hnone : interfaceOf (etherInterface ++ d) = none := by
      by_contra hsome
      obtain ⟨b, hb⟩ := Option.ne_none_iff_exists'.mp hsome
      obtain ⟨d', -, heq, -⟩ := interfaceOf_spec hb
      have hin := hasStr_iff.mpr (List.prefix_append b.1.path d').isInfix
      rw [← heq, hno] at hin
      exact Bool.false_ne_true hin
    exact .inl ⟨nextOf_eq_none hno, by rw [hnone]; rfl⟩

end Texts

/-! ## What a run writes -/

/-- Pairs are written into the slots from `m` on. -/
def Stack.putAll (s : Stack) (m : Nat) (links : List (Str × Str)) : Stack :=
  { s with slot := fun j => if m ≤ j ∧ j < m + links.length then links[j - m]? else s.slot j }

section Run

variable {A : Interfaces} {s s' : Stack} {m n : Nat} {links links' : List (Str × Str)}
  {a : Kind × Int}

theorem putAll_nil : s.putAll m [] = s := by
  have hslot : (s.putAll m []).slot = s.slot := funext fun j => if_neg fun h => by
    rw [List.length_nil] at h
    omega
  rw [Stack.putAll] at hslot ⊢
  simp only at hslot
  rw [hslot]

theorem put_eq (high lower : Str) : s.put (m : Int) high lower = s.putAll m [(high, lower)] := by
  rw [Stack.put, if_pos (Int.natCast_nonneg m), Int.toNat_natCast, Stack.putAll]
  congr 1
  funext j
  rw [Function.update_apply, List.length_singleton]
  by_cases hj : j = m
  · subst hj
    rw [if_pos rfl, if_pos ⟨le_rfl, Nat.lt_succ_self j⟩, Nat.sub_self]
    rfl
  · rw [if_neg hj, if_neg (by omega)]

theorem putAll_append :
    (s.putAll m links).putAll (m + links.length) links' = s.putAll m (links ++ links') := by
  rw [Stack.putAll, Stack.putAll, Stack.putAll]
  congr 1
  funext j
  simp only [List.length_append]
  by_cases hj : j < m + links.length
  · rw [if_neg (by omega), List.getElem?_append]
    by_cases hm : m ≤ j
    · rw [if_pos ⟨hm, hj⟩, if_pos (by omega), if_pos (by omega)]
    · rw [if_neg (by omega), if_neg (by omega)]
  · have hout : ¬ (m ≤ j ∧ j < m + links.length) := fun h => hj h.2
    rw [if_neg hout, List.getElem?_append_right (by omega), Nat.sub_add_eq]
    refine if_congr ?_ rfl rfl
    omega

/-- Texts that are empty or absent are passed over; the others are read as they are, if they fit. -/
theorem foldlM_lowers {call : Kind → Stack → Int → Int → Option (Stack × Int)} {v : StackVars}
    (h : ∀ text ∈ A.texts a, Fits text) :
    (A.lowers a.1 a.2).foldlM (stackRound call a.1 a.2) v =
      (A.texts a).foldlM (stackRound call a.1 a.2) v := by
  rw [Interfaces.texts] at h ⊢
  rw [Interfaces.lowers]
  generalize A.lowerAttrs a.1 a.2 = names at h ⊢
  induction names generalizing v with
  | nil => rfl
  | cons name names ih =>
    rw [List.map_cons, List.foldlM_cons]
    cases hattr : A.attr a.1 (a.2 + 1) name with
    | none =>
      rw [List.filterMap_cons_none hattr] at h ⊢
      exact ih h
    | some t =>
      rw [List.filterMap_cons_some hattr] at h ⊢
      by_cases ht : t = []
      · rw [List.filter_cons_of_neg (by simpa using ht)] at h ⊢
        rw [ht]
        exact ih h
      · rw [List.filter_cons_of_pos (by simpa using ht)] at h ⊢
        obtain ⟨hfit, hrest⟩ := List.forall_mem_cons.mp h
        rw [List.foldlM_cons, attrText, Option.map_some, Option.getD_some, snprintf_eq hfit]
        congr 1
        funext w
        exact ih hrest

/-- What the rounds write, if the calls write what `sub` lists. -/
theorem rounds_put {call : Kind → Stack → Int → Int → Option (Stack × Int)}
    {sub : Kind × Int → List (Str × Str)} {texts : List Str}
    (hknown : ∀ t ∈ texts, t ≠ [] ∧ isKnown t = true)
    (hcall : ∀ t ∈ texts, ∀ b, (interfaceOf t).filter (looksFor a) = some b → ∀ s (m : Nat) r,
      call b.1 s m b.2 = some r → r = (s.putAll m (sub b), ((m + (sub b).length : Nat) : Int)))
    {idx : Int} {w : StackVars}
    (h : texts.foldlM (stackRound call a.1 a.2) ⟨s, (m : Int), idx⟩ = some w) :
    let out := texts.flatMap fun t =>
      (a.1.interface a.2, t) :: ((interfaceOf t).filter (looksFor a)).elim [] sub
    w.stack = s.putAll m out ∧ w.entryIdx = ((m + out.length : Nat) : Int) := by
  induction texts generalizing s m idx with
  | nil =>
    obtain rfl := Option.some.inj h
    exact ⟨putAll_nil.symm, rfl⟩
  | cons t texts ih =>
    obtain ⟨⟨hne, hk⟩, hrest⟩ := List.forall_mem_cons.mp hknown
    obtain ⟨hcallt, hcalls⟩ := List.forall_mem_cons.mp hcall
    rw [List.foldlM_cons, Option.bind_eq_bind, Option.bind_eq_some_iff] at h
    obtain ⟨u, hu, hw⟩ := h
    rw [stackRound, if_neg hne] at hu
    simp only [List.flatMap_cons]
    have hput : s.put (m : Int) (a.1.interface a.2) t = s.putAll m [(a.1.interface a.2, t)] :=
      put_eq _ _
    rcases nextOf_cases hk a with ⟨hnext, hnone⟩ | ⟨b, hnext, hb, -, hscan⟩
    · rw [hnext, hput] at hu
      rw [← Option.some.inj hu] at hw
      obtain ⟨hstack, hidx⟩ := ih hrest hcalls (m := m + 1) hw
      rw [hnone, hstack, hidx]
      refine ⟨putAll_append, ?_⟩
      rw [Option.elim_none, List.length_append, List.length_singleton, Nat.add_assoc]
    · rw [hnext, hput] at hu
      simp only [hscan, Option.elim_some, Int.add_sub_cancel] at hu
      obtain ⟨r, hr, rfl⟩ := Option.map_eq_some_iff.mp hu
      obtain rfl := hcallt b hb _ (m + 1) r hr
      obtain ⟨hstack, hidx⟩ := ih hrest hcalls hw
      rw [hb, hstack, hidx, Option.elim_some]
      have happend := @putAll_append s m [(a.1.interface a.2, t)] (sub b)
      rw [List.length_singleton] at happend
      rw [happend, List.singleton_append, List.length_append, List.length_cons]
      have hlen : m + 1 + (sub b).length = m + ((a.1.interface a.2, t) :: sub b).length := by
        rw [List.length_cons]
        omega
      refine ⟨?_, by omega⟩
      rw [hlen, putAll_append]

/-- Every interface that is followed to has lower layers that are known and fit. -/
def Good (A : Interfaces) (a : Kind × Int) : Prop :=
  ∀ b, ReflTransGen (Child (prune looksFor A.kids)) b a →
    0 ≤ b.2 ∧ ∀ t ∈ A.texts b, isKnown t = true ∧ Fits t

theorem visit_succ : visit (prune looksFor A.kids) (n + 1) a = (A.texts a).flatMap fun t =>
    (a.1.interface a.2, t) ::
      ((interfaceOf t).filter (looksFor a)).elim [] (visit (prune looksFor A.kids) n) := by
  rw [visit_prune_succ, Interfaces.kids, List.flatMap_map]

theorem child_iff {b : Kind × Int} :
    Child A.kids b a ↔ ∃ t ∈ A.texts a, interfaceOf t = some b := by
  rw [Child, Interfaces.kids]
  simp

theorem child_looksFor {b : Kind × Int} : Child (prune looksFor A.kids) b a ↔
    ∃ t ∈ A.texts a, (interfaceOf t).filter (looksFor a) = some b := by
  rw [Child, prune, Interfaces.kids]
  simp

/-- **What the function of a kind writes.** -/
theorem setStackNode_put : ∀ {n : Nat} {a : Kind × Int} {s : Stack} {m : Nat} {r : Stack × Int},
    Good A a → setStackNode A n a.1 s m a.2 = some r →
    r = (s.putAll m (visit (prune looksFor A.kids) n a),
      ((m + (visit (prune looksFor A.kids) n a).length : Nat) : Int))
  | 0, _, _, _, _, _, h => absurd h.symm (Option.some_ne_none _)
  | n + 1, a, s, m, r, hgood, h => by
    obtain ⟨hpos, htexts⟩ := hgood a .refl
    rw [setStackNode, if_neg (Int.not_lt.mpr hpos),
      foldlM_lowers fun t ht => (htexts t ht).2] at h
    obtain ⟨w, hw, rfl⟩ := Option.map_eq_some_iff.mp h
    have hknown : ∀ t ∈ A.texts a, t ≠ [] ∧ isKnown t = true := fun t ht =>
      ⟨by simpa using (List.mem_filter.mp ht).2, (htexts t ht).1⟩
    have hput : ∀ t ∈ A.texts a, ∀ b, (interfaceOf t).filter (looksFor a) = some b →
        ∀ s (m : Nat) r, setStackNode A n b.1 s m b.2 = some r →
          r = (s.putAll m (visit (prune looksFor A.kids) n b),
            ((m + (visit (prune looksFor A.kids) n b).length : Nat) : Int)) :=
      fun t ht b hb s m r hr => setStackNode_put
        (fun c hc => hgood c (hc.tail (child_looksFor.mpr ⟨t, ht, hb⟩))) hr
    obtain ⟨hstack, hidx⟩ := rounds_put hknown hput hw
    rw [visit_succ, hstack, hidx]

/-- The pairs of the chains as far as the functions follow them. -/
def followed (A : Interfaces) (n : Nat) (l : List Nat) : List (Str × Str) :=
  l.flatMap fun (i : Nat) => visit (prune looksFor A.kids) n (.ip, (i : Int))

theorem ipRounds_put {l : List Nat} {r : Stack × Int}
    (hgood : ∀ i ∈ l, Good A (.ip, (i : Int))) (h : ipRounds A n (s, (m : Int)) l = some r) :
    r = (s.putAll m (followed A n l), ((m + (followed A n l).length : Nat) : Int)) := by
  induction l generalizing s m with
  | nil =>
    obtain rfl := Option.some.inj h
    exact Prod.ext putAll_nil.symm rfl
  | cons i l ih =>
    obtain ⟨hi, hl⟩ := List.forall_mem_cons.mp hgood
    rw [ipRounds, List.foldlM_cons, Option.bind_eq_bind, Option.bind_eq_some_iff] at h
    obtain ⟨u, hu, hw⟩ := h
    obtain rfl := @setStackNode_put A n (.ip, (i : Int)) s m u hi hu
    rw [ih hl hw, followed, followed, List.flatMap_cons, putAll_append, List.length_append,
      Nat.add_assoc]

/-- The stack after an update that meets no text that is unknown or too long. -/
theorem update_put (hgood : ∀ i < A.ipInterfaceNum, Good A (.ip, (i : Int)))
    (h : Updates A s s') : ∃ n, ∀ m, n ≤ m →
      s' = { s.clear.putAll 0 (followed A m (List.range A.ipInterfaceNum)) with
        num := snprintf 20 (fmtNat (followed A m (List.range A.ipInterfaceNum)).length) } := by
  obtain ⟨n, x, h⟩ := h
  refine ⟨n, fun m hm => ?_⟩
  obtain ⟨r, hr, hs⟩ := Option.map_eq_some_iff.mp h
  have hr' : ipRounds A m (s.clear, ((0 : Nat) : Int)) (List.range A.ipInterfaceNum) = some r :=
    ipRounds_le hm hr
  obtain rfl := ipRounds_put (fun i hi => hgood i (List.mem_range.mp hi)) hr'
  rw [← (Prod.mk.inj hs).1, Nat.zero_add, fmtInt_natCast]

/-! ## Texts that are too long -/

/-- The entries that have been cleared have texts that fit the buffer. -/
def FitsCleared (s : Stack) : Prop :=
  ∀ i < interfaceStackNum, ∀ p, s.slot i = some p → Fits p.2

theorem fitsCleared_put (hs : FitsCleared s) {x : Int} {high lower : Str} (hlower : Fits lower) :
    FitsCleared (s.put x high lower) := by
  intro i hi p hp
  rw [Stack.put] at hp
  split at hp
  · simp only [Function.update_apply] at hp
    split at hp
    · obtain rfl := Option.some.inj hp
      exact hlower
    · exact hs i hi p hp
  · exact hs i hi p hp

theorem fits_lowers (k : Kind) (x : Int) : ∀ t ∈ A.lowers k x, Fits t := fun t ht => by
  obtain ⟨name, -, rfl⟩ := List.mem_map.mp ht
  cases A.attr k (x + 1) name with
  | none => exact Nat.zero_lt_succ _
  | some v => exact Nat.lt_succ_of_le (length_snprintf_lt 255 v)

theorem rounds_fits {call : Kind → Stack → Int → Int → Option (Stack × Int)} {k : Kind} {x : Int}
    (hcall : ∀ k s i x r, FitsCleared s → call k s i x = some r → FitsCleared r.1)
    {lowers : List Str} (hfit : ∀ t ∈ lowers, Fits t) {v w : StackVars} (hs : FitsCleared v.stack)
    (h : lowers.foldlM (stackRound call k x) v = some w) : FitsCleared w.stack := by
  induction lowers generalizing v with
  | nil => exact Option.some.inj h ▸ hs
  | cons t lowers ih =>
    obtain ⟨ht, hrest⟩ := List.forall_mem_cons.mp hfit
    rw [List.foldlM_cons, Option.bind_eq_bind, Option.bind_eq_some_iff] at h
    obtain ⟨u, hu, hw⟩ := h
    refine ih hrest ?_ hw
    rw [stackRound] at hu
    split at hu
    · exact Option.some.inj hu ▸ hs
    · cases hk : k.nextOf t with
      | none =>
        rw [hk] at hu
        exact Option.some.inj hu ▸ fitsCleared_put hs ht
      | some k' =>
        rw [hk] at hu
        obtain ⟨r, hr, rfl⟩ := Option.map_eq_some_iff.mp hu
        exact hcall _ _ _ _ r (fitsCleared_put hs ht) hr

theorem setStackNode_fits : ∀ {n : Nat} {k : Kind} {s : Stack} {i x : Int} {r : Stack × Int},
    FitsCleared s → setStackNode A n k s i x = some r → FitsCleared r.1
  | 0, _, _, _, _, _, _, h => absurd h.symm (Option.some_ne_none _)
  | n + 1, k, s, i, x, r, hs, h => by
    rw [setStackNode] at h
    split at h
    · exact Option.some.inj h ▸ hs
    · obtain ⟨w, hw, rfl⟩ := Option.map_eq_some_iff.mp h
      exact rounds_fits (fun _ _ _ _ _ => setStackNode_fits) (fits_lowers k x) hs hw

theorem ipRounds_fits {l : List Nat} {r r' : Stack × Int} (hr : FitsCleared r.1)
    (h : ipRounds A n r l = some r') : FitsCleared r'.1 := by
  induction l generalizing r with
  | nil => exact Option.some.inj h ▸ hr
  | cons i l ih =>
    rw [ipRounds, List.foldlM_cons, Option.bind_eq_bind, Option.bind_eq_some_iff] at h
    obtain ⟨u, hu, hw⟩ := h
    exact ih (setStackNode_fits hr hu) hw

theorem update_fits (h : Updates A s s') : FitsCleared s' := by
  obtain ⟨n, x, h⟩ := h
  obtain ⟨r, hr, hs⟩ := Option.map_eq_some_iff.mp h
  have hclear : FitsCleared s.clear := fun i hi p hp =>
    absurd ((if_pos hi).symm.trans hp).symm (Option.some_ne_none p)
  have hfits := ipRounds_fits hclear hr
  rw [← (Prod.mk.inj hs).1]
  exact hfits

/-! ## The stack and the chains -/

theorem fromIp_nonneg (h : FromIp A a) : 0 ≤ a.2 := by
  obtain ⟨i, -, h⟩ := h
  rcases ReflTransGen.cases_head h with rfl | ⟨b, hb, -⟩
  · exact Int.natCast_nonneg i
  · obtain ⟨t, -, ht⟩ := child_iff.mp hb
    obtain ⟨d, hd, -, ha⟩ := interfaceOf_spec ht
    have hpos := (atoi_of_isNumber hd).2
    omega

theorem good_of_fits (hwf : WellFormed A) (hfit : ∀ a, FromIp A a → ∀ t ∈ A.texts a, Fits t) :
    ∀ i < A.ipInterfaceNum, Good A (.ip, (i : Int)) := by
  intro i hi b hb
  have hfrom : FromIp A b := ⟨i, hi, ReflTransGen.mono (fun _ _ => child_of_prune) b _ hb⟩
  exact ⟨fromIp_nonneg hfrom, fun t ht => ⟨hwf b (fromIp_nonneg hfrom) t ht, hfit b hfrom t ht⟩⟩

theorem mem_links (hv : Visits A links) (ha : FromIp A a) {t : Str} (ht : t ∈ A.texts a) :
    (a.1.interface a.2, t) ∈ links := by
  obtain ⟨i, hi, ha⟩ := ha
  have hkid : ((a.1.interface a.2, t), interfaceOf t) ∈ A.kids a := List.mem_map.mpr ⟨t, ht, rfl⟩
  obtain ⟨n, hn⟩ := mem_visit ha hkid
  obtain ⟨k, hk⟩ := hv
  rw [← hk (max n k) (Nat.le_max_right n k)]
  exact List.mem_flatMap.mpr ⟨i, List.mem_range.mpr hi, hn _ (Nat.le_max_left n k)⟩

theorem kids_eq_nil : A.kids a = [] ↔ A.texts a = [] := List.map_eq_nil_iff

/-- All chains are followed exactly if as many pairs are. -/
theorem followed_length (hlen : ∃ n, ∀ m, n ≤ m →
    (followed A m (List.range A.ipInterfaceNum)).length = (A.links m).length) (ha : FromIp A a) :
    ∀ b, Child A.kids b a → looksFor a b = true ∨ A.texts b = [] := by
  obtain ⟨n, hn⟩ := hlen
  obtain ⟨i, hi, ha⟩ := ha
  have hsame : SameLength looksFor A.kids (.ip, (i : Int)) := ⟨n, fun m hm => by
    have hle : ∀ j : Nat, (visit (prune looksFor A.kids) m (.ip, (j : Int))).length ≤
        (visit A.kids m (.ip, (j : Int))).length := fun j => length_visit_prune_le m _
    exact length_eq_of_flatMap hle (hn m hm) i (List.mem_range.mpr hi)⟩
  exact fun b hb => (hsame.kept a ha b hb).imp_right kids_eq_nil.mp

theorem followed_eq (hkept : ∀ a, FromIp A a → ∀ b, Child A.kids b a →
    looksFor a b = true ∨ A.texts b = []) :
    followed A n (List.range A.ipInterfaceNum) = A.links n := by
  refine List.flatMap_congr fun i hi => visit_prune_of_kept fun b hb c hc => ?_
  exact (hkept b ⟨i, List.mem_range.mp hi, hb⟩ c hc).imp_right kids_eq_nil.mpr

theorem snprintf_num (h : links.length ≤ interfaceStackNum) :
    snprintf 20 (fmtNat links.length) = fmtNat links.length := by
  have hlen : (fmtNat links.length).length ≤ 10 :=
    (length_fmtNat_le (by decide)).mpr (Nat.lt_of_le_of_lt h (by decide))
  exact snprintf_eq (by omega)

theorem number_of_child {b : Kind × Int} (h : Child A.kids b a) : 0 ≤ a.2 ∧ a.2 < intMax := by
  obtain ⟨t, ht, -⟩ := child_iff.mp h
  obtain ⟨name, -, hattr⟩ := List.mem_filterMap.mp (List.mem_filter.mp ht).1
  have hne : A.attr a.1 (a.2 + 1) name ≠ none := hattr ▸ Option.some_ne_none t
  have hnumber := A.number _ _ _ hne
  omega

/-- Without a cycle the chains end. -/
theorem exists_visits (hac : Acyclic A) : ∃ links, Visits A links := by
  have hfin : ∀ a, {x | ReflTransGen (Child A.kids) x a ∧ ∃ b, Child A.kids b x}.Finite := fun a =>
    (finite_index intMax).subset fun x hx => number_of_child hx.2.choose_spec
  have hacc := (forall_acc_iff_no_cycle hfin).mpr hac
  have hall : ∀ l : List Nat, ∃ n, ∀ m, n ≤ m →
      l.flatMap (fun (i : Nat) => visit A.kids m (.ip, (i : Int))) =
        l.flatMap fun (i : Nat) => visit A.kids n (.ip, (i : Int)) := fun l => by
    induction l with
    | nil => exact ⟨0, fun _ _ => rfl⟩
    | cons i l ih =>
      obtain ⟨n, hn⟩ := ih
      obtain ⟨k, hk⟩ := visit_stable (hacc (.ip, (i : Int)))
      refine ⟨max n k, fun m hm => ?_⟩
      rw [List.flatMap_cons, List.flatMap_cons, hk m (by omega), hn m (by omega),
        hk (max n k) (by omega), hn (max n k) (by omega)]
  obtain ⟨n, hn⟩ := hall (List.range A.ipInterfaceNum)
  exact ⟨A.links n, n, hn⟩

theorem visits_unique (h : Visits A links) (h' : Visits A links') : links = links' := by
  obtain ⟨n, hn⟩ := h
  obtain ⟨k, hk⟩ := h'
  rw [← hn (max n k) (Nat.le_max_left n k), hk (max n k) (Nat.le_max_right n k)]

/-- The stack lists the chains exactly under the condition. -/
theorem lists_iff (hwf : WellFormed A) (hv : Visits A links)
    (hle : links.length ≤ interfaceStackNum) (h : Updates A s s') : s'.Lists links ↔
      (∀ i, interfaceStackNum ≤ i → s.slot i = none) ∧
      ∀ a, FromIp A a → (∀ text ∈ A.texts a, Fits text) ∧
        ∀ b, Child A.kids b a → looksFor a b = true ∨ A.texts b = [] := by
  obtain ⟨k, hk⟩ := hv
  constructor
  · rintro ⟨hslot, hnum⟩
    have hfit : ∀ a, FromIp A a → ∀ t ∈ A.texts a, Fits t := fun a ha t ht => by
      obtain ⟨i, hi⟩ := List.mem_iff_getElem?.mp (mem_links ⟨k, hk⟩ ha ht)
      obtain ⟨hlt, -⟩ := List.getElem?_eq_some_iff.mp hi
      exact update_fits h i (Nat.lt_of_lt_of_le hlt hle) _ ((hslot i).trans hi)
    obtain ⟨n, hn⟩ := update_put (good_of_fits hwf hfit) h
    have hlen : ∀ m, max n k ≤ m →
        (followed A m (List.range A.ipInterfaceNum)).length = (A.links m).length := fun m hm => by
      have hshort : (followed A m (List.range A.ipInterfaceNum)).length ≤ interfaceStackNum := by
        refine Nat.le_trans ?_ hle
        rw [← hk m (by omega)]
        exact length_flatMap_le fun i => length_visit_prune_le m _
      have hnum' := congrArg Stack.num (hn m (by omega))
      rw [hnum, snprintf_num hshort, fmtNat_inj] at hnum'
      rw [← hnum', hk m (by omega)]
    refine ⟨fun i hi => ?_, fun a ha => ⟨hfit a ha, followed_length ⟨_, hlen⟩ ha⟩⟩
    have hmax := hlen (max n k) le_rfl
    rw [hk _ (Nat.le_max_right n k)] at hmax
    have hi' := hslot i
    rw [hn (max n k) (Nat.le_max_left n k), List.getElem?_eq_none (by omega)] at hi'
    have hbehind : ¬ (0 ≤ i ∧ i < 0 +
        (followed A (max n k) (List.range A.ipInterfaceNum)).length) := by omega
    have hclear : ¬ i < interfaceStackNum := Nat.not_lt.mpr hi
    simp only [Stack.putAll, Stack.clear, if_neg hbehind, if_neg hclear] at hi'
    exact hi'
  · rintro ⟨hstale, hcond⟩
    obtain ⟨n, hn⟩ := update_put (good_of_fits hwf fun a ha => (hcond a ha).1) h
    have hput := hn (max n k) (Nat.le_max_left n k)
    rw [followed_eq fun a ha => (hcond a ha).2, hk _ (Nat.le_max_right n k)] at hput
    rw [hput]
    refine ⟨fun i => ?_, snprintf_num hle⟩
    simp only [Stack.putAll, Stack.clear, Nat.zero_add, Nat.zero_le, true_and, Nat.sub_zero]
    by_cases hi : i < links.length
    · rw [if_pos hi]
    · rw [if_neg hi, List.getElem?_eq_none (Nat.not_lt.mp hi)]
      split
      · rfl
      · next hclear => exact hstale i (Nat.not_lt.mp hclear)

end Run

/-- **The update ends and lists the chains exactly under that condition.** -/
theorem stack_right_iff (A : Interfaces) (s : Stack) : StackRight A s ↔ StackCond A s := by
  constructor
  · rintro ⟨hends, hlists⟩
    refine ⟨updates_iff.mp hends, fun hac hwf links hv hle => ?_⟩
    obtain ⟨s', hs'⟩ := hends
    obtain ⟨links', hv', hlists⟩ := hlists hac hwf
    obtain rfl := visits_unique hv hv'
    exact (lists_iff hwf hv hle hs').mp (hlists hle s' hs')
  · rintro ⟨hcycle, hlisted⟩
    refine ⟨updates_iff.mpr hcycle, fun hac hwf => ?_⟩
    obtain ⟨links, hv⟩ := exists_visits hac
    exact ⟨links, hv, fun hle s' hs' =>
      (lists_iff hwf hv hle hs').mpr (hlisted hac hwf links hv hle)⟩

/-- Interfaces with one lower layer each, for one IP interface. -/
def interfacesOf (l : List ((Kind × Int) × Str)) (h : ∀ p ∈ l, 1 ≤ p.1.2 ∧ p.1.2 < intMax) :
    Interfaces where
  attr k n name := if name = lowerLayersAttr then l.lookup (k, n) else none
  ipInterfaceNum := 1
  bridgePortNum := 2
  number k n name hne := by
    split at hne
    · obtain ⟨t, ht⟩ := Option.ne_none_iff_exists'.mp hne
      obtain ⟨l₁, l₂, rfl, -⟩ := List.lookup_eq_some_iff.mp ht
      exact h ((k, n), t) (List.mem_append_right _ List.mem_cons_self)
    · exact absurd rfl hne

/-- Bridge port 2 names itself as its lower layer. -/
def cyclicInterfaces : Interfaces :=
  interfacesOf [((.ip, 1), Kind.link.interface 0), ((.link, 1), Kind.bridgePort.interface 1),
    ((.bridgePort, 2), Kind.bridgePort.interface 1)] (by decide)

/-- One IP interface over a link without lower layers. -/
def linkInterfaces : Interfaces :=
  interfacesOf [((.ip, 1), Kind.link.interface 0)] (by decide)

/-- A stack in which an earlier run has left entry 101. -/
def longStack : Stack where
  slot i :=
    if i = interfaceStackNum then some (Kind.bridgePort.interface 0, etherInterface) else none
  num := "101".toList

theorem texts_link {a : Kind × Int} {t : Str} (ht : t ∈ linkInterfaces.texts a) :
    a = (.ip, 0) ∧ t = Kind.link.interface 0 := by
  obtain ⟨name, -, hattr⟩ := List.mem_filterMap.mp (List.mem_filter.mp ht).1
  simp only [linkInterfaces, interfacesOf] at hattr
  split at hattr
  · obtain ⟨l₁, l₂, hl, -⟩ := List.lookup_eq_some_iff.mp hattr
    have hmem : ((a.1, a.2 + 1), t) ∈ [((Kind.ip, (1 : Int)), Kind.link.interface 0)] :=
      hl ▸ List.mem_append_right _ List.mem_cons_self
    have heq := List.mem_singleton.mp hmem
    simp only [Prod.mk.injEq] at heq
    exact ⟨Prod.ext heq.1.1 (by change a.2 = 0; omega), heq.2⟩
  · exact absurd hattr.symm (Option.some_ne_none t)

theorem acyclic_link : Acyclic linkInterfaces := by
  have hchild : ∀ {a b}, Child linkInterfaces.kids b a → a = (.ip, 0) ∧ b = (.link, 0) :=
    fun h => by
      obtain ⟨t, ht, hb⟩ := child_iff.mp h
      obtain ⟨ha, rfl⟩ := texts_link ht
      exact ⟨ha, Option.some.inj (hb.symm.trans (by decide))⟩
  intro a h
  obtain ⟨b, -, hb⟩ := TransGen.tail'_iff.mp h
  obtain ⟨c, hc, -⟩ := TransGen.head'_iff.mp h
  have hne := (hchild hb).1.symm.trans (hchild hc).2
  exact absurd hne (by decide)

/-- A bridge port below itself: the update does not end. An entry behind the ones that are
cleared: it stays. -/
theorem stack_not_right :
    ¬ StackRight cyclicInterfaces ⟨fun _ => none, []⟩ ∧ ¬ StackRight linkInterfaces longStack := by
  constructor
  · intro h
    have hlink : StackCall cyclicInterfaces (.link, 0) (.ip, 0) := ⟨by decide, by decide⟩
    have hport : StackCall cyclicInterfaces (.bridgePort, 1) (.link, 0) := ⟨by decide, by decide⟩
    have hself : StackCall cyclicInterfaces (.bridgePort, 1) (.bridgePort, 1) :=
      ⟨by decide, by decide⟩
    exact updates_iff.mp h.1 _ ⟨0, by decide, .head hport (.single hlink)⟩ (.single hself)
  · intro h
    have hwf : WellFormed linkInterfaces := fun a _ t ht => by
      rw [(texts_link ht).2]
      decide
    have hvisits : Visits linkInterfaces [(Kind.ip.interface 0, Kind.link.interface 0)] := by
      refine ⟨2, fun m hm => ?_⟩
      obtain ⟨m, rfl⟩ := Nat.exists_eq_add_of_le' hm
      rfl
    obtain ⟨⟨s', hs'⟩, hlists⟩ := h
    obtain ⟨links, hv, hlists⟩ := hlists acyclic_link hwf
    obtain rfl := visits_unique hv hvisits
    have hstale := ((lists_iff hwf hv (by decide) hs').mp (hlists (by decide) s' hs')).1
    exact absurd (hstale interfaceStackNum le_rfl) (Option.some_ne_none _)

end OnuFirmware.Tr181
