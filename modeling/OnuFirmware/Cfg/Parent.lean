import OnuFirmware.Cfg.Address

/-!
# The path of the parent object

`cfg_get_parent_path` works on the characters of a path: it cuts at the last separator, or at the
one before it when a digit follows the last. On the text of a token list this takes off the last
token, with the name before it when the token is an instance number
(`cfgGetParentPath_name`, `cfgGetParentPath_number`). For an accepted path that ends in a proper
component the parent path then names the chain without its last link (`pathChain_parent`).
-/

namespace OnuFirmware.Cfg

open Lib Clib

/-! ## Scanning for separators -/

theorem scanDot_append {a b r : Str} (ha : a ≠ []) (hb : '.' ∉ b) : ∀ j, j ≤ b.length →
    scanDot (a ++ '.' :: (b ++ r)) (a.length + j) = a.length
  | 0, _ => by
    obtain ⟨n, hn⟩ : ∃ n, a.length = n + 1 :=
      ⟨a.length - 1, by have := List.length_pos_of_ne_nil ha; omega⟩
    rw [Nat.add_zero, hn, scanDot, if_pos]
    rw [← hn, List.getElem?_append_right (Nat.le_refl _)]
    simp
  | j + 1, hj => by
    have hchar : (a ++ '.' :: (b ++ r))[a.length + j + 1]? ≠ some '.' := by
      rw [List.getElem?_append_right (by omega),
        show a.length + j + 1 - a.length = j + 1 by omega, List.getElem?_cons_succ,
        List.getElem?_append_left (by omega)]
      exact fun h => hb (List.mem_of_getElem? h)
    rw [← Nat.add_assoc, scanDot, if_neg hchar]
    exact scanDot_append ha hb j (by omega)

/-- The last separator of a path is the one in front of its last component. -/
theorem scanDot_last {a b : Str} (ha : a ≠ []) (hb : '.' ∉ b) :
    scanDot (a ++ '.' :: b) (a ++ '.' :: b).length = a.length := by
  have hlen : (a ++ '.' :: b).length = a.length + b.length + 1 := by simp [Nat.add_assoc]
  have h := scanDot_append (r := []) ha hb b.length (Nat.le_refl _)
  rw [List.append_nil] at h
  rw [hlen, scanDot, if_neg, h]
  rw [List.getElem?_eq_none (by omega)]
  simp

theorem scanDot_no_dot {s r : Str} (h : '.' ∉ s) : ∀ len, len < s.length →
    scanDot (s ++ r) len = 0
  | 0, _ => rfl
  | len + 1, hl => by
    rw [scanDot, if_neg, scanDot_no_dot h len (by omega)]
    rw [List.getElem?_append_left hl]
    exact fun hc => h (List.mem_of_getElem? hc)

/-! ## Parents of token lists -/

/-- What stands behind the last separator of a path. -/
def lastHead (path : Str) : Option Char := path[scanDot path path.length + 1]?

theorem lastHead_append {a b : Str} (ha : a ≠ []) (hb : '.' ∉ b) :
    lastHead (a ++ '.' :: b) = b.head? := by
  rw [lastHead, scanDot_last ha hb, List.getElem?_append_right (by omega),
    Nat.add_sub_cancel_left, List.getElem?_cons_succ, List.head?_eq_getElem?]

theorem joinDots_concat {ts : List Str} (x : Str) (hts : ts ≠ []) :
    joinDots (ts ++ [x]) = joinDots ts ++ '.' :: x :=
  joinDots_append hts (by simp)

/-- The last component is a name: it is cut off. -/
theorem cfgGetParentPath_name {ts : List Str} {x : Str} (hts : ts ≠ [])
    (htok : ∀ t ∈ ts ++ [x], IsToken t) (hx : x.head?.any isDigit = false)
    (hlen : (joinDots (ts ++ [x])).length < cfgMaxPathName) :
    cfgGetParentPath (joinDots (ts ++ [x])) = .ok (some (joinDots ts)) := by
  have hdot : '.' ∉ x := (htok x (by simp)).no_dot
  have hne : joinDots ts ≠ [] :=
    joinDots_ne_nil hts fun t ht => htok t (List.mem_append_left _ ht)
  have hpos := List.length_pos_of_ne_nil hne
  have hhead := lastHead_append (b := x) hne hdot
  rw [lastHead, scanDot_last hne hdot] at hhead
  rw [joinDots_concat x hts] at hlen ⊢
  rw [cfgGetParentPath, if_neg (by omega), scanDot_last hne hdot]
  simp only [hhead, hx]
  rw [if_neg (by omega), if_neg (by simp), List.take_left]

/-- The last component is a number: it is cut off with the name before it. -/
theorem cfgGetParentPath_number {ts : List Str} {nm x : Str} (hts : ts ≠ [])
    (htok : ∀ t ∈ ts ++ [nm, x], IsToken t) (hx : x.head?.any isDigit = true)
    (hlen : (joinDots (ts ++ [nm, x])).length < cfgMaxPathName) :
    cfgGetParentPath (joinDots (ts ++ [nm, x])) = .ok (some (joinDots ts)) := by
  have hdot : '.' ∉ x := (htok x (by simp)).no_dot
  have hdotn : '.' ∉ nm := (htok nm (by simp)).no_dot
  have hne : joinDots ts ≠ [] :=
    joinDots_ne_nil hts fun t ht => htok t (List.mem_append_left _ ht)
  have hpos := List.length_pos_of_ne_nil hne
  have hpre : joinDots ts ++ '.' :: nm ≠ [] := by simp
  have hhead := lastHead_append (b := x) hpre hdot
  rw [lastHead, scanDot_last hpre hdot] at hhead
  have hjoin : joinDots (ts ++ [nm, x]) = (joinDots ts ++ '.' :: nm) ++ '.' :: x := by
    rw [show ts ++ [nm, x] = (ts ++ [nm]) ++ [x] by simp, joinDots_concat x (by simp),
      joinDots_concat nm hts]
  rw [hjoin] at hlen ⊢
  rw [cfgGetParentPath, if_neg (by omega), scanDot_last hpre hdot]
  simp only [hhead, hx]
  have hlen1 : (joinDots ts ++ '.' :: nm).length = (joinDots ts).length + nm.length + 1 := by
    simp [Nat.add_assoc]
  have hscan : scanDot ((joinDots ts ++ '.' :: nm) ++ '.' :: x)
      ((joinDots ts ++ '.' :: nm).length - 1) = (joinDots ts).length := by
    rw [hlen1, Nat.add_sub_cancel, List.append_assoc, List.cons_append]
    exact scanDot_append hne hdotn nm.length (Nat.le_refl _)
  rw [if_neg (by omega), if_pos trivial, hscan, if_neg (by omega), List.append_assoc,
    List.take_left]

theorem cfgGetParentPath_single {x parent : Str} (hx : '.' ∉ x) :
    cfgGetParentPath x ≠ .ok (some parent) := by
  have hscan : scanDot x x.length = 0 := by
    cases x with
    | nil => rfl
    | cons c x =>
      have h := scanDot_no_dot (r := []) hx x.length (by simp)
      rw [List.append_nil] at h
      rw [List.length_cons, scanDot, if_neg, h]
      rw [List.getElem?_eq_none (by simp)]
      simp
  rw [cfgGetParentPath]
  split
  · simp
  · simp [hscan]

theorem cfgGetParentPath_single_number {nm x parent : Str} (hn : nm ≠ []) (hnm : '.' ∉ nm)
    (hdot : '.' ∉ x) (hx : x.head?.any isDigit = true) :
    cfgGetParentPath (nm ++ '.' :: x) ≠ .ok (some parent) := by
  have hhead := lastHead_append (b := x) hn hdot
  rw [lastHead, scanDot_last hn hdot] at hhead
  have hpos := List.length_pos_of_ne_nil hn
  have hscan := scanDot_no_dot (r := '.' :: x) hnm (nm.length - 1) (by omega)
  rw [cfgGetParentPath]
  split
  · simp
  · simp only [scanDot_last hn hdot, hhead, hx, hscan]
    rw [if_neg (by omega), if_pos trivial, if_pos trivial]
    simp

/-! ## Chains of parents -/

theorem nextNum_append {us : List Str} (hu : ∀ u ∈ us.head?, tokenDigit u = 0) :
    ∀ ts : List Str, nextNum (ts ++ us) = ((nextNum ts).1, (nextNum ts).2 ++ us)
  | [] => by
    cases us with
    | nil => rfl
    | cons u us => simp [nextNum, hu u rfl]
  | d :: ts => by
    by_cases hd : tokenDigit d = 0
    · simp [nextNum, hd]
    · simp [nextNum, hd]

/-- Token lists can be read in two parts, if the second one starts with a name. -/
theorem parseChain_append {us : List Str} (hu : ∀ u ∈ us.head?, tokenDigit u = 0) :
    ∀ ts : List Str, parseChain (ts ++ us)
      = (parseChain ts).bind fun g => (parseChain us).map (g ++ ·)
  | [] => by cases h : parseChain us <;> simp [parseChain, h]
  | x :: ts => by
    by_cases hx : tokenDigit x = 0
    swap
    · rw [List.cons_append, parseChain_cons_digit hx, parseChain_cons_digit hx]
      rfl
    have hlen := length_nextNum_le ts
    rw [List.cons_append, parseChain_cons hx, parseChain_cons hx, nextNum_append hu,
      parseChain_append hu (nextNum ts).2]
    cases parseChain (nextNum ts).2 <;> cases parseChain us <;> simp
termination_by ts => ts.length
decreasing_by simp only [List.length_cons]; omega

/-- Two numbers in a row are refused. -/
theorem parseChain_two_numbers {d e : Str} (us : List Str) (hd : tokenDigit d ≠ 0)
    (he : tokenDigit e ≠ 0) : ∀ ts : List Str, parseChain (ts ++ d :: e :: us) = none
  | [] => parseChain_cons_digit hd _
  | [x] => by
    by_cases hx : tokenDigit x = 0
    · simp [parseChain, hx, hd, parseChain_cons_digit he]
    · exact parseChain_cons_digit hx _
  | x :: y :: ts => by
    by_cases hx : tokenDigit x = 0
    · by_cases hy : tokenDigit y = 0
      · have := parseChain_two_numbers us hd he (y :: ts)
        simpa [parseChain, hx, hy] using this
      · have := parseChain_two_numbers us hd he ts
        simp [parseChain, hx, hy, this]
    · exact parseChain_cons_digit hx _

/-- The last link of a chain hangs below the type at the end of the links before it. -/
theorem resolveChain_concat (tt : TypeTree) (nm : Str) (n : Nat) : ∀ (g : List (Str × Nat))
    (node : Option CfgTypePtr), resolveChain tt node (g ++ [(nm, n)])
      = (resolveChain tt node g).bind fun ch =>
          (cfgTypeQueryChild tt (lastNode node ch) nm).map fun s => ch ++ [(s, n)]
  | [], node => by
    cases h : cfgTypeQueryChild tt node nm <;> simp [resolveChain, lastNode, h]
  | (x, m) :: g, node => by
    rw [List.cons_append, resolveChain, resolveChain]
    cases cfgTypeQueryChild tt node x with
    | none => rfl
    | some t =>
      simp only [resolveChain_concat tt nm n g (some t)]
      cases resolveChain tt (some t) g with
      | none => rfl
      | some ch =>
        simp only [Option.map_some, Option.bind_some, lastNode]
        cases cfgTypeQueryChild tt (lastNode (some t) ch) nm <;> rfl

/-- The first link of a path is the root type. -/
theorem resolveChain_root {tt : TypeTree} {g : List (Str × Nat)} {t : CfgTypePtr} {n : Nat}
    {ch : List (CfgTypePtr × Nat)} (h : resolveChain tt none g = some ((t, n) :: ch)) :
    t.1.id = cfgTypeBaseVal := by
  cases g with
  | nil => simp [resolveChain] at h
  | cons l g =>
    rw [resolveChain] at h
    split at h
    · exact absurd h (by simp)
    · next s hs =>
      obtain ⟨ch', -, hcons⟩ := Option.map_eq_some_iff.mp h
      obtain ⟨hst, -⟩ := List.cons.inj hcons
      obtain ⟨rfl, -⟩ := Prod.mk.inj hst
      simp only [cfgTypeQueryChild] at hs
      split at hs
      · obtain rfl := Option.some.inj hs
        rfl
      · exact absurd hs (by simp)

theorem pathChain_joinDots {tt : TypeTree} {ts : List Str} (h : ∀ t ∈ ts, IsToken t) :
    pathChain tt (joinDots ts) = (parseChain ts).bind (resolveChain tt none) := by
  rw [pathChain, tokensOf, pathTokens_joinDots _ _ h (Nat.lt_succ_self _), if_pos rfl]

/-- A token is a number exactly when it starts with a digit other than zero. -/
theorem tokenDigit_ne_zero {c : Char} {s : Str} :
    tokenDigit (c :: s) ≠ 0 ↔ '1' ≤ c ∧ c ≤ '9' := by
  rw [tokenDigit]
  split
  · next h =>
    have hd : isDigit c = true := isDigit_iff.mpr ⟨Char.le_trans (by decide) h.1, h.2⟩
    have hval : 1 ≤ digitsVal 0 (c :: s) := by
      have hge := digitsVal_ge s (c.toNat - '0'.toNat)
      have hc : '1'.toNat ≤ c.toNat := h.1
      rw [digitsVal, if_pos hd, Nat.mul_zero, Nat.zero_add]
      simp only [Char.reduceToNat] at *
      omega
    simp only [h, and_self, iff_true]
    rw [atoi_of_isDigit hd, Int.toNat_natCast]
    simp only [intMax]
    omega
  · next h => simp [h]

theorem isDigit_of_number {c : Char} {s : Str} (h : tokenDigit (c :: s) ≠ 0) :
    isDigit c = true := by
  obtain ⟨h1, h9⟩ := tokenDigit_ne_zero.mp h
  exact isDigit_iff.mpr ⟨Char.le_trans (by decide) h1, h9⟩

theorem not_isDigit_of_name {c : Char} {s : Str} (h : tokenDigit (c :: s) = 0) (hc : c ≠ '0') :
    isDigit c = false := by
  rw [Bool.eq_false_iff]
  intro hd
  obtain ⟨h0, h9⟩ := isDigit_iff.mp hd
  refine tokenDigit_ne_zero.mpr ⟨?_, h9⟩ h
  have h0' : '0'.toNat ≤ c.toNat := h0
  have hne0 : c.toNat ≠ '0'.toNat := fun h => hc (Char.toNat_inj.mp h)
  show '1'.toNat ≤ c.toNat
  simp only [Char.reduceToNat] at *
  omega

theorem length_lt_of_parent {path parent : Str} (h : cfgGetParentPath path = .ok (some parent)) :
    path.length < cfgMaxPathName := by
  rw [cfgGetParentPath] at h
  split at h
  · simp at h
  · omega

/-- The parent path of a token list is the text of the tokens before its last link. -/
theorem parent_tokens {ts : List Str} {g : List (Str × Nat)} {parent : Str}
    (htok : ∀ t ∈ ts, IsToken t) (hg : parseChain ts = some g)
    (hpar : cfgGetParentPath (joinDots ts) = .ok (some parent))
    (hhead : (lastHead (joinDots ts)).any (· != '0') = true) :
    ∃ us nm n, us ≠ [] ∧ (∀ t ∈ us, IsToken t) ∧ parent = joinDots us ∧
      (parseChain us).map (· ++ [(nm, n)]) = some g := by
  have hlen := length_lt_of_parent hpar
  obtain rfl | ⟨init, x, rfl⟩ := List.eq_nil_or_concat' ts
  · exact absurd hpar (cfgGetParentPath_single (by simp [joinDots]))
  have hx := htok x (by simp)
  by_cases hinit : init = []
  · subst hinit
    exact absurd hpar (cfgGetParentPath_single hx.no_dot)
  have hpre : ∀ t ∈ init, IsToken t := fun t ht => htok t (List.mem_append_left _ ht)
  obtain ⟨c, xs, rfl⟩ := List.exists_cons_of_ne_nil hx.ne_nil
  rw [joinDots_concat _ hinit, lastHead_append (joinDots_ne_nil hinit hpre) hx.no_dot] at hhead
  have hc : c ≠ '0' := by simpa using hhead
  by_cases hnum : tokenDigit (c :: xs) = 0
  · -- the last component is a name
    rw [cfgGetParentPath_name hinit htok (by simpa using not_isDigit_of_name hnum hc) hlen] at hpar
    rw [parseChain_append (by simpa using hnum)] at hg
    refine ⟨init, c :: xs, 1, hinit, hpre, ?_, ?_⟩
    · exact (Option.some.inj (Except.ok.inj hpar)).symm
    · simpa [parseChain, hnum, Option.bind_eq_some_iff] using hg
  · -- it is a number, and a name stands before it
    have hd : isDigit c = true := isDigit_of_number hnum
    obtain rfl | ⟨us, nm, rfl⟩ := List.eq_nil_or_concat' init
    · exact absurd rfl hinit
    have hnm := hpre nm (by simp)
    have hus : us ≠ [] := by
      rintro rfl
      exact cfgGetParentPath_single_number hnm.ne_nil hnm.no_dot hx.no_dot (by simpa using hd) hpar
    rw [List.append_assoc] at hg htok hpar hlen
    by_cases hnmd : tokenDigit nm = 0
    swap
    · simp [parseChain_two_numbers _ hnmd hnum us] at hg
    have hp := cfgGetParentPath_number hus htok (by simpa using hd) hlen
    rw [parseChain_append (by simpa using hnmd)] at hg
    refine ⟨us, nm, tokenDigit (c :: xs), hus, fun t ht => hpre t (List.mem_append_left _ ht),
      ?_, ?_⟩
    · exact Option.some.inj (Except.ok.inj (hpar.symm.trans hp))
    · simpa [parseChain, hnmd, hnum, Option.bind_eq_some_iff] using hg

/-- A path that is read to its end and does not end in a separator is the text of its tokens. -/
theorem eq_joinDots_of_lastHead {path : Str} (hres : (tokensOf path).2 = .ok [])
    (hhead : (lastHead path).any (· != '0') = true) : path = joinDots (tokensOf path).1 := by
  rcases joinDots_pathTokens _ (s := path) (Nat.lt_succ_self _) hres with h | ⟨hne, h⟩
  · exact h
  · rw [h, lastHead_append (joinDots_ne_nil hne fun t => isToken_of_mem_pathTokens) (by simp)]
      at hhead
    simp at hhead

theorem parseChain_ne_nil {us : List Str} (hus : us ≠ []) : parseChain us ≠ some [] := by
  obtain ⟨u, us, rfl⟩ := List.exists_cons_of_ne_nil hus
  by_cases hu : tokenDigit u = 0
  · rw [parseChain_cons hu]
    simp
  · rw [parseChain_cons_digit hu]
    simp

/-- **The parent path of an accepted path that ends in a proper component names the chain without
its last link, and the type of the last link is a subtype of the type before it.** -/
theorem pathChain_parent {tt : TypeTree} {path parent : Str} {ch : List (CfgTypePtr × Nat)}
    (hch : pathChain tt path = some ch) (hpar : cfgGetParentPath path = .ok (some parent))
    (hhead : (lastHead path).any (· != '0') = true) :
    ∃ ch' t n l, ch = ch' ++ [(t, n), l] ∧ pathChain tt parent = some (ch' ++ [(t, n)]) ∧
      t ∈ tt.types.entries ∧ l.1 ∈ tt.types.entries ∧ l.1.1 ∈ t.2.sibs := by
  obtain ⟨hres, g, hg, hresolve, -, hmem⟩ := pathChain_some hch
  rw [eq_joinDots_of_lastHead hres hhead] at hpar hhead
  obtain ⟨us, nm, n, hus, htok, rfl, hgu⟩ :=
    parent_tokens (fun t => isToken_of_mem_pathTokens) hg hpar hhead
  obtain ⟨g', hg', rfl⟩ := Option.map_eq_some_iff.mp hgu
  rw [resolveChain_concat] at hresolve
  obtain ⟨chp, hchp, hq⟩ := Option.bind_eq_some_iff.mp hresolve
  obtain ⟨s, hs, rfl⟩ := Option.map_eq_some_iff.mp hq
  have hpc : pathChain tt (joinDots us) = some chp := by
    rw [pathChain_joinDots htok, hg']
    exact hchp
  obtain rfl | ⟨ch', ⟨t, m⟩, rfl⟩ := List.eq_nil_or_concat' chp
  · have hl := resolveChain_length hchp
    rw [List.length_nil] at hl
    rw [List.eq_nil_of_length_eq_zero hl.symm] at hg'
    exact absurd hg' (parseChain_ne_nil hus)
  · rw [lastNode_concat] at hs
    refine ⟨ch', t, m, (s, n), by simp, hpc, hmem (t, m) (by simp), hmem (s, n) (by simp), ?_⟩
    exact (Lcrs.findSib_some hs).2.1

end OnuFirmware.Cfg
