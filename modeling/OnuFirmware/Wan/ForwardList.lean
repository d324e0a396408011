import OnuFirmware.Cfg.ReadAttr
import OnuFirmware.Lib.Split
import OnuFirmware.Wan.ForwardRule

/-!
# The forward list of a WAN (`full_route.c`)

The list of addresses and ranges that are routed through a WAN is longer than an attribute, so it is
cut into `IPForwardList0`, `IPForwardList1` and so on. `update_IPForwardList` reads them one after
the other and gives each item to `ipv4_rule_exec` or `ipv6_rule_exec`. The last item of a piece is
carried over to the next one unless that one starts with a comma.

The commands that empty the chains of the WAN come first; they are left out.
-/

namespace OnuFirmware.Wan

open Lib Clib Cfg

/-- What the functions depend on: the processor and `TCSUPPORT_IPV6_ADVANCE`. -/
structure ForwardBuild where
  bigEndian : Bool
  ipv6Advance : Bool

/-- A call of `ipv4_rule_exec` or `ipv6_rule_exec` with its argument. -/
inductive RuleCall
  | ipv4 (item : Str)
  | ipv6 (item : Str)
deriving Repr, DecidableEq

/-- What one item of `set_forward_rule` does to `ret`, and the calls. -/
def forwardItem (b : ForwardBuild) (ifIndex : Nat) (ret : Int) (item : Str) :
    Except Fault (Int × List RuleCall) :=
  if hasStr item ".".toList then
    (ipv4RuleExec b.bigEndian ifIndex item).map fun r => (r.1, [.ipv4 item])
  else if hasStr item ":".toList && b.ipv6Advance then
    (ipv6RuleExec ifIndex item).map fun r => (r.1, [.ipv6 item])
  else .ok (ret, [])

/-- The loop of `set_forward_rule` over what `strsep` gives: the calls and the returned pointer. The
return value of a rule only matters for the pointer, which the last round sets again. -/
def forwardItems (b : ForwardBuild) (ifIndex : Nat) (flag : Char) :
    Int → List Str → Except Fault (List RuleCall × Option Str)
  | _, [] => .ok ([], none)
  | ret, [item] =>
    if flag ≠ ',' then .ok ([], some item)
    else (forwardItem b ifIndex ret item).map fun r => (r.2, none)
  | ret, item :: rest => do
    let r ← forwardItem b ifIndex ret item
    let t ← forwardItems b ifIndex flag r.1 rest
    pure (r.2 ++ t.1, t.2)

/-- `set_forward_rule`. -/
def setForwardRule (b : ForwardBuild) (ifIndex : Nat) (ipStr : Str) (flag : Char) :
    Except Fault (List RuleCall × Option Str) :=
  forwardItems b ifIndex flag 0 (ipStr.splitOn ',')

/-- The name of a piece. -/
def forwardAttr (i : Nat) : Str := "IPForwardList".toList ++ fmtNat i

/-- `ipforwardTemp` after reading a piece. -/
def forwardTemp (attr : Option Str) : Str :=
  let got := cfgGetObjectAttr attr [] 1104
  if got.1 < 0 ∨ got.2 = [] then [','] else got.2

/-- The item that is carried over goes through `value_buf` to the start of `ipforwardVal`, and the
piece behind it. -/
def storePiece (part : Option Str) (temp : Str) : Except Fault Str :=
  if 80 < (part.getD []).length ∨ 1104 ≤ (part.getD []).length + temp.length then .error .overrun
  else .ok (part.getD [] ++ temp)

/-- The loop over the pieces: the calls, and `ipforwardVal` afterwards. -/
def forwardPieces (b : ForwardBuild) (ifIndex : Nat) (attr : Str → Option Str) :
    List Nat → Str → Except Fault (List RuleCall × Str)
  | [], val => .ok ([], val)
  | i :: is, val => do
    let temp := forwardTemp (attr (forwardAttr i))
    let r ← setForwardRule b ifIndex val (temp.headD ',')
    let val ← storePiece r.2 temp
    if temp.length < 1023 then pure (r.1, val)
    else do
      let t ← forwardPieces b ifIndex attr is val
      pure (r.1 ++ t.1, t.2)

/-- The calls of `update_IPForwardList` for the WAN with the attributes `attr`. -/
def updateIPForwardList (b : ForwardBuild) (ifIndex : Nat) (attr : Str → Option Str) :
    Except Fault (List RuleCall) :=
  let got := cfgGetObjectAttr (attr (forwardAttr 0)) [] 1104
  if got.1 < 0 ∨ got.2 = [] then .ok []
  else do
    let r ← if got.2.length < 1023 then pure ([], got.2)
      else forwardPieces b ifIndex attr (List.range' 1 80) got.2
    let last ← setForwardRule b ifIndex r.2 ','
    pure (r.1 ++ last.1)

/-! ## The list as it was configured -/

/-- The `i`th piece of a text. -/
def piece (text : Str) (i : Nat) : Str := (text.drop (1023 * i)).take 1023

/-- A list of items and the attributes it is cut into: all pieces but the last one have 1023
characters, and an empty last piece may be an absent attribute. -/
structure CutList where
  items : List Str
  plain : ∀ item ∈ items, ',' ∉ item ∧ item.length ≤ 79
  attr : Str → Option Str
  cut : ∀ i ≤ ([','].intercalate items).length / 1023,
    attr (forwardAttr i) = some (piece ([','].intercalate items) i) ∨
      piece ([','].intercalate items) i = [] ∧ attr (forwardAttr i) = none
  count : ([','].intercalate items).length / 1023 < 81

/-- The call for an item. -/
def itemCalls (b : ForwardBuild) (item : Str) : List RuleCall :=
  if '.' ∈ item then [.ipv4 item]
  else if ':' ∈ item ∧ b.ipv6Advance then [.ipv6 item]
  else []

/-! ## Items -/

theorem ruleExec_short {n : Nat} (f : RuleFamily n) (ifIndex : Nat) {item : Str}
    (h : item.length < 80) : ∃ r, ruleExec f ifIndex item = .ok r := by
  rw [ruleExec]
  split
  · split
    · exact ⟨_, rfl⟩
    · cases f.pton item with
      | none => exact ⟨_, rfl⟩
      | some x => exact ⟨_, rfl⟩
  · next hminus =>
    have hscan : ∃ ends, scanRange item = .ok ends := by
      have hstart := (List.takeWhile_sublist (l := item) (· != '-')).length_le
      have hstop := ((List.takeWhile_sublist (l := (item.drop
        ((item.takeWhile (· != '-')).length + 1)).dropWhile isSpace) (!isSpace ·)).trans
        ((List.dropWhile_sublist isSpace).trans (List.drop_sublist _ item))).length_le
      rw [scanRange]
      split
      · exact ⟨_, rfl⟩
      · rw [if_neg (by omega)]
        exact ⟨_, rfl⟩
    obtain ⟨ends, hends⟩ := hscan
    rw [hends]
    dsimp only
    cases f.pton ends.1 with
    | none => exact ⟨_, rfl⟩
    | some s =>
      dsimp only
      cases f.pton ends.2 with
      | none => exact ⟨_, rfl⟩
      | some e =>
        dsimp only
        split <;> exact ⟨_, rfl⟩

theorem hasStr_singleton {s : Str} {c : Char} : hasStr s [c] = true ↔ c ∈ s :=
  hasStr_iff.trans (List.singleton_infix_iff c s)

theorem forwardItem_eq (b : ForwardBuild) (ifIndex : Nat) (ret : Int) {item : Str}
    (h : item.length ≤ 79) :
    ∃ ret', forwardItem b ifIndex ret item = .ok (ret', itemCalls b item) := by
  have hdot : hasStr item ".".toList = true ↔ '.' ∈ item := hasStr_singleton
  have hcolon : hasStr item ":".toList = true ↔ ':' ∈ item := hasStr_singleton
  obtain ⟨r4, h4⟩ := ruleExec_short (ipv4Family b.bigEndian) ifIndex (by omega : item.length < 80)
  obtain ⟨r6, h6⟩ := ruleExec_short ipv6Family ifIndex (by omega : item.length < 80)
  have hadv : (hasStr item ":".toList && b.ipv6Advance) = true ↔
      ':' ∈ item ∧ b.ipv6Advance = true := by
    rw [Bool.and_eq_true, hcolon]
  rw [forwardItem, itemCalls, ipv4RuleExec, ipv6RuleExec, h4, h6]
  by_cases h1 : '.' ∈ item
  · rw [if_pos (hdot.mpr h1), if_pos h1]
    exact ⟨_, rfl⟩
  · rw [if_neg (mt hdot.mp h1), if_neg h1]
    by_cases h2 : ':' ∈ item ∧ b.ipv6Advance = true
    · rw [if_pos (hadv.mpr h2), if_pos h2]
      exact ⟨_, rfl⟩
    · rw [if_neg (mt hadv.mp h2), if_neg h2]
      exact ⟨_, rfl⟩

/-- The last item before the end of the text waits for the next piece, unless that one starts with a
comma. -/
theorem forwardItems_eq (b : ForwardBuild) (ifIndex : Nat) (flag : Char) : ∀ (ret : Int)
    {items : List Str} (hne : items ≠ []), (∀ item ∈ items, item.length ≤ 79) →
    forwardItems b ifIndex flag ret items =
      if flag = ',' then .ok (items.flatMap (itemCalls b), none)
      else .ok (items.dropLast.flatMap (itemCalls b), some (items.getLast hne))
  | _, [], hne, _ => absurd rfl hne
  | ret, [item], _, h => by
    obtain ⟨ret', hitem⟩ := forwardItem_eq b ifIndex ret (h item (by simp))
    rw [forwardItems, hitem]
    by_cases hflag : flag = ','
    · rw [if_neg (not_not.mpr hflag), if_pos hflag, List.flatMap_singleton]
      rfl
    · rw [if_pos hflag, if_neg hflag]
      rfl
  | ret, item :: item' :: rest, _, h => by
    obtain ⟨ret', hitem⟩ := forwardItem_eq b ifIndex ret (h item (by simp))
    have ih := forwardItems_eq b ifIndex flag ret' (List.cons_ne_nil item' rest)
      fun i hi => h i (List.mem_cons_of_mem item hi)
    rw [forwardItems, hitem]
    · show (forwardItems b ifIndex flag ret' (item' :: rest)).bind _ = _
      rw [ih]
      split <;> rfl
    · simp

theorem setForwardRule_eq (b : ForwardBuild) (ifIndex : Nat) {ipStr : Str} (flag : Char)
    (h : ∀ item ∈ ipStr.splitOn ',', item.length ≤ 79) :
    setForwardRule b ifIndex ipStr flag =
      if flag = ',' then .ok ((ipStr.splitOn ',').flatMap (itemCalls b), none)
      else .ok ((ipStr.splitOn ',').dropLast.flatMap (itemCalls b),
        some ((ipStr.splitOn ',').getLast (List.splitOn_ne_nil ',' ipStr))) :=
  forwardItems_eq b ifIndex flag 0 _ h

/-! ## Pieces -/

@[simp] theorem itemCalls_nil (b : ForwardBuild) : itemCalls b [] = [] := by
  simp [itemCalls]

theorem piece_zero (text : Str) : piece text 0 = text.take 1023 := by
  rw [piece, Nat.mul_zero, List.drop_zero]

theorem piece_drop (text : Str) (i : Nat) : piece (text.drop 1023) i = piece text (i + 1) := by
  rw [piece, piece, List.drop_drop, Nat.mul_add, Nat.mul_one, Nat.add_comm]

theorem length_piece_le (text : Str) (i : Nat) : (piece text i).length ≤ 1023 := by
  rw [piece, List.length_take]
  omega

/-- What is read of a piece that may be absent if it is empty. -/
theorem forwardTemp_piece {attr : Option Str} {t : Str} (ht : t.length ≤ 1023)
    (h : attr = some t ∨ t = [] ∧ attr = none) :
    forwardTemp attr = if t = [] then [','] else t := by
  rcases h with rfl | ⟨rfl, rfl⟩
  · rw [forwardTemp, cfgGetObjectAttr_some, snprintf_eq (by omega)]
    by_cases hnil : t = []
    · simp [hnil]
    · simp [hnil]
  · simp [forwardTemp]

theorem storePiece_eq {part : Option Str} {temp : Str} (hpart : (part.getD []).length ≤ 79)
    (htemp : temp.length ≤ 1023) : storePiece part temp = .ok (part.getD [] ++ temp) :=
  if_neg (by omega)

/-- **One piece: the calls for it are those for the items that end in it, and the rest is carried
over.** -/
theorem setForwardRule_step (b : ForwardBuild) (ifIndex : Nat) (val : Str) {c : Char} {rest : Str}
    (hshort : ∀ item ∈ (val ++ c :: rest).splitOn ',', item.length ≤ 79) :
    ∃ calls part, setForwardRule b ifIndex val c = .ok (calls, part) ∧
      (part.getD []).length ≤ 79 ∧
      calls ++ ((part.getD [] ++ c :: rest).splitOn ',').flatMap (itemCalls b) =
        ((val ++ c :: rest).splitOn ',').flatMap (itemCalls b) ∧
      ∀ item ∈ (part.getD [] ++ c :: rest).splitOn ',', item.length ≤ 79 := by
  by_cases hc : c = ','
  · -- the piece behind starts with a comma, so the last item ends here
    subst hc
    have hsplit : (val ++ ',' :: rest).splitOn ',' = val.splitOn ',' ++ rest.splitOn ',' :=
      List.splitOn_append_cons_self val rest
    have hrest : (',' :: rest).splitOn ',' = [] :: rest.splitOn ',' :=
      List.splitOn_append_cons_self_of_not_mem List.not_mem_nil rest
    rw [hsplit] at hshort
    refine ⟨(val.splitOn ',').flatMap (itemCalls b), none, ?_, by simp, ?_, ?_⟩
    · rw [setForwardRule_eq b ifIndex ',' fun item hi => hshort item (List.mem_append_left _ hi),
        if_pos rfl]
    · simp only [Option.getD_none, List.nil_append]
      rw [hrest, hsplit, List.flatMap_append, List.flatMap_cons, itemCalls_nil, List.nil_append]
    · simp only [Option.getD_none, List.nil_append]
      rw [hrest]
      intro item hi
      rcases List.mem_cons.mp hi with rfl | hi
      · simp
      · exact hshort item (List.mem_append_right _ hi)
  · have hne := List.splitOn_ne_nil ',' val
    have hsplit := splitOn_append (x := ',') val (c :: rest)
    have hlast : ',' ∉ (val.splitOn ',').getLast hne :=
      notMem_of_mem_splitOn (List.getLast_mem hne)
    -- the last field goes on in the rest, so it is not longer than an item
    have hhead := splitOn_append_of_notMem hlast (c :: rest)
    obtain ⟨f, fs, hf⟩ := List.exists_cons_of_ne_nil (List.splitOn_ne_nil ',' (c :: rest))
    rw [hf, List.modifyHead_cons] at hhead
    have hcarry : ((val.splitOn ',').getLast hne).length ≤ 79 := by
      have hitem := hshort ((val.splitOn ',').getLast hne ++ f) (by
        rw [hsplit, hhead]
        simp)
      rw [List.length_append] at hitem
      omega
    have hfields : ∀ item ∈ val.splitOn ',', item.length ≤ 79 := by
      intro item hi
      rw [← List.dropLast_append_getLast hne, List.mem_append, List.mem_singleton] at hi
      rcases hi with hi | rfl
      · exact hshort item (by rw [hsplit]; exact List.mem_append_left _ hi)
      · exact hcarry
    refine ⟨(val.splitOn ',').dropLast.flatMap (itemCalls b),
      some ((val.splitOn ',').getLast hne), ?_, hcarry, ?_, ?_⟩
    · rw [setForwardRule_eq b ifIndex c hfields, if_neg hc]
    · rw [hsplit, List.flatMap_append]
      rfl
    · intro item hi
      exact hshort item (by rw [hsplit]; exact List.mem_append_right _ hi)

/-- **All pieces: the calls that were made and those for what is left are the calls for the items of
the whole text.** -/
theorem forwardPieces_spec (b : ForwardBuild) (ifIndex : Nat) (attr : Str → Option Str) :
    ∀ (n i : Nat) (val rest : Str),
    (∀ k ≤ rest.length / 1023, attr (forwardAttr (i + k)) = some (piece rest k) ∨
      piece rest k = [] ∧ attr (forwardAttr (i + k)) = none) →
    rest.length / 1023 < n → (∀ item ∈ (val ++ rest).splitOn ',', item.length ≤ 79) →
    ∃ calls val', forwardPieces b ifIndex attr (List.range' i n) val = .ok (calls, val') ∧
      calls ++ (val'.splitOn ',').flatMap (itemCalls b) =
        ((val ++ rest).splitOn ',').flatMap (itemCalls b) ∧
      ∀ item ∈ val'.splitOn ',', item.length ≤ 79
  | 0, i, val, rest, _, hcount, _ => absurd hcount (Nat.not_lt_zero _)
  | n + 1, i, val, [], hcut, _, hshort => by
    have htemp := forwardTemp_piece (length_piece_le [] 0) (hcut 0 (Nat.zero_le _))
    rw [piece_zero, List.take_nil, if_pos rfl, Nat.add_zero] at htemp
    rw [List.append_nil] at hshort
    refine ⟨(val.splitOn ',').flatMap (itemCalls b), [','], ?_, ?_, ?_⟩
    · rw [List.range'_succ, forwardPieces, htemp]
      show (setForwardRule b ifIndex val ',').bind _ = _
      rw [setForwardRule_eq b ifIndex ',' hshort, if_pos rfl]
      rfl
    · have hcomma : [','].splitOn ',' = [[], []] := by decide
      rw [hcomma, List.append_nil, List.flatMap_cons, List.flatMap_singleton, itemCalls_nil]
      simp
    · have hcomma : [','].splitOn ',' = [[], []] := by decide
      rw [hcomma]
      simp
  | n + 1, i, val, c :: rest, hcut, hcount, hshort => by
    have htemp := forwardTemp_piece (length_piece_le (c :: rest) 0) (hcut 0 (Nat.zero_le _))
    rw [piece_zero, if_neg (by simp), Nat.add_zero] at htemp
    obtain ⟨calls, part, hset, hpart, hcalls, hleft⟩ := setForwardRule_step b ifIndex val hshort
    have hlen : ((c :: rest).take 1023).length = min 1023 (c :: rest).length := List.length_take
    have hstore := storePiece_eq hpart (by omega : ((c :: rest).take 1023).length ≤ 1023)
    rw [List.range'_succ, forwardPieces, htemp]
    show ∃ calls val', (setForwardRule b ifIndex val c).bind _ = _ ∧ _
    rw [hset]
    show ∃ calls val', (storePiece part _).bind _ = _ ∧ _
    rw [hstore]
    by_cases hend : (c :: rest).length < 1023
    · -- the last piece
      have hall : (c :: rest).take 1023 = c :: rest := List.take_of_length_le (by omega)
      refine ⟨calls, part.getD [] ++ c :: rest, ?_, hcalls, hleft⟩
      show (if _ then _ else _) = _
      rw [if_pos (by omega), hall]
      rfl
    · have hparts : part.getD [] ++ (c :: rest).take 1023 ++ (c :: rest).drop 1023 =
          part.getD [] ++ c :: rest := by
        rw [List.append_assoc, List.take_append_drop]
      have hdrop : ((c :: rest).drop 1023).length = (c :: rest).length - 1023 := List.length_drop
      obtain ⟨calls', val', hrun, hcalls', hval'⟩ := forwardPieces_spec b ifIndex attr n (i + 1)
        (part.getD [] ++ (c :: rest).take 1023) ((c :: rest).drop 1023)
        (fun k hk => by
          have := hcut (k + 1) (by omega)
          rwa [← piece_drop, show i + (k + 1) = i + 1 + k by omega] at this)
        (by omega) (by rwa [hparts])
      refine ⟨calls ++ calls', val', ?_, ?_, hval'⟩
      · show (if _ then _ else _) = _
        rw [if_neg (by omega)]
        show (forwardPieces b ifIndex attr (List.range' (i + 1) n) _).bind _ = _
        rw [hrun]
        rfl
      · rw [List.append_assoc, hcalls', hparts, hcalls]

/-! ## The whole list -/

/-- The fields of the text are the items. -/
theorem CutList.splitOn (l : CutList) (hne : l.items ≠ []) :
    ([','].intercalate l.items).splitOn ',' = l.items :=
  List.splitOn_intercalate ',' (fun item hi => (l.plain item hi).1) hne

/-- **Each item of the list is given to its function once, as a whole and in order, nothing else is,
and no array is overrun.** -/
theorem updateIPForwardList_calls (b : ForwardBuild) (ifIndex : Nat) (l : CutList) :
    updateIPForwardList b ifIndex l.attr = .ok (l.items.flatMap (itemCalls b)) := by
  by_cases hitems : l.items = []
  · have htemp := l.cut 0 (Nat.zero_le _)
    rw [hitems, List.intercalate_nil] at htemp
    rw [updateIPForwardList, hitems]
    rcases htemp with h | ⟨-, h⟩ <;> simp [h, piece, snprintf]
  have hsplit := l.splitOn hitems
  have hcut := l.cut
  have hcount := l.count
  have hplain := l.plain
  rw [← hsplit] at hplain ⊢
  generalize [','].intercalate l.items = text at *
  have hshort : ∀ item ∈ text.splitOn ',', item.length ≤ 79 := fun item hi => (hplain item hi).2
  have hfirst := hcut 0 (Nat.zero_le _)
  rw [piece_zero] at hfirst
  have hlen : (text.take 1023).length = min 1023 text.length := List.length_take
  rw [updateIPForwardList]
  rcases hfirst with hsome | ⟨hnil, hnone⟩
  · rw [hsome, cfgGetObjectAttr_some, snprintf_eq (by omega)]
    by_cases hempty : text.take 1023 = []
    · have htext : text = [] := by
        rw [hempty, List.length_nil] at hlen
        exact List.length_eq_zero_iff.mp (by omega)
      rw [if_pos (.inr hempty), htext]
      simp
    · rw [if_neg (by simpa using hempty)]
      by_cases hend : text.length < 1023
      · have hall : text.take 1023 = text := List.take_of_length_le (by omega)
        rw [if_pos (by show (text.take 1023).length < 1023; omega), hall]
        show (setForwardRule b ifIndex text ',').bind _ = _
        rw [setForwardRule_eq b ifIndex ',' hshort, if_pos rfl]
        rfl
      · obtain ⟨calls, val', hrun, hcalls, hval'⟩ := forwardPieces_spec b ifIndex l.attr 80 1
          (text.take 1023) (text.drop 1023)
          (fun k hk => by
            rw [List.length_drop] at hk
            have := hcut (k + 1) (by omega)
            rwa [← piece_drop, Nat.add_comm k 1] at this)
          (by rw [List.length_drop]; omega) (by rwa [List.take_append_drop])
        rw [if_neg (by show ¬ (text.take 1023).length < 1023; omega)]
        show (forwardPieces b ifIndex l.attr (List.range' 1 80) (text.take 1023)).bind _ = _
        rw [hrun]
        show (setForwardRule b ifIndex val' ',').bind _ = _
        rw [setForwardRule_eq b ifIndex ',' hval', if_pos rfl]
        show Except.ok (calls ++ (val'.splitOn ',').flatMap (itemCalls b)) = _
        rw [hcalls, List.take_append_drop]
  · have htext : text = [] := by
      rw [hnil, List.length_nil] at hlen
      exact List.length_eq_zero_iff.mp (by omega)
    rw [hnone, htext]
    simp

/-! ## A list of two pieces -/

/-- An item of the list. -/
def rangeItem : Str := "10.0.0.1-10.0.0.9".toList

/-- A hundred items. -/
@[irreducible] def rangeItems : List Str := List.replicate 100 rangeItem

/-- Their text. -/
def rangeText : Str := [','].intercalate rangeItems

/-- It has two pieces. -/
theorem pieces_rangeText : rangeText.length / 1023 = 1 := by decide +kernel

/-- The attributes of the two pieces. -/
def rangeAttr (name : Str) : Option Str :=
  if name = forwardAttr 0 then some (piece rangeText 0)
  else if name = forwardAttr 1 then some (piece rangeText 1)
  else none

theorem rangeAttr_piece {i : Nat} (hi : i ≤ 1) :
    rangeAttr (forwardAttr i) = some (piece rangeText i) := by
  have hcases : i = 0 ∨ i = 1 := by omega
  rcases hcases with rfl | rfl
  · exact if_pos rfl
  · have hne : forwardAttr 1 ≠ forwardAttr 0 := by decide
    exact (if_neg hne).trans (if_pos rfl)

/-- A hundred ranges in two pieces; the 57th range is cut between them. -/
def rangeList : CutList where
  items := rangeItems
  plain := by decide +kernel
  attr := rangeAttr
  cut _ hi := .inl (rangeAttr_piece (hi.trans_eq pieces_rangeText))
  count := pieces_rangeText.trans_lt (by decide)

/-- The range that is cut reaches its function as a whole, like the others. -/
theorem updateIPForwardList_calls_rangeList :
    (piece rangeText 0).drop 1008 = "10.0.0.1-10.0.0".toList ∧
      updateIPForwardList ⟨false, false⟩ 3 rangeList.attr =
        .ok (List.replicate 100 (.ipv4 rangeItem)) := by
  refine ⟨by decide +kernel, (updateIPForwardList_calls _ 3 rangeList).trans ?_⟩
  have hcalls : rangeItems.flatMap (itemCalls ⟨false, false⟩) =
      List.replicate 100 (.ipv4 rangeItem) := by
    decide +kernel
  exact congrArg Except.ok hcalls

end OnuFirmware.Wan
