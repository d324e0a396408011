import OnuFirmware.Clib.Str
import OnuFirmware.Lib.Group
import OnuFirmware.Lib.Split

/-!
# Form lines (`parse_param_line` in `http-get-utils.c`)

A line of items with `&` between them is cut in place. The last item has no `&` behind it and is
known by a flag, but an item without `=` is left before the flag is tested: the scan goes on behind
the end of the line.
-/

namespace OnuFirmware.Asp

open Clib Lib

/-! ## Variables -/

/-- `s_var`. -/
structure SVar where
  name : Str
  value : Str
deriving Repr, DecidableEq

/-- `get_param`. -/
def getParam (vars : Option (List SVar)) (name : Str) : Option Str :=
  match vars with
  | none => none
  | some vars => (vars.find? fun v => v.name = name).map (·.value)

/-! ## Parsing -/

/-- An item with a `=` goes to `result`. -/
def storeItem (result : List SVar) (item : Str) : List SVar :=
  let len := item.idxOf '='
  let value := item.drop (len + 1)
  match result.findIdx? fun v => v.name.take len = item.take len ∧ v.name.length = len with
  | none => result ++ [⟨item.take len, value⟩]
  | some k => result.modify k fun v => { v with value := v.value ++ '\n' :: value }

/-- The loop of `parse_param_line`. The NUL behind the line is the last byte that may be read. -/
def paramLoop (numargs : Nat) (result : List SVar) (cp : Str) : Except Fault (List SVar) :=
  if cp = [] then .ok result
  else
    let item := cp.takeWhile (· ≠ '&')
    let result' :=
      if '=' ∈ item ∧ result.length < numargs then storeItem result item else result
    if '&' ∈ cp then paramLoop numargs result' (cp.drop (item.length + 1))
    else if '=' ∈ item then .ok result'
    else .error .overrun
termination_by cp.length
decreasing_by
  have hpos : 0 < cp.length := List.length_pos_of_ne_nil ‹_›
  rw [List.length_drop]
  omega

/-- `*cp = ' '` for a `+`. -/
def plusToBlank (c : Char) : Char := if c = '+' then ' ' else c

/-- `parse_param_line`, where memory can be allocated. -/
def parseParamLine (line : Option Str) : Except Fault (Option (List SVar)) :=
  match line with
  | none => .ok none
  | some line =>
    let line := line.map plusToBlank
    let numargs := if line = [] then 0 else line.count '&' + 1
    (paramLoop numargs [] line).map some

/-! ## Statement -/

/-- The items of a line. -/
def items (line : Str) : List Str := (line.map plusToBlank).splitOn '&'

/-- Name and value of an item. -/
def pairOf (item : Str) : Option (Str × Str) :=
  if '=' ∈ item then some (item.take (item.idxOf '='), item.drop (item.idxOf '=' + 1)) else none

/-- The names and values of a line. -/
def pairs (line : Str) : List (Str × Str) := (items line).filterMap pairOf

/-- The names of a line in order of first occurrence. -/
def names (line : Str) : List Str := firstKeys (pairs line)

/-- The values of a name. -/
def joined (line name : Str) : Str := ['\n'].intercalate (valuesOf (pairs line) name)

/-- The line is parsed into one variable for each name, and `get_param` finds these. -/
def ParamRight (line : Str) : Prop :=
  ∃ vars, parseParamLine (some line) = .ok (some vars) ∧
    vars = (names line).map (fun n => ⟨n, joined line n⟩) ∧
    ∀ n, getParam (some vars) n = if n ∈ names line then some (joined line n) else none

/-- The last item is empty or has a `=`. -/
def LastRight (items : List Str) : Prop := ∀ item ∈ items.getLast?, item = [] ∨ '=' ∈ item

/-! ## One item -/

section Item

variable {item name : Str}

theorem sameName_iff (h : '=' ∈ item) :
    (name.take (item.idxOf '=') = item.take (item.idxOf '=') ∧ name.length = item.idxOf '=') ↔
      name = item.take (item.idxOf '=') := by
  have hlen : (item.take (item.idxOf '=')).length = item.idxOf '=' :=
    List.length_take_of_le (Nat.le_of_lt (List.idxOf_lt_length_of_mem h))
  constructor
  · rintro ⟨htake, hname⟩
    rwa [← hname, List.take_length, hname] at htake
  · intro hname
    rw [hname, List.take_of_length_le (Nat.le_of_eq hlen)]
    exact ⟨rfl, hlen⟩

/-- A name and its value as a variable. -/
def toVar (p : Str × Str) : SVar := ⟨p.1, p.2⟩

/-- How values with one name are joined. -/
def joinValue (a b : Str) : Str := a ++ '\n' :: b

theorem storeItem_eq (h : '=' ∈ item) (l : List (Str × Str)) :
    storeItem (l.map toVar) item = (putPair joinValue l
      (item.take (item.idxOf '='), item.drop (item.idxOf '=' + 1))).map toVar := by
  induction l with
  | nil => rfl
  | cons q l ih =>
    rw [storeItem] at ih ⊢
    simp only [List.map_cons, List.findIdx?_cons, putPair]
    by_cases hq : q.1 = item.take (item.idxOf '=')
    · have hsame : (toVar q).name.take (item.idxOf '=') = item.take (item.idxOf '=') ∧
          (toVar q).name.length = item.idxOf '=' := (sameName_iff h).mpr hq
      rw [if_pos hq, decide_eq_true hsame]
      rfl
    · have hsame : ¬ ((toVar q).name.take (item.idxOf '=') = item.take (item.idxOf '=') ∧
          (toVar q).name.length = item.idxOf '=') := fun hs => hq ((sameName_iff h).mp hs)
      rw [if_neg hq, decide_eq_false hsame, List.map_cons, ← ih]
      simp only [Bool.false_eq_true, if_false]
      cases hfind : (l.map toVar).findIdx? _ <;> rfl

theorem length_putPair_le (l : List (Str × Str)) (p : Str × Str) :
    (putPair joinValue l p).length ≤ l.length + 1 := by
  induction l with
  | nil => exact Nat.le_refl _
  | cons q l ih =>
    rw [putPair]
    split
    · exact Nat.le_succ _
    · exact Nat.succ_le_succ ih

/-- The pairs after an item. -/
def putItem (l : List (Str × Str)) (item : Str) : List (Str × Str) :=
  match pairOf item with
  | none => l
  | some p => putPair joinValue l p

theorem length_putItem_le (l : List (Str × Str)) (item : Str) :
    (putItem l item).length ≤ l.length + 1 := by
  rw [putItem]
  split
  · exact Nat.le_succ _
  · exact length_putPair_le _ _

/-- What the loop does with an item, as long as there is room. -/
theorem putItem_map {numargs : Nat} {l : List (Str × Str)} (hn : l.length < numargs) :
    (if '=' ∈ item ∧ (l.map toVar).length < numargs then storeItem (l.map toVar) item
      else l.map toVar) = (putItem l item).map toVar := by
  rw [List.length_map, putItem, pairOf]
  by_cases h : '=' ∈ item
  · rw [if_pos ⟨h, hn⟩, if_pos h, storeItem_eq h]
  · rw [if_neg fun hi => h hi.1, if_neg h]

end Item

/-! ## The loop -/

/-- **The loop goes through the items, and leaves the line if the last one has no `=`.** -/
theorem paramLoop_eq (numargs : Nat) (cp : Str) (l : List (Str × Str))
    (hn : cp ≠ [] → l.length + (cp.splitOn '&').length ≤ numargs) :
    (LastRight (cp.splitOn '&') → paramLoop numargs (l.map toVar) cp =
        .ok (((cp.splitOn '&').foldl putItem l).map toVar)) ∧
      (¬ LastRight (cp.splitOn '&') → paramLoop numargs (l.map toVar) cp = .error .overrun) := by
  induction hlen : cp.length using Nat.strongRecOn generalizing cp l with
  | ind n ih =>
    rw [paramLoop]
    by_cases hcp : cp = []
    · subst hcp
      simp [putItem, pairOf, LastRight]
    · have hroom := hn hcp
      rw [if_neg hcp]
      rcases splitOn_cases '&' cp with ⟨hamp, hsplit⟩ | ⟨item, next, rfl, hamp, hsplit⟩
      · have hall : ∀ c ∈ cp, decide (c ≠ '&') = true := fun c hc =>
          decide_eq_true fun he => hamp (he ▸ hc)
        rw [hsplit, List.length_singleton] at hroom
        have hitem := @putItem_map cp numargs l (by omega)
        have hlast : LastRight [cp] ↔ '=' ∈ cp := by simp [LastRight, hcp]
        simp only [takeWhile_all hall, hitem]
        rw [if_neg hamp, hsplit, hlast]
        exact ⟨fun h => if_pos h, fun h => if_neg h⟩
      · have hall : ∀ c ∈ item, decide (c ≠ '&') = true := fun c hc =>
          decide_eq_true fun he => hamp (he ▸ hc)
        have htake : (item ++ '&' :: next).takeWhile (· ≠ '&') = item :=
          takeWhile_run hall (by simp)
        have hdrop : (item ++ '&' :: next).drop (item.length + 1) = next := by
          rw [List.drop_append, List.drop_of_length_le (Nat.le_succ _)]
          simp
        have hne := List.splitOn_ne_nil '&' next
        have hlast : LastRight (item :: next.splitOn '&') ↔ LastRight (next.splitOn '&') := by
          obtain ⟨x, xs, hx⟩ := List.exists_cons_of_ne_nil hne
          rw [hx, LastRight, List.getLast?_cons_cons, LastRight]
        have hlen' := length_putItem_le l item
        rw [hsplit, List.length_cons] at hroom
        have hpos : 0 < (next.splitOn '&').length := List.length_pos_of_ne_nil hne
        have hih := ih next.length (by rw [← hlen]; simp; omega) next (putItem l item)
          (fun _ => by omega) rfl
        have hitem := @putItem_map item numargs l (by omega)
        simp only [htake, hitem, hdrop]
        rw [if_pos (by simp), hsplit, hlast, List.foldl_cons]
        exact hih

/-! ## The line -/

theorem length_splitOn (l : Str) : (l.splitOn '&').length = l.count '&' + 1 := by
  induction hn : l.length using Nat.strongRecOn generalizing l with
  | ind n ih =>
    rcases splitOn_cases '&' l with ⟨hamp, hsplit⟩ | ⟨a, b, rfl, hamp, hsplit⟩
    · rw [hsplit, List.count_eq_zero_of_not_mem hamp]
      rfl
    · rw [hsplit, List.length_cons, ih b.length (by rw [← hn]; simp; omega) b rfl,
        List.count_append, List.count_cons_self, List.count_eq_zero_of_not_mem hamp]
      omega

theorem foldl_putItem (l : List Str) (acc : List (Str × Str)) :
    l.foldl putItem acc = (l.filterMap pairOf).foldl (putPair joinValue) acc := by
  induction l generalizing acc with
  | nil => rfl
  | cons item l ih =>
    rw [List.foldl_cons, ih, putItem, List.filterMap_cons]
    cases pairOf item <;> rfl

theorem intercalate_concat {vs : List Str} (h : vs ≠ []) (v : Str) :
    ['\n'].intercalate (vs ++ [v]) = joinValue (['\n'].intercalate vs) v := by
  induction vs with
  | nil => exact absurd rfl h
  | cons u vs ih =>
    cases vs with
    | nil => simp [joinValue]
    | cons w vs =>
      have hne : w :: vs ++ [v] ≠ [] := by simp
      rw [List.cons_append, List.intercalate_cons_of_ne_nil hne, ih (List.cons_ne_nil w vs),
        List.intercalate_cons_cons]
      simp [joinValue]

/-- The variables of a line. -/
def lineVars (line : Str) : List SVar := (names line).map fun n => ⟨n, joined line n⟩

/-- **The result for a line.** -/
theorem parseParamLine_eq (line : Str) :
    (LastRight (items line) → parseParamLine (some line) = .ok (some (lineVars line))) ∧
      (¬ LastRight (items line) → parseParamLine (some line) = .error .overrun) := by
  have hgroup : (pairs line).foldl (putPair joinValue) [] =
      (firstKeys (pairs line)).map fun n => (n, joined line n) := by
    refine foldl_putPair (fun v => ?_) (fun vs v hvs => ?_) _
    · exact List.intercalate_singleton
    · exact intercalate_concat hvs v
  have hvars : ((pairs line).foldl (putPair joinValue) []).map toVar = lineVars line := by
    rw [hgroup, List.map_map]
    rfl
  have hroom : line.map plusToBlank ≠ [] → ([] : List (Str × Str)).length +
      ((line.map plusToBlank).splitOn '&').length ≤
        if line.map plusToBlank = [] then 0 else (line.map plusToBlank).count '&' + 1 := by
    intro hne
    refine Nat.le_of_eq ?_
    rw [if_neg hne, length_splitOn, List.length_nil, Nat.zero_add]
  obtain ⟨hok, herr⟩ := paramLoop_eq _ (line.map plusToBlank) [] hroom
  rw [foldl_putItem] at hok
  simp only [parseParamLine]
  constructor
  · intro hlast
    have hrun := hok hlast
    rw [List.map_nil] at hrun
    rw [hrun, ← hvars]
    rfl
  · intro hlast
    have hrun := herr hlast
    rw [List.map_nil] at hrun
    rw [hrun]
    rfl

theorem getParam_map {l : List Str} (value : Str → Str) (n : Str) :
    getParam (some (l.map fun n => ⟨n, value n⟩)) n = if n ∈ l then some (value n) else none := by
  induction l with
  | nil => rfl
  | cons k l ih =>
    rw [getParam] at ih ⊢
    simp only [List.map_cons, List.find?_cons, List.mem_cons]
    by_cases hk : k = n
    · rw [decide_eq_true hk, if_pos (.inl hk.symm), hk]
      rfl
    · rw [decide_eq_false hk, ih]
      simp only [Ne.symm hk, false_or]

/-- **A line is parsed right exactly if its last item is empty or has a `=`.** -/
theorem paramRight_iff (line : Str) : ParamRight line ↔ LastRight (items line) := by
  obtain ⟨hok, herr⟩ := parseParamLine_eq line
  constructor
  · rintro ⟨vars, hvars, -⟩
    by_contra hlast
    rw [herr hlast] at hvars
    exact absurd hvars (by simp)
  · intro hlast
    exact ⟨_, hok hlast, rfl, getParam_map _⟩

/-- The scan goes on behind a line that is an item without `=`. -/
theorem param_wrong : ¬ ParamRight ['a'] := by
  rintro ⟨vars, hvars, -⟩
  have hover : parseParamLine (some ['a']) = .error .overrun := by
    have hmap : ['a'].map plusToBlank = ['a'] := by decide
    simp only [parseParamLine, hmap]
    rw [paramLoop]
    decide
  rw [hover] at hvars
  exact absurd hvars (by simp)

end OnuFirmware.Asp
