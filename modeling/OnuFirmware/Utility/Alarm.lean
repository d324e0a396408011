import OnuFirmware.Clib.Buf
import OnuFirmware.Clib.Num
import OnuFirmware.Lib.OrderedSet

/-!
# The list of alarms (`AddAlarmNumber` and `DelAlarmNumber` in `utility.c`)

The numbers of the alarms that are on are kept in the attribute `AlarmNumber` as a text, with commas
between them. A number is looked for with `strstr`, added at the end, and cut out by moving what
stands behind it over it; it is taken to be the last one if the byte behind the one that follows it
is NUL. Build with `TCSUPPORT_CT_JOYME4` or `TCSUPPORT_CMCCV2`.

The text is an ordered set (`alarmStep_refines`).
-/

namespace OnuFirmware.Utility

open Clib Lib

/-! ## The functions -/

/-- `DeviceAlarmList`. -/
def deviceAlarmList : List Str :=
  ["104001".toList, "104006".toList, "104012".toList, "104013".toList, "104030".toList,
    "104032".toList, "104036".toList, "104050".toList, "104051".toList, "104052".toList,
    "104053".toList, "104064".toList, "104057".toList, "104058".toList, "104104".toList,
    "104105".toList, "104106".toList, "104142".toList, "104143".toList]

/-- The attributes of `root.devicealarm.common`. -/
structure AlarmNode where
  enable : Str
  alarmNumber : Str
deriving Repr, DecidableEq

/-- The place that `strstr` finds. -/
def strstr (keyword : Str) : Str → Option Nat
  | [] => if keyword = [] then some 0 else none
  | c :: s =>
    if keyword.isPrefixOf (c :: s) then some 0 else (strstr keyword s).map (· + 1)

/-- `strcpy(buf + dst, buf + src)`. The two texts overlap, and C does not define what happens then;
the bytes are taken to be copied one after the other, from the front. -/
def strcpyAt (buf : Str) (dst src : Nat) : Except Fault Str := do
  let s ← cstr (buf.drop src)
  if buf.length < dst + s.length + 1 then .error .overrun
  else .ok (buf.take dst ++ s ++ '\x00' :: buf.drop (dst + s.length + 1))

/-- `cfg_get_object_attr` into a buffer. -/
def getAttr (val : Str) (size : Nat) : Str := val.take (size - 1)

/-- The test of `Enable` at the beginning of both functions. -/
def alarmOff (node : AlarmNode) : Bool :=
  let active := getAttr node.enable 16
  active == [] || active != "Yes".toList

/-- `AddAlarmNumber`. -/
def addAlarmNumber (node : AlarmNode) (num : Str) : Except Fault AlarmNode :=
  if alarmOff node then .ok { node with alarmNumber := [] }
  else
    match deviceAlarmList.find? (· == num) with
    | none => .ok node
    | some pNode =>
      let alarmNumber := getAttr node.alarmNumber 256
      if alarmNumber = [] then .ok { node with alarmNumber := pNode }
      else
        match strstr pNode alarmNumber with
        | some _ => .ok node
        | none =>
          if 256 ≤ (alarmNumber ++ ',' :: pNode).length then .error .overrun
          else .ok { node with alarmNumber := alarmNumber ++ ',' :: pNode }

/-- The text without the number at `p`. -/
def cutAlarm (alarmNumber : Str) (p : Nat) : Except Fault Str :=
  let buf := alarmNumber ++ zeros (256 - alarmNumber.length)
  let q := p + 7
  match buf[q]? with
  | none => .error .overrun
  | some c => do
    if c = '\x00' then
      if alarmNumber = alarmNumber.drop p then cstr (← store buf 0 '\x00')
      else cstr (← strcpyAt buf (p - 1) q)
    else cstr (← strcpyAt buf p q)

/-- `DelAlarmNumber`. -/
def delAlarmNumber (node : AlarmNode) (num : Str) : Except Fault AlarmNode :=
  if alarmOff node then .ok { node with alarmNumber := [] }
  else
    match deviceAlarmList.find? (· == num) with
    | none => .ok node
    | some pNode =>
      let alarmNumber := getAttr node.alarmNumber 256
      if alarmNumber = [] then .ok node
      else
        match strstr pNode alarmNumber with
        | none => .ok node
        | some p => do
          let text ← cutAlarm alarmNumber p
          .ok { node with alarmNumber := text }

/-- A call of one of the two functions. -/
def alarmStep (node : AlarmNode) : SetOp Str → Except Fault AlarmNode
  | .add num => addAlarmNumber node num
  | .del num => delAlarmNumber node num

/-- A run of calls, from the empty text. -/
def alarmRun (ops : List (SetOp Str)) : Except Fault AlarmNode :=
  ops.foldlM alarmStep { enable := "Yes".toList, alarmNumber := [] }

/-! ## Numbers with commas between them -/

/-- The text of a list of numbers. -/
def alarmText (l : List Str) : Str := [','].intercalate l

/-- A text that can be a number of the list. -/
def AlarmItem (x : Str) : Prop := x.length = 6 ∧ ',' ∉ x ∧ '\x00' ∉ x

theorem alarmItem_of_mem {x : Str} (h : x ∈ deviceAlarmList) : AlarmItem x := by
  have hall : ∀ y ∈ deviceAlarmList, y.length = 6 ∧ ',' ∉ y ∧ '\x00' ∉ y := by decide
  exact hall x h

theorem AlarmItem.ne_nil {x : Str} (h : AlarmItem x) : x ≠ [] := by
  rintro rfl
  exact absurd h.1 (by decide)

/-- Numbers with a comma behind each. -/
def headText (l : List Str) : Str := l.flatMap (· ++ [','])

theorem alarmText_cons (x : Str) {l : List Str} (h : l ≠ []) :
    alarmText (x :: l) = x ++ ',' :: alarmText l := by
  rw [alarmText, List.intercalate_cons_of_ne_nil h, List.append_assoc]
  rfl

theorem headText_cons (x : Str) (l : List Str) : headText (x :: l) = x ++ ',' :: headText l := by
  rw [headText, List.flatMap_cons, List.append_assoc]
  rfl

/-- The numbers in front of others end in commas. -/
theorem alarmText_append (l₁ : List Str) {l₂ : List Str} (h : l₂ ≠ []) :
    alarmText (l₁ ++ l₂) = headText l₁ ++ alarmText l₂ := by
  induction l₁ with
  | nil => rfl
  | cons x l₁ ih =>
    rw [List.cons_append, alarmText_cons x (by simp [h]), headText_cons, ih, List.append_assoc]
    rfl

theorem alarmText_singleton (x : Str) : alarmText [x] = x := List.intercalate_singleton

theorem headText_eq {l : List Str} (h : l ≠ []) : headText l = alarmText l ++ [','] := by
  rcases List.eq_nil_or_concat' l with rfl | ⟨init, x, rfl⟩
  · exact absurd rfl h
  · rw [alarmText_append init (by simp), alarmText_singleton, headText, headText]
    simp

theorem length_headText {l : List Str} (h : ∀ x ∈ l, AlarmItem x) :
    (headText l).length = 7 * l.length := by
  induction l with
  | nil => rfl
  | cons x l ih =>
    have hx := (h x List.mem_cons_self).1
    have htl := ih fun y hy => h y (List.mem_cons_of_mem x hy)
    rw [headText_cons, List.length_append, List.length_cons, htl, hx, List.length_cons]
    omega

theorem notMem_headText {l : List Str} (h : ∀ x ∈ l, AlarmItem x) : '\x00' ∉ headText l := by
  rw [headText, List.mem_flatMap]
  rintro ⟨x, hx, hm⟩
  rcases List.mem_append.mp hm with hm | hm
  · exact (h x hx).2.2 hm
  · exact absurd hm (by decide)

theorem notMem_alarmText {l : List Str} (h : ∀ x ∈ l, AlarmItem x) : '\x00' ∉ alarmText l := by
  by_cases hl : l = []
  · rw [hl]
    exact List.not_mem_nil
  · have hhead := notMem_headText h
    rw [headText_eq hl] at hhead
    exact fun hm => hhead (List.mem_append_left _ hm)

theorem alarmText_ne_nil {l : List Str} (h : ∀ x ∈ l, AlarmItem x) (hl : l ≠ []) :
    alarmText l ≠ [] := by
  intro hnil
  have hlen := length_headText h
  rw [headText_eq hl, hnil] at hlen
  simp at hlen
  omega

theorem length_alarmText_le {l : List Str} (h : ∀ x ∈ l, AlarmItem x) :
    (alarmText l).length ≤ 7 * l.length := by
  by_cases hl : l = []
  · rw [hl]
    exact Nat.le_refl 0
  · have hlen := length_headText h
    rw [headText_eq hl, List.length_append] at hlen
    omega

/-! ## Searching -/

theorem strstr_of_prefix {keyword s : Str} (hne : keyword ≠ []) (h : keyword <+: s) :
    strstr keyword s = some 0 := by
  cases s with
  | nil => exact absurd (List.prefix_nil.mp h) hne
  | cons c s => rw [strstr, if_pos (List.isPrefixOf_iff_prefix.mpr h)]

/-- A text in which no occurrence begins is skipped. -/
theorem strstr_skip {keyword s : Str} : ∀ {a : Str},
    (∀ b c, a = b ++ c → c ≠ [] → ¬ keyword <+: c ++ s) →
    strstr keyword (a ++ s) = (strstr keyword s).map (· + a.length)
  | [], _ => by simp
  | c :: a, h => by
    have hno : ¬ keyword.isPrefixOf (c :: (a ++ s)) = true := fun hp =>
      h [] (c :: a) rfl (by simp) (List.isPrefixOf_iff_prefix.mp hp)
    rw [List.cons_append, strstr, if_neg hno,
      strstr_skip fun b d hd => h (c :: b) d (by rw [hd]; rfl), Option.map_map, List.length_cons]
    rfl

/-- A number does not begin within another one or at the comma behind it. -/
theorem not_prefix_of_ne {x y b c s : Str} (hx : AlarmItem x) (hy : AlarmItem y) (hne : x ≠ y)
    (h : y ++ [','] = b ++ c) (hc : c ≠ []) : ¬ x <+: c ++ s := by
  intro hp
  have htake : x = (c ++ s).take 6 := by
    rw [← hx.1]
    exact List.prefix_iff_eq_take.mp hp
  cases b with
  | nil =>
    obtain rfl : y ++ [','] = c := h
    rw [List.append_assoc, ← hy.1, List.take_left] at htake
    exact hne htake
  | cons d b =>
    have hlen := congrArg List.length h
    simp only [List.length_append, List.length_cons, hy.1] at hlen
    obtain ⟨c', z, rfl⟩ := (List.eq_nil_or_concat' c).resolve_left hc
    have hz : z = ',' := by
      rw [← List.append_assoc] at h
      exact (List.cons.inj (List.append_inj' h rfl).2).1.symm
    rw [List.take_append, List.take_of_length_le (by simp at hlen ⊢; omega)] at htake
    exact hx.2.1 (by rw [htake, hz]; simp)

theorem strstr_headText {x : Str} (hx : AlarmItem x) {l : List Str} (h : ∀ y ∈ l, AlarmItem y)
    (hnot : x ∉ l) (s : Str) :
    strstr x (headText l ++ s) = (strstr x s).map (· + 7 * l.length) := by
  induction l with
  | nil => simp [headText]
  | cons y l ih =>
    have hy := h y List.mem_cons_self
    have hne : x ≠ y := fun he => hnot (he ▸ List.mem_cons_self)
    have ih := ih (fun z hz => h z (List.mem_cons_of_mem y hz))
      fun hz => hnot (List.mem_cons_of_mem y hz)
    have hsplit : headText (y :: l) ++ s = (y ++ [',']) ++ (headText l ++ s) := by
      rw [headText_cons]
      simp
    rw [hsplit, strstr_skip fun b c hbc hc => not_prefix_of_ne hx hy hne hbc hc, ih, Option.map_map,
      List.length_append, hy.1, List.length_cons]
    congr 1

/-- **A number that is not in the list is not found.** -/
theorem strstr_eq_none {x : Str} (hx : AlarmItem x) {l : List Str} (h : ∀ y ∈ l, AlarmItem y)
    (hnot : x ∉ l) : strstr x (alarmText l) = none := by
  have hnil : strstr x [] = none := by rw [strstr, if_neg hx.ne_nil]
  rcases List.eq_nil_or_concat' l with rfl | ⟨init, y, rfl⟩
  · exact hnil
  · have hy := h y (by simp)
    have hne : x ≠ y := fun he => hnot (by simp [he])
    have hlast : strstr x (y ++ []) = none := by
      rw [strstr_skip, hnil, Option.map_none]
      intro b c hbc _ hp
      refine not_prefix_of_ne hx hy hne (b := b) (c := c ++ [',']) (s := []) (by simp [hbc])
        (by simp) ?_
      simpa using hp.trans (List.prefix_append (c ++ []) [','])
    rw [List.append_nil] at hlast
    rw [alarmText_append init (by simp), alarmText_singleton,
      strstr_headText hx (fun z hz => h z (List.mem_append_left _ hz))
        (fun hz => hnot (List.mem_append_left _ hz)), hlast, Option.map_none]

/-- **A number of the list is found at its place.** -/
theorem strstr_eq_some {x : Str} (hx : AlarmItem x) {l₁ : List Str} (h : ∀ y ∈ l₁, AlarmItem y)
    (hnot : x ∉ l₁) (l₂ : List Str) :
    strstr x (alarmText (l₁ ++ x :: l₂)) = some (7 * l₁.length) := by
  have hpre : x <+: alarmText (x :: l₂) := by
    by_cases hl : l₂ = []
    · rw [hl, alarmText_singleton]
    · rw [alarmText_cons x hl]
      exact List.prefix_append x _
  rw [alarmText_append l₁ (by simp), strstr_headText hx h hnot, strstr_of_prefix hx.ne_nil hpre,
    Option.map_some, Nat.zero_add]

/-! ## Cutting -/

/-- What stands behind `m` is moved over it. -/
theorem strcpyAt_splice {a m s : Str} (hs : '\x00' ∉ s) (r : Str) :
    ∃ rest, strcpyAt (a ++ (m ++ (s ++ '\x00' :: r))) a.length (a.length + m.length) =
      .ok (a ++ s ++ '\x00' :: rest) := by
  have hdrop : (a ++ (m ++ (s ++ '\x00' :: r))).drop (a.length + m.length) = s ++ '\x00' :: r := by
    rw [← List.drop_drop, List.drop_left, List.drop_left]
  have hroom : ¬ (a ++ (m ++ (s ++ '\x00' :: r))).length < a.length + s.length + 1 := by
    simp
    omega
  rw [strcpyAt, hdrop, cstr_append hs]
  simp only [bind, Except.bind, if_neg hroom, List.take_left]
  exact ⟨_, rfl⟩

/-- The last number is cut out with the comma in front of it, if there is one. -/
theorem cutAlarm_last {l : List Str} {x : Str} (h : ∀ y ∈ l, AlarmItem y) (hx : AlarmItem x)
    (hlen : l.length < 19) :
    cutAlarm (alarmText (l ++ [x])) (7 * l.length) = .ok (alarmText l) := by
  have htext : alarmText (l ++ [x]) = headText l ++ x := by
    rw [alarmText_append l (by simp), alarmText_singleton]
  have hhead : (headText l).length = 7 * l.length := length_headText h
  have hsize : (alarmText (l ++ [x])).length = 7 * l.length + 6 := by
    rw [htext, List.length_append, hhead, hx.1]
  obtain ⟨k, hk⟩ : ∃ k, 256 - (alarmText (l ++ [x])).length = k + 2 :=
    ⟨256 - (alarmText (l ++ [x])).length - 2, by omega⟩
  have hbuf : alarmText (l ++ [x]) ++ zeros (256 - (alarmText (l ++ [x])).length) =
      (headText l ++ x ++ ['\x00']) ++ '\x00' :: zeros k := by
    rw [hk, htext, zeros_succ, zeros_succ]
    simp
  have hget : ((headText l ++ x ++ ['\x00']) ++ '\x00' :: zeros k)[7 * l.length + 7]? =
      some '\x00' := by
    have hpos : (headText l ++ x ++ ['\x00']).length = 7 * l.length + 7 := by
      rw [List.length_append, List.length_append, hhead, hx.1]
      rfl
    rw [← hpos]
    simp
  rw [cutAlarm]
  simp only [hbuf, hget, if_true]
  by_cases hl : l = []
  · -- the only number
    obtain ⟨c, t, rfl⟩ := List.exists_cons_of_ne_nil hx.ne_nil
    subst hl
    have hclear : store ((headText [] ++ (c :: t) ++ ['\x00']) ++ '\x00' :: zeros k) 0 '\x00' =
        .ok ([] ++ '\x00' :: (t ++ '\x00' :: '\x00' :: zeros k)) := by
      simpa [headText] using store_append [] (t ++ '\x00' :: '\x00' :: zeros k) c '\x00'
    rw [List.length_nil, Nat.mul_zero, List.drop_zero, if_pos rfl, hclear]
    exact cstr_append List.not_mem_nil _
  · have hne : alarmText (l ++ [x]) ≠ (alarmText (l ++ [x])).drop (7 * l.length) := by
      intro he
      have hl' : 0 < l.length := List.length_pos_of_ne_nil hl
      have hlens := congrArg List.length he
      rw [List.length_drop, hsize] at hlens
      omega
    have hsplit : (headText l ++ x ++ ['\x00']) ++ '\x00' :: zeros k =
        alarmText l ++ ((',' :: x ++ ['\x00']) ++ ([] ++ '\x00' :: zeros k)) := by
      rw [headText_eq hl]
      simp
    have hfront : (alarmText l).length = 7 * l.length - 1 := by
      rw [headText_eq hl, List.length_append] at hhead
      exact Nat.eq_sub_of_add_eq hhead
    have hmid : 7 * l.length - 1 + (',' :: x ++ ['\x00']).length = 7 * l.length + 7 := by
      have hl' : 0 < l.length := List.length_pos_of_ne_nil hl
      rw [List.length_append, List.length_cons, hx.1, List.length_singleton]
      omega
    obtain ⟨rest, hcopy⟩ := @strcpyAt_splice (alarmText l) (',' :: x ++ ['\x00']) []
      List.not_mem_nil (zeros k)
    rw [hfront, hmid] at hcopy
    rw [if_neg hne, hsplit, hcopy, List.append_nil]
    exact cstr_append (notMem_alarmText h) rest

/-- Another number is cut out with the comma behind it. -/
theorem cutAlarm_inner {l₁ l₂ : List Str} {x : Str} (h₁ : ∀ y ∈ l₁, AlarmItem y)
    (hx : AlarmItem x) (h₂ : ∀ y ∈ l₂, AlarmItem y) (hne : l₂ ≠ [])
    (hlen : (l₁ ++ x :: l₂).length ≤ 19) :
    cutAlarm (alarmText (l₁ ++ x :: l₂)) (7 * l₁.length) = .ok (alarmText (l₁ ++ l₂)) := by
  have htext : alarmText (l₁ ++ x :: l₂) = headText l₁ ++ (x ++ ',' :: alarmText l₂) := by
    rw [alarmText_append l₁ (by simp), alarmText_cons x hne]
  have hall : ∀ y ∈ l₁ ++ x :: l₂, AlarmItem y := by
    intro y hy
    rcases List.mem_append.mp hy with hy | hy
    · exact h₁ y hy
    · rcases List.mem_cons.mp hy with rfl | hy
      · exact hx
      · exact h₂ y hy
  have hbound := length_alarmText_le hall
  obtain ⟨k, hk⟩ : ∃ k, 256 - (alarmText (l₁ ++ x :: l₂)).length = k + 1 :=
    ⟨256 - (alarmText (l₁ ++ x :: l₂)).length - 1, by omega⟩
  have hbuf : alarmText (l₁ ++ x :: l₂) ++ zeros (256 - (alarmText (l₁ ++ x :: l₂)).length) =
      headText l₁ ++ ((x ++ [',']) ++ (alarmText l₂ ++ '\x00' :: zeros k)) := by
    rw [hk, htext, zeros_succ]
    simp
  obtain ⟨c, t, ht⟩ : ∃ c t, alarmText l₂ = c :: t :=
    List.exists_cons_of_ne_nil (alarmText_ne_nil h₂ hne)
  have hc : c ≠ '\x00' := by
    rintro rfl
    exact notMem_alarmText h₂ (by rw [ht]; simp)
  have hlen' : (headText l₁).length = 7 * l₁.length := length_headText h₁
  have hq : (x ++ [',']).length = 7 := by
    rw [List.length_append, hx.1]
    rfl
  have hget : (headText l₁ ++ ((x ++ [',']) ++
      (alarmText l₂ ++ '\x00' :: zeros k)))[7 * l₁.length + 7]? = some c := by
    rw [← hlen', ← hq, ← List.append_assoc, List.getElem?_append_right (by simp), ht]
    simp
  obtain ⟨rest, hcopy⟩ := @strcpyAt_splice (headText l₁) (x ++ [',']) (alarmText l₂)
    (notMem_alarmText h₂) (zeros k)
  rw [hq, hlen'] at hcopy
  rw [cutAlarm]
  simp only [hbuf, hget, if_neg hc, hcopy, bind, Except.bind]
  rw [← alarmText_append l₁ hne]
  exact cstr_append (notMem_alarmText fun y hy => hall y (by
    rcases List.mem_append.mp hy with hy | hy
    · exact List.mem_append_left _ hy
    · exact List.mem_append_right _ (List.mem_cons_of_mem x hy))) rest

/-! ## The text is a set -/

/-- The numbers that the functions know. -/
def isAlarm (x : Str) : Bool := deviceAlarmList.contains x

theorem isAlarm_iff {x : Str} : isAlarm x = true ↔ x ∈ deviceAlarmList := List.contains_iff_mem

/-- The node while `Enable` is `Yes`, with the text of a list. -/
def alarmNode (l : List Str) : AlarmNode := { enable := "Yes".toList, alarmNumber := alarmText l }

/-- Numbers of `DeviceAlarmList`, each once. -/
def AlarmSet (l : List Str) : Prop := (∀ x ∈ l, x ∈ deviceAlarmList) ∧ l.Nodup

namespace AlarmSet

variable {l : List Str}

theorem item (h : AlarmSet l) : ∀ x ∈ l, AlarmItem x := fun x hx => alarmItem_of_mem (h.1 x hx)

theorem length_le (h : AlarmSet l) : l.length ≤ 19 := (List.Nodup.subperm h.2 h.1).length_le

/-- The text fits into the buffer. -/
theorem length_text (h : AlarmSet l) : (alarmText l).length ≤ 133 := by
  have hlen := length_alarmText_le h.item
  have hle := h.length_le
  omega

theorem getAttr_text (h : AlarmSet l) : getAttr (alarmText l) 256 = alarmText l :=
  List.take_of_length_le (by have := h.length_text; omega)

end AlarmSet

theorem alarmOff_alarmNode (l : List Str) : alarmOff (alarmNode l) = false := rfl

theorem find?_deviceAlarmList {num : Str} :
    deviceAlarmList.find? (· == num) = if isAlarm num then some num else none := by
  by_cases h : isAlarm num = true
  · have hsome : (deviceAlarmList.find? (· == num)).isSome :=
      List.find?_isSome.mpr ⟨num, isAlarm_iff.mp h, beq_self_eq_true num⟩
    obtain ⟨y, hy⟩ := Option.isSome_iff_exists.mp hsome
    obtain rfl : y = num := by simpa using List.find?_some hy
    rw [hy, if_pos h]
  · rw [if_neg h, List.find?_eq_none]
    intro y hy he
    obtain rfl : y = num := by simpa using he
    exact h (isAlarm_iff.mpr hy)

/-- `AddAlarmNumber` adds. -/
theorem addAlarmNumber_refines {l : List Str} (h : AlarmSet l) (num : Str) :
    addAlarmNumber (alarmNode l) num = .ok (alarmNode (SetOp.step isAlarm l (.add num))) := by
  rw [addAlarmNumber, alarmOff_alarmNode, find?_deviceAlarmList]
  by_cases hnum : isAlarm num = true
  · have hx : AlarmItem num := alarmItem_of_mem (isAlarm_iff.mp hnum)
    have hattr : getAttr (alarmNode l).alarmNumber 256 = alarmText l := h.getAttr_text
    simp only [hnum, if_true, hattr, Bool.false_eq_true, if_false]
    by_cases hl : l = []
    · subst hl
      have hnil : alarmText [] = [] := rfl
      have hone : alarmNode [num] = { alarmNode [] with alarmNumber := num } := by
        rw [alarmNode, alarmText_singleton]
        rfl
      rw [SetOp.step_add_of_notMem hnum List.not_mem_nil, if_pos hnil, List.nil_append, hone]
    · rw [if_neg (alarmText_ne_nil h.item hl)]
      by_cases hmem : num ∈ l
      · rw [SetOp.step_add_of_mem hmem]
        obtain ⟨l₁, l₂, rfl, hnot⟩ := List.eq_append_cons_of_mem hmem
        rw [strstr_eq_some hx (fun y hy => h.item y (List.mem_append_left _ hy)) hnot]
      · have htext : alarmText l ++ ',' :: num = alarmText (l ++ [num]) := by
          rw [alarmText_append l (by simp), alarmText_singleton, headText_eq hl]
          simp
        have hroom : ¬ 256 ≤ (alarmText (l ++ [num])).length := by
          have hlen := h.length_text
          rw [← htext, List.length_append, List.length_cons, hx.1]
          omega
        rw [SetOp.step_add_of_notMem hnum hmem, strstr_eq_none hx h.item hmem]
        simp only [htext, if_neg hroom]
        rfl
  · have hnot : isAlarm num = false := by simpa using hnum
    rw [SetOp.step_add_of_not_ok hnot, if_neg hnum]
    rfl

/-- `DelAlarmNumber` removes. -/
theorem delAlarmNumber_refines {l : List Str} (h : AlarmSet l) (num : Str) :
    delAlarmNumber (alarmNode l) num = .ok (alarmNode (SetOp.step isAlarm l (.del num))) := by
  rw [delAlarmNumber, alarmOff_alarmNode, find?_deviceAlarmList]
  by_cases hmem : num ∈ l
  · have hnum : isAlarm num = true := isAlarm_iff.mpr (h.1 num hmem)
    have hx : AlarmItem num := h.item num hmem
    have hattr : getAttr (alarmNode l).alarmNumber 256 = alarmText l := h.getAttr_text
    have hlen := h.length_le
    simp only [hnum, if_true, hattr, Bool.false_eq_true, if_false]
    rw [if_neg (alarmText_ne_nil h.item (List.ne_nil_of_mem hmem))]
    obtain ⟨l₁, l₂, rfl, hnot⟩ := List.eq_append_cons_of_mem hmem
    have h₁ : ∀ y ∈ l₁, AlarmItem y := fun y hy => h.item y (List.mem_append_left _ hy)
    have h₂ : ∀ y ∈ l₂, AlarmItem y := fun y hy =>
      h.item y (List.mem_append_right _ (List.mem_cons_of_mem num hy))
    have hcut : cutAlarm (alarmText (l₁ ++ num :: l₂)) (7 * l₁.length) =
        .ok (alarmText (l₁ ++ l₂)) := by
      by_cases hl₂ : l₂ = []
      · rw [List.length_append, List.length_cons] at hlen
        rw [hl₂, List.append_nil, cutAlarm_last h₁ hx (by omega)]
      · exact cutAlarm_inner h₁ hx h₂ hl₂ hlen
    rw [SetOp.step_del_append hnot, strstr_eq_some hx h₁ hnot]
    simp only [hcut, bind, Except.bind]
    rfl
  · rw [SetOp.step_del_of_notMem hmem]
    by_cases hnum : isAlarm num = true
    · have hx : AlarmItem num := alarmItem_of_mem (isAlarm_iff.mp hnum)
      have hattr : getAttr (alarmNode l).alarmNumber 256 = alarmText l := h.getAttr_text
      simp only [hnum, if_true, hattr, Bool.false_eq_true, if_false, strstr_eq_none hx h.item hmem]
      split <;> rfl
    · rw [if_neg hnum]
      rfl

/-- **Each call acts on the text as on a set.** -/
theorem alarmStep_refines {l : List Str} (h : AlarmSet l) (op : SetOp Str) :
    alarmStep (alarmNode l) op = .ok (alarmNode (SetOp.step isAlarm l op)) := by
  cases op with
  | add num => exact addAlarmNumber_refines h num
  | del num => exact delAlarmNumber_refines h num

theorem alarmSet_run (ops : List (SetOp Str)) : AlarmSet (SetOp.run isAlarm ops) :=
  ⟨fun _ hx => isAlarm_iff.mp (SetOp.mem_run.mp hx).1, SetOp.nodup_run isAlarm ops⟩

theorem alarmRun_eq (ops : List (SetOp Str)) :
    alarmRun ops = .ok (alarmNode (SetOp.run isAlarm ops)) := by
  induction ops using List.reverseRecOn with
  | nil => rfl
  | append_singleton ops op ih =>
    rw [alarmRun] at ih ⊢
    rw [List.foldlM_append, ih, SetOp.run_concat, ← alarmStep_refines (alarmSet_run ops) op]
    simp only [bind, Except.bind, List.foldlM_cons, List.foldlM_nil]
    cases alarmStep (alarmNode (SetOp.run isAlarm ops)) op <;> rfl

/-- **The text after any run**: the numbers of `DeviceAlarmList` that were added and not deleted
since, each once, with commas between them, in the order of their last effective addition. -/
theorem alarmRun_text (ops : List (SetOp Str)) : ∃ node l, alarmRun ops = .ok node ∧
    node.alarmNumber = [','].intercalate l ∧ node.alarmNumber.length < 256 ∧ [] ∉ l ∧ l.Nodup ∧
    (∀ x, x ∈ l ↔ x ∈ deviceAlarmList ∧ SetOp.Live ops x) ∧
    ∃ last : Str → Nat, (∀ x ∈ l, SetOp.LastEffective ops x (last x)) ∧
      l.Pairwise fun x y => last x < last y := by
  have hset := alarmSet_run ops
  refine ⟨_, SetOp.run isAlarm ops, alarmRun_eq ops, rfl, ?_, ?_, hset.2, ?_,
    SetOp.run_order isAlarm ops⟩
  · have hlen := hset.length_text
    show (alarmText (SetOp.run isAlarm ops)).length < 256
    omega
  · exact fun hnil => (hset.item [] hnil).ne_nil rfl
  · intro x
    rw [SetOp.mem_run, isAlarm_iff]

end OnuFirmware.Utility
