import OnuFirmware.Clib.Buf
import OnuFirmware.Lib.Split
import Mathlib.Data.List.DropRight
import Mathlib.Data.List.Forall2

/-!
# The configuration of the service host (`svchost_parse.c`)

A line of the file names a service as `path:entry[:param]`. The file is read into one buffer; every
line is checked first, then the lines are split in place, and the services point into the buffer.

A pointer into the buffer is the part of the buffer that starts there, the fields of a service are
offsets from the start of the buffer. Blocks of memory are numbered in the order in which they are
allotted, the buffer is block `0`; `live` are those that are not free. `malloc` and reading succeed.
-/

namespace OnuFirmware.Svchost

open Clib Lib

/-! ## Model -/

/-- The character that ends a string. -/
def nul : Char := '\x00'

/-- The blank that the parser knows. -/
def blank : Char := ' '

/-- A line ends at a newline, and where the buffer holds a NUL. -/
def lineEnd (c : Char) : Bool := c == nul || c == '\n'

/-- The string at an offset of a buffer. -/
def strAt (buf : Str) (i : Nat) : Str := (buf.drop i).takeWhile (· ≠ nul)

/-- `strchr`, as an offset. -/
def strchr (buf : Str) (c : Char) : Option Nat := (strAt buf 0).idxOf? c

/-- `svchost_parse_check_line`: whether it returns `0`. -/
def svchostParseCheckLine (buf : Str) (len : Nat) : Bool :=
  match strchr buf ':' with
  | none => false
  | some i => decide (i ≤ len) && i ≠ 0

/-- `svchost_parse_get_line`: `start` and `end`. -/
def svchostParseGetLine (buf : Str) : Nat × Nat :=
  let start := (buf.takeWhile (· == blank)).length
  let stop := start + ((buf.drop start).takeWhile (!lineEnd ·)).length
  if buf[start]? = some '#' then (stop, stop) else (start, stop)

/-- `svchost_parse_check_conf`: whether it returns `0`. -/
def svchostParseCheckConf (tmp : Str) : Bool :=
  if _h : tmp = [] then true
  else
    let line := svchostParseGetLine tmp
    if line.1 ≠ line.2 && !svchostParseCheckLine tmp line.2 then false
    else svchostParseCheckConf (tmp.drop (line.2 + 1))
termination_by tmp.length
decreasing_by
  have hpos := List.length_pos_of_ne_nil _h
  simp only [List.length_drop]
  omega

/-- `svchost_parse_check_blank`. -/
def svchostParseCheckBlank (str : Str) : Bool := (str.dropWhile (· == blank)).headD nul == nul

/-- `svchost_parse_skip_blank`, as an offset. -/
def svchostParseSkipBlank (str : Str) : Nat := (str.takeWhile (· == blank)).length

/-- The fields of a `struct host_service` that the parser fills in. -/
structure SvcEntry where
  path : Nat
  entry : Nat
  param : Option Nat
deriving Repr, DecidableEq

/-- The end of `svchost_parse_alloc_svc`: the fields start at these offsets of the line, and the
line starts at `off`. -/
def svchostParseFields (off : Nat) (buf : Str) (entry : Nat) (param : Option Nat) :
    Option SvcEntry :=
  if svchostParseCheckBlank buf || svchostParseCheckBlank (buf.drop entry) ||
      param.any fun p => svchostParseCheckBlank (buf.drop p) then none
  else
    some { path := off + svchostParseSkipBlank buf,
           entry := off + entry + svchostParseSkipBlank (buf.drop entry),
           param := param.map fun p => off + p + svchostParseSkipBlank (buf.drop p) }

/-- `svchost_parse_alloc_svc`: the service, and the buffer from `buf` on. -/
def svchostParseAllocSvc (off : Nat) (buf : Str) (stop : Nat) : Option SvcEntry × Str :=
  let buf := buf.set stop nul
  match strchr buf ':' with
  | none => (none, buf)
  | some i =>
    let buf := buf.set i nul
    let entry := i + 1
    match strchr (buf.drop entry) ':' with
    | none => (svchostParseFields off buf entry none, buf)
    | some j =>
      let buf := buf.set (entry + j) nul
      (svchostParseFields off buf entry (some (entry + j + 1)), buf)

/-- The variables of `svchost_parse_conf`: the buffer up to `tmp`, the list from `head` on with the
block of each service, and the blocks that are not free. -/
structure ConfLoop where
  buf : Str
  svcs : List (Nat × SvcEntry)
  live : List Nat
deriving Repr, DecidableEq

/-- `svchost_parse_free_svc`. -/
def svchostParseFreeSvc (svcs : List (Nat × SvcEntry)) (live : List Nat) : List Nat :=
  svcs.foldl (fun live svc => live.erase svc.1) live

/-- Takes a line over that is ready. -/
def ConfLoop.skip (s : ConfLoop) (tmp : Str) (stop : Nat) : ConfLoop :=
  { s with buf := s.buf ++ tmp.take (stop + 1) }

/-- Appends a service to the list. -/
def ConfLoop.add (s : ConfLoop) (svc : SvcEntry) : ConfLoop :=
  { s with svcs := s.svcs ++ [(s.svcs.length + 1, svc)], live := (s.svcs.length + 1) :: s.live }

theorem length_svchostParseAllocSvc (off : Nat) (buf : Str) (stop : Nat) :
    (svchostParseAllocSvc off buf stop).2.length = buf.length := by
  unfold svchostParseAllocSvc
  dsimp only
  split
  · simp
  · split
    · simp
    · simp

/-- The loop of `svchost_parse_conf`: whether it ends without an error. -/
def svchostParseConf (s : ConfLoop) (tmp : Str) : Bool × ConfLoop :=
  if _h : tmp = [] then (true, s)
  else
    let line := svchostParseGetLine tmp
    if line.1 ≠ line.2 then
      let cur := svchostParseAllocSvc s.buf.length tmp line.2
      match cur.1 with
      | none => (false, { s with svcs := [], live := svchostParseFreeSvc s.svcs s.live })
      | some svc =>
        svchostParseConf ((s.add svc).skip cur.2 line.2) (cur.2.drop (line.2 + 1))
    else svchostParseConf (s.skip tmp line.2) (tmp.drop (line.2 + 1))
termination_by tmp.length
decreasing_by
  all_goals
    have hpos := List.length_pos_of_ne_nil _h
    simp only [List.length_drop, length_svchostParseAllocSvc]
    omega

/-- What `svchost_parse` gives to its caller, and the blocks that are not free. -/
structure ParseResult where
  svc : Option (List SvcEntry)
  buf : Str
  live : List Nat
deriving Repr, DecidableEq

/-- `svchost_parse`; an empty list is the pointer `NULL`. -/
def svchostParse (content : Str) : ParseResult :=
  if content = [] then { svc := none, buf := [], live := [] }
  else
    let buf := content ++ [nul]
    if svchostParseCheckConf buf then
      let s := svchostParseConf { buf := [], svcs := [], live := [0] } buf
      if s.1 && !s.2.svcs.isEmpty then
        { svc := some (s.2.svcs.map Prod.snd), buf := s.2.buf, live := s.2.live }
      else { svc := none, buf := [], live := s.2.live.erase 0 }
    else { svc := none, buf := [], live := [0].erase 0 }

/-! ## Statement -/

/-- What a line says. -/
structure SvcLine where
  path : Str
  entry : Str
  param : Option Str
deriving Repr, DecidableEq

/-- The texts that a service points to. -/
def SvcEntry.line (buf : Str) (svc : SvcEntry) : SvcLine :=
  { path := strAt buf svc.path, entry := strAt buf svc.entry, param := svc.param.map (strAt buf) }

/-- The text has nothing but blanks. -/
def isBlank (s : Str) : Bool := s.all (· == blank)

/-- The line is blank or a comment. -/
def isSkipped (l : Str) : Bool := isBlank l || (l.dropWhile (· == blank)).head? == some '#'

/-- The lines that are neither blank nor a comment. -/
def serviceLines (content : Str) : List Str := (content.splitOnP lineEnd).filter (!isSkipped ·)

/-- The line has the form `path:entry[:param]`, and no field is blank. -/
structure HasForm (l : Str) (f : SvcLine) : Prop where
  text : l = f.path ++ ':' :: (f.entry ++ (f.param.elim [] (':' :: ·)))
  path_colon : ':' ∉ f.path
  entry_colon : ':' ∉ f.entry
  path_blank : isBlank f.path = false
  entry_blank : isBlank f.entry = false
  param_blank : ∀ p ∈ f.param, isBlank p = false

/-- Without the blanks around it. -/
def strip (s : Str) : Str := (s.dropWhile (· == blank)).rdropWhile (· == blank)

/-- The fields without the blanks around them. -/
def SvcLine.stripped (f : SvcLine) : SvcLine :=
  { path := strip f.path, entry := strip f.entry, param := f.param.map strip }

/-- **What the parser is to do**: it succeeds exactly if every line has the form, then it yields the
services in the order of the file, and when it fails no block is left. -/
structure ParseRight (content : Str) : Prop where
  success : (svchostParse content).svc.isSome = true ↔
    ∀ l ∈ serviceLines content, ∃ f, HasForm l f
  yields : ∀ svcs, (svchostParse content).svc = some svcs →
    ∃ fs, List.Forall₂ HasForm (serviceLines content) fs ∧
      svcs.map (SvcEntry.line (svchostParse content).buf) = fs.map SvcLine.stripped
  undone : (svchostParse content).svc = none → (svchostParse content).live = []

/-- No field ends in a blank. -/
def SvcLine.Tight (f : SvcLine) : Prop :=
  (∀ a, f.path ≠ a ++ [blank]) ∧ (∀ a, f.entry ≠ a ++ [blank]) ∧
    ∀ p ∈ f.param, ∀ a, p ≠ a ++ [blank]

/-- **When the parser is right**: a line is malformed, or there is a service and no field ends in a
blank. -/
def ParseHandled (content : Str) : Prop :=
  (∃ l ∈ serviceLines content, ¬ ∃ f, HasForm l f) ∨
    (serviceLines content ≠ [] ∧ ∀ l ∈ serviceLines content, ∀ f, HasForm l f → f.Tight)

/-! ## Strings in the buffer -/

theorem strAt_eq {pre w r : Str} (hw : nul ∉ w) :
    strAt (pre ++ (w ++ nul :: r)) pre.length = w := by
  have hclean : ∀ c ∈ w, decide (c ≠ nul) = true := fun c hc => by
    simpa using fun h : c = nul => hw (h ▸ hc)
  rw [strAt, List.drop_left]
  exact takeWhile_run hclean (by simp)

/-- The blanks before a line are those before it in the buffer. -/
theorem takeWhile_blank {e : Char} (he : e ≠ blank) (w r : Str) :
    (w ++ e :: r).takeWhile (· == blank) = w.takeWhile (· == blank) := by
  induction w with
  | nil => simp [he]
  | cons x w ih =>
    rw [List.cons_append, List.takeWhile_cons, List.takeWhile_cons, ih]

theorem dropWhile_blank {e : Char} (he : e ≠ blank) (w r : Str) :
    (w ++ e :: r).dropWhile (· == blank) = w.dropWhile (· == blank) ++ e :: r := by
  induction w with
  | nil => simp [he]
  | cons x w ih =>
    rw [List.cons_append, List.dropWhile_cons, List.dropWhile_cons, ih]
    split
    · rfl
    · rfl

theorem nul_ne_blank : nul ≠ blank := by decide

/-- A string without the blanks before it. -/
theorem strAt_skip {pre w r : Str} (hw : nul ∉ w) :
    strAt (pre ++ (w ++ nul :: r)) (pre.length + svchostParseSkipBlank (w ++ nul :: r)) =
      w.dropWhile (· == blank) := by
  have hsplit : pre ++ (w ++ nul :: r) =
      (pre ++ w.takeWhile (· == blank)) ++ (w.dropWhile (· == blank) ++ nul :: r) := by
    rw [List.append_assoc, ← List.append_assoc (w.takeWhile _), List.takeWhile_append_dropWhile]
  have hlen : pre.length + svchostParseSkipBlank (w ++ nul :: r) =
      (pre ++ w.takeWhile (· == blank)).length := by
    rw [svchostParseSkipBlank, takeWhile_blank nul_ne_blank, List.length_append]
  rw [hsplit, hlen]
  exact strAt_eq fun h => hw ((List.dropWhile_sublist _).mem h)

theorem strchr_append {a r : Str} {c : Char} (hnul : nul ∉ a) (hc : c ∉ a) (hne : c ≠ nul) :
    strchr (a ++ c :: r) c = some a.length := by
  have hclean : ∀ x ∈ a, decide (x ≠ nul) = true := fun x hx => by
    simpa using fun h : x = nul => hnul (h ▸ hx)
  rw [strchr, strAt, List.drop_zero, List.takeWhile_append_of_pos hclean,
    List.takeWhile_cons_of_pos (by simpa using hne)]
  exact idxOf?_append_cons hc

theorem strchr_none {w r : Str} {c : Char} (hnul : nul ∉ w) (hc : c ∉ w) :
    strchr (w ++ nul :: r) c = none := by
  have hstr := @strAt_eq [] w r hnul
  rw [List.nil_append, List.length_nil] at hstr
  rw [strchr, hstr]
  exact List.idxOf?_eq_none_iff.mpr hc

theorem isBlank_iff {w : Str} : isBlank w = true ↔ w.dropWhile (· == blank) = [] := by
  rw [isBlank, List.all_eq_true, List.dropWhile_eq_nil_iff]

theorem svchostParseCheckBlank_eq {w r : Str} (hw : nul ∉ w) :
    svchostParseCheckBlank (w ++ nul :: r) = isBlank w := by
  rw [svchostParseCheckBlank, dropWhile_blank nul_ne_blank, Bool.eq_iff_iff, isBlank_iff]
  cases h : w.dropWhile (· == blank) with
  | nil => simp
  | cons x d =>
    have hmem : x ∈ w.dropWhile (· == blank) := by
      rw [h]
      exact List.mem_cons_self
    have hx : x ≠ nul := fun hx => hw (hx ▸ (List.dropWhile_sublist _).mem hmem)
    simp [hx]

/-! ## One line -/

variable {l rest : Str} {e : Char}

theorem nul_notMem (hl : ∀ c ∈ l, lineEnd c = false) : nul ∉ l := fun h => by
  have := hl nul h
  simp [lineEnd] at this

/-- The line ends where it should, and is taken for empty if it is skipped. -/
theorem svchostParseGetLine_eq (hl : ∀ c ∈ l, lineEnd c = false) (he : lineEnd e = true) :
    (svchostParseGetLine (l ++ e :: rest)).2 = l.length ∧
      ((svchostParseGetLine (l ++ e :: rest)).1 = l.length ↔ isSkipped l = true) := by
  have hblank : e ≠ blank := by
    rintro rfl
    exact absurd he (by decide)
  have hhash : e ≠ '#' := by
    rintro rfl
    exact absurd he (by decide)
  set t := l.takeWhile (· == blank)
  set d := l.dropWhile (· == blank) with hd
  have hl' : l = t ++ d := (List.takeWhile_append_dropWhile).symm
  have hdrop : (l ++ e :: rest).drop t.length = d ++ e :: rest := by
    rw [hl', List.append_assoc, List.drop_left]
  have hstop : (d ++ e :: rest).takeWhile (!lineEnd ·) = d := by
    refine takeWhile_run (fun c hc => ?_) (by simp [he])
    simpa using hl c ((List.dropWhile_sublist _).mem hc)
  have hlen : l.length = t.length + d.length := by
    rw [← List.length_append, ← hl']
  have hat : (l ++ e :: rest)[t.length]? = (d ++ e :: rest).head? := by
    rw [← hdrop, List.head?_drop]
  unfold svchostParseGetLine
  dsimp only
  rw [takeWhile_blank hblank, hdrop, hstop, hat, ← hlen]
  cases hdc : d with
  | nil =>
    have hempty : t.length = l.length := by
      rw [hlen, hdc]
      rfl
    have hskip : isSkipped l = true := by
      rw [isSkipped, isBlank_iff.mpr (hd.symm.trans hdc), Bool.true_or]
    rw [if_neg (by simpa using hhash)]
    exact ⟨rfl, fun _ => hskip, fun _ => hempty⟩
  | cons x d' =>
    have hnot : isBlank l = false := by
      rw [Bool.eq_false_iff, Ne, isBlank_iff, ← hd, hdc]
      simp
    have hskip : isSkipped l = true ↔ x = '#' := by
      rw [isSkipped, hnot, Bool.false_or, ← hd, hdc]
      simp
    rw [hskip]
    split
    · next hx => exact ⟨rfl, fun _ => by simpa using hx, fun _ => rfl⟩
    · next hx =>
      refine ⟨rfl, fun h => ?_, fun h => absurd (by simpa using h) hx⟩
      have hlt : t.length = t.length + (d'.length + 1) := by
        rwa [hlen, hdc] at h
      omega

/-- A line of the form passes the check. -/
theorem svchostParseCheckLine_of_form {f : SvcLine} (hl : ∀ c ∈ l, lineEnd c = false)
    (hf : HasForm l f) : svchostParseCheckLine (l ++ e :: rest) l.length = true := by
  have hnul : nul ∉ f.path := fun h => nul_notMem hl (by rw [hf.text]; simp [h])
  have hne : f.path.length ≠ 0 := by
    intro h
    have hblank := hf.path_blank
    rw [List.length_eq_zero_iff.mp h] at hblank
    exact absurd hblank (by decide)
  have hle : f.path.length ≤ l.length := by
    rw [hf.text]
    simp
  have hidx : strchr (l ++ e :: rest) ':' = some f.path.length := by
    rw [hf.text, List.append_assoc, List.cons_append]
    exact strchr_append hnul hf.path_colon (by decide)
  rw [svchostParseCheckLine, hidx]
  simp [hle, hne]

/-! ## Splitting a line -/

theorem set_append_cons (a r : Str) (x y : Char) : (a ++ x :: r).set a.length y = a ++ y :: r := by
  simp

/-- The fields without the blanks before them. -/
def SvcLine.lead (f : SvcLine) : SvcLine :=
  { path := f.path.dropWhile (· == blank), entry := f.entry.dropWhile (· == blank),
    param := f.param.map (·.dropWhile (· == blank)) }

theorem drop_append_cons (a r : Str) (x : Char) : (a ++ x :: r).drop (a.length + 1) = r := by
  rw [List.drop_append, List.drop_eq_nil_of_le (by omega)]
  simp

theorem strAt_zero {w r : Str} (hw : nul ∉ w) : strAt (w ++ nul :: r) 0 = w :=
  @strAt_eq [] w r hw

/-- An offset with a NUL behind it is inside the buffer, and the string there comes first. -/
theorem drop_eq_strAt {buf : Str} {k : Nat} (h : nul ∈ buf.drop k) :
    k ≤ buf.length ∧ ∃ r, buf.drop k = strAt buf k ++ nul :: r ∧ nul ∉ strAt buf k := by
  obtain ⟨w, r, hbuf, hw⟩ := List.eq_append_cons_of_mem h
  have hstr : strAt buf k = w := by
    have hz := @strAt_zero w r hw
    rwa [← hbuf] at hz
  have hle : k ≤ buf.length := by
    by_contra hlt
    rw [List.drop_eq_nil_of_le (by omega)] at h
    exact absurd h (by simp)
  exact ⟨hle, r, by rw [hbuf, hstr], by rw [hstr]; exact hw⟩

/-- The test for blanks looks at the string in the line only. -/
theorem svchostParseCheckBlank_drop {buf : Str} {k : Nat} (h : nul ∈ buf.drop k) (rest : Str) :
    svchostParseCheckBlank ((buf ++ rest).drop k) = isBlank (strAt buf k) := by
  obtain ⟨hle, r, hdrop, hw⟩ := drop_eq_strAt h
  rw [List.drop_append_of_le_length hle, hdrop, List.append_assoc, List.cons_append]
  exact svchostParseCheckBlank_eq hw

/-- A field of the line is read from the whole buffer without the blanks before it. -/
theorem strAt_field {buf : Str} {k : Nat} (h : nul ∈ buf.drop k) (pre rest post : Str) :
    strAt (pre ++ (buf ++ post)) (pre.length + k + svchostParseSkipBlank ((buf ++ rest).drop k)) =
      (strAt buf k).dropWhile (· == blank) := by
  obtain ⟨hle, r, hdrop, hw⟩ := drop_eq_strAt h
  have hbuf : pre ++ (buf ++ post) =
      (pre ++ buf.take k) ++ (strAt buf k ++ nul :: (r ++ post)) := by
    have hcut : buf = buf.take k ++ (strAt buf k ++ nul :: r) := by
      rw [← hdrop, List.take_append_drop]
    calc pre ++ (buf ++ post) = pre ++ ((buf.take k ++ (strAt buf k ++ nul :: r)) ++ post) := by
          rw [← hcut]
      _ = (pre ++ buf.take k) ++ (strAt buf k ++ nul :: (r ++ post)) := by
          simp only [List.append_assoc, List.cons_append]
  have hlen : pre.length + k = (pre ++ buf.take k).length := by
    rw [List.length_append, List.length_take, Nat.min_eq_left hle]
  have hskip : svchostParseSkipBlank ((buf ++ rest).drop k) =
      svchostParseSkipBlank (strAt buf k ++ nul :: (r ++ post)) := by
    rw [List.drop_append_of_le_length hle, hdrop, List.append_assoc, List.cons_append]
    simp only [svchostParseSkipBlank, takeWhile_blank nul_ne_blank]
  rw [hbuf, hlen, hskip]
  exact strAt_skip hw

/-- The line as it was split: its strings. -/
def splitLine (buf : Str) (entry : Nat) (param : Option Nat) : SvcLine :=
  { path := strAt buf 0, entry := strAt buf entry, param := param.map (strAt buf) }

/-- A field of the line is blank. -/
def SvcLine.hasBlank (f : SvcLine) : Bool :=
  isBlank f.path || isBlank f.entry || f.param.any isBlank

section

variable {buf : Str} {entry : Nat} {param : Option Nat} (hpath : nul ∈ buf)
  (hentry : nul ∈ buf.drop entry) (hparam : ∀ p ∈ param, nul ∈ buf.drop p)

include hpath hentry hparam

/-- The test for blanks looks at the fields of the line. -/
theorem svchostParseFields_test :
    (svchostParseCheckBlank (buf ++ rest) || svchostParseCheckBlank ((buf ++ rest).drop entry) ||
      param.any fun p => svchostParseCheckBlank ((buf ++ rest).drop p)) =
      (splitLine buf entry param).hasBlank := by
  have hpath' : svchostParseCheckBlank (buf ++ rest) = isBlank (strAt buf 0) :=
    @svchostParseCheckBlank_drop buf 0 hpath rest
  rw [hpath', svchostParseCheckBlank_drop hentry rest]
  cases param with
  | none => rfl
  | some p =>
    simp only [Option.any_some, svchostParseCheckBlank_drop (hparam p rfl) rest]
    rfl

theorem svchostParseFields_none (off : Nat) (h : (splitLine buf entry param).hasBlank = true) :
    svchostParseFields off (buf ++ rest) entry param = none := by
  rw [svchostParseFields, svchostParseFields_test hpath hentry hparam, if_pos h]

theorem svchostParseFields_some (pre : Str) (h : (splitLine buf entry param).hasBlank = false) :
    ∃ svc, svchostParseFields pre.length (buf ++ rest) entry param = some svc ∧
      ∀ post, svc.line (pre ++ (buf ++ post)) = (splitLine buf entry param).lead := by
  refine ⟨_, by rw [svchostParseFields, svchostParseFields_test hpath hentry hparam,
    if_neg (by simp [h])], fun post => ?_⟩
  have hpath' := @strAt_field buf 0 hpath pre rest post
  have hentry' := strAt_field hentry pre rest post
  rw [Nat.add_zero, List.drop_zero] at hpath'
  rw [SvcEntry.line]
  dsimp only
  rw [hpath', hentry']
  cases param with
  | none => rfl
  | some p =>
    have hparam' := strAt_field (hparam p rfl) pre rest post
    rw [Option.map_some, Option.map_some, hparam']
    rfl

end

/-- `svchost_parse_alloc_svc` on a line without a colon. -/
theorem svchostParseAllocSvc_of_notMem (hl : ∀ c ∈ l, lineEnd c = false) (h : ':' ∉ l) (off : Nat) :
    (svchostParseAllocSvc off (l ++ e :: rest) l.length).1 = none := by
  rw [svchostParseAllocSvc, set_append_cons, strchr_none (nul_notMem hl) h]

/-- `svchost_parse_alloc_svc` on a line with one colon. -/
theorem svchostParseAllocSvc_one {a b : Str} (ha : nul ∉ a) (hb : nul ∉ b) (hca : ':' ∉ a)
    (hcb : ':' ∉ b) (off : Nat) :
    svchostParseAllocSvc off ((a ++ ':' :: b) ++ e :: rest) (a ++ ':' :: b).length =
      (svchostParseFields off ((a ++ nul :: (b ++ [nul])) ++ rest) (a.length + 1) none,
        (a ++ nul :: (b ++ [nul])) ++ rest) := by
  have hbuf : (a ++ ':' :: b) ++ nul :: rest = a ++ ':' :: (b ++ nul :: rest) := by simp
  have hdone : a ++ nul :: (b ++ nul :: rest) = (a ++ nul :: (b ++ [nul])) ++ rest := by simp
  rw [svchostParseAllocSvc, set_append_cons, hbuf, strchr_append ha hca (by decide)]
  dsimp only
  rw [set_append_cons, drop_append_cons, strchr_none hb hcb, hdone]

/-- `svchost_parse_alloc_svc` on a line with two colons. -/
theorem svchostParseAllocSvc_two {a b d : Str} (ha : nul ∉ a) (hb : nul ∉ b) (hca : ':' ∉ a)
    (hcb : ':' ∉ b) (off : Nat) :
    svchostParseAllocSvc off ((a ++ ':' :: (b ++ ':' :: d)) ++ e :: rest)
        (a ++ ':' :: (b ++ ':' :: d)).length =
      (svchostParseFields off ((a ++ nul :: (b ++ nul :: (d ++ [nul]))) ++ rest) (a.length + 1)
          (some (a.length + 1 + b.length + 1)),
        (a ++ nul :: (b ++ nul :: (d ++ [nul]))) ++ rest) := by
  have hbuf : (a ++ ':' :: (b ++ ':' :: d)) ++ nul :: rest =
      a ++ ':' :: (b ++ ':' :: (d ++ nul :: rest)) := by simp
  have hset : (a ++ nul :: (b ++ ':' :: (d ++ nul :: rest))).set (a.length + 1 + b.length) nul =
      (a ++ nul :: (b ++ nul :: (d ++ [nul]))) ++ rest := by
    have h := set_append_cons (a ++ nul :: b) (d ++ nul :: rest) ':' nul
    have hlen : (a ++ nul :: b).length = a.length + 1 + b.length := by
      simp
      omega
    rw [hlen] at h
    simpa using h
  rw [svchostParseAllocSvc, set_append_cons, hbuf, strchr_append ha hca (by decide)]
  dsimp only
  rw [set_append_cons, drop_append_cons, strchr_append hb hcb (by decide)]
  dsimp only
  rw [hset]

theorem strAt_drop (buf : Str) (i k : Nat) : strAt buf (i + k) = strAt (buf.drop i) k := by
  rw [strAt, strAt, List.drop_drop]

/-- The strings of a line with one colon after it was split. -/
theorem splitLine_one {a b : Str} (ha : nul ∉ a) (hb : nul ∉ b) :
    splitLine (a ++ nul :: (b ++ [nul])) (a.length + 1) none =
      { path := a, entry := b, param := none } := by
  have hentry : strAt (a ++ nul :: (b ++ [nul])) (a.length + 1 + 0) = b := by
    rw [strAt_drop, drop_append_cons, strAt_zero hb]
  rw [splitLine, strAt_zero ha]
  exact congrArg (fun s => { path := a, entry := s, param := none : SvcLine }) hentry

/-- The strings of a line with two colons after it was split. -/
theorem splitLine_two {a b d : Str} (ha : nul ∉ a) (hb : nul ∉ b) (hd : nul ∉ d) :
    splitLine (a ++ nul :: (b ++ nul :: (d ++ [nul]))) (a.length + 1)
        (some (a.length + 1 + b.length + 1)) =
      { path := a, entry := b, param := some d } := by
  have hentry : strAt (a ++ nul :: (b ++ nul :: (d ++ [nul]))) (a.length + 1 + 0) = b := by
    rw [strAt_drop, drop_append_cons, strAt_zero hb]
  have hparam : strAt (a ++ nul :: (b ++ nul :: (d ++ [nul])))
      (a.length + 1 + (b.length + 1 + 0)) = d := by
    rw [strAt_drop, drop_append_cons, strAt_drop, drop_append_cons, strAt_zero hd]
  rw [splitLine, strAt_zero ha]
  exact congrArg₂ (fun s t => { path := a, entry := s, param := some t : SvcLine }) hentry hparam

/-! ## The form of a line -/

theorem HasForm.hasBlank {f : SvcLine} (hf : HasForm l f) : f.hasBlank = false := by
  rw [SvcLine.hasBlank, hf.path_blank, hf.entry_blank, Bool.false_or, Bool.false_or]
  cases h : f.param with
  | none => rfl
  | some p => exact hf.param_blank p h

theorem HasForm.colon_mem {f : SvcLine} (hf : HasForm l f) : ':' ∈ l := by
  rw [hf.text]
  simp

/-- A line with one colon. -/
theorem hasForm_one_iff {a b : Str} {f : SvcLine} (hca : ':' ∉ a) (hcb : ':' ∉ b) :
    HasForm (a ++ ':' :: b) f ↔
      f = { path := a, entry := b, param := none } ∧ f.hasBlank = false := by
  constructor
  · intro hf
    refine ⟨?_, hf.hasBlank⟩
    obtain ⟨hpath, hrest⟩ := append_cons_unique hca hf.path_colon hf.text
    rcases f with ⟨path, entry, _ | p⟩
    · simp only [Option.elim_none, List.append_nil] at hrest
      rw [hpath, hrest]
    · exact absurd (by rw [hrest]; simp) hcb
  · rintro ⟨rfl, h⟩
    simp only [SvcLine.hasBlank, Bool.or_eq_false_iff] at h
    exact ⟨by simp, hca, hcb, h.1.1, h.1.2, by simp⟩

/-- A line with more colons; the parameter may have some. -/
theorem hasForm_two_iff {a b d : Str} {f : SvcLine} (hca : ':' ∉ a) (hcb : ':' ∉ b) :
    HasForm (a ++ ':' :: (b ++ ':' :: d)) f ↔
      f = { path := a, entry := b, param := some d } ∧ f.hasBlank = false := by
  constructor
  · intro hf
    refine ⟨?_, hf.hasBlank⟩
    obtain ⟨hpath, hrest⟩ := append_cons_unique hca hf.path_colon hf.text
    rcases f with ⟨path, entry, _ | p⟩
    · simp only [Option.elim_none, List.append_nil] at hrest
      exact absurd (by rw [← hrest]; simp) hf.entry_colon
    · obtain ⟨hentry, hp⟩ := append_cons_unique hcb hf.entry_colon hrest
      rw [hpath, hentry, hp]
  · rintro ⟨rfl, h⟩
    simp only [SvcLine.hasBlank, Bool.or_eq_false_iff] at h
    refine ⟨by simp, hca, hcb, h.1.1, h.1.2, fun p hp => ?_⟩
    rw [Option.mem_some_iff] at hp
    rw [← hp]
    exact h.2

/-- A line is without a colon, has one, or has more. -/
theorem colon_cases (l : Str) : ':' ∉ l ∨ (∃ a b, l = a ++ ':' :: b ∧ ':' ∉ a ∧ ':' ∉ b) ∨
    ∃ a b d, l = a ++ ':' :: (b ++ ':' :: d) ∧ ':' ∉ a ∧ ':' ∉ b := by
  by_cases h : ':' ∈ l
  · obtain ⟨a, m, rfl, ha⟩ := List.eq_append_cons_of_mem h
    by_cases hm : ':' ∈ m
    · obtain ⟨b, d, rfl, hb⟩ := List.eq_append_cons_of_mem hm
      exact .inr (.inr ⟨a, b, d, rfl, ha, hb⟩)
    · exact .inr (.inl ⟨a, m, rfl, ha, hm⟩)
  · exact .inl h

/-- The form of a line says what its fields are. -/
theorem HasForm.unique {f f' : SvcLine} (hf : HasForm l f) (hf' : HasForm l f') : f = f' := by
  rcases colon_cases l with h | ⟨a, b, rfl, ha, hb⟩ | ⟨a, b, d, rfl, ha, hb⟩
  · exact absurd hf.colon_mem h
  · rw [((hasForm_one_iff ha hb).mp hf).1, ((hasForm_one_iff ha hb).mp hf').1]
  · rw [((hasForm_two_iff ha hb).mp hf).1, ((hasForm_two_iff ha hb).mp hf').1]

/-- A line that was split at the colons of its form gives its service exactly if it has the form. -/
theorem svchostParseAllocSvc_split {pre buf : Str} {entry : Nat} {param : Option Nat}
    (hpath : nul ∈ buf) (hentry : nul ∈ buf.drop entry) (hparam : ∀ p ∈ param, nul ∈ buf.drop p)
    (halloc : svchostParseAllocSvc pre.length (l ++ e :: rest) l.length =
      (svchostParseFields pre.length (buf ++ rest) entry param, buf ++ rest))
    (hform : ∀ f, HasForm l f ↔ f = splitLine buf entry param ∧ f.hasBlank = false) :
    (∃ f svc, HasForm l f ∧ svchostParseAllocSvc pre.length (l ++ e :: rest) l.length =
        (some svc, buf ++ rest) ∧ ∀ post, svc.line (pre ++ (buf ++ post)) = f.lead) ∨
      ((¬ ∃ f, HasForm l f) ∧
        (svchostParseAllocSvc pre.length (l ++ e :: rest) l.length).1 = none) := by
  rw [halloc]
  cases hblank : (splitLine buf entry param).hasBlank with
  | true =>
    refine .inr ⟨?_, svchostParseFields_none hpath hentry hparam _ hblank⟩
    rintro ⟨f, hf⟩
    obtain ⟨rfl, hnot⟩ := (hform f).mp hf
    exact absurd (hblank.symm.trans hnot) (by simp)
  | false =>
    obtain ⟨svc, hsvc, hfields⟩ :=
      @svchostParseFields_some rest buf entry param hpath hentry hparam pre hblank
    exact .inl ⟨_, svc, (hform _).mpr ⟨rfl, hblank⟩, by rw [hsvc], hfields⟩

/-- **One line**: it has the form and gives its service, or it does not and gives none. -/
theorem svchostParseAllocSvc_cases (hl : ∀ c ∈ l, lineEnd c = false) (e : Char) (rest pre : Str) :
    (∃ f svc buf, HasForm l f ∧ svchostParseAllocSvc pre.length (l ++ e :: rest) l.length =
        (some svc, buf ++ rest) ∧ buf.length = l.length + 1 ∧
        ∀ post, svc.line (pre ++ (buf ++ post)) = f.lead) ∨
      ((¬ ∃ f, HasForm l f) ∧
        (svchostParseAllocSvc pre.length (l ++ e :: rest) l.length).1 = none) := by
  have hnul := nul_notMem hl
  rcases colon_cases l with h | ⟨a, b, rfl, hca, hcb⟩ | ⟨a, b, d, rfl, hca, hcb⟩
  · exact .inr ⟨fun ⟨f, hf⟩ => h hf.colon_mem, svchostParseAllocSvc_of_notMem hl h _⟩
  · have ha : nul ∉ a := fun h => hnul (by simp [h])
    have hb : nul ∉ b := fun h => hnul (by simp [h])
    have hentry : nul ∈ (a ++ nul :: (b ++ [nul])).drop (a.length + 1) := by
      rw [drop_append_cons]
      simp
    rcases svchostParseAllocSvc_split (by simp) hentry (by simp)
      (svchostParseAllocSvc_one ha hb hca hcb pre.length)
      (fun f => by rw [splitLine_one ha hb]; exact hasForm_one_iff hca hcb) with
      ⟨f, svc, hf, halloc, hline⟩ | hnone
    · exact .inl ⟨f, svc, _, hf, halloc, by simp; omega, hline⟩
    · exact .inr hnone
  · have ha : nul ∉ a := fun h => hnul (by simp [h])
    have hb : nul ∉ b := fun h => hnul (by simp [h])
    have hd : nul ∉ d := fun h => hnul (by simp [h])
    have hentry : nul ∈ (a ++ nul :: (b ++ nul :: (d ++ [nul]))).drop (a.length + 1) := by
      rw [drop_append_cons]
      simp
    have hparam : nul ∈ (a ++ nul :: (b ++ nul :: (d ++ [nul]))).drop
        (a.length + 1 + b.length + 1) := by
      rw [Nat.add_assoc (a.length + 1), ← List.drop_drop, drop_append_cons, drop_append_cons]
      simp
    rcases svchostParseAllocSvc_split (by simp) hentry
      (fun p hp => by rw [Option.mem_some_iff] at hp; rw [← hp]; exact hparam)
      (svchostParseAllocSvc_two ha hb hca hcb pre.length)
      (fun f => by rw [splitLine_two ha hb hd]; exact hasForm_two_iff hca hcb) with
      ⟨f, svc, hf, halloc, hline⟩ | hnone
    · exact .inl ⟨f, svc, _, hf, halloc, by simp; omega, hline⟩
    · exact .inr hnone

/-! ## The loops -/

/-- Every line passes the check if those that are not skipped have the form. -/
theorem svchostParseCheckConf_lines {tmp : Str} {ls : List Str} (h : Lines lineEnd tmp ls)
    (hall : ∀ l ∈ ls, isSkipped l = false → ∃ f, HasForm l f) :
    svchostParseCheckConf tmp = true := by
  induction h with
  | nil => rw [svchostParseCheckConf, dif_pos rfl]
  | @cons l rest c ls clean stop tail ih =>
    obtain ⟨hstop, hstart⟩ := @svchostParseGetLine_eq l rest c clean stop
    have htail := ih fun l' hl' => hall l' (List.mem_cons_of_mem l hl')
    rw [svchostParseCheckConf, dif_neg (by simp)]
    dsimp only
    rw [hstop, drop_append_cons]
    by_cases hskip : isSkipped l = true
    · rw [if_neg (by simp [hstart.mpr hskip])]
      exact htail
    · obtain ⟨f, hf⟩ := hall l List.mem_cons_self (by simpa using hskip)
      rw [if_neg (by simp [svchostParseCheckLine_of_form clean hf])]
      exact htail

/-- The blocks that are not free are those of the list and the buffer. -/
def ConfLoop.Owned (s : ConfLoop) : Prop := s.live.Perm (s.svcs.map Prod.fst ++ [0])

/-- Freeing a list leaves the other blocks. -/
theorem svchostParseFreeSvc_perm (svcs : List (Nat × SvcEntry)) : ∀ {live others : List Nat},
    live.Perm (svcs.map Prod.fst ++ others) → (svchostParseFreeSvc svcs live).Perm others := by
  induction svcs with
  | nil => exact fun h => h
  | cons svc svcs ih =>
    intro live others h
    have herase := h.erase svc.1
    rw [List.map_cons, List.cons_append, List.erase_cons_head] at herase
    exact ih herase

theorem ConfLoop.Owned.add {s : ConfLoop} (h : s.Owned) (svc : SvcEntry) : (s.add svc).Owned := by
  rw [ConfLoop.Owned, ConfLoop.add, List.map_append, List.append_assoc]
  exact (h.cons _).trans List.perm_middle.symm

/-- **The loop of `svchost_parse_conf`**: it appends the services of the lines in their order, or it
meets a malformed line and frees all. -/
theorem svchostParseConf_lines {tmp : Str} {ls : List Str} (h : Lines lineEnd tmp ls) :
    ∀ s : ConfLoop, s.Owned →
      (∃ s' new fs more, svchostParseConf s tmp = (true, s') ∧ s'.Owned ∧
        s'.svcs = s.svcs ++ new ∧ s'.buf = s.buf ++ more ∧
        List.Forall₂ HasForm (ls.filter (!isSkipped ·)) fs ∧
        ∀ post, new.map (fun svc => svc.2.line (s'.buf ++ post)) = fs.map SvcLine.lead) ∨
      ((∃ l ∈ ls.filter (!isSkipped ·), ¬ ∃ f, HasForm l f) ∧
        (svchostParseConf s tmp).1 = false ∧ (svchostParseConf s tmp).2.live.Perm [0]) := by
  induction h with
  | nil =>
    intro s hs
    rw [svchostParseConf, dif_pos rfl]
    exact .inl ⟨s, [], [], [], rfl, hs, by simp, by simp, .nil, by simp⟩
  | @cons l rest c ls clean stop tail ih =>
    intro s hs
    obtain ⟨hstop, hstart⟩ := @svchostParseGetLine_eq l rest c clean stop
    rw [svchostParseConf, dif_neg (by simp)]
    dsimp only
    rw [hstop]
    by_cases hskip : isSkipped l = true
    · rw [if_neg (by simp [hstart.mpr hskip]), drop_append_cons,
        List.filter_cons_of_neg (by simp [hskip])]
      have hbuf : (s.skip (l ++ c :: rest) l.length).buf = s.buf ++ (l ++ [c]) := by
        rw [ConfLoop.skip, List.take_append, List.take_of_length_le (Nat.le_succ _)]
        simp
      rcases ih (s.skip (l ++ c :: rest) l.length) hs with
        ⟨s', new, fs, more, hconf, hown, hsvcs, hmore, hforms, hlines⟩ | herr
      · exact .inl ⟨s', new, fs, l ++ [c] ++ more, hconf, hown, hsvcs,
          by rw [hmore, hbuf, List.append_assoc], hforms, hlines⟩
      · exact .inr herr
    · rw [if_pos (fun hne => hskip (hstart.mp hne)), List.filter_cons_of_pos (by simp [hskip])]
      rcases svchostParseAllocSvc_cases clean c rest s.buf with
        ⟨f, svc, buf, hf, halloc, hlen, hline⟩ | ⟨hform, halloc⟩
      · rw [halloc]
        dsimp only
        have hbuf : ((s.add svc).skip (buf ++ rest) l.length).buf = s.buf ++ buf := by
          rw [ConfLoop.skip, ← hlen, List.take_left]
          rfl
        have hrest : (buf ++ rest).drop (l.length + 1) = rest := by
          rw [← hlen, List.drop_left]
        rw [hrest]
        rcases ih ((s.add svc).skip (buf ++ rest) l.length) (hs.add svc) with
          ⟨s', new, fs, more, hconf, hown, hsvcs, hmore, hforms, hlines⟩ | ⟨⟨l', hl', hform⟩, herr⟩
        · refine .inl ⟨s', (s.svcs.length + 1, svc) :: new, f :: fs, buf ++ more, hconf, hown,
            ?_, ?_, .cons hf hforms, fun post => ?_⟩
          · rw [hsvcs]
            simp [ConfLoop.skip, ConfLoop.add]
          · rw [hmore, hbuf, List.append_assoc]
          · rw [List.map_cons, List.map_cons, hlines post, hmore, hbuf]
            simp only [List.append_assoc]
            rw [hline]
        · exact .inr ⟨⟨l', List.mem_cons_of_mem l hl', hform⟩, herr⟩
      · rw [halloc]
        exact .inr ⟨⟨l, List.mem_cons_self, hform⟩, rfl, svchostParseFreeSvc_perm s.svcs hs⟩

/-- **The parser**: it gives the services of the lines without the blanks before their fields, or
there is no service or a malformed line and nothing is left. -/
theorem svchostParse_cases (content : Str) :
    (∃ svcs fs, (svchostParse content).svc = some svcs ∧ fs ≠ [] ∧
      List.Forall₂ HasForm (serviceLines content) fs ∧
      svcs.map (SvcEntry.line (svchostParse content).buf) = fs.map SvcLine.lead) ∨
    ((serviceLines content = [] ∨ ∃ l ∈ serviceLines content, ¬ ∃ f, HasForm l f) ∧
      (svchostParse content).svc = none ∧ (svchostParse content).live = []) := by
  unfold svchostParse
  by_cases hempty : content = []
  · subst hempty
    exact .inr ⟨.inl rfl, rfl, rfl⟩
  rw [if_neg hempty]
  dsimp only
  have hlines := lines_splitOnP (p := lineEnd) (e := nul) rfl content
  cases hcheck : svchostParseCheckConf (content ++ [nul]) with
  | false =>
    rw [if_neg (by simp)]
    refine .inr ⟨.inr ?_, rfl, rfl⟩
    by_contra hall
    rw [svchostParseCheckConf_lines hlines] at hcheck
    · exact absurd hcheck (by simp)
    · intro l hl hskip
      by_contra hform
      exact hall ⟨l, List.mem_filter.mpr ⟨hl, by simp [hskip]⟩, hform⟩
  | true =>
    rw [if_pos rfl]
    rcases svchostParseConf_lines hlines { buf := [], svcs := [], live := [0] } (.refl _) with
      ⟨s', new, fs, more, hconf, hown, hsvcs, hmore, hforms, hfields⟩ | ⟨hbad, hret, hlive⟩
    · rw [hconf]
      rw [List.nil_append] at hsvcs
      cases new with
      | nil =>
        have hfs : fs = [] := List.map_eq_nil_iff.mp (hfields []).symm
        have hnone : serviceLines content = [] := by
          rw [hfs] at hforms
          exact List.forall₂_nil_right_iff.mp hforms
        have hlive : s'.live = [0] := by
          rw [ConfLoop.Owned, hsvcs] at hown
          exact List.perm_singleton.mp hown
        rw [if_neg (by simp [hsvcs])]
        exact .inr ⟨.inl hnone, rfl, by dsimp only; rw [hlive]; rfl⟩
      | cons svc new =>
        have hfs : fs ≠ [] := fun hfs => by
          have hmap := hfields []
          rw [hfs] at hmap
          exact absurd hmap (by simp)
        rw [if_pos (by simp [hsvcs])]
        refine .inl ⟨_, fs, rfl, hfs, hforms, ?_⟩
        have hmap := hfields []
        rw [List.append_nil] at hmap
        rw [← hmap, hsvcs, List.map_map]
        rfl
    · rw [if_neg (by simp [hret])]
      exact .inr ⟨.inr hbad, rfl, by dsimp only; rw [List.perm_singleton.mp hlive]; rfl⟩

/-! ## When the parser is right -/

/-- A field that is not blank loses no blank behind it exactly if it has none. -/
theorem strip_eq_iff {w : Str} (h : isBlank w = false) :
    w.dropWhile (· == blank) = strip w ↔ ∀ a, w ≠ a ++ [blank] := by
  rw [eq_comm, strip, List.rdropWhile_eq_self_iff]
  constructor
  · rintro hlast a rfl
    have hne : a.dropWhile (· == blank) ≠ [] := fun hnil => by
      rw [← isBlank_iff, isBlank] at hnil
      rw [isBlank, List.all_append, hnil] at h
      exact absurd h (by decide)
    have hdrop : (a ++ [blank]).dropWhile (· == blank) = a.dropWhile (· == blank) ++ [blank] := by
      rw [List.dropWhile_append, if_neg (by simpa using hne)]
    simp only [hdrop] at hlast
    exact hlast (by simp) (by simp)
  · intro htight hl hp
    have hlast : (w.dropWhile (· == blank)).getLast hl = blank := by simpa using hp
    have hcut := (List.dropLast_append_getLast hl).symm
    rw [hlast] at hcut
    refine htight (w.takeWhile (· == blank) ++ (w.dropWhile (· == blank)).dropLast) ?_
    calc w = w.takeWhile (· == blank) ++ w.dropWhile (· == blank) :=
          List.takeWhile_append_dropWhile.symm
      _ = w.takeWhile (· == blank) ++ ((w.dropWhile (· == blank)).dropLast ++ [blank]) := by
          rw [← hcut]
      _ = _ := (List.append_assoc ..).symm

/-- Taking the blanks away before the fields is enough exactly if no field ends in one. -/
theorem HasForm.lead_eq_iff {f : SvcLine} (hf : HasForm l f) : f.lead = f.stripped ↔ f.Tight := by
  rw [SvcLine.lead, SvcLine.stripped, SvcLine.mk.injEq, SvcLine.Tight,
    strip_eq_iff hf.path_blank, strip_eq_iff hf.entry_blank]
  refine and_congr_right fun _ => and_congr_right fun _ => ?_
  cases h : f.param with
  | none => simp
  | some p =>
    have hp := strip_eq_iff (hf.param_blank p h)
    rw [Option.map_some, Option.map_some, Option.some.injEq, hp]
    simp

/-- Each element of the one list has its partner in the other. -/
theorem exists_mem_of_forall₂ {α β : Type} {r : α → β → Prop} {xs : List α} {ys : List β}
    (h : List.Forall₂ r xs ys) : ∀ x ∈ xs, ∃ y ∈ ys, r x y := by
  induction h with
  | nil => exact fun x hx => absurd hx (by simp)
  | @cons x y xs ys hxy _ ih =>
    intro z hz
    rcases List.mem_cons.mp hz with rfl | hz
    · exact ⟨y, List.mem_cons_self, hxy⟩
    · obtain ⟨y', hy', hr⟩ := ih z hz
      exact ⟨y', List.mem_cons_of_mem y hy', hr⟩

theorem hasForm_rightUnique : Relator.RightUnique HasForm := fun _ _ _ hf hf' => hf.unique hf'

/-- The same for all lines. -/
theorem map_lead_eq_iff {ls : List Str} {fs : List SvcLine} (h : List.Forall₂ HasForm ls fs) :
    fs.map SvcLine.lead = fs.map SvcLine.stripped ↔ ∀ l ∈ ls, ∀ f, HasForm l f → f.Tight := by
  rw [List.map_inj_left]
  constructor
  · intro heq l hl f hf
    obtain ⟨f', hf', hform⟩ := exists_mem_of_forall₂ h l hl
    rw [hf.unique hform]
    exact hform.lead_eq_iff.mp (heq f' hf')
  · intro htight f hf
    obtain ⟨l, hl, hform⟩ := exists_mem_of_forall₂ h.flip f hf
    exact hform.lead_eq_iff.mpr (htight l hl f hform)

theorem ParseRight.handled {content : Str} (h : ParseRight content) : ParseHandled content := by
  rcases svchostParse_cases content with ⟨svcs, fs, hsome, hne, hforms, hfields⟩ |
    ⟨hnone | hbad, hnull, -⟩
  · obtain ⟨fs', hforms', hfields'⟩ := h.yields svcs hsome
    have hfs : fs' = fs := hasForm_rightUnique.forall₂ hforms' hforms
    rw [hfs] at hfields'
    refine .inr ⟨fun hnil => ?_, (map_lead_eq_iff hforms).mp (hfields.symm.trans hfields')⟩
    rw [hnil] at hforms
    exact hne (List.forall₂_nil_left_iff.mp hforms)
  · have hok := h.success.mpr fun l hl => by
      rw [hnone] at hl
      exact absurd hl (by simp)
    rw [hnull] at hok
    exact absurd hok (by simp)
  · exact .inl hbad

theorem ParseHandled.right {content : Str} (h : ParseHandled content) : ParseRight content := by
  rcases svchostParse_cases content with ⟨svcs, fs, hsome, hne, hforms, hfields⟩ |
    ⟨hnone | ⟨l, hl, hform⟩, hnull, hlive⟩
  · have hall := exists_mem_of_forall₂ hforms
    rcases h with ⟨l, hl, hbad⟩ | ⟨-, htight⟩
    · obtain ⟨f, -, hf⟩ := hall l hl
      exact absurd ⟨f, hf⟩ hbad
    · refine ⟨⟨fun _ l hl => (hall l hl).imp fun _ h => h.2, fun _ => by rw [hsome]; rfl⟩, ?_, ?_⟩
      · intro svcs' hsvcs
        obtain rfl : svcs = svcs' := Option.some.inj (hsome.symm.trans hsvcs)
        exact ⟨fs, hforms, hfields.trans ((map_lead_eq_iff hforms).mpr htight)⟩
      · intro hnone
        exact absurd (hsome.symm.trans hnone) (by simp)
  · rcases h with ⟨l, hl, -⟩ | ⟨hne, -⟩
    · rw [hnone] at hl
      exact absurd hl (by simp)
    · exact absurd hnone hne
  · refine ⟨?_, ?_, fun _ => hlive⟩
    · rw [hnull]
      exact ⟨fun h => absurd h (by simp), fun h => absurd (h l hl) hform⟩
    · intro svcs hsome
      exact absurd (hnull.symm.trans hsome) (by simp)

/-- **The parser is right exactly if** a line is malformed, or there is a service and no field ends
in a blank. -/
theorem parseRight_iff (content : Str) : ParseRight content ↔ ParseHandled content :=
  ⟨ParseRight.handled, ParseHandled.right⟩

/-- A blank before a colon stays in the path. -/
theorem not_parseRight : ¬ ParseRight "ibso.so : init : aaaa".toList := by
  intro h
  have hlines : serviceLines "ibso.so : init : aaaa".toList = ["ibso.so : init : aaaa".toList] := by
    decide
  have hform : HasForm "ibso.so : init : aaaa".toList
      { path := "ibso.so ".toList, entry := " init ".toList, param := some " aaaa".toList } :=
    ⟨by decide, by decide, by decide, by decide, by decide, by decide⟩
  rcases h.handled with ⟨l, hl, hbad⟩ | ⟨-, htight⟩
  · rw [hlines, List.mem_singleton] at hl
    rw [hl] at hbad
    exact hbad ⟨_, hform⟩
  · have hmem : "ibso.so : init : aaaa".toList ∈ serviceLines "ibso.so : init : aaaa".toList := by
      rw [hlines]
      exact List.mem_singleton_self _
    exact (htight _ hmem _ hform).1 "ibso.so".toList rfl

end OnuFirmware.Svchost
