import OnuFirmware.Clib.Str
import OnuFirmware.Lib.Guard
import OnuFirmware.Lib.Probe

/-!
# The table of the language strings (`parsers.c`)

A file holds a string for each key. A table in memory holds the place of each line, under a number
that is made of the key. A string is read from the line whose place is in the slot where the search
for its key ends, found or not, and the key is only compared with the beginning of the line.
-/

namespace OnuFirmware.Asp

open Clib Lib

/-! ## The table -/

/-- `HASH`. The key is `NULLKEY`, which is 0, in an empty slot, and so is the offset. -/
structure Hash where
  key : Nat
  ioffset : Nat
deriving Repr, DecidableEq

/-- `hashsize`. -/
def hashsize : List Nat := [2531, 2743, 3137, 3529]

/-- `SParser`; `m` is the length of the table. -/
structure SParser where
  ele : List Hash
  count : Nat
  sizeindex : Nat

/-- An empty slot. -/
def nullHash : Hash := ⟨0, 0⟩

/-- A table without keys. -/
def emptySlots (m : Nat) : List Hash := List.replicate m nullHash

/-- A `char`. C leaves open whether it has a sign; here it has one. The number of a key without
bytes from 128 on does not depend on it. -/
def charVal (c : Char) : Int := if c.toNat < 128 then c.toNat else c.toNat - 256

/-- `getkey`. -/
def getkey (ckey : Str) : Nat :=
  (ckey.foldl (fun sum c => (sum * 131 + charVal c) % 2 ^ 32) 0).toNat % 2 ^ 31

/-- The loop of `Find`: whether the key is found, the slot and the number of steps. After `left`
more steps all of them are made. -/
def findFrom (ele : List Hash) (key : Nat) : Nat → Nat → Nat → Bool × Nat × Nat
  | left, p, c =>
    let k := (ele.getD p nullHash).key
    if k = 0 ∨ k = key then (k == key, p, c)
    else
      match left with
      | 0 => (false, p, c + 1)
      | left + 1 => findFrom ele key left ((p + (c + 1)) % ele.length) (c + 1)

/-- `Find`. -/
def find (ele : List Hash) (key : Nat) : Bool × Nat × Nat :=
  findFrom ele key (ele.length - 1) (key % ele.length) 0

/-- `insertToHash`. In `reCreateHashTable`, which is written out, the elements are saved and
inserted in a table of the next size. That happens at most `fuel` times, one inside the other. -/
def insertToHash : Nat → SParser → Hash → Except Fault SParser
  | fuel, H, elem =>
    let r := find H.ele elem.key
    if r.1 then .ok H
    else if r.2.2 < H.ele.length / 2 then
      .ok { H with ele := H.ele.set r.2.1 elem, count := H.count + 1 }
    else
      match fuel, hashsize[H.sizeindex + 1]? with
      | _, none => .error .overrun
      | 0, _ => .error .overrun
      | fuel + 1, some m =>
        let pold := H.ele.filter fun e => e.key ≠ 0
        if pold.length < H.count then .error .uninit
        else
          (pold.take H.count).foldlM (insertToHash fuel) ⟨emptySlots m, 0, H.sizeindex + 1⟩ >>=
            fun H => insertToHash fuel H elem

/-! ## The file -/

/-- `MAX_KEY`. -/
def maxKey : Nat := 32

/-- `MAX_VALUE`. -/
def maxValue : Nat := 580

/-- `MAX_STREAM`. -/
def maxStream : Nat := maxKey + maxValue + 4

/-- The key of a line that has one. -/
def lineKey (stream : Str) : Option Str :=
  if stream.head? = some ';' ∨ '=' ∉ stream then none else some (stream.takeWhile (· ≠ '='))

/-- The loop of `initandparserfile`. The file is given by its lines, as `fgets` reads them, with the
line ends. -/
def parseLines : List Str → Nat → SParser → Except Fault SParser
  | [], _, H => .ok H
  | stream :: lines, offset, H =>
    match lineKey stream with
    | none => parseLines lines (offset + stream.length) H
    | some key =>
      if maxKey ≤ key.length then .error .overrun
      else
        insertToHash hashsize.length H ⟨getkey key, offset⟩ >>=
          parseLines lines (offset + stream.length)

/-- `initandparserfile`, where memory can be allocated. -/
def initandparserfile (lines : List Str) : Except Fault SParser :=
  parseLines lines 0 ⟨emptySlots (hashsize.headD 0), 0, 0⟩

/-- `fseek` and `fgets`. -/
def lineAt : List Str → Nat → Option Str
  | [], _ => none
  | stream :: lines, offset =>
    if offset < stream.length then some (stream.drop offset)
    else lineAt lines (offset - stream.length)

/-- `enterOffSet`. -/
def enterOffSet (stream : Str) : Nat :=
  (if '\r' ∈ stream then 1 else 0) + if '\n' ∈ stream then 1 else 0

/-- `totalLength`. -/
def totalLength (stream pkey : Str) : Int :=
  stream.length - pkey.length - 1 - enterOffSet stream

/-- The text that is taken from a line. -/
def readValue (stream pkey : Str) : Option Str :=
  if pkey.isPrefixOf stream then
    if maxValue < totalLength stream pkey + 1 ∨ totalLength stream pkey < 0 then none
    else some ((stream.drop (pkey.length + 1)).take (totalLength stream pkey).toNat)
  else none

/-- `getString`: what it stores in `value`, if it does not end before. -/
def getString (lines : List Str) (H : SParser) (pkey : Str) : Option Str :=
  if pkey = [] then none
  else
    let p := (find H.ele (getkey pkey)).2.1
    (lineAt lines (H.ele.getD p nullHash).ioffset).bind (readValue · pkey)

/-- What `getString` returns: the length, or `FAILURE`, which is 0. -/
def getStringRet (lines : List Str) (H : SParser) (pkey : Str) : Nat :=
  (getString lines H pkey).elim 0 List.length

/-! ## Statement -/

/-- The lines with a key, with their offsets. -/
def keyLines : Nat → List Str → List (Nat × Str × Str)
  | _, [] => []
  | offset, stream :: lines =>
    match lineKey stream with
    | none => keyLines (offset + stream.length) lines
    | some key => (offset, key, stream) :: keyLines (offset + stream.length) lines

/-- The keys of a file. -/
def fileKeys (lines : List Str) : List Str := (keyLines 0 lines).map (·.2.1)

/-- A text without a character at its end. -/
def stripEnd (c : Char) (s : Str) : Str := if s.getLast? = some c then s.dropLast else s

/-- A line without the newline. -/
def chomp (stream : Str) : Str := stripEnd '\n' stream

/-- A line without its end, which can have a `\r` before the newline. -/
def bareLine (stream : Str) : Str := stripEnd '\r' (chomp stream)

/-- The text of a key: what follows the `=`. -/
def lineValue (key stream : Str) : Str := (bareLine stream).drop (key.length + 1)

/-- A string file. Only the last line can be without a newline. -/
structure StringFile (lines : List Str) : Prop where
  line_pos : ∀ stream ∈ lines, stream ≠ []
  line_short : ∀ stream ∈ lines, stream.length < maxStream
  line_end : ∀ stream ∈ lines, '\n' ∉ stream.dropLast
  line_newline : ∀ stream ∈ lines.dropLast, '\n' ∈ stream
  key_short : ∀ key ∈ fileKeys lines, key.length < maxKey
  key_ne : ∀ key ∈ fileKeys lines, getkey key ≠ 0
  key_distinct : ((fileKeys lines).map getkey).Nodup

/-- The table is made, every key of the file is found and read, and no other one is. -/
def TableRight (lines : List Str) : Prop :=
  ∃ H, initandparserfile lines = .ok H ∧
    (∀ offset key stream, (offset, key, stream) ∈ keyLines 0 lines →
      (find H.ele (getkey key)).1 = true ∧
        (H.ele.getD (find H.ele (getkey key)).2.1 nullHash).ioffset = offset ∧
        getString lines H key = some (lineValue key stream)) ∧
    ∀ pkey, pkey ∉ fileKeys lines → getStringRet lines H pkey = 0

/-- The line that is read for a key, in a table with the numbers `t`: the line of the number in the
slot where the search ends, or the first line if that is empty. -/
def shownLine (lines : List Str) (t : List Nat) (pkey : Str) : Option Str :=
  let k := slotAt t (endSlot t (getkey pkey))
  if k = 0 then lines.head?
  else ((keyLines 0 lines).find? fun l => getkey l.2.1 = k).map (·.2.2)

/-- The text of a key can be read from its line: it is not too long, and a line with a `\r` has one
at its end. -/
def ValueOk (key stream : Str) : Prop :=
  (lineValue key stream).length < maxValue ∧
    ('\r' ∈ stream → (chomp stream).getLast? = some '\r')

/-- Something is read from a line for a text that is no key: the text starts the line, and there are
between one and 579 characters behind the one that follows it. -/
def Shows (stream pkey : Str) : Prop :=
  pkey <+: stream ∧ 0 < totalLength stream pkey ∧ totalLength stream pkey < maxValue

/-- When the table is right. -/
def TableCond (lines : List Str) : Prop :=
  ∃ t, settle hashsize.tail (List.replicate (hashsize.headD 0) 0) ((fileKeys lines).map getkey) =
      some t ∧
    (∀ offset key stream, (offset, key, stream) ∈ keyLines 0 lines → ValueOk key stream) ∧
    ∀ pkey, pkey ≠ [] → pkey ∉ fileKeys lines → ∀ stream, shownLine lines t.2 pkey = some stream →
      ¬ Shows stream pkey

end OnuFirmware.Asp
