import OnuFirmware.Clib.Num
import OnuFirmware.Romfile.Frame

/-!
# When `check_checksum` accepts

`check_checksum` once more, with the system calls that may fail and with what it does on the way:
how many bytes the CRC is computed over and what becomes of the output file. The length in the
header is used before it is checked: less than the size of the header it wraps around, and more than
was read it takes the CRC to bytes that no one wrote. A `read` that fails is not noticed, since its
result is kept in an unsigned number; the header is then taken from memory that was never written.
`checkRight_iff` says for which images all goes well.
-/

namespace OnuFirmware.Romfile

open Clib

/-! ## The function -/

/-- The system calls of `check_checksum`: whether `malloc` and the two calls of `open` succeed, how
many of the bytes asked for `read` gives, and how many `write` takes (`none` for `-1`). -/
structure CheckCalls where
  malloc : Bool
  fdin : Bool
  read : Bytes → Option Nat
  fdout : Bool
  write : Bytes → Option Nat

/-- No call fails. -/
def CheckCalls.good : CheckCalls :=
  ⟨true, true, fun b => some b.length, true, fun b => some b.length⟩

/-- The bytes that `read` gives. -/
def CheckCalls.data (calls : CheckCalls) (mtdErasesize : Nat) (configinfo : Bytes) : Bytes :=
  let file := configinfo.take mtdErasesize
  file.take ((calls.read file).getD 0)

/-- What one call of `check_checksum` does: the return value, the number of bytes behind the header
that the CRC is computed over, and the new content of the output file, if it is opened. -/
structure CheckRun where
  ret : Int
  crc : Option Nat
  output : Option Bytes
deriving Repr, DecidableEq

/-- `check_checksum` from the CRC on: `body` are the `n` bytes behind the header. -/
def checkBody (lay : HeaderLayout) (calls : CheckCalls) (header : TrxHeader) (n : Nat)
    (body : Bytes) : CheckRun :=
  if header.crc32 ≠ computeCrc32buf body then ⟨-1, some n, none⟩
  else if !calls.fdout then ⟨-1, some n, none⟩
  else if header.len.toNat ≤ lay.size then ⟨-1, some n, some []⟩
  else if calls.write body = some n then ⟨0, some n, some body⟩
  else ⟨-1, some n, some (body.take ((calls.write body).getD 0))⟩

/-- `check_checksum`. -/
def checkChecksumRun (lay : HeaderLayout) (mtdErasesize : Nat) (heap : Nat → UInt8)
    (calls : CheckCalls) (configinfo : Bytes) : Except Fault CheckRun :=
  if !calls.malloc then .ok ⟨-1, none, none⟩
  else if !calls.fdin then .ok ⟨-1, none, none⟩
  else
    let data := calls.data mtdErasesize configinfo
    let buf := data ++ (List.range' data.length (mtdErasesize + 1 - data.length)).map heap
    -- `read_count` is unsigned, so `-1` is not less than the size of the header
    if (calls.read (configinfo.take mtdErasesize)).isSome ∧ data.length < lay.size then
      .ok ⟨-1, none, none⟩
    else if mtdErasesize + 1 < lay.size then .error .overrun
    else
      let header := lay.decode buf
      if header.magic ≠ trxMagic3 then .ok ⟨-1, none, none⟩
      else
        -- `pheader->len - sizeof(struct trx_header)` is unsigned
        let n := (header.len - UInt32.ofNat lay.size).toNat
        if mtdErasesize + 1 < lay.size + n then .error .overrun
        else .ok (checkBody lay calls header n ((buf.drop lay.size).take n))

/-- The outcome that the caller sees. -/
def CheckRun.result (run : CheckRun) : CheckResult :=
  if run.ret = 0 then .ok (run.output.getD [])
  else if run.crc.isSome ∧ run.output = none then .crcErr
  else .bad

/-- While no call fails, the run is the one that `checkChecksum` describes. -/
theorem checkChecksumRun_good (lay : HeaderLayout) (e : Nat) (heap : Nat → UInt8)
    (configinfo : Bytes) :
    (checkChecksumRun lay e heap .good configinfo).map CheckRun.result =
      checkChecksum lay e heap configinfo := by
  have hdata : CheckCalls.good.data e configinfo = configinfo.take e := List.take_length
  have hle : (configinfo.take e).length ≤ e := List.length_take_le e configinfo
  unfold checkChecksumRun checkChecksum
  rw [if_neg (show ¬ (!CheckCalls.good.malloc) = true by decide),
    if_neg (show ¬ (!CheckCalls.good.fdin) = true by decide)]
  simp only [hdata]
  generalize hbuf : configinfo.take e ++ _ = buf
  have hlen : buf.length = e + 1 := by
    rw [← hbuf, List.length_append, List.length_map, List.length_range']
    omega
  have hsome : (CheckCalls.good.read (configinfo.take e)).isSome = true := rfl
  simp only [hsome, true_and]
  split
  · rfl
  rw [if_neg (by omega)]
  split
  · rfl
  split
  · rfl
  next hfit =>
  have hbody : ((buf.drop lay.size).take
      ((lay.decode buf).len - UInt32.ofNat lay.size).toNat).length =
        ((lay.decode buf).len - UInt32.ofNat lay.size).toNat := by
    rw [List.length_take, List.length_drop, hlen, Nat.min_eq_left]
    omega
  have hwrite : CheckCalls.good.write
      ((buf.drop lay.size).take ((lay.decode buf).len - UInt32.ofNat lay.size).toNat) =
        some ((lay.decode buf).len - UInt32.ofNat lay.size).toNat := congrArg some hbody
  unfold checkBody
  rw [show (!CheckCalls.good.fdout) = false from rfl, if_pos hwrite]
  split
  · rfl
  split
  · next h => exact absurd h (by decide)
  split <;> rfl

/-! ## Well-framed images -/

/-- A header that is overlaid on the start of a buffer depends on its first bytes only. -/
structure HeaderOverlay extends HeaderLayout where
  decode_take : ∀ b, decode (b.take size) = decode b

/-- The bytes are a header with the magic number and a body of the length and the CRC that the
header gives; more bytes may follow. -/
def WellFramed (lay : HeaderLayout) (data : Bytes) : Prop :=
  lay.size ≤ data.length ∧ (lay.decode data).magic = trxMagic3 ∧
    lay.size < (lay.decode data).len.toNat ∧ (lay.decode data).len.toNat ≤ data.length ∧
    (lay.decode data).crc32 =
      computeCrc32buf ((data.drop lay.size).take ((lay.decode data).len.toNat - lay.size))

/-- `check_checksum` accepts exactly the images that are well framed, looks at and writes only what
was read, and leaves the output file alone or empty when it refuses. -/
def CheckRight (lay : HeaderLayout) (mtdErasesize : Nat) (heap : Nat → UInt8) (calls : CheckCalls)
    (configinfo : Bytes) : Prop :=
  ∃ run, checkChecksumRun lay mtdErasesize heap calls configinfo = .ok run ∧
    (run.ret = 0 ↔ WellFramed lay (calls.data mtdErasesize configinfo)) ∧
    (∀ n ∈ run.crc, 0 < n → lay.size + n ≤ (calls.data mtdErasesize configinfo).length) ∧
    (∀ out ∈ run.output, out <+: (calls.data mtdErasesize configinfo).drop lay.size) ∧
    (run.ret = -1 → run.output = none ∨ run.output = some [])

/-- The block that `malloc` gives, with what it held before. -/
def newBlock (mtdErasesize : Nat) (heap : Nat → UInt8) : Bytes :=
  (List.range' 0 (mtdErasesize + 1)).map heap

/-- When all goes well: the length in a header with the magic number is between the size of the
header and the number of bytes that were read; if nothing can be read, the new block does not by
chance hold a header with the magic number and another length than its own; and no call fails for
an image that is well framed. -/
structure CheckCond (lay : HeaderLayout) (mtdErasesize : Nat) (heap : Nat → UInt8)
    (calls : CheckCalls) (configinfo : Bytes) : Prop where
  len : calls.malloc = true → calls.fdin = true →
    lay.size ≤ (calls.data mtdErasesize configinfo).length →
    (lay.decode (calls.data mtdErasesize configinfo)).magic = trxMagic3 →
    lay.size ≤ (lay.decode (calls.data mtdErasesize configinfo)).len.toNat ∧
      (lay.decode (calls.data mtdErasesize configinfo)).len.toNat ≤
        (calls.data mtdErasesize configinfo).length
  unread : calls.malloc = true → calls.fdin = true →
    calls.read (configinfo.take mtdErasesize) = none →
    lay.size ≤ mtdErasesize + 1 ∧
      ((lay.decode (newBlock mtdErasesize heap)).magic = trxMagic3 →
        (lay.decode (newBlock mtdErasesize heap)).len.toNat = lay.size)
  calls : WellFramed lay (calls.data mtdErasesize configinfo) →
    calls.malloc = true ∧ calls.fdin = true ∧ calls.fdout = true ∧
      calls.write (((calls.data mtdErasesize configinfo).drop lay.size).take
          ((lay.decode (calls.data mtdErasesize configinfo)).len.toNat - lay.size)) =
        some ((lay.decode (calls.data mtdErasesize configinfo)).len.toNat - lay.size)

section Right

variable {lay : HeaderOverlay} {e : Nat} {heap : Nat → UInt8} {calls : CheckCalls}
  {configinfo : Bytes}

/-- The header is read from the file, not from the rest of the block. -/
theorem HeaderOverlay.decode_append (lay : HeaderOverlay) {data : Bytes} (rest : Bytes)
    (h : lay.size ≤ data.length) : lay.decode (data ++ rest) = lay.decode data := by
  rw [← lay.decode_take, List.take_append_of_le_length h, lay.decode_take]

theorem toNat_len_sub (lay : HeaderLayout) (len : UInt32) :
    (len - UInt32.ofNat lay.size).toNat =
      if lay.size ≤ len.toNat then len.toNat - lay.size else 4294967296 + len.toNat - lay.size := by
  have hle := lay.size_le
  simp only [romfileMaxLen] at hle
  have hsz : (UInt32.ofNat lay.size).toNat = lay.size := by
    rw [UInt32.toNat_ofNat_of_lt']
    show lay.size < 4294967296
    omega
  have hlt := len.toNat_lt
  rw [UInt32.toNat_sub, hsz]
  split <;> omega

theorem checkBody_crc (lay : HeaderLayout) (calls : CheckCalls) (header : TrxHeader) (n : Nat)
    (body : Bytes) : (checkBody lay calls header n body).crc = some n := by
  unfold checkBody
  repeat' split
  all_goals rfl

theorem data_of_unread (hr : calls.read (configinfo.take e) = none) :
    calls.data e configinfo = [] := by
  rw [CheckCalls.data, hr]
  exact List.take_zero

theorem block_of_unread (e : Nat) (heap : Nat → UInt8) :
    ([] ++ (List.range' ([] : Bytes).length (e + 1 - ([] : Bytes).length)).map heap : Bytes) =
      newBlock e heap := rfl

theorem length_data_le (calls : CheckCalls) (e : Nat) (configinfo : Bytes) :
    (calls.data e configinfo).length ≤ e :=
  (List.length_take_le' _ _).trans (List.length_take_le e configinfo)

/-- A header has at least one byte: there are different headers. -/
theorem HeaderLayout.size_pos (lay : HeaderLayout) : 0 < lay.size := by
  by_contra hzero
  have hnil : ∀ h, lay.encode h = [] := fun h =>
    List.length_eq_zero_iff.mp ((lay.length_encode h).trans (by omega))
  have hdecode : ∀ h, lay.decode [] = h := fun h => by
    have hd := lay.decode_encode h []
    rwa [hnil] at hd
  have hsame := (hdecode ⟨0, 0, 0, 0, 0⟩).symm.trans (hdecode ⟨1, 0, 0, 0, 0⟩)
  exact absurd (congrArg TrxHeader.magic hsame) (by decide)

theorem not_wellFramed_nil (lay : HeaderLayout) : ¬ WellFramed lay [] := fun h =>
  absurd h.1 (Nat.not_le.mpr lay.size_pos)

/-- A file that starts with a header of the right magic number. -/
theorem checkChecksumRun_header (hm : calls.malloc = true) (hf : calls.fdin = true)
    (hsize : lay.size ≤ (calls.data e configinfo).length)
    (hmagic : (lay.decode (calls.data e configinfo)).magic = trxMagic3) {n : Nat}
    (hn : n = ((lay.decode (calls.data e configinfo)).len - UInt32.ofNat lay.size).toNat) :
    ∃ rest : Bytes, checkChecksumRun lay.toHeaderLayout e heap calls configinfo =
      if e + 1 < lay.size + n then .error .overrun
      else .ok (checkBody lay.toHeaderLayout calls (lay.decode (calls.data e configinfo)) n
        (((calls.data e configinfo ++ rest).drop lay.size).take n)) := by
  refine ⟨(List.range' (calls.data e configinfo).length
    (e + 1 - (calls.data e configinfo).length)).map heap, ?_⟩
  have hle := length_data_le calls e configinfo
  unfold checkChecksumRun
  simp only [hm, hf, lay.decode_append _ hsize, hmagic, ← hn]
  rw [if_neg (by decide), if_neg (by decide), if_neg (by omega), if_neg (by omega),
    if_neg (by simp)]

/-- The header of a new block. -/
theorem checkChecksumRun_unread (hm : calls.malloc = true) (hf : calls.fdin = true)
    (hr : calls.read (configinfo.take e) = none) (hfit : lay.size ≤ e + 1)
    (hmagic : (lay.decode (newBlock e heap)).magic = trxMagic3) {n : Nat}
    (hn : n = ((lay.decode (newBlock e heap)).len - UInt32.ofNat lay.size).toNat) :
    checkChecksumRun lay.toHeaderLayout e heap calls configinfo =
      if e + 1 < lay.size + n then .error .overrun
      else .ok (checkBody lay.toHeaderLayout calls (lay.decode (newBlock e heap)) n
        (((newBlock e heap).drop lay.size).take n)) := by
  unfold checkChecksumRun
  simp only [hm, hf, data_of_unread hr, hr, block_of_unread, hmagic, ← hn]
  rw [if_neg (by decide), if_neg (by decide), if_neg (by simp), if_neg (by omega),
    if_neg (by simp)]

/-- `check_checksum` with a body that was read. -/
theorem checkBody_right {d : TrxHeader} {data : Bytes} (hd : d = lay.decode data)
    (hsize : lay.size ≤ data.length) (hmagic : d.magic = trxMagic3) (hlow : lay.size ≤ d.len.toNat)
    (hhigh : d.len.toNat ≤ data.length) {run : CheckRun}
    (hrun : run = checkBody lay.toHeaderLayout calls d (d.len.toNat - lay.size)
      ((data.drop lay.size).take (d.len.toNat - lay.size))) :
    ((run.ret = 0 ↔ WellFramed lay.toHeaderLayout data) ∧
        (∀ n ∈ run.crc, 0 < n → lay.size + n ≤ data.length) ∧
        (∀ out ∈ run.output, out <+: data.drop lay.size) ∧
        (run.ret = -1 → run.output = none ∨ run.output = some [])) ↔
      (WellFramed lay.toHeaderLayout data → calls.fdout = true ∧
        calls.write ((data.drop lay.size).take (d.len.toNat - lay.size)) =
          some (d.len.toNat - lay.size)) := by
  have hframed : WellFramed lay.toHeaderLayout data ↔ lay.size < d.len.toNat ∧
      d.crc32 = computeCrc32buf ((data.drop lay.size).take (d.len.toNat - lay.size)) := by
    unfold WellFramed
    rw [← hd]
    exact ⟨fun h => ⟨h.2.2.1, h.2.2.2.2⟩, fun h => ⟨hsize, hmagic, h.1, hhigh, h.2⟩⟩
  have hfit : lay.size + (d.len.toNat - lay.size) ≤ data.length := by omega
  have hpre : ∀ k, ((data.drop lay.size).take (d.len.toNat - lay.size)).take k <+:
      data.drop lay.size := fun k => ( List.take_prefix _ _).trans ( List.take_prefix _ _)
  subst hrun
  rw [hframed]
  unfold checkBody
  by_cases hmatch : d.crc32 = computeCrc32buf ((data.drop lay.size).take (d.len.toNat - lay.size))
  swap
  · -- refused before the output file is opened
    rw [if_pos hmatch]
    simp [hmatch, hfit]
  rw [if_neg (not_not.mpr hmatch)]
  by_cases hout : calls.fdout = true
  swap
  · rw [if_pos (by simpa using hout)]
    simp [hmatch, hout, hfit]
  rw [if_neg (by simp [hout])]
  by_cases hlen : d.len.toNat ≤ lay.size
  · rw [if_pos hlen]
    simp [Nat.not_lt.mpr hlen, hfit]
  rw [if_neg hlen]
  by_cases hwrite : calls.write ((data.drop lay.size).take (d.len.toNat - lay.size)) =
      some (d.len.toNat - lay.size)
  · rw [if_pos hwrite]
    have hall := hpre (d.len.toNat - lay.size)
    rw [List.take_take, Nat.min_self] at hall
    simp [hmatch, hout, hwrite, Nat.not_le.mp hlen, hall, hfit]
  · -- the image is well framed, but not all of it was written
    rw [if_neg hwrite]
    simp [hmatch, hout, hwrite, Nat.not_le.mp hlen, hfit, hpre]

/-- An image that is refused at once. -/
theorem checkRight_refused
    (hrun : checkChecksumRun lay.toHeaderLayout e heap calls configinfo = .ok ⟨-1, none, none⟩) :
    CheckRight lay.toHeaderLayout e heap calls configinfo ↔
      ¬ WellFramed lay.toHeaderLayout (calls.data e configinfo) := by
  unfold CheckRight
  simp [hrun]

/-- An empty body makes no difference to anything but the output file. -/
theorem checkBody_nil {d : TrxHeader} (hlen : d.len.toNat = lay.size) :
    (checkBody lay.toHeaderLayout calls d 0 []).ret = -1 ∧
      ((checkBody lay.toHeaderLayout calls d 0 []).output = none ∨
        (checkBody lay.toHeaderLayout calls d 0 []).output = some []) := by
  unfold checkBody
  rw [if_pos (Nat.le_of_eq hlen)]
  split
  · exact ⟨rfl, .inl rfl⟩
  split
  · exact ⟨rfl, .inl rfl⟩
  · exact ⟨rfl, .inr rfl⟩

/-- Nothing was read: the header is that of the new block. -/
theorem checkRight_unread (hm : calls.malloc = true) (hf : calls.fdin = true)
    (hr : calls.read (configinfo.take e) = none) :
    CheckRight lay.toHeaderLayout e heap calls configinfo ↔ lay.size ≤ e + 1 ∧
      ((lay.decode (newBlock e heap)).magic = trxMagic3 →
        (lay.decode (newBlock e heap)).len.toNat = lay.size) := by
  have hdata := data_of_unread hr
  by_cases hfit : lay.size ≤ e + 1
  swap
  · -- the header is larger than the block
    refine iff_of_false ?_ fun h => hfit h.1
    rintro ⟨run, hok, -⟩
    unfold checkChecksumRun at hok
    simp only [hm, hf, hr] at hok
    rw [if_neg (by decide), if_neg (by decide), if_neg (by simp), if_pos (by omega)] at hok
    cases hok
  by_cases hmagic : (lay.decode (newBlock e heap)).magic = trxMagic3
  swap
  · rw [checkRight_refused, hdata]
    · exact iff_of_true (not_wellFramed_nil _) ⟨hfit, fun h => absurd h hmagic⟩
    · unfold checkChecksumRun
      simp only [hm, hf, hdata, hr, block_of_unread]
      rw [if_neg (by decide), if_neg (by decide), if_neg (by simp), if_neg (by omega),
        if_pos hmagic]
  have hrun := checkChecksumRun_unread hm hf hr hfit hmagic rfl
  have hsub := toNat_len_sub lay.toHeaderLayout (lay.decode (newBlock e heap)).len
  have hsmall := lay.size_le
  have hlt := (lay.decode (newBlock e heap)).len.toNat_lt
  simp only [romfileMaxLen] at hsmall
  by_cases hlen : (lay.decode (newBlock e heap)).len.toNat = lay.size
  · rw [if_pos (by omega), hlen, Nat.sub_self] at hsub
    rw [hsub, if_neg (by omega), List.take_zero] at hrun
    obtain ⟨hret, hout⟩ := @checkBody_nil lay calls _ hlen
    refine iff_of_true ⟨_, hrun, ?_, fun n hn hpos => ?_, fun out ho => ?_, fun _ => hout⟩
      ⟨hfit, fun _ => hlen⟩
    · rw [hret, hdata]
      exact iff_of_false (by decide) (not_wellFramed_nil _)
    · rw [checkBody_crc] at hn
      cases hn
      exact absurd hpos (Nat.lt_irrefl 0)
    · rcases hout with h | h
      · rw [h] at ho
        cases ho
      · rw [h] at ho
        cases ho
        exact List.nil_prefix
  · -- the CRC is computed over memory that was never written
    refine iff_of_false ?_ fun h => hlen (h.2 hmagic)
    rintro ⟨run, hok, -, hcrc, -⟩
    rw [hrun] at hok
    split at hok
    · cases hok
    · obtain rfl := Except.ok.inj hok
      have hle := hcrc _ (checkBody_crc ..) (by split at hsub <;> omega)
      rw [hdata, List.length_nil] at hle
      have hpos := lay.size_pos
      omega

/-- A header and what follows it were read. -/
theorem checkRight_read (he : e ≤ intMax) (hm : calls.malloc = true) (hf : calls.fdin = true)
    (hsize : lay.size ≤ (calls.data e configinfo).length)
    (hmagic : (lay.decode (calls.data e configinfo)).magic = trxMagic3) :
    CheckRight lay.toHeaderLayout e heap calls configinfo ↔
      (lay.size ≤ (lay.decode (calls.data e configinfo)).len.toNat ∧
        (lay.decode (calls.data e configinfo)).len.toNat ≤ (calls.data e configinfo).length) ∧
      (WellFramed lay.toHeaderLayout (calls.data e configinfo) → calls.fdout = true ∧
        calls.write (((calls.data e configinfo).drop lay.size).take
            ((lay.decode (calls.data e configinfo)).len.toNat - lay.size)) =
          some ((lay.decode (calls.data e configinfo)).len.toNat - lay.size)) := by
  obtain ⟨rest, hrun⟩ :=
    @checkChecksumRun_header lay e heap calls configinfo hm hf hsize hmagic _ rfl
  have hdata := length_data_le calls e configinfo
  have hsub := toNat_len_sub lay.toHeaderLayout (lay.decode (calls.data e configinfo)).len
  have hsmall := lay.size_le
  simp only [romfileMaxLen, intMax] at hsmall he
  by_cases hlen : lay.size ≤ (lay.decode (calls.data e configinfo)).len.toNat ∧
      (lay.decode (calls.data e configinfo)).len.toNat ≤ (calls.data e configinfo).length
  · -- the body was read
    obtain ⟨hlow, hhigh⟩ := hlen
    have hbody : ((calls.data e configinfo ++ rest).drop lay.size).take
        ((lay.decode (calls.data e configinfo)).len.toNat - lay.size) =
          ((calls.data e configinfo).drop lay.size).take
            ((lay.decode (calls.data e configinfo)).len.toNat - lay.size) := by
      rw [List.drop_append_of_le_length hsize, List.take_append_of_le_length]
      rw [List.length_drop]
      omega
    rw [hsub, if_pos hlow, if_neg (by omega), hbody] at hrun
    have hright := @checkBody_right lay calls _ _ rfl hsize hmagic hlow hhigh _ rfl
    rw [and_iff_right (And.intro hlow hhigh), ← hright]
    constructor
    · rintro ⟨run, hok, hall⟩
      obtain rfl := Except.ok.inj (hrun.symm.trans hok)
      exact hall
    · exact fun hall => ⟨_, hrun, hall⟩
  · -- the CRC leaves what was read
    refine iff_of_false ?_ fun hcond => hlen hcond.1
    rintro ⟨run, hok, -, hcrc, -⟩
    rw [hrun] at hok
    split at hok
    · exact absurd hok (by simp)
    · next hfit =>
      obtain rfl := Except.ok.inj hok
      have hle := hcrc _ (checkBody_crc ..) (by split at hsub <;> omega)
      split at hsub <;> omega

/-- **`check_checksum` does all this right if and only if the header gives a length that was read,
no header is taken from memory that was not written, and no call fails for a well-framed image.** -/
theorem checkRight_iff (he : e ≤ intMax) :
    CheckRight lay.toHeaderLayout e heap calls configinfo ↔
      CheckCond lay.toHeaderLayout e heap calls configinfo := by
  by_cases hm : calls.malloc = true
  swap
  · rw [checkRight_refused (by simp [checkChecksumRun, hm])]
    exact ⟨fun h => ⟨fun h' => absurd h' hm, fun h' => absurd h' hm, fun h' => absurd h' h⟩,
      fun h hw => hm (h.calls hw).1⟩
  by_cases hf : calls.fdin = true
  swap
  · rw [checkRight_refused (by simp [checkChecksumRun, hm, hf])]
    exact ⟨fun h => ⟨fun _ h' => absurd h' hf, fun _ h' => absurd h' hf, fun h' => absurd h' h⟩,
      fun h hw => hf (h.calls hw).2.1⟩
  by_cases hr : calls.read (configinfo.take e) = none
  · -- nothing was read
    have hframed := data_of_unread hr ▸ not_wellFramed_nil lay.toHeaderLayout
    rw [checkRight_unread hm hf hr]
    refine ⟨fun h => ⟨fun _ _ hsize => ?_, fun _ _ _ => h, fun hw => absurd hw hframed⟩,
      fun h => h.unread hm hf hr⟩
    rw [data_of_unread hr] at hsize
    exact absurd hsize (Nat.not_le.mpr lay.size_pos)
  by_cases hsize : lay.size ≤ (calls.data e configinfo).length
  swap
  · rw [checkRight_refused]
    · exact iff_of_true (fun hw => hsize hw.1) ⟨fun _ _ h' => absurd h' hsize,
        fun _ _ h' => absurd h' hr, fun hw => absurd hw.1 hsize⟩
    · unfold checkChecksumRun
      simp only [hm, hf]
      rw [if_neg (by decide), if_neg (by decide),
        if_pos ⟨Option.isSome_iff_ne_none.mpr hr, Nat.not_le.mp hsize⟩]
  by_cases hmagic : (lay.decode (calls.data e configinfo)).magic = trxMagic3
  swap
  · rw [checkRight_refused]
    · exact iff_of_true (fun hw => hmagic hw.2.1) ⟨fun _ _ _ h' => absurd h' hmagic,
        fun _ _ h' => absurd h' hr, fun hw => absurd hw.2.1 hmagic⟩
    · have hle := length_data_le calls e configinfo
      unfold checkChecksumRun
      simp only [hm, hf, lay.decode_append _ hsize]
      rw [if_neg (by decide), if_neg (by decide), if_neg (by omega), if_neg (by omega),
        if_pos hmagic]
  rw [checkRight_read he hm hf hsize hmagic]
  exact ⟨fun h => ⟨fun _ _ _ _ => h.1, fun _ _ h' => absurd h' hr, fun hw => ⟨hm, hf, h.2 hw⟩⟩,
    fun h => ⟨h.len hm hf hsize hmagic, fun hw => (h.calls hw).2.2⟩⟩

end Right

/-! ## Two images -/

/-- The header of `wordLayout` is read from its twenty bytes. -/
def wordOverlay : HeaderOverlay where
  toHeaderLayout := wordLayout
  decode_take b := by
    have hword : ∀ (l : Bytes) (k : Nat), word32 (l.take (k + 4)) = word32 l := by
      intro l k
      match l with
      | [] => rfl
      | [_] => rfl
      | [_, _] => rfl
      | [_, _, _] => rfl
      | _ :: _ :: _ :: _ :: _ => rfl
    show wordLayout.decode (b.take 20) = wordLayout.decode b
    simp only [wordLayout, List.drop_take, Nat.reduceSub, hword b 16, hword (b.drop 4) 12,
      hword (b.drop 8) 8, hword (b.drop 12) 4, hword (b.drop 16) 0]

/-- Five bytes in a frame. -/
theorem checkRight_sample : CheckRight wordLayout 64 (fun _ => 0) .good
    (wordLayout.encode ⟨trxMagic3, 20, 25, computeCrc32buf [1, 2, 3, 4, 5], 5⟩ ++
      [1, 2, 3, 4, 5]) := by
  refine (@checkRight_iff wordOverlay _ _ _ _ (by decide)).mpr
    ⟨fun _ _ _ _ => ?_, fun _ _ h => absurd h (Option.some_ne_none _), fun _ => ?_⟩
  · decide +kernel
  · decide +kernel

/-- A header alone that says that four bytes follow: the CRC is computed over memory that was not
read. -/
theorem not_checkRight : ¬ ∀ (lay : HeaderOverlay) (e : Nat) (heap : Nat → UInt8)
    (calls : CheckCalls) (configinfo : Bytes), e ≤ intMax →
    CheckRight lay.toHeaderLayout e heap calls configinfo := by
  intro h
  obtain ⟨run, hok, -, hcrc, -⟩ := h wordOverlay 64 (fun _ => 0) .good
    (wordLayout.encode ⟨trxMagic3, 20, 24, 0, 4⟩) (by decide)
  have hbad : (checkChecksumRun wordLayout 64 (fun _ => 0) .good
      (wordLayout.encode ⟨trxMagic3, 20, 24, 0, 4⟩)).map CheckRun.crc = .ok (some 4) := by
    decide +kernel
  rw [show wordOverlay.toHeaderLayout = wordLayout from rfl] at hok hcrc
  rw [hok] at hbad
  have hlen := hcrc 4 (Except.ok.inj hbad)
  exact absurd hlen (by decide +kernel)

end OnuFirmware.Romfile
