import OnuFirmware.Clib.Str
import Mathlib.Data.List.Nodup

/-!
# Romfile frames (`cfg_romfile.c`)

A romfile is stored in flash as a frame: a `trx_header` with a magic number, the length of the frame
and a CRC, then the payload. `compute_checksum` frames a file and `check_checksum` checks a frame
and takes the payload out. Both read at most `mtd_erasesize` bytes into a block of
`mtd_erasesize + 1` bytes, but a frame is longer than its payload by the header. In the build with
`TCSUPPORT_CT_ZIPROMFILE` both read twice `ROMFILE_MAX_LEN` bytes, and only a payload that leaves
room for the header is framed (`computeChecksumZip`).

The layout of the header is declared outside this repository and is a parameter (`HeaderLayout`).
-/

namespace OnuFirmware.Romfile

open Clib

abbrev Bytes := List UInt8

/-! ## CRC -/

/-- `crc_32_tab`, CRC polynomial `0xedb88320`. -/
def crc32Tab : List UInt32 :=
  [
    0x00000000, 0x77073096, 0xee0e612c, 0x990951ba, 0x076dc419, 0x706af48f, 0xe963a535, 0x9e6495a3,
    0x0edb8832, 0x79dcb8a4, 0xe0d5e91e, 0x97d2d988, 0x09b64c2b, 0x7eb17cbd, 0xe7b82d07, 0x90bf1d91,
    0x1db71064, 0x6ab020f2, 0xf3b97148, 0x84be41de, 0x1adad47d, 0x6ddde4eb, 0xf4d4b551, 0x83d385c7,
    0x136c9856, 0x646ba8c0, 0xfd62f97a, 0x8a65c9ec, 0x14015c4f, 0x63066cd9, 0xfa0f3d63, 0x8d080df5,
    0x3b6e20c8, 0x4c69105e, 0xd56041e4, 0xa2677172, 0x3c03e4d1, 0x4b04d447, 0xd20d85fd, 0xa50ab56b,
    0x35b5a8fa, 0x42b2986c, 0xdbbbc9d6, 0xacbcf940, 0x32d86ce3, 0x45df5c75, 0xdcd60dcf, 0xabd13d59,
    0x26d930ac, 0x51de003a, 0xc8d75180, 0xbfd06116, 0x21b4f4b5, 0x56b3c423, 0xcfba9599, 0xb8bda50f,
    0x2802b89e, 0x5f058808, 0xc60cd9b2, 0xb10be924, 0x2f6f7c87, 0x58684c11, 0xc1611dab, 0xb6662d3d,
    0x76dc4190, 0x01db7106, 0x98d220bc, 0xefd5102a, 0x71b18589, 0x06b6b51f, 0x9fbfe4a5, 0xe8b8d433,
    0x7807c9a2, 0x0f00f934, 0x9609a88e, 0xe10e9818, 0x7f6a0dbb, 0x086d3d2d, 0x91646c97, 0xe6635c01,
    0x6b6b51f4, 0x1c6c6162, 0x856530d8, 0xf262004e, 0x6c0695ed, 0x1b01a57b, 0x8208f4c1, 0xf50fc457,
    0x65b0d9c6, 0x12b7e950, 0x8bbeb8ea, 0xfcb9887c, 0x62dd1ddf, 0x15da2d49, 0x8cd37cf3, 0xfbd44c65,
    0x4db26158, 0x3ab551ce, 0xa3bc0074, 0xd4bb30e2, 0x4adfa541, 0x3dd895d7, 0xa4d1c46d, 0xd3d6f4fb,
    0x4369e96a, 0x346ed9fc, 0xad678846, 0xda60b8d0, 0x44042d73, 0x33031de5, 0xaa0a4c5f, 0xdd0d7cc9,
    0x5005713c, 0x270241aa, 0xbe0b1010, 0xc90c2086, 0x5768b525, 0x206f85b3, 0xb966d409, 0xce61e49f,
    0x5edef90e, 0x29d9c998, 0xb0d09822, 0xc7d7a8b4, 0x59b33d17, 0x2eb40d81, 0xb7bd5c3b, 0xc0ba6cad,
    0xedb88320, 0x9abfb3b6, 0x03b6e20c, 0x74b1d29a, 0xead54739, 0x9dd277af, 0x04db2615, 0x73dc1683,
    0xe3630b12, 0x94643b84, 0x0d6d6a3e, 0x7a6a5aa8, 0xe40ecf0b, 0x9309ff9d, 0x0a00ae27, 0x7d079eb1,
    0xf00f9344, 0x8708a3d2, 0x1e01f268, 0x6906c2fe, 0xf762575d, 0x806567cb, 0x196c3671, 0x6e6b06e7,
    0xfed41b76, 0x89d32be0, 0x10da7a5a, 0x67dd4acc, 0xf9b9df6f, 0x8ebeeff9, 0x17b7be43, 0x60b08ed5,
    0xd6d6a3e8, 0xa1d1937e, 0x38d8c2c4, 0x4fdff252, 0xd1bb67f1, 0xa6bc5767, 0x3fb506dd, 0x48b2364b,
    0xd80d2bda, 0xaf0a1b4c, 0x36034af6, 0x41047a60, 0xdf60efc3, 0xa867df55, 0x316e8eef, 0x4669be79,
    0xcb61b38c, 0xbc66831a, 0x256fd2a0, 0x5268e236, 0xcc0c7795, 0xbb0b4703, 0x220216b9, 0x5505262f,
    0xc5ba3bbe, 0xb2bd0b28, 0x2bb45a92, 0x5cb36a04, 0xc2d7ffa7, 0xb5d0cf31, 0x2cd99e8b, 0x5bdeae1d,
    0x9b64c2b0, 0xec63f226, 0x756aa39c, 0x026d930a, 0x9c0906a9, 0xeb0e363f, 0x72076785, 0x05005713,
    0x95bf4a82, 0xe2b87a14, 0x7bb12bae, 0x0cb61b38, 0x92d28e9b, 0xe5d5be0d, 0x7cdcefb7, 0x0bdbdf21,
    0x86d3d2d4, 0xf1d4e242, 0x68ddb3f8, 0x1fda836e, 0x81be16cd, 0xf6b9265b, 0x6fb077e1, 0x18b74777,
    0x88085ae6, 0xff0f6a70, 0x66063bca, 0x11010b5c, 0x8f659eff, 0xf862ae69, 0x616bffd3, 0x166ccf45,
    0xa00ae278, 0xd70dd2ee, 0x4e048354, 0x3903b3c2, 0xa7672661, 0xd06016f7, 0x4969474d, 0x3e6e77db,
    0xaed16a4a, 0xd9d65adc, 0x40df0b66, 0x37d83bf0, 0xa9bcae53, 0xdebb9ec5, 0x47b2cf7f, 0x30b5ffe9,
    0xbdbdf21c, 0xcabac28a, 0x53b39330, 0x24b4a3a6, 0xbad03605, 0xcdd70693, 0x54de5729, 0x23d967bf,
    0xb3667a2e, 0xc4614ab8, 0x5d681b02, 0x2a6f2b94, 0xb40bbe37, 0xc30c8ea1, 0x5a05df1b, 0x2d02ef8d
  ]

/-- `UPDC32`. -/
def updc32 (octet : UInt8) (crc : UInt32) : UInt32 :=
  crc32Tab.getD ((crc ^^^ octet.toUInt32) &&& 0xff).toNat 0 ^^^ (crc >>> 8)

/-- `compute_crc32buf`. -/
def computeCrc32buf (buf : Bytes) : UInt32 :=
  buf.foldl (fun crc octet => updc32 octet crc) 0xffffffff

/-! ## Headers -/

def romfileMaxLen : Nat := 128 * 1024
def romfileMaxPending : Nat := 128 * 1024
def trxMagic3 : UInt32 := 0x33524448

/-- The fields of `struct trx_header` that this file sets or reads. -/
structure TrxHeader where
  magic : UInt32
  headerLen : UInt32
  len : UInt32
  crc32 : UInt32
  romfileLen : UInt32
deriving Repr, DecidableEq

/-- How the compiler lays out `struct trx_header`: writing a header (zeroed first) as bytes, and
overlaying one on the start of a buffer. -/
structure HeaderLayout where
  size : Nat
  encode : TrxHeader → Bytes
  decode : Bytes → TrxHeader
  length_encode : ∀ h, (encode h).length = size
  decode_encode : ∀ h rest, decode (encode h ++ rest) = h
  size_le : size ≤ romfileMaxLen

/-! ## Writing and reading frames -/

/-- `compute_checksum`: the output file, or `none` for the return value `-1`. -/
def computeChecksum (lay : HeaderLayout) (mtdErasesize : Nat) (inputfile : Bytes) : Option Bytes :=
  let buf := inputfile.take mtdErasesize
  if romfileMaxLen - lay.size < buf.length then none
  else
    some (lay.encode
      { magic := trxMagic3
        romfileLen := UInt32.ofNat buf.length
        headerLen := UInt32.ofNat lay.size
        len := UInt32.ofNat (buf.length + lay.size)
        crc32 := computeCrc32buf buf } ++ buf)

/-- `compute_checksum` with `TCSUPPORT_CT_ZIPROMFILE`, up to the file that is then compressed. -/
def computeChecksumZip (lay : HeaderLayout) (inputfile : Bytes) : Option Bytes :=
  let buf := inputfile.take (romfileMaxLen + romfileMaxPending)
  if romfileMaxLen - lay.size + romfileMaxPending < buf.length then none
  else
    some (lay.encode
      { magic := trxMagic3
        romfileLen := UInt32.ofNat buf.length
        headerLen := UInt32.ofNat lay.size
        len := UInt32.ofNat (buf.length + lay.size)
        crc32 := computeCrc32buf buf } ++ buf)

/-- The outcome of `check_checksum`: refused, refused after the CRC did not match, or accepted with
an output file. -/
inductive CheckResult
  | bad
  | crcErr
  | ok (out : Bytes)
deriving Repr, DecidableEq

/-- `check_checksum`. `heap` is what the allocated block holds before the file is read into it. The
length in the header is not checked against the number of bytes read: the CRC runs over whatever the
block holds, and past its end it leaves the block. -/
def checkChecksum (lay : HeaderLayout) (mtdErasesize : Nat) (heap : Nat → UInt8)
    (configinfo : Bytes) : Except Fault CheckResult :=
  let data := configinfo.take mtdErasesize
  let buf := data ++ (List.range' data.length (mtdErasesize + 1 - data.length)).map heap
  if data.length < lay.size then .ok .bad
  else
    let header := lay.decode buf
    if header.magic ≠ trxMagic3 then .ok .bad
    else
      -- `pheader->len - sizeof(struct trx_header)` is unsigned
      let n := (header.len - UInt32.ofNat lay.size).toNat
      if mtdErasesize + 1 < lay.size + n then .error .overrun
      else
        let body := (buf.drop lay.size).take n
        if header.crc32 ≠ computeCrc32buf body then .ok .crcErr
        else if header.len.toNat ≤ lay.size then .ok .bad
        else .ok (.ok body)

/-! ## The round trip -/

/-- A frame gives the payload back, whatever the memory that it is read into held before. -/
def FrameRoundTrip (lay : HeaderLayout) (mtdErasesize : Nat) (payload frame : Bytes) : Prop :=
  ∀ heap, checkChecksum lay mtdErasesize heap frame = .ok (.ok payload)

/-- A frame is a header and the part of the file that was read. -/
theorem computeChecksum_some {lay : HeaderLayout} {e : Nat} {payload frame : Bytes}
    (h : computeChecksum lay e payload = some frame) :
    ∃ header, frame = lay.encode header ++ payload.take e ∧ header.magic = trxMagic3 ∧
      header.len.toNat = (payload.take e).length + lay.size ∧
      header.crc32 = computeCrc32buf (payload.take e) := by
  rw [computeChecksum] at h
  split at h
  · simp at h
  · next hlen =>
    refine ⟨_, (Option.some.inj h).symm, rfl, ?_, rfl⟩
    have hle := lay.size_le
    simp only [romfileMaxLen] at hlen hle
    rw [UInt32.toNat_ofNat_of_lt']
    show (payload.take e).length + lay.size < 4294967296
    omega

theorem computeChecksumZip_some {lay : HeaderLayout} {payload frame : Bytes}
    (h : computeChecksumZip lay payload = some frame) :
    ∃ header,
      frame = lay.encode header ++ payload.take (romfileMaxLen + romfileMaxPending) ∧
      header.magic = trxMagic3 ∧ header.len.toNat =
        (payload.take (romfileMaxLen + romfileMaxPending)).length + lay.size ∧
      header.crc32 = computeCrc32buf (payload.take (romfileMaxLen + romfileMaxPending)) := by
  rw [computeChecksumZip] at h
  split at h
  · simp at h
  · next hlen =>
    refine ⟨_, (Option.some.inj h).symm, rfl, ?_, rfl⟩
    have hle := lay.size_le
    simp only [romfileMaxLen, romfileMaxPending] at hlen hle
    rw [UInt32.toNat_ofNat_of_lt']
    show (payload.take (romfileMaxLen + romfileMaxPending)).length + lay.size < 4294967296
    simp only [romfileMaxLen, romfileMaxPending]
    omega

section Check

variable {lay : HeaderLayout} {e : Nat} {heap : Nat → UInt8} {header : TrxHeader} {body : Bytes}

/-- The bytes of the block behind the header, after a frame was read into it. -/
def blockBody (lay : HeaderLayout) (e : Nat) (heap : Nat → UInt8) (body : Bytes) : Bytes :=
  body.take (e - lay.size) ++
    (List.range' (lay.size + (body.take (e - lay.size)).length)
      (e + 1 - (lay.size + (body.take (e - lay.size)).length))).map heap

/-- `check_checksum` on a header and a body of the length that the header gives. -/
theorem checkChecksum_frame (hmagic : header.magic = trxMagic3)
    (hlen : header.len.toNat = body.length + lay.size) :
    checkChecksum lay e heap (lay.encode header ++ body) =
      if e < lay.size then .ok .bad
      else if e + 1 < lay.size + body.length then .error .overrun
      else if header.crc32 ≠ computeCrc32buf ((blockBody lay e heap body).take body.length) then
        .ok .crcErr
      else if body = [] then .ok .bad
      else .ok (.ok ((blockBody lay e heap body).take body.length)) := by
  have henc := lay.length_encode header
  by_cases he : e < lay.size
  · rw [if_pos he, checkChecksum]
    simp only
    rw [if_pos]
    rw [List.length_take]
    omega
  rw [if_neg he]
  have htake : (lay.encode header ++ body).take e = lay.encode header ++
    body.take (e - lay.size) := by
    rw [List.take_append, henc, List.take_of_length_le (by omega)]
  have hn : (header.len - UInt32.ofNat lay.size).toNat = body.length := by
    have hsz : (UInt32.ofNat lay.size).toNat = lay.size := by
      have hle := lay.size_le
      simp only [romfileMaxLen] at hle
      rw [UInt32.toNat_ofNat_of_lt']
      show lay.size < 4294967296
      omega
    rw [UInt32.toNat_sub_of_le, hsz, hlen, Nat.add_sub_cancel]
    rw [UInt32.le_iff_toNat_le, hsz, hlen]
    omega
  rw [checkChecksum]
  simp only [htake, List.append_assoc, lay.decode_encode, hmagic, List.length_append, henc, hn]
  rw [if_neg (by omega), if_neg (by simp)]
  have hdrop : ∀ r : Bytes, (lay.encode header ++ r).drop lay.size = r := fun r => by
    rw [← henc, List.drop_left]
  simp only [hdrop]
  have hzero : header.len.toNat ≤ lay.size ↔ body = [] := by
    rw [hlen, ← List.length_eq_zero_iff]
    omega
  simp only [hzero]
  rfl

theorem blockBody_take_of_fits (h : lay.size + body.length ≤ e) :
    (blockBody lay e heap body).take body.length = body := by
  rw [blockBody, List.take_of_length_le (by omega : body.length ≤ e - lay.size), List.take_left]

/-- One byte too long: the last byte of the body is not read from the file. -/
theorem blockBody_take_of_one_over (h : lay.size + body.length = e + 1) (hs : lay.size ≤ e) :
    (blockBody lay e heap body).take body.length = body.take (e - lay.size) ++ [heap e] := by
  have hlen : (body.take (e - lay.size)).length = e - lay.size := by
    rw [List.length_take]
    omega
  rw [blockBody, hlen, show e + 1 - (lay.size + (e - lay.size)) = 1 by omega,
    show lay.size + (e - lay.size) = e by omega, List.take_of_length_le]
  · simp
  · simp [hlen]
    omega

end Check

/-- **A framed payload is given back exactly when it fits into one erase block together with the
header.** -/
theorem frameRoundTrip_iff {lay : HeaderLayout} {mtdErasesize : Nat} {payload frame : Bytes}
    (hne : payload ≠ []) (hc : computeChecksum lay mtdErasesize payload = some frame) :
    FrameRoundTrip lay mtdErasesize payload frame ↔
      payload.length + lay.size ≤ mtdErasesize := by
  obtain ⟨header, rfl, hmagic, hlen, hcrc⟩ := computeChecksum_some hc
  constructor
  · intro h
    by_contra hover
    -- a byte that differs from the last one of the payload
    have hbyte := h fun _ => payload.getLast hne + 1
    rw [checkChecksum_frame hmagic hlen] at hbyte
    split at hbyte
    · simp at hbyte
    next hsize =>
    split at hbyte
    · simp at hbyte
    next hblock =>
    split at hbyte
    · simp at hbyte
    split at hbyte
    · simp at hbyte
    simp only [Except.ok.injEq, CheckResult.ok.injEq] at hbyte
    by_cases hcut : payload.length ≤ mtdErasesize
    · rw [List.take_of_length_le hcut] at hbyte hblock
      rw [blockBody_take_of_one_over (by omega) (by omega)] at hbyte
      have hlast := congrArg List.getLast? hbyte
      rw [List.getLast?_concat, List.getLast?_eq_some_getLast hne, Option.some.injEq] at hlast
      simp at hlast
    · -- the payload was cut when it was framed
      have := congrArg List.length hbyte
      rw [List.length_take, List.length_take] at this
      omega
  · intro hfit heap
    have htake : payload.take mtdErasesize = payload := List.take_of_length_le (by omega)
    rw [htake] at hlen hcrc ⊢
    rw [checkChecksum_frame hmagic hlen, if_neg (by omega), if_neg (by omega),
      blockBody_take_of_fits (by omega), if_neg (by simp [hcrc]), if_neg hne]

/-! ## Frames that are accepted -/

/-- Whether the numbers are distinct and none is a bit of `seen`. -/
def distinctFrom (seen : Nat) : List Nat → Bool
  | [] => true
  | n :: l => !seen.testBit n && distinctFrom (seen ||| 1 <<< n) l

theorem distinctFrom_spec : ∀ {l : List Nat} {seen : Nat}, distinctFrom seen l = true →
    l.Nodup ∧ ∀ n ∈ l, seen.testBit n = false
  | [], _, _ => ⟨List.nodup_nil, by simp⟩
  | n :: l, seen, h => by
    rw [distinctFrom, Bool.and_eq_true, Bool.not_eq_true'] at h
    obtain ⟨hnodup, hseen⟩ := distinctFrom_spec h.2
    have hbit : ∀ m ∈ l, seen.testBit m = false ∧ m ≠ n := by
      intro m hm
      have hm' := hseen m hm
      rw [Nat.testBit_or, Bool.or_eq_false_iff] at hm'
      refine ⟨hm'.1, ?_⟩
      rintro rfl
      simp at hm'
    refine ⟨List.nodup_cons.mpr ⟨fun hn => (hbit n hn).2 rfl, hnodup⟩, ?_⟩
    intro m hm
    rcases List.mem_cons.mp hm with rfl | hm
    · exact h.1
    · exact (hbit m hm).1

/-- The entries differ in their upper bytes already. -/
theorem nodup_crc32Tab : crc32Tab.Nodup := by
  have hdist : distinctFrom 0 (crc32Tab.map fun w => w.toNat / 16777216) = true := by
    decide +kernel
  exact (distinctFrom_spec hdist).1.of_map

theorem length_crc32Tab : crc32Tab.length = 256 := by
  decide +kernel

theorem crcIndex_lt (crc : UInt32) (octet : UInt8) :
    ((crc ^^^ octet.toUInt32) &&& 0xff).toNat < crc32Tab.length := by
  rw [UInt32.toNat_and, length_crc32Tab]
  exact Nat.lt_of_le_of_lt Nat.and_le_right (by decide)

theorem crcIndex_toUInt8 (crc : UInt32) (octet : UInt8) :
    ((crc ^^^ octet.toUInt32) &&& 0xff).toUInt8 = crc.toUInt8 ^^^ octet := by
  rw [UInt32.toUInt8_and, UInt32.toUInt8_xor, UInt8.toUInt8_toUInt32]
  exact UInt8.and_neg_one

/-- The CRC tells octets apart. -/
theorem updc32_inj {crc : UInt32} {a b : UInt8} (h : updc32 a crc = updc32 b crc) : a = b := by
  unfold updc32 at h
  rw [UInt32.xor_left_inj, List.getD_eq_getElem?_getD, List.getD_eq_getElem?_getD,
    List.getElem?_eq_getElem (crcIndex_lt crc a), List.getElem?_eq_getElem (crcIndex_lt crc b)] at h
  have hindex := (nodup_crc32Tab.getElem_inj_iff).mp h
  have hbyte := congrArg UInt32.toUInt8 (UInt32.toNat_inj.mp hindex)
  rw [crcIndex_toUInt8, crcIndex_toUInt8] at hbyte
  exact (UInt8.xor_right_inj _).mp hbyte

theorem computeCrc32buf_concat_inj {buf : Bytes} {a b : UInt8}
    (h : computeCrc32buf (buf ++ [a]) = computeCrc32buf (buf ++ [b])) : a = b := by
  unfold computeCrc32buf at h
  rw [List.foldl_append, List.foldl_append] at h
  exact updc32_inj h

/-- The part of a payload that is framed fits into one erase block together with the header, or is
one byte longer and the byte that is not read happens to be in memory. -/
def FrameFits (lay : HeaderLayout) (e : Nat) (heap : Nat → UInt8) (payload : Bytes) : Prop :=
  payload.take e ≠ [] ∧ lay.size ≤ e ∧
    (lay.size + (payload.take e).length ≤ e ∨
      (lay.size + (payload.take e).length = e + 1 ∧ (payload.take e).getLast? = some (heap e)))

/-- `check_checksum` accepts a header with what was read of a payload exactly if they fit. -/
theorem checkChecksum_header_iff {lay : HeaderLayout} {e : Nat} {heap : Nat → UInt8}
    {payload : Bytes} {header : TrxHeader} (hmagic : header.magic = trxMagic3)
    (hlen : header.len.toNat = (payload.take e).length + lay.size)
    (hcrc : header.crc32 = computeCrc32buf (payload.take e)) :
    (∃ out, checkChecksum lay e heap (lay.encode header ++ payload.take e) = .ok (.ok out)) ↔
      FrameFits lay e heap payload := by
  unfold FrameFits
  generalize payload.take e = body at hlen hcrc ⊢
  rw [checkChecksum_frame hmagic hlen]
  by_cases hsize : e < lay.size
  · simp only [if_pos hsize]
    constructor
    · rintro ⟨out, h⟩
      simp at h
    · rintro ⟨-, hle, -⟩
      omega
  rw [if_neg hsize]
  by_cases hover : e + 1 < lay.size + body.length
  · simp only [if_pos hover]
    constructor
    · rintro ⟨out, h⟩
      simp at h
    · rintro ⟨-, -, h⟩
      omega
  rw [if_neg hover]
  by_cases hnil : body = []
  · subst hnil
    constructor
    · rintro ⟨out, h⟩
      split at h <;> simp at h
    · rintro ⟨h, -⟩
      exact absurd rfl h
  simp only [if_neg hnil]
  rcases Nat.lt_or_ge e (lay.size + body.length) with hone | hfit
  · -- one byte too long: the CRC is right if the stray byte is the lost one
    have hlen' : lay.size + body.length = e + 1 := by omega
    obtain ⟨init, last, hbody⟩ := (List.eq_nil_or_concat body).resolve_left hnil
    rw [List.concat_eq_append] at hbody
    subst hbody
    rw [blockBody_take_of_one_over hlen' (by omega), hcrc]
    have htake : (init ++ [last]).take (e - lay.size) = init := by
      rw [List.length_append, List.length_singleton] at hlen'
      rw [List.take_append_of_le_length (by omega), List.take_of_length_le (by omega)]
    rw [htake, List.getLast?_concat]
    constructor
    · rintro ⟨out, h⟩
      split at h
      · simp at h
      · next heq =>
        refine ⟨by simp, by omega, .inr ⟨hlen', ?_⟩⟩
        rw [computeCrc32buf_concat_inj (not_not.mp heq)]
    · rintro ⟨-, -, hle | ⟨-, heq⟩⟩
      · omega
      · rw [Option.some.inj heq, if_neg (by simp)]
        exact ⟨_, rfl⟩
  · rw [blockBody_take_of_fits hfit, if_neg (by simp [hcrc])]
    exact ⟨fun _ => ⟨hnil, by omega, .inl hfit⟩, fun _ => ⟨_, rfl⟩⟩

/-- `check_checksum` accepts a frame exactly if it fits. -/
theorem checkChecksum_ok_iff {lay : HeaderLayout} {e : Nat} {heap : Nat → UInt8}
    {payload frame : Bytes} (hc : computeChecksum lay e payload = some frame) :
    (∃ out, checkChecksum lay e heap frame = .ok (.ok out)) ↔ FrameFits lay e heap payload := by
  obtain ⟨header, rfl, hmagic, hlen, hcrc⟩ := computeChecksum_some hc
  exact checkChecksum_header_iff hmagic hlen hcrc

theorem checkChecksum_zip_ok_iff {lay : HeaderLayout} {heap : Nat → UInt8}
    {payload frame : Bytes} (hc : computeChecksumZip lay payload = some frame) :
    (∃ out, checkChecksum lay (romfileMaxLen + romfileMaxPending) heap frame = .ok (.ok out)) ↔
      FrameFits lay (romfileMaxLen + romfileMaxPending) heap payload := by
  obtain ⟨header, rfl, hmagic, hlen, hcrc⟩ := computeChecksumZip_some hc
  exact checkChecksum_header_iff hmagic hlen hcrc

/-! ## A header of five words -/

/-- A 32-bit word in network byte order. -/
def be32 (w : UInt32) : Bytes :=
  [UInt8.ofNat (w.toNat / 16777216), UInt8.ofNat (w.toNat / 65536 % 256),
    UInt8.ofNat (w.toNat / 256 % 256), UInt8.ofNat (w.toNat % 256)]

/-- The word at the start of a buffer. -/
def word32 : Bytes → UInt32
  | a :: b :: c :: d :: _ =>
    UInt32.ofNat (a.toNat * 16777216 + b.toNat * 65536 + c.toNat * 256 + d.toNat)
  | _ => 0

theorem word32_be32 (w : UInt32) (rest : Bytes) : word32 (be32 w ++ rest) = w := by
  have hw : w.toNat < 4294967296 := w.toNat_lt
  have hbyte : ∀ n, n < 256 → (UInt8.ofNat n).toNat = n := fun n hn =>
    UInt8.toNat_ofNat_of_lt' hn
  simp only [be32, List.cons_append, List.nil_append, word32]
  rw [hbyte _ (by omega), hbyte _ (by omega), hbyte _ (by omega), hbyte _ (by omega)]
  rw [show w.toNat / 16777216 * 16777216 + w.toNat / 65536 % 256 * 65536 +
    w.toNat / 256 % 256 * 256 + w.toNat % 256 = w.toNat by omega]
  exact UInt32.ofNat_toNat

/-- The five fields one after the other. -/
def wordLayout : HeaderLayout where
  size := 20
  encode h := be32 h.magic ++ (be32 h.headerLen ++ (be32 h.len ++ (be32 h.crc32 ++
    be32 h.romfileLen)))
  decode b :=
    { magic := word32 b
      headerLen := word32 (b.drop 4)
      len := word32 (b.drop 8)
      crc32 := word32 (b.drop 12)
      romfileLen := word32 (b.drop 16) }
  length_encode _ := rfl
  decode_encode h rest := by
    obtain ⟨m, hl, l, c, r⟩ := h
    simp only [List.append_assoc, TrxHeader.mk.injEq]
    exact ⟨word32_be32 m _, word32_be32 hl _, word32_be32 l _, word32_be32 c _, word32_be32 r _⟩
  size_le := by decide

/-- The text `<a/>` in erase blocks of 64 bytes. -/
theorem frameRoundTrip_sample : ∃ frame,
    computeChecksum wordLayout 64 [60, 97, 47, 62] = some frame ∧
      FrameRoundTrip wordLayout 64 [60, 97, 47, 62] frame :=
  ⟨_, rfl, (frameRoundTrip_iff (by simp) rfl).mpr (by decide)⟩

/-- Twenty bytes in erase blocks of 32 bytes: `compute_checksum` frames them, and reading the frame
back runs past the end of the buffer. -/
theorem not_frameRoundTrip : ¬ ∀ (lay : HeaderLayout) (mtdErasesize : Nat) (payload frame : Bytes),
    payload ≠ [] → computeChecksum lay mtdErasesize payload = some frame →
    FrameRoundTrip lay mtdErasesize payload frame := by
  intro h
  have hbad : (computeChecksum wordLayout 32 (List.replicate 20 65)).map
      (checkChecksum wordLayout 32 fun _ => 0) = some (.error .overrun) := by decide +kernel
  obtain ⟨frame, hframe, hcheck⟩ := Option.map_eq_some_iff.mp hbad
  have hgood := h wordLayout 32 (List.replicate 20 65) frame (by decide) hframe fun _ => 0
  rw [hcheck] at hgood
  exact absurd hgood (by simp)

end OnuFirmware.Romfile
