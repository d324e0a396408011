import OnuFirmware.Cwmp.DecodeNoNull
import OnuFirmware.Other.AccessRules

/-!
# The access flags of the pages (`cfg_type_dyncwmpattr.c`)

The attributes of the TR-069 parameters are stored as base64 texts of structures. Before the object
with the access flags is read, they are decoded into blocks of memory, each is checked by the magic
number at its end, and the flags are published from single bytes. The blocks are not cleared, so a
byte that the decoder has not stored is what was there before.
-/

namespace OnuFirmware.Cwmp

open Clib Cfg Tcapi

/-! ## The structures -/

/-- What a build depends on: the byte order, whether a `char` is signed, and the macros. `gd` is
`TCSUPPORT_CT_PON_GD` or `TCSUPPORT_CT_PON_CZ_GD`. -/
structure Build where
  bigEndian : Bool
  signedChar : Bool
  wlan : Bool
  wlanAc : Bool
  wlanMaxstanumGui : Bool
  cmcc : Bool
  cucCwmpParameter : Bool
  ctWlanNode : Bool
  ctCwmpE8bparameter : Bool
  ctPminform : Bool
  ctFj : Bool
  ctE8ddns : Bool
  ctPppoeproxy : Bool
  ctPppOndemand : Bool
  ctPpperrcodeEnhance : Bool
  ctPon : Bool
  gd : Bool

/-- The size of fields that are there under a macro. -/
def under (defined : Bool) (sizes : List Nat) : Nat := if defined then sizes.sum else 0

/-- The places of the fields of `cwmpAttr` that are published, and of its `magic`. -/
def aURL : Nat := 0
def aUsername : Nat := 1
def aPassword : Nat := 2
def aPeriodicInformInterval : Nat := 4
def aConnectionRequestUsername : Nat := 7
def aConnectionRequestPassword : Nat := 8
def cwmpMagic (b : Build) : Nat := 12 + under b.cucCwmpParameter [1, 1, 2] + 8

/-- The places of `wlanAttr`. -/
def aWLanSSID : Nat := [8, 4, 8].sum
def aWLanBeaconType : Nat := [8, 4, 8, 8].sum
def aSSIDEnable (b : Build) : Nat :=
  [8, 4, 8, 8, 8, 4, 8, 4, 8, 8, 8, 8, 4, 4, 4, 4, 8, 10, 10, 8, 8, 8, 8, 4, 4, 4, 4, 8, 8, 8, 8, 4,
    4, 4, 4].sum + [1, 1, 1, 1, 1, 1, 1, 1, 1, 1, 1, 1, 1, 1, 1, 1].sum +
    under (b.cmcc && b.wlanAc) [8]
def wlanMagic (b : Build) : Nat :=
  aSSIDEnable b + under b.ctWlanNode [8, 8, 1, 1, 1, 1] +
    under b.ctCwmpE8bparameter [8, 8, 8, 8, 4, 4, 4] + under b.wlanMaxstanumGui [4] +
    under b.ctPminform [4] + under b.cmcc [8] + under b.cucCwmpParameter [4, 4, 1, 1, 1, 1] +
    [3, 1, 8].sum + under b.ctFj [4, 4, 4] + 4 +
    (if b.cmcc then [8, 8, 8, 8, 2, 2, 2, 1, 1, 1, 1, 1, 9].sum else 52)

/-- `MAX_WAN_NODE * MAX_WAN_NODEL2`, the size of most arrays of `ipConAttr`. -/
def nodes : Nat := 8 * 8

/-- The places of `ipConAttr`. -/
def aWANPPPCnt1_1Username (b : Build) : Nat :=
  26 * nodes + under b.ctFj [nodes, nodes] + nodes + 9 * (nodes * 10) + nodes
def aWANPPPCnt1_1Password (b : Build) : Nat := aWANPPPCnt1_1Username b + nodes
def ipConMagic (b : Build) : Nat :=
  aWANPPPCnt1_1Password b + 6 * nodes + under b.ctE8ddns [7 * nodes] + under b.ctPppoeproxy [8, 8] +
    under b.ctCwmpE8bparameter [3 * nodes, 14 * (nodes * 4), 12 * nodes, 1, 3, nodes,
      4 * (nodes * 4), 12 * nodes] +
    under b.cucCwmpParameter [5 * nodes] + under b.ctPppOndemand [nodes] +
    under (b.ctCwmpE8bparameter && !b.cucCwmpParameter) [nodes] +
    under b.ctPpperrcodeEnhance [nodes] + under b.cmcc [nodes, nodes, nodes] + 64

/-- The places of `CT_PonLinkAttr`. -/
def aWANPonLinkCfg1VLANIDMark : Nat := [8, 8, 8].sum
def ponLinkMagic : Nat := [8, 8, 8, 8, 8, 8, 8, 8].sum

/-! ## Memory -/

/-- A text as bytes. -/
def textBytes (s : Str) : List UInt8 := s.map fun c => .ofNat c.toNat

/-- A block of memory in which the first bytes are stored. -/
def fresh (size : Nat) (old : Nat → UInt8) (stored : List UInt8) : List UInt8 :=
  stored ++ (List.range' stored.length (size - stored.length)).map old

/-- The `uint32` at a place. -/
def word (bigEndian : Bool) (block : List UInt8) (place : Nat) : Nat :=
  let bytes := (block.drop place).take 4
  (if bigEndian then bytes.reverse else bytes).foldr (fun x n => x.toNat + 256 * n) 0

/-- `strcat` of texts, one by one, onto a buffer of `room` bytes. -/
def strcatAll (room : Nat) : Str → List Str → Except Fault Str
  | buf, [] => .ok buf
  | buf, cur :: rest =>
    if buf.length + cur.length < room then strcatAll room (buf ++ cur) rest else .error .overrun

/-! ## Reading -/

/-- A flag that is published: its name, its value, and the byte that it comes from with the number
of bytes that the decoder has stored. -/
structure Flag where
  name : Str
  val : Str
  source : Option (Nat × Nat)
deriving Repr, DecidableEq

/-- Where the function stops: at a `return`, or at a fault. -/
inductive Stop
  | ret (v : Int)
  | fault (f : Fault)
deriving Repr, DecidableEq

/-- The flags published so far, and where the function has stopped, if it has. -/
abbrev Out := List Flag × Option Stop

/-- What follows, unless the function has stopped. -/
def Out.andThen (a b : Out) : Out :=
  match a.2 with
  | none => (a.1 ++ b.1, b.2)
  | some stop => (a.1, some stop)

/-- The value of a flag for a byte. -/
def flagText (x : UInt8) : Str := if x &&& 1 ≠ 0 then "0".toList else "1".toList

/-- Publishes flags from the bytes at the given places. -/
def publish (block : List UInt8) (stored : Nat) : List (Str × Int) → Out
  | [] => ([], none)
  | (name, place) :: rest =>
    if 0 ≤ place ∧ place < block.length then
      Out.andThen
        ([⟨name, flagText (block.getD place.toNat 0), some (place.toNat, stored)⟩], none)
        (publish block stored rest)
    else ([], some (.fault .overrun))

/-- One structure: whether what is read before it is there, the texts that are put together in a
buffer of `room` bytes, the old bytes of the block of the same size if there is memory for it, the
place of `magic` and its value, and the flags with their places unless the index is missing. -/
structure Part where
  before : Bool
  room : Nat
  room_pos : 0 < room
  texts : List Str
  block : Option (Nat → UInt8)
  place : Nat
  magic : Nat
  flags : Option (List (Str × Int))

/-- Decodes a structure and publishes its flags. -/
def Part.run (b : Build) (p : Part) : Out :=
  if p.before = false then ([], some (.ret (-1)))
  else
    match strcatAll p.room [] p.texts with
    | .error f => ([], some (.fault f))
    | .ok text =>
      match p.block with
      | none => ([], some (.ret (-1)))
      | some old =>
        match rpDecodeBase64DataNoNull b.signedChar (textBytes text) (text.length % 2 ^ 16) with
        | .error f => ([], some (.fault f))
        | .ok (_, out) =>
          if p.room < out.length then ([], some (.fault .overrun))
          else if word b.bigEndian (fresh p.room old out) p.place ≠ p.magic then
            ([], some (.ret (-1)))
          else
            match p.flags with
            | none => ([], some (.ret (-1)))
            | some flags => publish (fresh p.room old out) out.length flags

/-- What the function finds: the attributes, and for each `malloc` the old bytes of the block, if
there is memory. The block of `buf` is cleared. -/
structure Env where
  cfg : Conf
  cwmpBlock : Option (Nat → UInt8)
  wlanBlock : Option (Nat → UInt8)
  bufBlock : Bool
  ipConBlock : Option (Nat → UInt8)
  ponLinkBlock : Option (Nat → UInt8)

def waninfoCommonNode : Str := "root.waninfo.common".toList
def tr069attrEntryNode : Str := "root.tr069attr.entry".toList
def webcursetEntryNode : Str := "root.webcurset.entry".toList

/-- An attribute as it is read into `curAttrValue`. -/
def attrValue (env : Env) (name : Str) : Str := attrText (env.cfg tr069attrEntryNode name) 1024 []

/-- The flags of `cwmpAttr`. -/
def cwmpFlags (b : Build) : List (Str × Int) :=
  ((if b.gd then [("aPeriodicInformInterval", aPeriodicInformInterval)] else []) ++
    [("aURL", aURL), ("aUsername", aUsername), ("aPassword", aPassword),
      ("aConnectionRequestUsername", aConnectionRequestUsername),
      ("aConnectionRequestPassword", aConnectionRequestPassword)]).map
        fun f => (f.1.toList, (f.2 : Int))

def cwmpPart (b : Build) (env : Env) : Part where
  before := true
  room := 1024
  room_pos := by decide
  texts := [attrValue env "cwmpAttr".toList]
  block := env.cwmpBlock
  place := cwmpMagic b
  magic := 0xAABBCCDD
  flags := some (cwmpFlags b)

/-- The flags of `wlanAttr` for the network `idx`. -/
def wlanFlags (b : Build) (idx : Int) : List (Str × Int) :=
  (if b.ctWlanNode then [("aSSIDEnable".toList, aSSIDEnable b + idx)] else []) ++
    [("aWLanBeaconType".toList, aWLanBeaconType + idx), ("aWLanSSID".toList, aWLanSSID + idx)]

def wlanPart (b : Build) (env : Env) : Part where
  before := true
  room := 1024
  room_pos := by decide
  texts := [attrValue env "wlanAttr".toList]
  block := env.wlanBlock
  place := wlanMagic b
  magic := 0x22335566
  flags := (Other.numAttr env.cfg webcursetEntryNode "wlan_id".toList).map (wlanFlags b)

/-- `CurIFIndex`. -/
def curIFIndex (env : Env) : Option Int :=
  Other.numAttr env.cfg waninfoCommonNode "CurIFIndex".toList

/-- `ipConAttrLen`. -/
def ipConAttrLen (env : Env) : Option Int :=
  Other.numAttr env.cfg tr069attrEntryNode "ipConAttrLen".toList

/-- The texts of `ipConAttr0` and so on. -/
def ipConTexts (env : Env) : List Str :=
  (List.range ((ipConAttrLen env).getD 0).toNat).map fun i =>
    attrValue env (snprintf 32 ("ipConAttr".toList ++ fmtNat i))

/-- `lenth`: one and a half times the size of `ipConAttr`. -/
def lenth (b : Build) : Nat := (ipConMagic b + 4) + (ipConMagic b + 4) / 2

theorem lenth_pos (b : Build) : 0 < lenth b := by
  rw [lenth]
  omega

def ipConPart (b : Build) (env : Env) : Part where
  before := (curIFIndex env).isSome && (ipConAttrLen env).isSome && env.bufBlock
  room := lenth b
  room_pos := lenth_pos b
  texts := ipConTexts env
  block := env.ipConBlock
  place := ipConMagic b
  magic := 0xAACCDDBB
  flags := (curIFIndex env).map fun idx =>
    [("aPPPUsername".toList, aWANPPPCnt1_1Username b + idx),
      ("aPPPPassword".toList, aWANPPPCnt1_1Password b + idx)]

def ponLinkPart (env : Env) : Part where
  before := true
  room := 1024
  room_pos := by decide
  texts := [attrValue env "CTPonLinkAttr".toList]
  block := env.ponLinkBlock
  place := ponLinkMagic
  magic := 0x11227796
  flags := (curIFIndex env).map fun idx =>
    [("aVLANIDMark".toList, aWANPonLinkCfg1VLANIDMark + idx.tdiv 8)]

/-- The structures in the order in which they are read. -/
def parts (b : Build) (env : Env) : List Part :=
  [cwmpPart b env] ++ (if b.wlan then [wlanPart b env] else []) ++ [ipConPart b env] ++
    (if b.ctPon then [ponLinkPart env] else [])

def runParts (b : Build) : List Part → Out
  | [] => ([], some (.ret 0))
  | p :: rest => (p.run b).andThen (runParts b rest)

/-- The flags if the limit is switched off: they come from no byte. -/
def openFlags (b : Build) : List Flag :=
  (["aURL", "aUsername", "aPassword", "aConnectionRequestUsername",
      "aConnectionRequestPassword"] ++
    (if b.gd then ["aPeriodicInformInterval"] else [])).map
      (fun name => ⟨name.toList, "0".toList, none⟩) ++
    ((if b.wlan then ["aSSIDEnable", "aWLanBeaconType", "aWLanSSID"] else []) ++
      ["aPPPUsername", "aPPPPassword", "aVLANIDMark"]).map
      fun name => ⟨name.toList, "1".toList, none⟩

/-- `NoGUIAccessLimit` is `1`. -/
def noGuiAccessLimit (env : Env) : Bool :=
  attrText (env.cfg waninfoCommonNode "NoGUIAccessLimit".toList) 1024 [] = "1".toList

/-- `cfg_type_dyncwmpattr_read`. -/
def dyncwmpattrRead (b : Build) (env : Env) (path attr val : Option Str) (len : Int) : Out :=
  if path = none ∨ attr = none ∨ val = none ∨ len ≤ 0 then ([], some (.ret (-1)))
  else if noGuiAccessLimit env then (openFlags b, some (.ret 0))
  else runParts b (parts b env)

/-! ## When the flags are right -/

/-- Nothing is written or read outside of a block, and every flag comes from a stored byte. -/
def Out.Right (o : Out) : Prop :=
  (∀ f, o.2 ≠ some (.fault f)) ∧ ∀ f ∈ o.1, ∀ i n, f.source = some (i, n) → i < n

/-- What the decoder stores for a text. -/
def storedBytes (b : Build) (text : Str) : List UInt8 :=
  match rpDecodeBase64DataNoNull b.signedChar (textBytes text) (text.length % 2 ^ 16) with
  | .ok r => r.2
  | .error _ => []

/-- The magic number is found in the block. -/
def Part.Shows (b : Build) (p : Part) (old : Nat → UInt8) : Prop :=
  word b.bigEndian (fresh p.room old (storedBytes b p.texts.flatten)) p.place = p.magic

instance (b : Build) (p : Part) (old : Nat → UInt8) : Decidable (p.Shows b old) :=
  inferInstanceAs (Decidable (_ = _))

/-- The texts fit into the buffer, and if the magic number is found the places of the flags are
places of stored bytes. -/
def Part.Fits (b : Build) (p : Part) : Prop :=
  p.before = true → p.texts.flatten.length < p.room ∧
    ∀ old, p.block = some old → p.Shows b old → ∀ flags, p.flags = some flags →
      ∀ f ∈ flags, 0 ≤ f.2 ∧ f.2 < (storedBytes b p.texts.flatten).length

/-- The function goes on behind the structure. -/
def Part.Passes (b : Build) (p : Part) : Prop :=
  p.before = true ∧ (∃ old, p.block = some old ∧ p.Shows b old) ∧ p.flags ≠ none

/-- Every structure that is reached fits. -/
def PartsFit (b : Build) : List Part → Prop
  | [] => True
  | p :: rest => p.Fits b ∧ (p.Passes b → PartsFit b rest)

/-! ## One structure -/

theorem strcatAll_eq {room : Nat} {buf : Str} (h : buf.length < room) (texts : List Str) :
    strcatAll room buf texts =
      if (buf ++ texts.flatten).length < room then .ok (buf ++ texts.flatten)
      else .error .overrun := by
  induction texts generalizing buf with
  | nil => rw [strcatAll, List.flatten_nil, List.append_nil, if_pos h]
  | cons cur rest ih =>
    rw [strcatAll, List.flatten_cons]
    by_cases hcur : buf.length + cur.length < room
    · rw [if_pos hcur, ih (by rwa [List.length_append]), List.append_assoc]
    · rw [if_neg hcur, if_neg]
      simp only [List.length_append]
      omega

theorem storedBytes_spec (b : Build) (text : Str) :
    (∃ n, rpDecodeBase64DataNoNull b.signedChar (textBytes text) (text.length % 2 ^ 16) =
      .ok (n, storedBytes b text)) ∧ (storedBytes b text).length ≤ text.length := by
  have hcount : text.length % 2 ^ 16 ≤ (textBytes text).length := by
    rw [textBytes, List.length_map]
    exact Nat.mod_le _ _
  obtain ⟨out, -, hout, hlen⟩ := rpDecode_take b.signedChar _ _ hcount
  have hstored : storedBytes b text = out := by rw [storedBytes, hout]
  have hle : text.length % 2 ^ 16 ≤ text.length := Nat.mod_le _ _
  exact ⟨⟨_, by rw [hout, hstored]⟩, by rw [hstored]; omega⟩

theorem length_fresh {size : Nat} {old : Nat → UInt8} {out : List UInt8} (h : out.length ≤ size) :
    (fresh size old out).length = size := by
  rw [fresh, List.length_append, List.length_map, List.length_range']
  omega

theorem andThen_right_iff {a b : Out} :
    (a.andThen b).Right ↔ a.Right ∧ (a.2 = none → b.Right) := by
  obtain ⟨flags, stop⟩ := a
  cases stop with
  | none =>
    simp only [Out.andThen, Out.Right, List.mem_append, or_imp, forall_and, reduceCtorEq, ne_eq,
      not_false_eq_true, implies_true, true_and, forall_const]
    exact and_left_comm
  | some stop => simp [Out.andThen]

theorem publish_spec {block : List UInt8} {stored : Nat} (h : stored ≤ block.length)
    (flags : List (Str × Int)) :
    ((publish block stored flags).Right ↔ ∀ f ∈ flags, 0 ≤ f.2 ∧ f.2 < stored) ∧
      ((publish block stored flags).Right → (publish block stored flags).2 = none) := by
  induction flags with
  | nil => exact ⟨⟨fun _ f hf => absurd hf List.not_mem_nil,
      fun _ => ⟨fun f => by simp [publish], by simp [publish]⟩⟩, fun _ => rfl⟩
  | cons f rest ih =>
    obtain ⟨name, place⟩ := f
    rw [publish, List.forall_mem_cons]
    by_cases hplace : 0 ≤ place ∧ place < block.length
    · rw [if_pos hplace]
      have hflag : Out.Right
          ([⟨name, flagText (block.getD place.toNat 0), some (place.toNat, stored)⟩], none) ↔
            0 ≤ place ∧ place < stored := by
        have hnat : place.toNat < stored ↔ place < stored := by omega
        simp [Out.Right, hplace.1, hnat]
      rw [andThen_right_iff, hflag, ← ih.1]
      exact ⟨by simp, fun hright => ih.2 (hright.2 rfl)⟩
    · rw [if_neg hplace]
      have hwrong : ¬ Out.Right ([], some (.fault .overrun)) := fun hr => hr.1 _ rfl
      refine ⟨iff_of_false hwrong fun hfit => hplace ⟨hfit.1.1, ?_⟩, fun hr => absurd hr hwrong⟩
      have := hfit.1.2
      simp only at this
      omega

theorem ret_right (v : Int) : Out.Right ([], some (.ret v)) :=
  ⟨fun f => by simp, fun f hf => absurd hf List.not_mem_nil⟩

theorem not_fault_right (f : Fault) : ¬ Out.Right ([], some (.fault f)) := fun hr => hr.1 f rfl

namespace Part

variable (b : Build) (p : Part)

/-- A structure whose texts fit into the buffer. -/
theorem run_eq (hbefore : p.before = true) (hroom : p.texts.flatten.length < p.room) :
    p.run b =
      match p.block with
      | none => ([], some (.ret (-1)))
      | some old =>
        if p.Shows b old then
          match p.flags with
          | none => ([], some (.ret (-1)))
          | some flags =>
            publish (fresh p.room old (storedBytes b p.texts.flatten))
              (storedBytes b p.texts.flatten).length flags
        else ([], some (.ret (-1))) := by
  have htext : strcatAll p.room [] p.texts = .ok p.texts.flatten := by
    rw [strcatAll_eq p.room_pos, List.nil_append, if_pos hroom]
  obtain ⟨⟨n, hdecode⟩, hlen⟩ := storedBytes_spec b p.texts.flatten
  have hfit : ¬ p.room < (storedBytes b p.texts.flatten).length := by omega
  rw [run, if_neg (by simp [hbefore]), htext]
  cases p.block with
  | none => rfl
  | some old =>
    simp only [hdecode, if_neg hfit, ne_eq, ite_not]
    rfl

theorem run_spec : ((p.run b).Right ↔ p.Fits b) ∧
    (p.Fits b → ((p.run b).2 = none ↔ p.Passes b)) := by
  by_cases hbefore : p.before = true
  · by_cases hroom : p.texts.flatten.length < p.room
    · have hrun := run_eq b p hbefore hroom
      have hstored : (storedBytes b p.texts.flatten).length ≤ p.room :=
        (storedBytes_spec b p.texts.flatten).2.trans hroom.le
      simp only [Fits, Passes, hbefore, hroom, true_and, forall_const, hrun]
      cases hblock : p.block with
      | none => simp [ret_right]
      | some old =>
        by_cases hshows : p.Shows b old
        · cases hflags : p.flags with
          | none => simp [hshows, ret_right]
          | some flags =>
            have hlen : (storedBytes b p.texts.flatten).length ≤
                (fresh p.room old (storedBytes b p.texts.flatten)).length := by
              rwa [length_fresh hstored]
            obtain ⟨hright, hnone⟩ := publish_spec hlen flags
            simp only [Option.some.injEq, forall_eq', hshows, forall_const]
            refine ⟨hright, fun hfit => iff_of_true (hnone (hright.mpr hfit)) ?_⟩
            exact ⟨⟨old, rfl, hshows⟩, by simp⟩
        · simp [hshows, ret_right]
    · -- the texts are longer than the buffer
      have hrun : p.run b = ([], some (.fault .overrun)) := by
        rw [run, if_neg (by simp [hbefore]), strcatAll_eq p.room_pos, List.nil_append,
          if_neg hroom]
      have hno : ¬ p.Fits b := fun hfit => hroom (hfit hbefore).1
      rw [hrun]
      exact ⟨iff_of_false (not_fault_right _) hno, fun hfit => absurd hfit hno⟩
  · have hfalse : p.before = false := by simpa using hbefore
    have hrun : p.run b = ([], some (.ret (-1))) := by rw [run, if_pos hfalse]
    rw [hrun]
    exact ⟨iff_of_true (ret_right _) fun h => absurd h hbefore,
      fun _ => iff_of_false (by simp) fun h => hbefore h.1⟩

end Part

/-! ## The whole function -/

theorem runParts_right_iff (b : Build) (ps : List Part) :
    (runParts b ps).Right ↔ PartsFit b ps := by
  induction ps with
  | nil => exact iff_of_true (ret_right 0) trivial
  | cons p rest ih =>
    obtain ⟨hright, hnext⟩ := p.run_spec b
    rw [runParts, andThen_right_iff, hright, ih]
    exact and_congr_right fun hfit => imp_congr_left (hnext hfit)

/-- What the function needs of the attributes: if the limit is not switched off, every structure
that is reached fits. -/
def ReadFits (b : Build) (env : Env) (path attr val : Option Str) (len : Int) : Prop :=
  path ≠ none → attr ≠ none → val ≠ none → 0 < len → noGuiAccessLimit env = false →
    PartsFit b (parts b env)

theorem openFlags_source {b : Build} {f : Flag} (h : f ∈ openFlags b) : f.source = none := by
  rw [openFlags, List.mem_append, List.mem_map, List.mem_map] at h
  obtain ⟨name, -, rfl⟩ | ⟨name, -, rfl⟩ := h <;> rfl

theorem read_right_iff (b : Build) (env : Env) (path attr val : Option Str) (len : Int) :
    (dyncwmpattrRead b env path attr val len).Right ↔ ReadFits b env path attr val len := by
  rw [dyncwmpattrRead]
  split
  · next hargs =>
    refine iff_of_true (ret_right _) fun hpath hattr hval hlen => ?_
    rcases hargs with h | h | h | h
    · exact absurd h hpath
    · exact absurd h hattr
    · exact absurd h hval
    · omega
  · next hargs =>
    obtain ⟨hpath, hattr, hval, hlen⟩ :
        path ≠ none ∧ attr ≠ none ∧ val ≠ none ∧ ¬ len ≤ 0 := by
      simpa only [not_or] using hargs
    cases hlimit : noGuiAccessLimit env with
    | true =>
      refine iff_of_true ⟨fun f => by simp, fun f hf i n hsource => ?_⟩
        fun _ _ _ _ h => absurd (hlimit.symm.trans h) (by decide)
      rw [openFlags_source hf] at hsource
      cases hsource
    | false =>
      rw [if_neg (by decide), runParts_right_iff]
      exact ⟨fun h _ _ _ _ _ => h, fun h => h hpath hattr hval (by omega) hlimit⟩

/-- **The decoder is right; the function is right if and only if what it reads fits**: the texts of
`ipConAttr` together are shorter than the buffer, and wherever a magic number is found the bytes of
the flags have been stored. -/
theorem accessFlags_iff (b : Build) :
    (∀ s : List UInt8, (base64Text s).length ≤ 65532 →
      rpDecodeBase64DataNoNull b.signedChar (base64Text s) (base64Text s).length =
        .ok (s.length, s)) ∧
    (∀ (text : List UInt8) (count : Nat), count < 2 ^ 16 → count ≤ text.length → ∃ r,
      rpDecodeBase64DataNoNull b.signedChar (text.take count) count = .ok r ∧
      rpDecodeBase64DataNoNull b.signedChar text count = .ok r ∧ 4 * r.2.length ≤ 3 * count) ∧
    ∀ (env : Env) (path attr val : Option Str) (len : Int),
      (dyncwmpattrRead b env path attr val len).Right ↔ ReadFits b env path attr val len := by
  refine ⟨rpDecode_base64Text b.signedChar, fun text count _ hcount => ?_, read_right_iff b⟩
  obtain ⟨out, htake, hall, hout⟩ := rpDecode_take b.signedChar text count hcount
  exact ⟨_, htake, hall, hout⟩

/-- A build without any of the macros. -/
def plainBuild : Build :=
  ⟨false, false, false, false, false, false, false, false, false, false, false, false, false, false,
    false, false, false⟩

/-- Both structures as they are stored: `cwmpAttr`, and `ipConAttr` in eleven texts. -/
def storedStructures : Env where
  cfg := fun _ name =>
    if name = "NoGUIAccessLimit".toList then none
    else if name = "cwmpAttr".toList then some "AAAAAAAAAAAAAAAAAAAAAAAAAADdzLuq".toList
    else if name = "CurIFIndex".toList then some "0".toList
    else if name = "ipConAttrLen".toList then some "11".toList
    else if name = "ipConAttr10".toList then
      some (List.replicate 752 'A' ++ "u93Mqg==".toList)
    else some (List.replicate 1000 'A')
  cwmpBlock := some fun _ => 0
  wlanBlock := none
  bufBlock := true
  ipConBlock := some fun _ => 0
  ponLinkBlock := none

/-- The magic number is at the end of what the eleven texts are decoded to. -/
theorem storedBytes_ipCon_drop :
    (storedBytes plainBuild (ipConPart plainBuild storedStructures).texts.flatten).drop 8064 =
      [0xBB, 0xDD, 0xCC, 0xAA] := by
  decide +kernel

theorem storedBytes_ipCon_length :
    (storedBytes plainBuild (ipConPart plainBuild storedStructures).texts.flatten).length =
      8068 := by
  have hdrop := congrArg List.length storedBytes_ipCon_drop
  rw [List.length_drop] at hdrop
  exact (by omega : ∀ n : Nat, n - 8064 = 4 → n = 8068) _ hdrop

theorem partsFit_storedStructures :
    PartsFit plainBuild (parts plainBuild storedStructures) := by
  have hcwmp :
      (storedBytes plainBuild (cwmpPart plainBuild storedStructures).texts.flatten).length =
        24 := by
    decide +kernel
  refine ⟨fun _ => ⟨by decide +kernel, fun _ _ _ flags hflags f hf => ?_⟩, fun _ =>
    ⟨fun _ => ⟨by decide +kernel, fun _ _ _ flags hflags f hf => ?_⟩, fun _ => trivial⟩⟩
  · have hplaces : ∀ f ∈ cwmpFlags plainBuild, 0 ≤ f.2 ∧ f.2 < 24 := by decide
    obtain rfl := Option.some.inj hflags
    rw [hcwmp]
    exact hplaces f hf
  · have hplaces : ((ipConPart plainBuild storedStructures).flags.getD []).all (fun f =>
        decide (0 ≤ f.2 ∧ f.2 < 8068)) = true := by
      decide +kernel
    rw [hflags, Option.getD_some, List.all_eq_true] at hplaces
    rw [storedBytes_ipCon_length]
    exact of_decide_eq_true (hplaces f hf)

theorem word_of_drop {stored : List UInt8} (hlen : stored.length = 8068)
    (hdrop : stored.drop 8064 = [0xBB, 0xDD, 0xCC, 0xAA]) (size : Nat) (old : Nat → UInt8) :
    word false (fresh size old stored) 8064 = 0xAACCDDBB := by
  have htake : ∀ rest : List UInt8, ([0xBB, 0xDD, 0xCC, 0xAA] ++ rest).take 4 =
      [0xBB, 0xDD, 0xCC, 0xAA] := fun _ => rfl
  rw [word, fresh, List.drop_append_of_le_length (by omega), hdrop, htake]
  decide

theorem shows_ipCon : (ipConPart plainBuild storedStructures).Shows plainBuild fun _ => 0 :=
  word_of_drop storedBytes_ipCon_length storedBytes_ipCon_drop _ _

/-- Behind each of them its magic number is found. -/
theorem passes_storedStructures :
    ∀ p ∈ parts plainBuild storedStructures, p.Passes plainBuild := by
  intro p hp
  rcases List.mem_pair.mp hp with rfl | rfl
  · exact ⟨rfl, ⟨fun _ => 0, rfl, by decide +kernel⟩, Option.some_ne_none _⟩
  · exact ⟨by decide +kernel, ⟨fun _ => 0, rfl, shows_ipCon⟩, by decide +kernel⟩

/-- The padding of one byte is read back, and the flags of both structures are published. -/
theorem accessFlags_iff_stored :
    rpDecodeBase64DataNoNull false (base64Text [1, 2, 3, 4]) (base64Text [1, 2, 3, 4]).length =
      .ok (4, [1, 2, 3, 4]) ∧
    (∀ p ∈ parts plainBuild storedStructures, p.Passes plainBuild) ∧
    (dyncwmpattrRead plainBuild storedStructures (some []) (some []) (some []) 1).Right := by
  obtain ⟨hdecode, -, hread⟩ := accessFlags_iff plainBuild
  exact ⟨hdecode [1, 2, 3, 4] (by decide +kernel), passes_storedStructures,
    (hread _ _ _ _ _).mpr fun _ _ _ _ _ => partsFit_storedStructures⟩

/-- Thirteen texts of 1000 characters, behind a structure that is right. -/
def longTexts : Env where
  cfg := fun _ name =>
    if name = "NoGUIAccessLimit".toList then none
    else if name = "cwmpAttr".toList then some "AAAAAAAAAAAAAAAAAAAAAAAAAADdzLuq".toList
    else if name = "CurIFIndex".toList then some "0".toList
    else if name = "ipConAttrLen".toList then some "13".toList
    else some (List.replicate 1000 'A')
  cwmpBlock := some fun _ => 0
  wlanBlock := none
  bufBlock := true
  ipConBlock := some fun _ => 0
  ponLinkBlock := none

/-- The texts are put together behind the end of the buffer. -/
theorem accessFlags_wrong :
    ¬ (dyncwmpattrRead plainBuild longTexts (some []) (some []) (some []) 1).Right := by
  rw [read_right_iff]
  intro hfits
  obtain ⟨-, hrest⟩ := hfits (by simp) (by simp) (by simp) (by decide) (by decide +kernel)
  have hcwmp : (cwmpPart plainBuild longTexts).Passes plainBuild :=
    ⟨rfl, ⟨fun _ => 0, rfl, by decide +kernel⟩, Option.some_ne_none _⟩
  obtain ⟨hroom, -⟩ := (hrest hcwmp).1 (by decide +kernel)
  exact absurd hroom (by decide +kernel)

end OnuFirmware.Cwmp
