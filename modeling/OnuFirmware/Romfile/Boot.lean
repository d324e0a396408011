import OnuFirmware.Cfg.Load
import OnuFirmware.Cfg.Save
import OnuFirmware.Romfile.Frame
import OnuFirmware.Romfile.Proline

/-!
# Loading a romfile at boot (`cfg_romfile.c`)

`tc_parse_romfile` looks for a romfile that can be loaded: the running one, the one of the ITMS
(only after a CRC error), the backup, the default and the one in the file system. What it finds is
then written back to the running and the backup area. The branches of `#if` are the fields of
`Build`.

The flash commands do what their names say: an area holds the bytes of the file that was written to
it last, and reading it gives these bytes. So do the calls of `tar` in the build with
`TCSUPPORT_CT_ZIPROMFILE`, in which an area holds an archive.
-/

namespace OnuFirmware.Romfile

open Clib Cfg

/-! ## Data -/

/-- `CT_COM_DEVICEREG` with `TCSUPPORT_ITMS_CONFIG_AS_DEFAULT`, then
`TCSUPPORT_CT_BACKUPROMFILEENCHANCEMENT`, `TCSUPPORT_RESERVEAREA_EXTEND`,
`TCSUPPORT_CT_ZIPROMFILE`, `TCSUPPORT_PRODUCTIONLINE` and the switches of its parameters. -/
structure Build where
  itms : Bool
  backupEnhancement : Bool
  reserveareaExtend : Bool
  zipRomfile : Bool
  productionline : Bool
  proline : ProlineBuild
deriving Repr, DecidableEq

/-- What is fixed during a boot: the layout of a header, the size of an erase block, what fresh
memory holds, the types, the XML parser, whether `ROMFILE_PATH` can be written, the mode of the ONU,
the parameters of the production line, and the archives of `CT_ROMFILE_FILE_NAME` that `tar` makes
and unpacks. The parser is that of the mxml library, which is not in this repository. -/
structure Env where
  lay : HeaderLayout
  mtdErasesize : Nat
  heap : Nat → UInt8
  tt : TypeTree
  mxmlLoadFile : Bytes → Option MxmlNode
  saveOpens : Bool
  xponMode : Int
  para : ProlinePara
  tar : Bytes → Bytes
  untar : Bytes → Option Bytes
  untar_tar : ∀ file, untar (tar file) = some file

/-- Where a romfile is looked for; the values of `rechecknum`. -/
inductive Source
  | running
  | itms
  | backup
  | default
  | filesystem
deriving Repr, DecidableEq

/-- The contents of the areas, and of the file that `getDefaultRomfile` selects. -/
structure Images where
  running : Bytes
  itms : Bytes
  backup : Bytes
  default : Bytes
  filesystem : Bytes
deriving Repr, DecidableEq

def Images.image (im : Images) : Source → Bytes
  | .running => im.running
  | .itms => im.itms
  | .backup => im.backup
  | .default => im.default
  | .filesystem => im.filesystem

/-- One image that was tried, with the object tree before and after. -/
structure Attempt where
  source : Source
  accepted : Bool
  before : ObjState
  after : ObjState

/-- The state of a boot. -/
structure Boot where
  images : Images
  st : ObjState
  tried : List Attempt

/-- How `tc_parse_romfile` ends: it returns `0` or `-1`, or the process exits. -/
inductive Ret
  | zero
  | minusOne
  | exit
deriving Repr, DecidableEq

/-- Appends an attempt. -/
def Boot.attempt (b : Boot) (s : Source) (accepted : Bool) (st : ObjState) : Boot :=
  { b with st := st, tried := b.tried ++ [⟨s, accepted, b.st, st⟩] }

/-! ## Checking an image -/

/-- How many bytes `compute_checksum` and `check_checksum` read. -/
def Env.readLen (B : Build) (E : Env) : Nat :=
  if B.zipRomfile then romfileMaxLen + romfileMaxPending else E.mtdErasesize

/-- `check_checksum`. An archive without the file leaves nothing to open. -/
def Env.check (B : Build) (E : Env) (file : Bytes) : Except Fault CheckResult :=
  if B.zipRomfile then
    match E.untar file with
    | none => .ok .bad
    | some configinfo => checkChecksum E.lay (E.readLen B) E.heap configinfo
  else checkChecksum E.lay (E.readLen B) E.heap file

/-- `compute_checksum`. -/
def Env.compute (B : Build) (E : Env) (file : Bytes) : Option Bytes :=
  if B.zipRomfile then (computeChecksumZip E.lay file).map E.tar
  else computeChecksum E.lay E.mtdErasesize file

/-- `cfg_load_object`; whether it returns `0`. -/
def cfgLoadObject (E : Env) (file : Bytes) (st : ObjState) : Except Fault (Bool × ObjState) :=
  match E.mxmlLoadFile file with
  | none => .ok (false, st)
  | some xml => (cfgLoadFromXml E.tt xml [] st).map fun st => (true, st)

/-- The return value of `check_romfile` together with `isRomfileCrcErr`. -/
inductive Verdict
  | accepted
  | rejected
  | crcErr
deriving Repr, DecidableEq

/-- `cfg_load_object` as the end of `check_romfile`. -/
def loadVerdict (E : Env) (file : Bytes) (st : ObjState) : Except Fault (Verdict × ObjState) :=
  (cfgLoadObject E file st).map fun r => (if r.1 then .accepted else .rejected, r.2)

/-- `check_romfile`. -/
def checkRomfile (B : Build) (E : Env) (file : Bytes) (st : ObjState) :
    Except Fault (Verdict × ObjState) :=
  if B.backupEnhancement then
    match E.check B file with
    | .error e => .error e
    | .ok .bad => .ok (.rejected, st)
    | .ok .crcErr => .ok (.crcErr, st)
    | .ok (.ok out) => loadVerdict E out st
  else loadVerdict E file st

/-- `load_checksum_def_romfile`: whether it returns a tree. It parses the file a second time, which
succeeds when the first time did. -/
def loadChecksumDefRomfile (B : Build) (E : Env) (file : Bytes) (st : ObjState) :
    Except Fault (Bool × ObjState) :=
  match E.check B file with
  | .error e => .error e
  | .ok (.ok out) => cfgLoadObject E out st
  | .ok _ => .ok (false, st)

/-! ## The search -/

/-- The bytes of a text. -/
def textBytes (text : Str) : Bytes := text.map fun c => UInt8.ofNat c.toNat

/-- The tree is saved and written to the areas. -/
def saveFilesystem (B : Build) (E : Env) (b : Boot) : Except Fault (Ret × Boot) :=
  if E.saveOpens = false then .ok (.minusOne, b)
  else
    match cfgSaveObject E.tt b.st with
    | .error e => .error e
    | .ok text =>
      match E.compute B (textBytes text) with
      | none => .ok (.minusOne, b)
      | some frame =>
        .ok (.zero, { b with images := { b.images with
          running := frame
          backup := if B.backupEnhancement then frame else b.images.backup } })

/-- What is done after the romfile in the file system was loaded. `load_def_romfile` has written it
to the running area already. -/
def storeFilesystem (B : Build) (E : Env) (b : Boot) : Except Fault (Ret × Boot) :=
  if B.reserveareaExtend then
    match if B.productionline then handleProlineParas B.proline E.tt E.xponMode E.para b.st
      else .ok b.st with
    | .error e => .error e
    | .ok st => saveFilesystem B E { b with st := st }
  else .ok (.zero, { b with images := { b.images with backup := b.images.filesystem } })

/-- The last attempt of the search. -/
def tryFilesystem (B : Build) (E : Env) (b : Boot) : Except Fault (Ret × Boot) :=
  let file := b.images.filesystem
  match if B.backupEnhancement then loadChecksumDefRomfile B E file b.st
      else cfgLoadObject E file b.st with
  | .error e => .error e
  | .ok (false, st) => .ok (.exit, b.attempt .filesystem false st)
  | .ok (true, st) =>
    let b := b.attempt .filesystem true st
    storeFilesystem B E (if B.backupEnhancement then b
      else { b with images := { b.images with running := file } })

/-- What `tc_parse_romfile` does after its loop. -/
def afterSearch (B : Build) (E : Env) (s : Source) (b : Boot) : Except Fault (Ret × Boot) :=
  match s with
  | .running =>
    match E.check B b.images.backup with
    | .error e => .error e
    | .ok (.ok _) => .ok (.zero, b)
    | .ok _ => .ok (.zero, { b with images := { b.images with backup := b.images.running } })
  | .itms =>
    .ok (.zero, { b with images := { b.images with running := b.images.itms,
                                                   backup := b.images.itms } })
  | .backup => .ok (.zero, { b with images := { b.images with running := b.images.backup } })
  | .default =>
    .ok (.zero, { b with images := { b.images with running := b.images.default,
                                                   backup := b.images.default } })
  | .filesystem => .ok (.zero, b)

/-- The next `rechecknum` after an image was rejected. -/
def nextSource (B : Build) (v : Verdict) : Source → Source
  | .running => if B.itms && v == .crcErr then .itms else .backup
  | .itms => .backup
  | .backup => .default
  | .default => .filesystem
  | .filesystem => .filesystem

/-- The loop of `tc_parse_romfile`, which checks at most four areas, and what follows it. -/
def searchLoop (B : Build) (E : Env) : Nat → Source → Boot → Except Fault (Ret × Boot)
  | 0, _, b => .ok (.exit, b)
  | fuel + 1, s, b =>
    match checkRomfile B E (b.images.image s) b.st with
    | .error e => .error e
    | .ok (.accepted, st) => afterSearch B E s (b.attempt s true st)
    | .ok (v, st) =>
      match nextSource B v s with
      | .filesystem => tryFilesystem B E (b.attempt s false st)
      | next => searchLoop B E fuel next (b.attempt s false st)

/-- `tc_parse_romfile`. -/
def tcParseRomfile (B : Build) (E : Env) (images : Images) (st : ObjState) :
    Except Fault (Ret × Boot) :=
  searchLoop B E 4 .running { images := images, st := st, tried := [] }

end OnuFirmware.Romfile
