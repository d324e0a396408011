import OnuFirmware.Cfg.Address
import OnuFirmware.Romfile.Boot

/-!
# What a boot leaves behind

The loop of `tc_parse_romfile` is a search through a list of candidates
(`tcParseRomfile_eq_inOrder`): it tries them in order and loads the first that is accepted. Whether
the two areas can be read at the next boot depends on where the search stopped, and the tree is the
loaded one unless the production line gave other parameters (`bootOk_iff`). With the backup
enhancement and without the extended reserve area nothing repairs the running area after the romfile
of the file system was loaded (`not_bootOk`).
-/

namespace OnuFirmware.Romfile

open Lib Clib Cfg

/-! ## Statement -/

/-- What an image turns out to be. -/
inductive Exam
  | accepted (xml : MxmlNode)
  | rejected
  | crcErr

/-- A document that the parser returned or not. -/
def Exam.ofXml : Option MxmlNode → Exam
  | none => .rejected
  | some xml => .accepted xml

/-- Looks at an image without loading it. -/
def examine (B : Build) (E : Env) (file : Bytes) : Except Fault Exam :=
  if B.backupEnhancement then
    match E.check B file with
    | .error e => .error e
    | .ok .bad => .ok .rejected
    | .ok .crcErr => .ok .crcErr
    | .ok (.ok out) => .ok (.ofXml (E.mxmlLoadFile out))
  else .ok (.ofXml (E.mxmlLoadFile file))

/-- The running image has a wrong CRC. -/
def crcError (B : Build) (E : Env) (file : Bytes) : Bool :=
  match examine B E file with
  | .ok .crcErr => true
  | _ => false

/-- The images in the order in which they are to be tried. -/
def candidates (B : Build) (E : Env) (im : Images) : List Source :=
  .running :: ((if B.itms && crcError B E im.running then [.itms] else []) ++
    [.backup, .default, .filesystem])

/-- The candidates up to the first accepted one. -/
def searched (B : Build) (E : Env) (im : Images) : List Source → List Source
  | [] => []
  | s :: ss =>
    match examine B E (im.image s) with
    | .ok (.accepted _) => [s]
    | _ => s :: searched B E im ss

/-- The document of the first accepted candidate. -/
def document (B : Build) (E : Env) (im : Images) : List Source → Option MxmlNode
  | [] => none
  | s :: ss =>
    match examine B E (im.image s) with
    | .ok (.accepted xml) => some xml
    | _ => document B E im ss

/-- `check_checksum` accepts a file. -/
def Env.Accepts (B : Build) (E : Env) (file : Bytes) : Prop := ∃ out, E.check B file = .ok (.ok out)

/-- The tree after loading a document, if there is one. -/
def Loaded (E : Env) (st : ObjState) (xml : Option MxmlNode) (st' : ObjState) : Prop :=
  match xml with
  | none => st' = st
  | some xml => cfgLoadFromXml E.tt xml [] st = .ok st'

/-- A boot that tried the candidates in order, loaded the first accepted one and nothing else, and
left two areas that can be read if it returned `0`. -/
structure Recovered (B : Build) (E : Env) (im : Images) (st : ObjState)
    (r : Ret × Boot) : Prop where
  order : r.2.tried.map Attempt.source = searched B E im (candidates B E im)
  unchanged : ∀ a ∈ r.2.tried, a.accepted = false → a.after = a.before
  loaded : Loaded E st (document B E im (candidates B E im)) r.2.st
  areas : r.1 = .zero → E.Accepts B r.2.images.running ∧ E.Accepts B r.2.images.backup

/-- The boot ends, and well. -/
def BootOk (B : Build) (E : Env) (im : Images) (st : ObjState) : Prop :=
  ∃ r, tcParseRomfile B E im st = .ok r ∧ Recovered B E im st r

/-! ## The condition -/

/-- Every attribute of `st` that a parameter of the production line names has the value of the last
parameter that names it. -/
def ProlineHeld (B : Build) (E : Env) (st : ObjState) : Prop :=
  ∃ calls, prolineCalls B.proline E.tt E.xponMode E.para st = .ok calls ∧
    ∃ ws, writesOf E.tt st calls = .ok ws ∧ ∀ w, LastWrite AttrWrite.place ws w → w.Held st

/-- The condition when the romfile in the file system was loaded into `st`: the build writes both
areas and what it writes can be read. -/
def FilesystemRepaired (B : Build) (E : Env) (im : Images) (st : ObjState) : Prop :=
  if B.reserveareaExtend then
    (B.productionline = true → ProlineHeld B E st) ∧
    (E.saveOpens = true → ∃ text, cfgSaveObject E.tt st = .ok text ∧
      ((E.compute B (textBytes text)).isSome →
        FrameFits E.lay (E.readLen B) E.heap (textBytes text) ∧
          (B.backupEnhancement = true ∨ E.Accepts B im.backup)))
  else if B.backupEnhancement then E.Accepts B im.running
  else E.Accepts B im.filesystem

/-- The condition when the search stopped at a source and `st` was loaded. Without the backup
enhancement an image without a frame is loaded too. -/
def Repaired (B : Build) (E : Env) (im : Images) (st : ObjState) : Source → Prop
  | .running => (∃ r, E.check B im.backup = .ok r) ∧
      (B.backupEnhancement = true ∨ E.Accepts B im.running)
  | .filesystem => FilesystemRepaired B E im st
  | s => B.backupEnhancement = true ∨ E.Accepts B (im.image s)

/-- The condition on the candidates: no image that is looked at makes `check_checksum` leave its
block, the first accepted one is loaded without a fault, and the areas are repaired. -/
def SearchSafe (B : Build) (E : Env) (im : Images) (st : ObjState) : List Source → Prop
  | [] => True
  | s :: ss =>
    match examine B E (im.image s) with
    | .error _ => False
    | .ok (.accepted xml) =>
      ∃ st', cfgLoadFromXml E.tt xml [] st = .ok st' ∧ Repaired B E im st' s
    | .ok _ => SearchSafe B E im st ss

/-! ## The search in order -/

/-- What is done with an accepted image. -/
def finish (B : Build) (E : Env) (s : Source) (b : Boot) : Except Fault (Ret × Boot) :=
  match s with
  | .filesystem =>
    storeFilesystem B E (if B.backupEnhancement then b
      else { b with images := { b.images with running := b.images.filesystem } })
  | s => afterSearch B E s b

/-- Tries candidates in order. -/
def inOrder (B : Build) (E : Env) : Boot → List Source → Except Fault (Ret × Boot)
  | b, [] => .ok (.exit, b)
  | b, s :: ss =>
    match examine B E (b.images.image s) with
    | .error e => .error e
    | .ok (.accepted xml) =>
      match cfgLoadFromXml E.tt xml [] b.st with
      | .error e => .error e
      | .ok st => finish B E s (b.attempt s true st)
    | .ok _ => inOrder B E (b.attempt s false b.st) ss

section

variable {B : Build} {E : Env}

theorem loadVerdict_eq (E : Env) (file : Bytes) (st : ObjState) :
    loadVerdict E file st =
      match Exam.ofXml (E.mxmlLoadFile file) with
      | .accepted xml => (cfgLoadFromXml E.tt xml [] st).map fun st => (.accepted, st)
      | _ => .ok (.rejected, st) := by
  unfold loadVerdict cfgLoadObject
  cases E.mxmlLoadFile file with
  | none => rfl
  | some xml =>
    dsimp only [Exam.ofXml]
    cases cfgLoadFromXml E.tt xml [] st with
    | error e => rfl
    | ok st => rfl

/-- `check_romfile` is a look at the image, and loading what was found. -/
theorem checkRomfile_eq (file : Bytes) (st : ObjState) :
    checkRomfile B E file st =
      match examine B E file with
      | .error e => .error e
      | .ok (.accepted xml) => (cfgLoadFromXml E.tt xml [] st).map fun st => (.accepted, st)
      | .ok .rejected => .ok (.rejected, st)
      | .ok .crcErr => .ok (.crcErr, st) := by
  unfold checkRomfile examine
  cases B.backupEnhancement with
  | false =>
    simp only [Bool.false_eq_true, if_false]
    rw [loadVerdict_eq]
    cases E.mxmlLoadFile file <;> rfl
  | true =>
    simp only [if_true]
    cases E.check B file with
    | error e => rfl
    | ok c =>
      cases c with
      | bad => rfl
      | crcErr => rfl
      | ok out =>
        dsimp only
        rw [loadVerdict_eq]
        cases E.mxmlLoadFile out <;> rfl

/-- The last attempt is the last candidate. -/
theorem tryFilesystem_eq (b : Boot) : tryFilesystem B E b = inOrder B E b [.filesystem] := by
  unfold tryFilesystem inOrder examine
  dsimp only [Images.image]
  cases hbke : B.backupEnhancement with
  | false =>
    simp only [Bool.false_eq_true, if_false]
    unfold cfgLoadObject
    cases E.mxmlLoadFile b.images.filesystem with
    | none => rfl
    | some xml =>
      dsimp only [Exam.ofXml]
      cases cfgLoadFromXml E.tt xml [] b.st with
      | error e => rfl
      | ok st => simp [Except.map, finish, hbke, Boot.attempt]
  | true =>
    simp only [if_true]
    unfold loadChecksumDefRomfile
    cases E.check B b.images.filesystem with
    | error e => rfl
    | ok c =>
      cases c with
      | bad => rfl
      | crcErr => rfl
      | ok out =>
        dsimp only
        unfold cfgLoadObject
        cases E.mxmlLoadFile out with
        | none => rfl
        | some xml =>
          dsimp only [Exam.ofXml]
          cases cfgLoadFromXml E.tt xml [] b.st with
          | error e => rfl
          | ok st => simp [Except.map, finish, hbke]

/-- One turn of the loop is one candidate, if what follows is. -/
theorem searchLoop_eq (fuel : Nat) {s : Source} (hs : s ≠ .filesystem) (b : Boot)
    (ss : Verdict → List Source)
    (hnext : ∀ v, v ≠ .accepted →
      (match nextSource B v s with
        | .filesystem => tryFilesystem B E (b.attempt s false b.st)
        | next => searchLoop B E fuel next (b.attempt s false b.st)) =
      inOrder B E (b.attempt s false b.st) (ss v)) :
    searchLoop B E (fuel + 1) s b =
      inOrder B E b (s :: ss (if crcError B E (b.images.image s) then .crcErr else .rejected)) := by
  rw [searchLoop, checkRomfile_eq, inOrder]
  unfold crcError
  cases hex : examine B E (b.images.image s) with
  | error e => rfl
  | ok x =>
    cases x with
    | accepted xml =>
      dsimp only
      cases cfgLoadFromXml E.tt xml [] b.st with
      | error e => rfl
      | ok st =>
        cases s with
        | filesystem => exact absurd rfl hs
        | running => rfl
        | itms => rfl
        | backup => rfl
        | default => rfl
    | rejected => exact hnext .rejected (by simp)
    | crcErr => exact hnext .crcErr (by simp)

theorem searchLoop_default (fuel : Nat) (b : Boot) :
    searchLoop B E (fuel + 1) .default b = inOrder B E b [.default, .filesystem] :=
  searchLoop_eq fuel (by simp) b (fun _ => [.filesystem]) fun _ _ => tryFilesystem_eq _

theorem searchLoop_backup (fuel : Nat) (b : Boot) :
    searchLoop B E (fuel + 2) .backup b = inOrder B E b [.backup, .default, .filesystem] :=
  searchLoop_eq (fuel + 1) (by simp) b (fun _ => [.default, .filesystem])
    fun _ _ => searchLoop_default fuel _

theorem searchLoop_itms (fuel : Nat) (b : Boot) :
    searchLoop B E (fuel + 3) .itms b = inOrder B E b [.itms, .backup, .default, .filesystem] :=
  searchLoop_eq (fuel + 2) (by simp) b (fun _ => [.backup, .default, .filesystem])
    fun _ _ => searchLoop_backup fuel _

/-- **The loop is a search through the candidates in order.** -/
theorem tcParseRomfile_eq_inOrder (im : Images) (st : ObjState) :
    tcParseRomfile B E im st =
      inOrder B E { images := im, st := st, tried := [] } (candidates B E im) := by
  have hrun := searchLoop_eq (B := B) (E := E) 3 (s := .running) (by simp)
    { images := im, st := st, tried := [] }
    (fun v => (if B.itms && v == .crcErr then [.itms] else []) ++
      [.backup, .default, .filesystem]) fun v _ => by
        unfold nextSource
        cases B.itms && v == .crcErr with
        | true => exact searchLoop_itms 0 _
        | false => exact searchLoop_backup 1 _
  rw [tcParseRomfile, hrun, candidates]
  dsimp only [Images.image]
  by_cases hcrc : crcError B E im.running = true
  · simp [hcrc]
  · simp [hcrc]

/-! ## What is left in the areas -/

/-- Both areas can be read if the boot returned `0`. -/
def AreasOk (B : Build) (E : Env) (r : Ret × Boot) : Prop :=
  r.1 = .zero → E.Accepts B r.2.images.running ∧ E.Accepts B r.2.images.backup

theorem accepts_of_examine {file : Bytes} {xml : MxmlNode} (hbke : B.backupEnhancement = true)
    (h : examine B E file = .ok (.accepted xml)) : E.Accepts B file := by
  unfold examine at h
  rw [if_pos hbke] at h
  cases hcheck : E.check B file with
  | error e => simp [hcheck] at h
  | ok c =>
    cases c with
    | bad => simp [hcheck] at h
    | crcErr => simp [hcheck] at h
    | ok out => exact ⟨out, hcheck⟩

/-- What follows the search ends with the tree as it was and two good areas. -/
def EndsWell (B : Build) (E : Env) (st : ObjState) (x : Except Fault (Ret × Boot)) : Prop :=
  ∃ r, x = .ok r ∧ r.2.st = st ∧ AreasOk B E r

/-- A boot that returned `0` with two given areas. -/
theorem endsWell_iff {x : Except Fault (Ret × Boot)} {b : Boot} {st : ObjState}
    (h : x = .ok (.zero, b)) (hst : b.st = st) :
    EndsWell B E st x ↔ E.Accepts B b.images.running ∧ E.Accepts B b.images.backup := by
  subst h hst
  constructor
  · rintro ⟨r, hr, -, hareas⟩
    rw [← Except.ok.inj hr] at hareas
    exact hareas rfl
  · intro hareas
    exact ⟨_, rfl, rfl, fun _ => hareas⟩

/-- A frame that `compute_checksum` made is accepted exactly if it fits. -/
theorem accepts_compute_iff {payload frame : Bytes} (h : E.compute B payload = some frame) :
    E.Accepts B frame ↔ FrameFits E.lay (E.readLen B) E.heap payload := by
  unfold Env.Accepts Env.check Env.readLen
  unfold Env.compute at h
  cases hzip : B.zipRomfile with
  | false =>
    rw [hzip, if_neg (by decide)] at h
    simp only [Bool.false_eq_true, if_false]
    exact checkChecksum_ok_iff h
  | true =>
    rw [hzip, if_pos rfl] at h
    obtain ⟨configinfo, hconf, rfl⟩ := Option.map_eq_some_iff.mp h
    simp only [if_true, E.untar_tar]
    exact checkChecksum_zip_ok_iff hconf

theorem saveFilesystem_st {b : Boot} {r : Ret × Boot} (h : saveFilesystem B E b = .ok r) :
    r.2.st = b.st ∧ r.2.tried = b.tried := by
  unfold saveFilesystem at h
  split at h
  · obtain rfl := Except.ok.inj h
    exact ⟨rfl, rfl⟩
  split at h
  · simp at h
  split at h
  · obtain rfl := Except.ok.inj h
    exact ⟨rfl, rfl⟩
  · obtain rfl := Except.ok.inj h
    exact ⟨rfl, rfl⟩

theorem saveFilesystem_iff (b : Boot) : EndsWell B E b.st (saveFilesystem B E b) ↔
    (E.saveOpens = true → ∃ text, cfgSaveObject E.tt b.st = .ok text ∧
      ((E.compute B (textBytes text)).isSome →
        FrameFits E.lay (E.readLen B) E.heap (textBytes text) ∧
          (B.backupEnhancement = true ∨ E.Accepts B b.images.backup))) := by
  unfold saveFilesystem
  cases E.saveOpens with
  | false => simp [EndsWell, AreasOk]
  | true =>
    simp only [Bool.true_eq_false, if_false, true_implies]
    cases cfgSaveObject E.tt b.st with
    | error e => simp [EndsWell]
    | ok text =>
      simp only [Except.ok.injEq, exists_eq_left']
      cases hframe : E.compute B (textBytes text) with
      | none => simp [EndsWell, AreasOk]
      | some frame =>
        have hacc := accepts_compute_iff hframe
        refine (endsWell_iff rfl rfl).trans ?_
        simp only [Option.isSome_some, true_implies]
        rw [hacc]
        cases B.backupEnhancement with
        | true => simp [hacc]
        | false => simp

/-- The parameters leave the tree as it is exactly if it has their values. -/
theorem prolineHeld_iff (st : ObjState) :
    handleProlineParas B.proline E.tt E.xponMode E.para st = .ok st ↔ ProlineHeld B E st := by
  rw [handleProlineParas_eq_self_iff]
  exact exists_congr fun l => and_congr_right fun _ => setAll_eq_self_iff

theorem storeFilesystem_iff {xml : MxmlNode} (b : Boot)
    (hex : examine B E b.images.filesystem = .ok (.accepted xml)) :
    EndsWell B E b.st (finish B E .filesystem b) ↔ FilesystemRepaired B E b.images b.st := by
  unfold FilesystemRepaired finish storeFilesystem
  cases B.reserveareaExtend with
  | false =>
    simp only [Bool.false_eq_true, if_false]
    refine (endsWell_iff rfl (by dsimp only; split <;> rfl)).trans ?_
    cases hbke : B.backupEnhancement with
    | true =>
      have hfs := accepts_of_examine hbke hex
      simp only [if_true]
      exact and_iff_left hfs
    | false =>
      simp only [Bool.false_eq_true, if_false]
      exact and_self_iff
  | true =>
    simp only [if_true]
    generalize hb' : (if B.backupEnhancement then b
      else { b with images := { b.images with running := b.images.filesystem } }) = b'
    have hst : b'.st = b.st := by
      rw [← hb']
      split <;> rfl
    have hbackup : b'.images.backup = b.images.backup := by
      rw [← hb']
      split <;> rfl
    have hsave := @saveFilesystem_iff B E b'
    rw [hst, hbackup] at hsave
    rw [hst, ← hsave]
    cases hpl : B.productionline with
    | false =>
      simp only [Bool.false_eq_true, if_false, false_implies, true_and]
      rw [← hst]
    | true =>
      simp only [if_true, true_implies]
      rw [← prolineHeld_iff]
      cases hrun : handleProlineParas B.proline E.tt E.xponMode E.para b.st with
      | error e => simp [EndsWell]
      | ok st =>
        dsimp only
        rw [Except.ok.injEq]
        constructor
        · rintro ⟨r, hr, hrst, hareas⟩
          obtain rfl : st = b.st := (saveFilesystem_st hr).1.symm.trans hrst
          rw [← hst] at hr
          exact ⟨rfl, r, hr, hrst, hareas⟩
        · rintro ⟨rfl, hgood⟩
          rw [← hst]
          rwa [← hst] at hgood

/-- What follows the search of another source changes only the areas. -/
theorem afterSearch_frame {s : Source} {b : Boot} {r : Ret × Boot}
    (h : afterSearch B E s b = .ok r) : r.2.st = b.st ∧ r.2.tried = b.tried := by
  unfold afterSearch at h
  split at h
  · split at h
    · simp at h
    · obtain rfl := Except.ok.inj h
      exact ⟨rfl, rfl⟩
    · obtain rfl := Except.ok.inj h
      exact ⟨rfl, rfl⟩
  all_goals
    obtain rfl := Except.ok.inj h
    exact ⟨rfl, rfl⟩

/-- **What an accepted image leaves in the areas.** -/
theorem finish_iff {s : Source} {xml : MxmlNode} (b : Boot)
    (hex : examine B E (b.images.image s) = .ok (.accepted xml)) :
    EndsWell B E b.st (finish B E s b) ↔ Repaired B E b.images b.st s := by
  -- With the enhancement the image is known to have a good frame.
  have hframe : E.Accepts B (b.images.image s) ↔
      (B.backupEnhancement = true ∨ E.Accepts B (b.images.image s)) :=
    ⟨.inr, fun h => h.elim (fun hbke => accepts_of_examine hbke hex) id⟩
  cases s with
  | running =>
    have hrun : E.Accepts B b.images.running ↔
        (B.backupEnhancement = true ∨ E.Accepts B b.images.running) := hframe
    unfold Repaired finish afterSearch
    rw [← hrun]
    dsimp only
    cases hcheck : E.check B b.images.backup with
    | error e => simp [EndsWell]
    | ok c =>
      have hbad : EndsWell B E b.st (.ok (.zero,
          { b with images := { b.images with backup := b.images.running } })) ↔
            E.Accepts B b.images.running := (endsWell_iff rfl rfl).trans and_self_iff
      cases c with
      | ok out =>
        refine (endsWell_iff rfl rfl).trans ?_
        exact ⟨fun h => ⟨⟨_, rfl⟩, h.1⟩, fun h => ⟨h.2, out, hcheck⟩⟩
      | bad => exact hbad.trans ⟨fun h => ⟨⟨_, rfl⟩, h⟩, fun h => h.2⟩
      | crcErr => exact hbad.trans ⟨fun h => ⟨⟨_, rfl⟩, h⟩, fun h => h.2⟩
  | itms => exact (endsWell_iff rfl rfl).trans (and_self_iff.trans hframe)
  | backup => exact (endsWell_iff rfl rfl).trans (and_self_iff.trans hframe)
  | default => exact (endsWell_iff rfl rfl).trans (and_self_iff.trans hframe)
  | filesystem => exact storeFilesystem_iff b hex

theorem storeFilesystem_tried {b : Boot} {r : Ret × Boot} (h : storeFilesystem B E b = .ok r) :
    r.2.tried = b.tried := by
  unfold storeFilesystem at h
  split at h
  · split at h
    · simp at h
    · exact (saveFilesystem_st h).2
  · obtain rfl := Except.ok.inj h
    rfl

/-- What follows the search tries no more images. -/
theorem finish_tried {s : Source} {b : Boot} {r : Ret × Boot} (h : finish B E s b = .ok r) :
    r.2.tried = b.tried := by
  unfold finish at h
  split at h
  · refine (storeFilesystem_tried h).trans ?_
    split <;> rfl
  · exact (afterSearch_frame h).2

/-! ## The whole boot -/

/-- A search that ends has tried the candidates up to the first accepted one. -/
theorem inOrder_tried : ∀ (cands : List Source) {b : Boot} {r : Ret × Boot},
    inOrder B E b cands = .ok r →
    ∃ new, r.2.tried = b.tried ++ new ∧
      new.map Attempt.source = searched B E b.images cands ∧
      ∀ a ∈ new, a.accepted = false → a.after = a.before
  | [], b, r, h => by
    obtain rfl := Except.ok.inj h
    exact ⟨[], by simp, rfl, by simp⟩
  | s :: ss, b, r, h => by
    unfold inOrder at h
    unfold searched
    -- A rejected candidate is one attempt that changes nothing.
    have hreject : inOrder B E (b.attempt s false b.st) ss = .ok r →
        ∃ new, r.2.tried = b.tried ++ new ∧
          new.map Attempt.source = s :: searched B E b.images ss ∧
          ∀ a ∈ new, a.accepted = false → a.after = a.before := by
      intro hrest
      obtain ⟨new, hnew, hsrc, hsame⟩ := inOrder_tried ss hrest
      refine ⟨⟨s, false, b.st, b.st⟩ :: new, ?_, ?_, ?_⟩
      · rw [hnew]
        simp [Boot.attempt]
      · rw [List.map_cons, hsrc]
        rfl
      · intro a ha hacc
        rcases List.mem_cons.mp ha with rfl | ha
        · rfl
        · exact hsame a ha hacc
    cases hex : examine B E (b.images.image s) with
    | error e => simp [hex] at h
    | ok x =>
      rw [hex] at h
      cases x with
      | rejected => exact hreject h
      | crcErr => exact hreject h
      | accepted xml =>
        dsimp only at h
        cases hload : cfgLoadFromXml E.tt xml [] b.st with
        | error e => simp [hload] at h
        | ok st =>
          rw [hload] at h
          exact ⟨[⟨s, true, b.st, st⟩], finish_tried h, rfl, by simp⟩

/-- The search ends with the document loaded and two good areas exactly if the candidates meet the
condition. -/
theorem inOrder_areas_iff : ∀ (cands : List Source) (b : Boot),
    (∃ r, inOrder B E b cands = .ok r ∧ Loaded E b.st (document B E b.images cands) r.2.st ∧
      AreasOk B E r) ↔ SearchSafe B E b.images b.st cands
  | [], b => by
    refine ⟨fun _ => trivial, fun _ => ⟨_, rfl, rfl, ?_⟩⟩
    intro h
    simp at h
  | s :: ss, b => by
    unfold inOrder SearchSafe document
    cases hex : examine B E (b.images.image s) with
    | error e => simp
    | ok x =>
      cases x with
      | rejected => exact inOrder_areas_iff ss (b.attempt s false b.st)
      | crcErr => exact inOrder_areas_iff ss (b.attempt s false b.st)
      | accepted xml =>
        dsimp only [Loaded]
        cases cfgLoadFromXml E.tt xml [] b.st with
        | error e => simp
        | ok st =>
          refine Iff.trans ?_ ((finish_iff (b.attempt s true st) hex).trans ?_)
          · -- loaded with this document is the tree in which it was loaded
            refine exists_congr fun r => and_congr_right fun _ => and_congr_left fun _ => ?_
            exact ⟨fun h => (Except.ok.inj h).symm, fun h => congrArg Except.ok h.symm⟩
          · simp [Boot.attempt]

/-- **A boot ends well exactly if no image that it looks at makes `check_checksum` leave its block,
the accepted one can be loaded, the source that it came from is one after which both areas are
repaired, and the parameters of the production line that are then written are those of the
image.** -/
theorem bootOk_iff (B : Build) (E : Env) (im : Images) (st : ObjState) :
    BootOk B E im st ↔ SearchSafe B E im st (candidates B E im) := by
  unfold BootOk
  rw [tcParseRomfile_eq_inOrder,
    ← inOrder_areas_iff (candidates B E im) { images := im, st := st, tried := [] }]
  constructor
  · rintro ⟨r, hr, hrec⟩
    exact ⟨r, hr, hrec.loaded, hrec.areas⟩
  · rintro ⟨r, hr, hload, hareas⟩
    obtain ⟨new, hnew, hsrc, hsame⟩ := inOrder_tried _ hr
    rw [List.nil_append] at hnew
    exact ⟨r, hr, hnew ▸ hsrc, hnew ▸ hsame, hload, hareas⟩

end

/-! ## A boot from the file system -/

/-- Erase blocks of 64 bytes and a parser that knows one document. -/
def smallEnv : Env where
  lay := wordLayout
  mtdErasesize := 64
  heap _ := 0
  tt := sampleTypes
  mxmlLoadFile file :=
    if file = textBytes "<ROMFILE/>".toList then some (.node ⟨"ROMFILE".toList, []⟩ .nil .nil)
    else none
  saveOpens := true
  xponMode := 0
  para := { magic := 0, flag := fun _ => false, text := fun _ => [], len := fun _ => 0,
            len_le := fun _ => Nat.zero_le _ }
  tar := id
  untar := some
  untar_tar _ := rfl

/-- No parameters of a production line. -/
def plainProline : ProlineBuild where
  wlan := false
  wlanAc := false
  ctWanPtm := false
  ecntMap := false
  mapR2 := false
  ctJoyme4 := false
  cmccv2 := false
  npCmcc := false
  np := false
  cuc := false
  crjo := false

/-- The backup enhancement and nothing else. -/
def enhancedBuild : Build where
  itms := false
  backupEnhancement := true
  reserveareaExtend := false
  zipRomfile := false
  productionline := false
  proline := plainProline

/-- Erased flash, and a romfile in the file system. -/
def erasedFlash : Images where
  running := []
  itms := []
  backup := []
  default := []
  filesystem := (computeChecksum wordLayout 64 (textBytes "<ROMFILE/>".toList)).getD []

/-- With the backup enhancement and without the extended reserve area the romfile of the file system
is written to the backup area only: the running area stays erased. -/
theorem not_bootOk : ¬ ∀ (B : Build) (E : Env) (im : Images) (st : ObjState), BootOk B E im st := by
  intro h
  have hboot : (tcParseRomfile enhancedBuild smallEnv erasedFlash
      (cfgObjLoadFromType smallEnv.tt fun _ => true)).map
        (fun r => (r.1, r.2.images.running)) = .ok (.zero, []) := by
    decide +kernel
  obtain ⟨r, hr, hrec⟩ := h enhancedBuild smallEnv erasedFlash
    (cfgObjLoadFromType smallEnv.tt fun _ => true)
  rw [hr] at hboot
  obtain ⟨hret, hrunning⟩ := Prod.mk.inj (Except.ok.inj hboot)
  obtain ⟨out, hout⟩ := (hrec.areas hret).1
  have hbad : smallEnv.check enhancedBuild [] = .ok .bad := by decide
  rw [hrunning, hbad] at hout
  simp at hout

end OnuFirmware.Romfile
