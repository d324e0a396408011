import OnuFirmware.Clib.Scan
import OnuFirmware.Tr181.UpLayer

/-!
# Whether an IP interface can be used (`checkIPIFEnableByIdx`)

An IP interface can be used if it and the interfaces under it are enabled. One function for each kind
of interface reads the number of the next entry from `LowerLayers`. The functions for the PPP and the
VLANTermination entries subtract 1 from it, and the functions of the walk down the same texts
(`getLowerLayerStackByIpIf`) do not.
-/

namespace OnuFirmware.Tr181

open Clib Cfg

/-! ## The entries -/

/-- `TR181_BRIDGE_PORT`. -/
def bridgePort : Str := "Device.Bridging.Bridge.1.Port.".toList

/-- `TR181_OPTICAL_ENTRY_0_NODE`. -/
def opticalNode : Str := "root.opticalinter.entry.1".toList

/-- `TR181_IP_ENTRY_NODE`, `TR181_PPP_ENTRY_NODE`, `TR181_ETHERVLANT_ENTRY_NODE` and
`TR181_ETHERLINK_ENTRY_NODE`. -/
def entryNode (l : Layer) (n : Int) : Str := l.node ++ ".entry.".toList ++ fmtInt n

/-- `LowerLayers` of a node, in `char lowerlayer[256]`. -/
def lowerText (conf : Conf) (node : Str) : Str := attrText (conf node lowerLayersAttr) 256 []

/-- The node is enabled, in `char enable[4]`. -/
def isEnabled (conf : Conf) (node : Str) : Bool :=
  attrText (conf node enableAttr) 4 [] = "1".toList

/-! ## The check -/

/-- `checkOpticalEnable`. -/
def checkOpticalEnable (conf : Conf) : Int := if isEnabled conf opticalNode then 1 else 0

/-- `checkEtherLinkEnable`, with `char nodeName[32]`. -/
def checkEtherLinkEnable (conf : Conf) (entryIdx : Int) : Int :=
  let nodeName := snprintf 32 (entryNode .link entryIdx)
  let lowerlayer := lowerText conf nodeName
  if entryIdx < 0 then -1
  else if lowerlayer = [] then -1
  else if getSuffixIntByInterface lowerlayer ≤ 0 then -1
  else
    let ret := if hasStr lowerlayer opticalInterface then checkOpticalEnable conf
      else if hasStr lowerlayer bridgePort then 1
      else -1
    if isEnabled conf nodeName = true ∧ 0 < ret then 1 else 0

/-- `checkEtherVTEnable`, with `char nodeName[32]`. -/
def checkEtherVTEnable (conf : Conf) (entryIdx : Int) : Int :=
  let nodeName := snprintf 32 (entryNode .vlanT entryIdx)
  let lowerlayer := lowerText conf nodeName
  if entryIdx < 0 then -1
  else if lowerlayer = [] then -1
  else
    let nextEntryIdx := getSuffixIntByInterface lowerlayer - 1
    if nextEntryIdx < 0 then -1
    else
      let ret := if hasStr lowerlayer Layer.link.path then checkEtherLinkEnable conf nextEntryIdx
        else -1
      if ret < 0 then -1
      else if isEnabled conf nodeName = true ∧ 0 < ret then 1
      else 0

/-- `checkPPPEnable`, with `char nodeName[32]`. -/
def checkPPPEnable (conf : Conf) (entryIdx : Int) : Int :=
  let nodeName := snprintf 32 (entryNode .ppp entryIdx)
  let lowerlayer := lowerText conf nodeName
  if entryIdx < 0 then -1
  else if lowerlayer = [] then 0
  else
    let nextEntryIdx := getSuffixIntByInterface lowerlayer - 1
    if nextEntryIdx < 0 then 0
    else
      let ret := if hasStr lowerlayer Layer.vlanT.path then checkEtherVTEnable conf nextEntryIdx
        else if hasStr lowerlayer Layer.link.path then checkEtherLinkEnable conf nextEntryIdx
        else -1
      if ret < 0 then -1
      else if isEnabled conf nodeName = true ∧ 0 < ret then 1
      else 0

/-- `checkIPIFEnableByIdx`, with `char nodeName[64]`. -/
def checkIPIFEnableByIdx (conf : Conf) (entryIdx : Int) : Int :=
  let nodeName := snprintf 64 (entryNode .ip entryIdx)
  let lowerlayer := lowerText conf nodeName
  let nextEntryIdx := getSuffixIntByInterface lowerlayer
  if entryIdx < 1 then -1
  else if lowerlayer = [] then -1
  else if nextEntryIdx < 0 then -1
  else
    let ret := if hasStr lowerlayer Layer.ppp.path then checkPPPEnable conf nextEntryIdx
      else if hasStr lowerlayer Layer.vlanT.path then checkEtherVTEnable conf nextEntryIdx
      else if hasStr lowerlayer Layer.link.path then checkEtherLinkEnable conf nextEntryIdx
      else -1
    if ret < 0 then -1
    else if isEnabled conf nodeName = true ∧ 0 < ret then 1
    else 0

/-! ## The walk -/

/-- `struct lowerlayer_stack_s`; an index is 0 if there is no such entry. -/
structure LowerStack where
  ipIFIdx : Int
  pppIFIdx : Int
  vlanTIdx : Int
  etherLinkIdx : Int
  opticalIFIdx : Int
deriving Repr, DecidableEq

/-- `sscanf(lowerlayer + strlen(path), "%d", &idx)`, where `idx` was 0. -/
def scanIdx (lowerlayer : Str) (l : Layer) : Int :=
  (scanD (lowerlayer.drop l.path.length)).elim 0 (·.1)

/-- `getLowerLayerStackByEtherLink`: the return value and the stack. -/
def getLowerLayerStackByEtherLink (conf : Conf) (s : LowerStack) : Int × LowerStack :=
  let lowerlayer := lowerText conf (snprintf 64 (entryNode .link s.etherLinkIdx))
  if lowerlayer = [] then (-1, s)
  else if hasStr lowerlayer bridgePort then (-1, s)
  else if hasStr lowerlayer opticalInterface then (0, { s with opticalIFIdx := 1 })
  else (-1, s)

/-- `getLowerLayerStackByVlanT`. -/
def getLowerLayerStackByVlanT (conf : Conf) (s : LowerStack) : Int × LowerStack :=
  let lowerlayer := lowerText conf (snprintf 64 (entryNode .vlanT s.vlanTIdx))
  if lowerlayer = [] then (-1, s)
  else if hasStr lowerlayer Layer.link.path then
    getLowerLayerStackByEtherLink conf { s with etherLinkIdx := scanIdx lowerlayer .link }
  else (-1, s)

/-- `getLowerLayerStackByPPPIf`. -/
def getLowerLayerStackByPPPIf (conf : Conf) (s : LowerStack) : Int × LowerStack :=
  let lowerlayer := lowerText conf (snprintf 64 (entryNode .ppp s.pppIFIdx))
  if lowerlayer = [] then (-1, s)
  else if hasStr lowerlayer Layer.vlanT.path then
    getLowerLayerStackByVlanT conf { s with vlanTIdx := scanIdx lowerlayer .vlanT }
  else if hasStr lowerlayer Layer.link.path then
    getLowerLayerStackByEtherLink conf { s with etherLinkIdx := scanIdx lowerlayer .link }
  else (-1, s)

/-- `getLowerLayerStackByIpIf`. -/
def getLowerLayerStackByIpIf (conf : Conf) (s : LowerStack) : Int × LowerStack :=
  let lowerlayer := lowerText conf (snprintf 64 (entryNode .ip s.ipIFIdx))
  if lowerlayer = [] then (-1, s)
  else if hasStr lowerlayer Layer.ppp.path then
    getLowerLayerStackByPPPIf conf { s with pppIFIdx := scanIdx lowerlayer .ppp }
  else if hasStr lowerlayer Layer.vlanT.path then
    getLowerLayerStackByVlanT conf { s with vlanTIdx := scanIdx lowerlayer .vlanT }
  else if hasStr lowerlayer Layer.link.path then
    getLowerLayerStackByEtherLink conf { s with etherLinkIdx := scanIdx lowerlayer .link }
  else (-1, s)

/-! ## Statement -/

/-- The number of an entry. -/
abbrev IfNumber := { n : Int // 1 ≤ n ∧ n ≤ intMax }

/-- The text that names an entry, with its number in decimal digits as the firmware writes it: no
sign, no zero in front. -/
def nameOf (l : Layer) (n : IfNumber) : Str := l.interface (n.1 - 1)

/-- What names the Link entry, or the VLANTermination entry before it. -/
def lowName (vlanT : Option IfNumber) (link : IfNumber) : Str :=
  vlanT.elim (nameOf .link link) (nameOf .vlanT)

/-- The entries below IP entry `i`: a Link entry on the optical interface, with a VLANTermination
entry and a PPP entry before it or without. -/
structure Chain (conf : Conf) (i : IfNumber) where
  ppp : Option IfNumber
  vlanT : Option IfNumber
  link : IfNumber
  ip_lower : conf (entryNode .ip i.1) lowerLayersAttr =
    some (ppp.elim (lowName vlanT link) (nameOf .ppp))
  ppp_lower : ∀ p ∈ ppp, conf (entryNode .ppp p.1) lowerLayersAttr = some (lowName vlanT link)
  vlanT_lower : ∀ v ∈ vlanT, conf (entryNode .vlanT v.1) lowerLayersAttr =
    some (nameOf .link link)
  link_lower : conf (entryNode .link link.1) lowerLayersAttr = some opticalInterface

/-- The node is enabled. -/
def Enabled (conf : Conf) (node : Str) : Prop := conf node enableAttr = some "1".toList

instance (conf : Conf) (node : Str) : Decidable (Enabled conf node) :=
  inferInstanceAs (Decidable (_ = _))

/-- The entries of the stack. -/
def LowerStack.entries (s : LowerStack) : List (Layer × Int) :=
  [(.ip, s.ipIFIdx), (.ppp, s.pppIFIdx), (.vlanT, s.vlanTIdx), (.link, s.etherLinkIdx)].filter
    fun e => e.2 ≠ 0

/-- The check is passed exactly if the entries that the walk finds are enabled, and the optical
interface. -/
def EnableRight (conf : Conf) (i : IfNumber) : Prop :=
  ∃ s, getLowerLayerStackByIpIf conf ⟨i.1, 0, 0, 0, 0⟩ = (0, s) ∧
    (checkIPIFEnableByIdx conf i.1 = 1 ↔
      (∀ e ∈ s.entries, Enabled conf (entryNode e.1 e.2)) ∧ Enabled conf opticalNode)

/-- A Link entry is enabled and stands on a bridge port, or on the optical interface while that is
enabled. -/
def LinkUp (conf : Conf) (n : Int) : Prop :=
  let node := snprintf 32 (entryNode .link n)
  Enabled conf node ∧ 0 < getSuffixIntByInterface (lowerText conf node) ∧
    if hasStr (lowerText conf node) opticalInterface then Enabled conf opticalNode
    else hasStr (lowerText conf node) bridgePort = true

/-- A VLANTermination entry is enabled, and the Link entry with the number before the one that it
names can be used. -/
def VlanUp (conf : Conf) (n : Int) : Prop :=
  let node := snprintf 32 (entryNode .vlanT n)
  Enabled conf node ∧ hasStr (lowerText conf node) Layer.link.path = true ∧
    0 < getSuffixIntByInterface (lowerText conf node) ∧
    LinkUp conf (getSuffixIntByInterface (lowerText conf node) - 1)

/-- When the check is right: no number is subtracted, or an entry before is disabled, or what stands
in the place of the rest of the chain can be used exactly if the rest is enabled. -/
def EnableCond {conf : Conf} {i : IfNumber} (C : Chain conf i) : Prop :=
  let rest := (∀ v ∈ C.vlanT, Enabled conf (entryNode .vlanT v.1)) ∧
    Enabled conf (entryNode .link C.link.1) ∧ Enabled conf opticalNode
  Enabled conf (entryNode .ip i.1) → (∀ p ∈ C.ppp, Enabled conf (entryNode .ppp p.1)) →
    match C.ppp, C.vlanT with
    | none, none => True
    | some _, none => LinkUp conf (C.link.1 - 1) ↔ rest
    | none, some v => VlanUp conf v.1 ↔ rest
    | some _, some v => VlanUp conf (v.1 - 1) ↔ rest

variable {conf : Conf} {i : IfNumber}

/-! ## Texts -/

theorem isEnabled_iff {node : Str} : isEnabled conf node = true ↔ Enabled conf node := by
  rw [isEnabled, decide_eq_true_iff, Enabled]
  exact attrText_nil_eq_iff (by decide) (by decide)

theorem length_entryNode (l : Layer) (n : IfNumber) :
    (entryNode l n.1).length ≤ l.node.length + 17 := by
  obtain ⟨n, h1, hmax⟩ := n
  lift n to Nat using by omega
  have hlen : (fmtNat n).length ≤ 10 :=
    (length_fmtNat_le (by decide)).mpr (lt_ten_digits (by exact_mod_cast hmax))
  have hentry : ".entry.".toList.length = 7 := by decide
  rw [entryNode, List.length_append, List.length_append, fmtInt_natCast]
  omega

theorem node64 (l : Layer) (n : IfNumber) : snprintf 64 (entryNode l n.1) = entryNode l n.1 := by
  have hlen := length_entryNode l n
  have hnode : l.node.length ≤ 15 := by cases l <;> decide
  exact snprintf_eq (by omega)

theorem node32 {l : Layer} (hl : l ≠ .vlanT) (n : IfNumber) :
    snprintf 32 (entryNode l n.1) = entryNode l n.1 := by
  have hlen := length_entryNode l n
  have hnode : l.node.length ≤ 14 := by
    cases l
    case vlanT => exact absurd rfl hl
    all_goals decide
  exact snprintf_eq (by omega)

theorem nameOf_ne_nil (l : Layer) (n : IfNumber) : nameOf l n ≠ [] :=
  interface_ne_nil (by have := n.2.1; omega)

theorem hasStr_nameOf (l l' : Layer) (n : IfNumber) :
    hasStr (nameOf l n) l'.path = decide (l' = l) := hasStr_interface (by have := n.2.1; omega) l'

theorem getSuffix_nameOf (l : Layer) (n : IfNumber) : getSuffixIntByInterface (nameOf l n) = n.1 := by
  have h1 := n.2.1
  have hmax := n.2.2
  rw [nameOf, getSuffix_interface (by omega) (by omega)]
  omega

theorem lowerText_nameOf {node : Str} {l : Layer} {n : IfNumber}
    (h : conf node lowerLayersAttr = some (nameOf l n)) : lowerText conf node = nameOf l n := by
  have h1 := n.2.1
  have hmax := n.2.2
  rw [lowerText, h]
  exact attrText_interface (by omega) (by omega) (by decide)

theorem scanIdx_nameOf (l : Layer) (n : IfNumber) : scanIdx (nameOf l n) l = n.1 := by
  have h1 := n.2.1
  have hmax := n.2.2
  have htext : nameOf l n = l.path ++ fmtNat n.1.toNat := by
    have htoNat : (n.1 - 1).toNat + 1 = n.1.toNat := by omega
    rw [nameOf, interface_eq l (by omega), htoNat]
  rw [scanIdx, htext, List.drop_left, scanD_digits (fun c hc => isDigit_of_mem_fmtNat hc)
    (fmtNat_ne_nil _), Option.elim_some, atoi_fmtNat (by omega)]
  omega

/-! ## The check of one entry -/

theorem flag_pos {p : Prop} [Decidable p] : 0 < (if p then 1 else (0 : Int)) ↔ p := by
  by_cases hp : p <;> simp [hp]

/-- How a check ends, from the result for the next entry. -/
theorem checked_pos {ret : Int} {p : Prop} [Decidable p] :
    0 < (if ret < 0 then -1 else if p ∧ 0 < ret then 1 else (0 : Int)) ↔ p ∧ 0 < ret := by
  by_cases hret : ret < 0
  · rw [if_pos hret]
    omega
  · rw [if_neg hret, flag_pos]

theorem checkOpticalEnable_pos : 0 < checkOpticalEnable conf ↔ Enabled conf opticalNode := by
  rw [checkOpticalEnable, flag_pos, isEnabled_iff]

theorem suffix_nil : getSuffixIntByInterface [] = -1 := rfl

/-- What a Link entry stands on. -/
theorem link_ret_pos (lowerlayer : Str) :
    0 < (if hasStr lowerlayer opticalInterface then checkOpticalEnable conf
      else if hasStr lowerlayer bridgePort then 1 else -1) ↔
      if hasStr lowerlayer opticalInterface then Enabled conf opticalNode
      else hasStr lowerlayer bridgePort = true := by
  by_cases hoptical : hasStr lowerlayer opticalInterface
  · rw [if_pos hoptical, if_pos hoptical, checkOpticalEnable_pos]
  · rw [if_neg hoptical, if_neg hoptical]
    by_cases hbridge : hasStr lowerlayer bridgePort <;> simp [hbridge]

theorem checkEtherLinkEnable_pos {n : Int} (hn : 0 ≤ n) :
    0 < checkEtherLinkEnable conf n ↔ LinkUp conf n := by
  simp only [checkEtherLinkEnable, LinkUp, if_neg (Int.not_lt.mpr hn)]
  by_cases hnil : lowerText conf (snprintf 32 (entryNode .link n)) = []
  · rw [hnil, suffix_nil]
    simp
  · rw [if_neg hnil]
    by_cases hsuffix : getSuffixIntByInterface (lowerText conf (snprintf 32 (entryNode .link n))) ≤ 0
    · simp [hsuffix, Int.not_lt.mpr hsuffix]
    · rw [if_neg hsuffix, flag_pos, link_ret_pos, isEnabled_iff]
      exact and_congr_right fun _ => (and_iff_right (Int.not_le.mp hsuffix)).symm

theorem checkEtherVTEnable_pos {n : Int} (hn : 0 ≤ n) :
    0 < checkEtherVTEnable conf n ↔ VlanUp conf n := by
  simp only [checkEtherVTEnable, VlanUp, if_neg (Int.not_lt.mpr hn)]
  by_cases hnil : lowerText conf (snprintf 32 (entryNode .vlanT n)) = []
  · rw [hnil, suffix_nil]
    simp
  · rw [if_neg hnil]
    by_cases hsuffix : getSuffixIntByInterface (lowerText conf (snprintf 32 (entryNode .vlanT n))) ≤ 0
    · rw [if_pos (by omega)]
      simp [Int.not_lt.mpr hsuffix]
    · rw [if_neg (by omega), checked_pos, isEnabled_iff]
      by_cases hstr : hasStr (lowerText conf (snprintf 32 (entryNode .vlanT n))) Layer.link.path
      · rw [if_pos hstr, checkEtherLinkEnable_pos (by omega)]
        simp [hstr, Int.not_le.mp hsuffix]
      · simp [hstr]

/-! ## The check of a chain -/

section Chains

variable (C : Chain conf i)

theorem linkUp_chain : LinkUp conf C.link.1 ↔
    Enabled conf (entryNode .link C.link.1) ∧ Enabled conf opticalNode := by
  have htext : lowerText conf (entryNode .link C.link.1) = opticalInterface := by
    rw [lowerText, C.link_lower]
    decide
  have hsuffix : 0 < getSuffixIntByInterface opticalInterface := by decide
  have hoptical : hasStr opticalInterface opticalInterface = true := by decide
  simp only [LinkUp, node32 (l := .link) (by decide), htext]
  rw [if_pos hoptical]
  exact and_congr_right fun _ => and_iff_right hsuffix

/-- The PPP entry of a chain is checked with the number before the one that it names. -/
theorem checkPPPEnable_chain {p : IfNumber} (hp : C.ppp = some p) :
    0 < checkPPPEnable conf p.1 ↔ Enabled conf (entryNode .ppp p.1) ∧
      C.vlanT.elim (LinkUp conf (C.link.1 - 1)) fun v => VlanUp conf (v.1 - 1) := by
  have hlower := C.ppp_lower p hp
  have hp1 := p.2.1
  have hlink := C.link.2.1
  rw [lowName] at hlower
  have hneg : ¬ p.1 < 0 := by omega
  simp only [checkPPPEnable, node32 (l := .ppp) (by decide), if_neg hneg]
  cases hv : C.vlanT with
  | none =>
    rw [hv, Option.elim_none] at hlower
    rw [lowerText_nameOf hlower, if_neg (nameOf_ne_nil _ _), getSuffix_nameOf, if_neg (by omega),
      checked_pos, hasStr_nameOf, hasStr_nameOf, isEnabled_iff]
    simp only [reduceCtorEq, decide_false, decide_true, Bool.false_eq_true, if_false, if_true]
    rw [checkEtherLinkEnable_pos (by omega), Option.elim_none]
  | some v =>
    have hv1 := v.2.1
    rw [hv, Option.elim_some] at hlower
    rw [lowerText_nameOf hlower, if_neg (nameOf_ne_nil _ _), getSuffix_nameOf, if_neg (by omega),
      checked_pos, hasStr_nameOf, isEnabled_iff]
    simp only [decide_true, if_true]
    rw [checkEtherVTEnable_pos (by omega), Option.elim_some]

/-- The entry that stands in the place of the next one can be used. -/
def nextUp : Prop :=
  match C.ppp, C.vlanT with
  | none, none => LinkUp conf C.link.1
  | none, some v => VlanUp conf v.1
  | some p, none => Enabled conf (entryNode .ppp p.1) ∧ LinkUp conf (C.link.1 - 1)
  | some p, some v => Enabled conf (entryNode .ppp p.1) ∧ VlanUp conf (v.1 - 1)

/-- How a check ends is known if the result is positive. -/
theorem checked_eq_one {ret : Int} {p : Prop} [Decidable p] :
    (if ret < 0 then -1 else if p ∧ 0 < ret then 1 else (0 : Int)) = 1 ↔ p ∧ 0 < ret := by
  refine Iff.trans ?_ checked_pos
  split
  · decide
  · split <;> decide

theorem checkIPIFEnableByIdx_chain :
    checkIPIFEnableByIdx conf i.1 = 1 ↔ Enabled conf (entryNode .ip i.1) ∧ nextUp C := by
  have hlower := C.ip_lower
  have hi := i.2.1
  have hlink := C.link.2.1
  rw [lowName] at hlower
  simp only [checkIPIFEnableByIdx, node64, if_neg (Int.not_lt.mpr hi)]
  rw [nextUp]
  cases hp : C.ppp with
  | none =>
    cases hv : C.vlanT with
    | none =>
      rw [hp, hv, Option.elim_none, Option.elim_none] at hlower
      rw [lowerText_nameOf hlower, if_neg (nameOf_ne_nil _ _), getSuffix_nameOf, if_neg (by omega),
        checked_eq_one, hasStr_nameOf, hasStr_nameOf, hasStr_nameOf, isEnabled_iff]
      simp only [reduceCtorEq, decide_false, decide_true, Bool.false_eq_true, if_false, if_true]
      rw [checkEtherLinkEnable_pos (by omega)]
    | some v =>
      have hv1 := v.2.1
      rw [hp, hv, Option.elim_none, Option.elim_some] at hlower
      rw [lowerText_nameOf hlower, if_neg (nameOf_ne_nil _ _), getSuffix_nameOf, if_neg (by omega),
        checked_eq_one, hasStr_nameOf, hasStr_nameOf, isEnabled_iff]
      simp only [reduceCtorEq, decide_false, decide_true, Bool.false_eq_true, if_false, if_true]
      rw [checkEtherVTEnable_pos (by omega)]
  | some p =>
    have hp1 := p.2.1
    rw [hp, Option.elim_some] at hlower
    rw [lowerText_nameOf hlower, if_neg (nameOf_ne_nil _ _), getSuffix_nameOf, if_neg (by omega),
      checked_eq_one, hasStr_nameOf, isEnabled_iff]
    simp only [decide_true, if_true]
    rw [checkPPPEnable_chain C hp]
    cases C.vlanT <;> rfl

/-! ## The walk of a chain -/

theorem walk_link {s : LowerStack} (hs : s.etherLinkIdx = C.link.1) :
    getLowerLayerStackByEtherLink conf s = (0, { s with opticalIFIdx := 1 }) := by
  have htext : lowerText conf (entryNode .link C.link.1) = opticalInterface := by
    rw [lowerText, C.link_lower]
    decide
  have hbridge : ¬ hasStr opticalInterface bridgePort = true := by decide
  have hoptical : hasStr opticalInterface opticalInterface = true := by decide
  simp only [getLowerLayerStackByEtherLink, hs, node64, htext]
  rw [if_neg (by decide), if_neg hbridge, if_pos hoptical]

theorem walk_vlanT {v : IfNumber} (hv : C.vlanT = some v) {s : LowerStack}
    (hs : s.vlanTIdx = v.1) : getLowerLayerStackByVlanT conf s =
      (0, { s with etherLinkIdx := C.link.1, opticalIFIdx := 1 }) := by
  simp only [getLowerLayerStackByVlanT, hs, node64, lowerText_nameOf (C.vlanT_lower v hv)]
  rw [if_neg (nameOf_ne_nil _ _), hasStr_nameOf, if_pos (by decide), scanIdx_nameOf,
    walk_link C (by rfl)]

/-- The entries below the IP or the PPP entry. -/
def LowerStack.below (s : LowerStack) : LowerStack :=
  { s with vlanTIdx := C.vlanT.elim s.vlanTIdx (·.1), etherLinkIdx := C.link.1, opticalIFIdx := 1 }

theorem walk_ppp {p : IfNumber} (hp : C.ppp = some p) {s : LowerStack} (hs : s.pppIFIdx = p.1) :
    getLowerLayerStackByPPPIf conf s = (0, s.below C) := by
  have hlower := C.ppp_lower p hp
  rw [lowName] at hlower
  simp only [getLowerLayerStackByPPPIf, hs, node64, LowerStack.below]
  cases hv : C.vlanT with
  | none =>
    rw [hv, Option.elim_none] at hlower
    rw [lowerText_nameOf hlower, if_neg (nameOf_ne_nil _ _), hasStr_nameOf, hasStr_nameOf,
      if_neg (by decide), if_pos (by decide), scanIdx_nameOf, walk_link C (by rfl)]
    rfl
  | some v =>
    rw [hv, Option.elim_some] at hlower
    rw [lowerText_nameOf hlower, if_neg (nameOf_ne_nil _ _), hasStr_nameOf, if_pos (by decide),
      scanIdx_nameOf, walk_vlanT C hv (by rfl)]
    rfl

/-- **The walk finds the entries of the chain.** -/
theorem getLowerLayerStackByIpIf_chain : getLowerLayerStackByIpIf conf ⟨i.1, 0, 0, 0, 0⟩ =
    (0, ⟨i.1, C.ppp.elim 0 (·.1), C.vlanT.elim 0 (·.1), C.link.1, 1⟩) := by
  have hlower := C.ip_lower
  rw [lowName] at hlower
  simp only [getLowerLayerStackByIpIf, node64]
  cases hp : C.ppp with
  | none =>
    cases hv : C.vlanT with
    | none =>
      rw [hp, hv, Option.elim_none, Option.elim_none] at hlower
      rw [lowerText_nameOf hlower, if_neg (nameOf_ne_nil _ _), hasStr_nameOf, hasStr_nameOf,
        hasStr_nameOf, if_neg (by decide), if_neg (by decide), if_pos (by decide), scanIdx_nameOf,
        walk_link C (by rfl)]
      rfl
    | some v =>
      rw [hp, hv, Option.elim_none, Option.elim_some] at hlower
      rw [lowerText_nameOf hlower, if_neg (nameOf_ne_nil _ _), hasStr_nameOf, hasStr_nameOf,
        if_neg (by decide), if_pos (by decide), scanIdx_nameOf, walk_vlanT C hv (by rfl)]
      rfl
  | some p =>
    rw [hp, Option.elim_some] at hlower
    rw [lowerText_nameOf hlower, if_neg (nameOf_ne_nil _ _), hasStr_nameOf, if_pos (by decide),
      scanIdx_nameOf, walk_ppp C hp (by rfl)]
    rfl

/-- The entries of the walk. -/
theorem forall_entries (P : Layer × Int → Prop) :
    (∀ e ∈ (LowerStack.mk i.1 (C.ppp.elim 0 (·.1)) (C.vlanT.elim 0 (·.1)) C.link.1 1).entries, P e) ↔
      P (.ip, i.1) ∧ (∀ p ∈ C.ppp, P (.ppp, p.1)) ∧ (∀ v ∈ C.vlanT, P (.vlanT, v.1)) ∧
        P (.link, C.link.1) := by
  have hi : i.1 ≠ 0 := by have := i.2.1; omega
  have hlink : C.link.1 ≠ 0 := by have := C.link.2.1; omega
  have hopt : ∀ (o : Option IfNumber) (l : Layer),
      (o.elim 0 (·.1) ≠ 0 → P (l, o.elim 0 (·.1))) ↔ ∀ p ∈ o, P (l, p.1) := by
    rintro (- | p) l
    · simp
    · have hp : p.1 ≠ 0 := by have := p.2.1; omega
      simp [hp]
  rw [← hopt, ← hopt]
  simp [LowerStack.entries, hi, hlink]

/-- Nothing depends on the rest if an entry before is disabled. -/
theorem iff_of_enabled {a p x v l o : Prop} :
    (a ∧ p ∧ x ↔ (a ∧ p ∧ v ∧ l) ∧ o) ↔ (a → p → (x ↔ v ∧ l ∧ o)) := by
  tauto

theorem iff_of_enabled_true {a x v l o : Prop} :
    (a ∧ x ↔ (a ∧ True ∧ v ∧ l) ∧ o) ↔ (a → True → (x ↔ v ∧ l ∧ o)) := by
  tauto

/-- **The check agrees with the walk exactly if no PPP and no VLANTermination entry stands in the
chain, or what stands in the place of the rest can be used exactly if the rest is enabled.** -/
theorem enableRight_iff : EnableRight conf i ↔ EnableCond C := by
  have hall : EnableRight conf i ↔ (Enabled conf (entryNode .ip i.1) ∧ nextUp C ↔
      (Enabled conf (entryNode .ip i.1) ∧ (∀ p ∈ C.ppp, Enabled conf (entryNode .ppp p.1)) ∧
        (∀ v ∈ C.vlanT, Enabled conf (entryNode .vlanT v.1)) ∧
        Enabled conf (entryNode .link C.link.1)) ∧ Enabled conf opticalNode) := by
    rw [EnableRight, getLowerLayerStackByIpIf_chain C, checkIPIFEnableByIdx_chain C]
    simp only [Prod.mk.injEq, true_and, exists_eq_left', forall_entries]
  rw [hall, nextUp, EnableCond]
  cases hp : C.ppp with
  | none =>
    have hnone : (∀ p ∈ (none : Option IfNumber), Enabled conf (entryNode .ppp p.1)) ↔ True :=
      iff_true_intro fun p hp => absurd hp (Option.not_mem_none p)
    rw [hnone]
    cases hv : C.vlanT with
    | none =>
      have hnone' : (∀ v ∈ (none : Option IfNumber), Enabled conf (entryNode .vlanT v.1)) ↔ True :=
        iff_true_intro fun v hv => absurd hv (Option.not_mem_none v)
      rw [linkUp_chain C, hnone', true_and, true_and, and_assoc]
      exact iff_of_true Iff.rfl fun _ _ => trivial
    | some v => exact iff_of_enabled_true
  | some p =>
    have hsome : (∀ p' ∈ some p, Enabled conf (entryNode .ppp p'.1)) ↔
        Enabled conf (entryNode .ppp p.1) :=
      ⟨fun h => h p rfl, fun h p' hp' => Option.mem_some.mp hp' ▸ h⟩
    rw [hsome]
    cases hv : C.vlanT with
    | none => exact iff_of_enabled
    | some v => exact iff_of_enabled

end Chains

/-! ## A check of the wrong entry -/

/-- IP entry 1 stands on VLANTermination entry 1, which stands on Link entry 2, which stands on the
optical interface. All are enabled. -/
def vlanConf : Conf := fun node attr =>
  ([(entryNode .ip 1, [(enableAttr, "1".toList),
      (lowerLayersAttr, "Device.Ethernet.VLANTermination.1".toList)]),
    (entryNode .vlanT 1, [(enableAttr, "1".toList),
      (lowerLayersAttr, "Device.Ethernet.Link.2".toList)]),
    (entryNode .link 2, [(enableAttr, "1".toList), (lowerLayersAttr, opticalInterface)]),
    (opticalNode, [(enableAttr, "1".toList)])].lookup node).bind fun attrs => attrs.lookup attr

/-- The chain of these entries. -/
def vlanChain {conf : Conf} (hip : conf (entryNode .ip 1) lowerLayersAttr =
      some "Device.Ethernet.VLANTermination.1".toList)
    (hvlanT : conf (entryNode .vlanT 1) lowerLayersAttr = some "Device.Ethernet.Link.2".toList)
    (hlink : conf (entryNode .link 2) lowerLayersAttr = some opticalInterface) :
    Chain conf ⟨1, by decide⟩ where
  ppp := none
  vlanT := some ⟨1, by decide⟩
  link := ⟨2, by decide⟩
  ip_lower := hip.trans (by decide)
  ppp_lower p hp := absurd hp (Option.not_mem_none p)
  vlanT_lower v hv := by
    obtain rfl := Option.mem_some.mp hv
    exact hvlanT.trans (by decide)
  link_lower := hlink

/-- The same entries, and Link entry 1 enabled on the optical interface as well. -/
def neighbourConf : Conf := fun node attr =>
  if node = entryNode .link 1 then vlanConf (entryNode .link 2) attr else vlanConf node attr

/-- Link entry 1 is checked in the place of Link entry 2, and is enabled like it. -/
theorem enableRight_iff_neighbour : EnableRight neighbourConf ⟨1, by decide⟩ ∧
    checkIPIFEnableByIdx neighbourConf 1 = 1 := by
  have hup : VlanUp neighbourConf 1 := by
    refine ⟨by decide, by decide, by decide, by decide, by decide, ?_⟩
    rw [if_pos (by decide)]
    decide
  refine ⟨(enableRight_iff (vlanChain (by decide) (by decide) (by decide))).mpr fun _ _ => ?_,
    by decide⟩
  refine iff_of_true hup ⟨fun v hv => ?_, by decide, by decide⟩
  obtain rfl := Option.mem_some.mp hv
  decide

/-- Link entry 1, which does not exist, is checked in the place of Link entry 2. -/
theorem enable_wrong : Nonempty (Chain vlanConf ⟨1, by decide⟩) ∧
    ¬ EnableRight vlanConf ⟨1, by decide⟩ := by
  refine ⟨⟨vlanChain (by decide) (by decide) (by decide)⟩, ?_⟩
  rintro ⟨s, hs, hright⟩
  have hwalk : getLowerLayerStackByIpIf vlanConf ⟨1, 0, 0, 0, 0⟩ = (0, ⟨1, 0, 1, 2, 1⟩) := by decide
  have hcheck : checkIPIFEnableByIdx vlanConf 1 = -1 := by decide
  rw [hwalk, Prod.mk.injEq] at hs
  obtain ⟨-, rfl⟩ := hs
  rw [hcheck] at hright
  have hentries : (LowerStack.mk 1 0 1 2 1).entries = [(.ip, 1), (.vlanT, 1), (.link, 2)] := by
    decide
  rw [hentries] at hright
  have hall : (∀ e ∈ [(Layer.ip, (1 : Int)), (.vlanT, 1), (.link, 2)],
      Enabled vlanConf (entryNode e.1 e.2)) ∧ Enabled vlanConf opticalNode := by decide
  exact absurd (hright.mpr hall) (by decide)

end OnuFirmware.Tr181
