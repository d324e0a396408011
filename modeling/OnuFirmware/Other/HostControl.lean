import OnuFirmware.Lib.Place
import OnuFirmware.Other.AccessRules

/-!
# Control of the LAN hosts (`lanhost2_mgr.c`)

Each entry under `root.lanhost2` with a MAC address is a host.
`svc_other_handle_event_lanhost2_config` blocks the access of a host to the internet and to the
storage, collects the limits of its bandwidth in a table that is handed to the driver, and writes
the attribute `ControlStatus`.

The limits and the type of the connection are read into variables that keep the value of a host
before if the entry lacks the attribute. A host for which both limits are negative then is left
without its status. The build is one without `TCSUPPORT_CUC`.
-/

namespace OnuFirmware.Other

open Lib Clib Cfg

/-- `LANHOST2_COMMON_NODE`. -/
def lanhost2CommonNode : Str := "root.lanhost2.common".toList

/-- `LANHOST2_ENTRY_NODE` for the entry `i + 1`. -/
def lanhost2EntryNode (i : Nat) : Str :=
  snprintf 32 ("root.lanhost2.entry.".toList ++ fmtNat (i + 1))

/-! ## The loop over the entries -/

/-- A row of `trtcm_acl_mac_table`. -/
structure AclRow where
  usQueueSpeed : Int
  dsQueueSpeed : Int
  connType : Int
  devMac : List Word
deriving DecidableEq

/-- The variables of the loop and the configuration. A row is kept with the entry that is handled
when it is stored. -/
structure ControlState where
  conf : Conf
  access : AccessState
  usBandwidthVal : Int
  dsBandwidthVal : Int
  connTypeVal : Int
  lanMacAcl : List (Nat × AclRow)
  ctrlNum : Nat
  hostNum : Nat

/-- One round of the loop. -/
def handleEntry (maxCtrlLanHost : Int) (s : ControlState) (i : Nat) : ControlState :=
  let path := lanhost2EntryNode i
  let mac := cfgGetObjectAttr (s.conf path "MAC".toList) [] 32
  if mac.1 ≤ 0 then s
  else if maxCtrlLanHost ≤ s.ctrlNum then { s with hostNum := s.hostNum + 1 }
  else
    let newMac := macAddDot mac.2
    let internet := setInternetAccessRule s.conf path newMac s.access
    let storage := setStorageAccessRule s.conf path newMac internet.2
    let us := (numAttr s.conf path "MaxUSBandwidth".toList).getD s.usBandwidthVal
    let ds := (numAttr s.conf path "MaxDSBandwidth".toList).getD s.dsBandwidthVal
    let s := { s with
      hostNum := s.hostNum + 1
      access := storage.2 }
    if us < 0 ∧ ds < 0 then
      { s with
        usBandwidthVal := us
        dsBandwidthVal := ds }
    else
      let us := if us < 0 then 0 else us
      let ds := if ds < 0 then 0 else ds
      let connType := (numAttr s.conf path "ConnectionType".toList).getD s.connTypeVal
      let ctrl := decide (internet.1 = 0 ∨ internet.1 = 1 ∨ storage.1 = 0)
      { s with
        usBandwidthVal := us
        dsBandwidthVal := ds
        connTypeVal := connType
        lanMacAcl :=
          if s.lanMacAcl.length < 10 then
            s.lanMacAcl ++ [(i, ⟨us, ds, connType, scanMac 6 newMac⟩)]
          else s.lanMacAcl
        ctrlNum := if ctrl then s.ctrlNum + 1 else s.ctrlNum
        conf := setAttr s.conf path "ControlStatus".toList (if ctrl then "1" else "0").toList }

/-- `LANHostMaxNumber`. -/
def maxLanHost (cfg : Conf) : Int :=
  (numAttr cfg lanhost2CommonNode "LANHostMaxNumber".toList).getD 64

/-- `ControlListMaxNumber`. -/
def maxCtrlLanHost (cfg : Conf) : Int :=
  (numAttr cfg lanhost2CommonNode "ControlListMaxNumber".toList).getD 32

/-- The state before the loop. -/
def initControl (cfg : Conf) (a : AccessState) : ControlState :=
  ⟨cfg, cleanAccessRule a, -1, -1, -1, [], 0, 0⟩

/-- `svc_other_handle_event_lanhost2_config`: the state in which
`blapi_traffic_set_dev_ratelimit_by_mac` is called with the rows. -/
def svcOtherHandleEventLanhost2Config (cfg : Conf) (a : AccessState) : ControlState :=
  let s := (List.range (maxLanHost cfg).toNat).foldl (handleEntry (maxCtrlLanHost cfg))
    (initControl cfg a)
  { s with
    conf := setAttr (setAttr s.conf lanhost2CommonNode "ControlListNumber".toList
      (snprintf 32 (fmtNat s.ctrlNum))) lanhost2CommonNode "LANHostNumber".toList
      (snprintf 32 (fmtNat s.hostNum)) }

/-! ## What the entries say -/

/-- The text of the MAC address of an entry. -/
def macText (cfg : Conf) (i : Nat) : Str :=
  attrText (cfg (lanhost2EntryNode i) "MAC".toList) 32 []

def usLimit (cfg : Conf) (i : Nat) : Option Int :=
  numAttr cfg (lanhost2EntryNode i) "MaxUSBandwidth".toList

def dsLimit (cfg : Conf) (i : Nat) : Option Int :=
  numAttr cfg (lanhost2EntryNode i) "MaxDSBandwidth".toList

def connOf (cfg : Conf) (i : Nat) : Option Int :=
  numAttr cfg (lanhost2EntryNode i) "ConnectionType".toList

/-- The entry has one of the two limits. -/
def HasLimit (cfg : Conf) (i : Nat) : Prop := usLimit cfg i ≠ none ∨ dsLimit cfg i ≠ none

/-- The access of the entry to the internet or to the storage is blocked. -/
def Controlled (cfg : Conf) (i : Nat) : Prop :=
  numAttr cfg (lanhost2EntryNode i) "InternetAccess".toList = some 0 ∨
    numAttr cfg (lanhost2EntryNode i) "InternetAccess".toList = some 1 ∨
      numAttr cfg (lanhost2EntryNode i) "StorageAccess".toList = some 0

instance (cfg : Conf) (i : Nat) : Decidable (Controlled cfg i) :=
  inferInstanceAs (Decidable (_ ∨ _ ∨ _))

/-- The row of an entry: a limit it lacks is 0, and a type it lacks is -1. -/
def ownRow (cfg : Conf) (i : Nat) : AclRow :=
  ⟨max 0 ((usLimit cfg i).getD 0), max 0 ((dsLimit cfg i).getD 0), (connOf cfg i).getD (-1),
    scanMac 6 (macAddDot (macText cfg i))⟩

/-- The value of `ControlStatus`. -/
def controlStatus (cfg : Conf) (i : Nat) : Option Str :=
  cfg (lanhost2EntryNode i) "ControlStatus".toList

/-- The entries below `LANHostMaxNumber`. -/
def entries (cfg : Conf) : List Nat := List.range (maxLanHost cfg).toNat

/-- The rows are those of entries with a limit, and as long as fewer hosts are controlled than there
may be, the status of each entry says if it is, and the number is that of these entries. -/
structure ControlRight (cfg : Conf) (s : ControlState) : Prop where
  rows : ∀ e ∈ s.lanMacAcl, HasLimit cfg e.1 ∧ e.2 = ownRow cfg e.1
  status : (s.ctrlNum : Int) < maxCtrlLanHost cfg → ∀ i ∈ entries cfg,
    (controlStatus s.conf i = some "1".toList ↔ Controlled cfg i)
  number : (s.ctrlNum : Int) < maxCtrlLanHost cfg →
    s.conf lanhost2CommonNode "ControlListNumber".toList =
      some (fmtNat ((entries cfg).countP fun i => Controlled cfg i))

/-! ## The condition -/

/-- The entries with a MAC address. -/
def hosts (cfg : Conf) : List Nat := (entries cfg).filter fun i => macText cfg i ≠ []

/-- The entry is not skipped for its limits: `inForce` says that the limits of the host before are
not negative, and it counts if the entry lacks one. -/
def opens (cfg : Conf) (inForce : Bool) (i : Nat) : Bool :=
  ((usLimit cfg i).map fun v => decide (0 ≤ v)).getD inForce ||
    ((dsLimit cfg i).map fun v => decide (0 ≤ v)).getD inForce

/-- The limits are not negative after these hosts. -/
def inForce (cfg : Conf) (l : List Nat) : Bool := l.foldl (opens cfg) false

/-- The hosts that are not skipped. -/
def limitedFrom (cfg : Conf) : Bool → List Nat → List Nat
  | _, [] => []
  | b, i :: is =>
    if opens cfg b i then i :: limitedFrom cfg true is else limitedFrom cfg false is

def limited (cfg : Conf) (l : List Nat) : List Nat := limitedFrom cfg false l

/-- The last value of an attribute in a list of hosts. -/
def lastOf (f : Nat → Option Int) (dflt : Int) (l : List Nat) : Int :=
  l.foldl (fun v i => (f i).getD v) dflt

/-- The number of hosts that are controlled among those that are not skipped. -/
def controlledCount (cfg : Conf) (l : List Nat) : Nat :=
  (limited cfg l).countP fun i => Controlled cfg i

/-- The condition on the entries. -/
structure ControlCond (cfg : Conf) : Prop where
  /-- A host that gets one of the ten rows has a limit, and what it lacks none of the hosts before
  has set. -/
  rows : ∀ before i after, hosts cfg = before ++ i :: after →
    opens cfg (inForce cfg before) i = true → (limited cfg before).length < 10 →
    (controlledCount cfg before : Int) < maxCtrlLanHost cfg →
    HasLimit cfg i ∧ (usLimit cfg i = none → lastOf (usLimit cfg) 0 before ≤ 0) ∧
      (dsLimit cfg i = none → lastOf (dsLimit cfg) 0 before ≤ 0) ∧
      (connOf cfg i = none → lastOf (connOf cfg) (-1) (limited cfg before) = -1)
  /-- An entry that is no host or is skipped is not to be controlled, and was not before. -/
  skipped : (controlledCount cfg (hosts cfg) : Int) < maxCtrlLanHost cfg →
    ∀ i ∈ entries cfg, i ∉ limited cfg (hosts cfg) →
      ¬ Controlled cfg i ∧ controlStatus cfg i ≠ some "1".toList

/-! ## One round -/

/-- The return values of the two functions say if the host is controlled. -/
theorem controlled_iff (cfg : Conf) (i : Nat) :
    ((numAttr cfg (lanhost2EntryNode i) "InternetAccess".toList).getD 2 = 0 ∨
      (numAttr cfg (lanhost2EntryNode i) "InternetAccess".toList).getD 2 = 1 ∨
        (numAttr cfg (lanhost2EntryNode i) "StorageAccess".toList).getD 1 = 0) ↔
      Controlled cfg i := by
  have hget : ∀ (o : Option Int) (d v : Int), d ≠ v → (o.getD d = v ↔ o = some v) := by
    intro o d v hne
    cases o with
    | none => simp [hne]
    | some w => simp
  rw [Controlled, hget _ 2 0 (by decide), hget _ 2 1 (by decide), hget _ 1 0 (by decide)]

/-- The configuration differs at most in the status of entries. -/
def Frame (cfg conf : Conf) : Prop :=
  ∀ path name, name ≠ "ControlStatus".toList → conf path name = cfg path name

/-- An entry without a MAC address changes nothing. -/
theorem handleEntry_noMac {cfg : Conf} {maxCtrl : Int} {s : ControlState} {i : Nat}
    (hframe : Frame cfg s.conf) (hmac : macText cfg i = []) : handleEntry maxCtrl s i = s := by
  have hread : s.conf (lanhost2EntryNode i) "MAC".toList = cfg (lanhost2EntryNode i) "MAC".toList :=
    hframe _ _ (by decide)
  rw [handleEntry, if_pos]
  rw [hread, ← not_lt, cfgGetObjectAttr_pos]
  exact not_not.mpr hmac

/-- A host behind the limit is only counted. -/
theorem handleEntry_full {cfg : Conf} {maxCtrl : Int} {s : ControlState} {i : Nat}
    (hframe : Frame cfg s.conf) (hmac : macText cfg i ≠ []) (hfull : maxCtrl ≤ s.ctrlNum) :
    handleEntry maxCtrl s i = { s with hostNum := s.hostNum + 1 } := by
  have hread : s.conf (lanhost2EntryNode i) "MAC".toList = cfg (lanhost2EntryNode i) "MAC".toList :=
    hframe _ _ (by decide)
  rw [handleEntry, if_neg, if_pos hfull]
  rw [hread, not_le, cfgGetObjectAttr_pos]
  exact hmac

/-- What a host before the limit does, apart from the rules of its access. -/
theorem handleEntry_host {cfg : Conf} {maxCtrl : Int} {s : ControlState} {i : Nat}
    (hframe : Frame cfg s.conf) (hmac : macText cfg i ≠ []) (hlt : s.ctrlNum < maxCtrl) :
    ∃ access, handleEntry maxCtrl s i =
      let us := (usLimit cfg i).getD s.usBandwidthVal
      let ds := (dsLimit cfg i).getD s.dsBandwidthVal
      let conn := (connOf cfg i).getD s.connTypeVal
      if us < 0 ∧ ds < 0 then
        { s with
          access := access
          hostNum := s.hostNum + 1
          usBandwidthVal := us
          dsBandwidthVal := ds }
      else
        { access := access
          hostNum := s.hostNum + 1
          usBandwidthVal := max 0 us
          dsBandwidthVal := max 0 ds
          connTypeVal := conn
          lanMacAcl :=
            if s.lanMacAcl.length < 10 then
              s.lanMacAcl ++
                [(i, ⟨max 0 us, max 0 ds, conn, scanMac 6 (macAddDot (macText cfg i))⟩)]
            else s.lanMacAcl
          ctrlNum := if Controlled cfg i then s.ctrlNum + 1 else s.ctrlNum
          conf := setAttr s.conf (lanhost2EntryNode i) "ControlStatus".toList
            (if Controlled cfg i then "1" else "0").toList } := by
  have hread : s.conf (lanhost2EntryNode i) "MAC".toList = cfg (lanhost2EntryNode i) "MAC".toList :=
    hframe _ _ (by decide)
  have hnum : ∀ name, name ≠ "ControlStatus".toList →
      numAttr s.conf (lanhost2EntryNode i) name = numAttr cfg (lanhost2EntryNode i) name :=
    fun name hne => numAttr_congr (hframe _ _ hne)
  have hmax : ∀ v : Int, (if v < 0 then 0 else v) = max 0 v := by
    intro v
    split <;> omega
  have hpos : ¬ (cfgGetObjectAttr (s.conf (lanhost2EntryNode i) "MAC".toList) [] 32).1 ≤ 0 := by
    rw [hread, not_le, cfgGetObjectAttr_pos]
    exact hmac
  refine ⟨(setStorageAccessRule s.conf (lanhost2EntryNode i) (macAddDot (macText cfg i))
    (setInternetAccessRule s.conf (lanhost2EntryNode i) (macAddDot (macText cfg i)) s.access).2).2,
    ?_⟩
  rw [handleEntry, if_neg hpos, if_neg (not_le.mpr hlt)]
  simp only [setInternetAccessRule_fst, setStorageAccessRule_fst, hmax,
    hnum "InternetAccess".toList (by decide), hnum "StorageAccess".toList (by decide),
    hnum "MaxUSBandwidth".toList (by decide), hnum "MaxDSBandwidth".toList (by decide),
    hnum "ConnectionType".toList (by decide), controlled_iff, hread, cfgGetObjectAttr_snd,
    decide_eq_true_eq]
  rfl

/-! ## The hosts one after the other -/

theorem inForce_concat (cfg : Conf) (l : List Nat) (i : Nat) :
    inForce cfg (l ++ [i]) = opens cfg (inForce cfg l) i := by
  rw [inForce, List.foldl_append]
  rfl

theorem lastOf_concat (f : Nat → Option Int) (dflt : Int) (l : List Nat) (i : Nat) :
    lastOf f dflt (l ++ [i]) = (f i).getD (lastOf f dflt l) := by
  rw [lastOf, List.foldl_append]
  rfl

theorem limitedFrom_append (cfg : Conf) (b : Bool) (l r : List Nat) :
    limitedFrom cfg b (l ++ r) =
      limitedFrom cfg b l ++ limitedFrom cfg (l.foldl (opens cfg) b) r := by
  induction l generalizing b with
  | nil => rfl
  | cons i is ih =>
    simp only [List.cons_append, limitedFrom, List.foldl_cons, ih]
    cases opens cfg b i <;> rfl

theorem limited_concat (cfg : Conf) (l : List Nat) (i : Nat) :
    limited cfg (l ++ [i]) =
      limited cfg l ++ if opens cfg (inForce cfg l) i then [i] else [] := by
  rw [limited, limitedFrom_append, limited, inForce]
  simp only [limitedFrom]

theorem controlledCount_concat (cfg : Conf) (l : List Nat) (i : Nat) :
    controlledCount cfg (l ++ [i]) = controlledCount cfg l +
      if opens cfg (inForce cfg l) i = true ∧ Controlled cfg i then 1 else 0 := by
  rw [controlledCount, limited_concat, List.countP_append, controlledCount]
  by_cases ho : opens cfg (inForce cfg l) i = true
  · simp [ho, List.countP_cons]
  · simp [ho]

/-- The row that a host gets behind these hosts. -/
def rowAfter (cfg : Conf) (before : List Nat) (i : Nat) : AclRow :=
  ⟨max 0 ((usLimit cfg i).getD (lastOf (usLimit cfg) 0 before)),
    max 0 ((dsLimit cfg i).getD (lastOf (dsLimit cfg) 0 before)),
    (connOf cfg i).getD (lastOf (connOf cfg) (-1) (limited cfg before)),
    scanMac 6 (macAddDot (macText cfg i))⟩

/-- The host `i` gets a row behind the hosts `before`. -/
def GetsRow (cfg : Conf) (before : List Nat) (i : Nat) : Prop :=
  opens cfg (inForce cfg before) i = true ∧ (limited cfg before).length < 10 ∧
    (controlledCount cfg before : Int) < maxCtrlLanHost cfg

/-- What the state knows of a limit: it is the last value, except that a negative one may have
become 0, and it is not negative if the limits are in force. -/
def LimitVal (f : Nat → Option Int) (force : Bool) (l : List Nat) (v : Int) : Prop :=
  max 0 v = max 0 (lastOf f 0 l) ∧ (0 ≤ v ↔ force = true)

/-- The state after these hosts. -/
structure ControlInv (cfg : Conf) (l : List Nat) (s : ControlState) : Prop where
  frame : Frame cfg s.conf
  rows : ∀ e, e ∈ s.lanMacAcl ↔ ∃ before i after, l = before ++ i :: after ∧
    GetsRow cfg before i ∧ e = (i, rowAfter cfg before i)
  us : (controlledCount cfg l : Int) < maxCtrlLanHost cfg →
    LimitVal (usLimit cfg) (inForce cfg l) l s.usBandwidthVal
  ds : (controlledCount cfg l : Int) < maxCtrlLanHost cfg →
    LimitVal (dsLimit cfg) (inForce cfg l) l s.dsBandwidthVal
  conn : (controlledCount cfg l : Int) < maxCtrlLanHost cfg →
    s.connTypeVal = lastOf (connOf cfg) (-1) (limited cfg l)
  size : (controlledCount cfg l : Int) < maxCtrlLanHost cfg →
    s.lanMacAcl.length = min 10 (limited cfg l).length
  status : (controlledCount cfg l : Int) < maxCtrlLanHost cfg → ∀ i ∈ entries cfg,
    controlStatus s.conf i =
      if i ∈ limited cfg l then some (if Controlled cfg i then "1" else "0").toList
      else controlStatus cfg i
  num : (controlledCount cfg l : Int) < maxCtrlLanHost cfg → s.ctrlNum = controlledCount cfg l
  full : maxCtrlLanHost cfg ≤ controlledCount cfg l → maxCtrlLanHost cfg ≤ s.ctrlNum

/-! ## The paths of the entries -/

/-- There are at most `INT_MAX` entries. -/
theorem maxLanHost_le (cfg : Conf) : maxLanHost cfg ≤ intMax := by
  rw [maxLanHost]
  cases hnum : numAttr cfg lanhost2CommonNode "LANHostMaxNumber".toList with
  | none => decide
  | some v => exact numAttr_le hnum

theorem lt_of_mem_entries {cfg : Conf} {i : Nat} (h : i ∈ entries cfg) : i < intMax := by
  have hmax := maxLanHost_le cfg
  have hi : i < (maxLanHost cfg).toNat := List.mem_range.mp h
  omega

/-- Different entries have different paths. -/
theorem lanhost2EntryNode_inj {i j : Nat} (hi : i < intMax) (hj : j < intMax) :
    lanhost2EntryNode i = lanhost2EntryNode j ↔ i = j := by
  rw [lanhost2EntryNode, lanhost2EntryNode, snprintf_append_fmtNat_inj (lt_ten_digits hi)
    (lt_ten_digits hj) (by decide), Nat.succ_inj]

/-! ## The run -/

/-- Reading a limit that the entry has or takes over. -/
theorem LimitVal.read {f : Nat → Option Int} {force : Bool} {l : List Nat} {v : Int}
    (h : LimitVal f force l v) (i : Nat) :
    max 0 ((f i).getD v) = max 0 ((f i).getD (lastOf f 0 l)) ∧
      (0 ≤ (f i).getD v ↔ ((f i).map fun v => decide (0 ≤ v)).getD force = true) := by
  cases f i with
  | none => exact h
  | some w => simp

/-- The rows behind one more host. -/
theorem rows_concat {cfg : Conf} {l : List Nat} {i : Nat} {e : Nat × AclRow} :
    (∃ before j after, l ++ [i] = before ++ j :: after ∧ GetsRow cfg before j ∧
        e = (j, rowAfter cfg before j)) ↔
      (∃ before j after, l = before ++ j :: after ∧ GetsRow cfg before j ∧
        e = (j, rowAfter cfg before j)) ∨ (GetsRow cfg l i ∧ e = (i, rowAfter cfg l i)) :=
  exists_place_concat fun before j => GetsRow cfg before j ∧ e = (j, rowAfter cfg before j)

/-- The state before the loop. -/
theorem controlInv_init (cfg : Conf) (a : AccessState) : ControlInv cfg [] (initControl cfg a) where
  frame _ _ _ := rfl
  rows e := by simp [initControl]
  us _ := ⟨rfl, by simp [initControl, inForce]⟩
  ds _ := ⟨rfl, by simp [initControl, inForce]⟩
  conn _ := rfl
  size _ := rfl
  status _ i _ := (if_neg List.not_mem_nil).symm
  num _ := rfl
  full h := h

/-- **A host keeps the invariant.** -/
theorem handleEntry_inv {cfg : Conf} {l : List Nat} {s : ControlState} {i : Nat}
    (h : ControlInv cfg l s) (hi : i ∈ entries cfg) (hmac : macText cfg i ≠ []) :
    ControlInv cfg (l ++ [i]) (handleEntry (maxCtrlLanHost cfg) s i) := by
  by_cases hopen : (controlledCount cfg l : Int) < maxCtrlLanHost cfg
  swap
  · -- the limit is reached, and the host is only counted
    have hfull := h.full (not_lt.mp hopen)
    have hcount : ¬ (controlledCount cfg (l ++ [i]) : Int) < maxCtrlLanHost cfg := by
      rw [controlledCount_concat]
      omega
    rw [handleEntry_full h.frame hmac hfull]
    refine ⟨h.frame, fun e => ?_, fun hc => absurd hc hcount, fun hc => absurd hc hcount,
      fun hc => absurd hc hcount, fun hc => absurd hc hcount, fun hc => absurd hc hcount,
      fun hc => absurd hc hcount, fun _ => hfull⟩
    rw [rows_concat, h.rows]
    exact (or_iff_left fun hgets => hopen hgets.1.2.2).symm
  have hlt : s.ctrlNum < maxCtrlLanHost cfg := by
    rw [h.num hopen]
    exact hopen
  obtain ⟨hus, huspos⟩ := (h.us hopen).read i
  obtain ⟨hds, hdspos⟩ := (h.ds hopen).read i
  obtain ⟨access, heq⟩ := handleEntry_host h.frame hmac hlt
  simp only at heq
  rw [heq]
  by_cases hskip : (usLimit cfg i).getD s.usBandwidthVal < 0 ∧
      (dsLimit cfg i).getD s.dsBandwidthVal < 0
  · -- both limits are negative, and the host is skipped
    have hopens : opens cfg (inForce cfg l) i = false := by
      rw [opens, Bool.or_eq_false_iff, ← Bool.not_eq_true, ← Bool.not_eq_true, ← huspos, ← hdspos]
      omega
    have hlimited : limited cfg (l ++ [i]) = limited cfg l := by
      rw [limited_concat, hopens]
      exact List.append_nil _
    have hcount : controlledCount cfg (l ++ [i]) = controlledCount cfg l := by
      rw [controlledCount, hlimited, controlledCount]
    rw [if_pos hskip]
    refine ⟨h.frame, fun e => ?_, fun _ => ?_, fun _ => ?_, fun _ => ?_, fun _ => ?_, fun _ => ?_,
      fun _ => ?_, fun hc => ?_⟩
    · rw [rows_concat, h.rows]
      refine (or_iff_left fun hgets => ?_).symm
      exact absurd hgets.1.1 (by simp [hopens])
    · rw [LimitVal, inForce_concat, lastOf_concat, hopens]
      exact ⟨hus, by simpa using hskip.1⟩
    · rw [LimitVal, inForce_concat, lastOf_concat, hopens]
      exact ⟨hds, by simpa using hskip.2⟩
    · rw [hlimited]
      exact h.conn hopen
    · rw [hlimited]
      exact h.size hopen
    · rw [hlimited]
      exact h.status hopen
    · rw [hcount]
      exact h.num hopen
    · exact absurd hopen (by rw [← hcount]; exact not_lt.mpr hc)
  · have hopens : opens cfg (inForce cfg l) i = true := by
      rw [opens, Bool.or_eq_true, ← huspos, ← hdspos]
      omega
    have hlimited : limited cfg (l ++ [i]) = limited cfg l ++ [i] := by
      rw [limited_concat, if_pos hopens]
    have hcount : controlledCount cfg (l ++ [i]) =
        controlledCount cfg l + if Controlled cfg i then 1 else 0 := by
      rw [controlledCount_concat, hopens]
      simp
    rw [if_neg hskip]
    refine ⟨fun p n hn => ?_, fun e => ?_, fun _ => ?_, fun _ => ?_, fun _ => ?_, fun _ => ?_,
      fun _ j hj => ?_, fun _ => ?_, fun hc => ?_⟩
    · show setAttr s.conf _ _ _ p n = cfg p n
      rw [setAttr_of_ne (.inr hn)]
      exact h.frame p n hn
    · have hsize := h.size hopen
      rw [rows_concat, ← h.rows]
      show e ∈ ite _ _ _ ↔ _
      split
      · next hlt10 =>
        rw [List.mem_append, List.mem_singleton, hus, hds, h.conn hopen]
        refine or_congr Iff.rfl ⟨fun he => ⟨⟨hopens, by omega, hopen⟩, he⟩, fun he => he.2⟩
      · next hge10 =>
        refine (or_iff_left fun hgets => ?_).symm
        have hlt10 := hgets.1.2.1
        omega
    · rw [LimitVal, inForce_concat, lastOf_concat, hopens]
      exact ⟨by rw [← hus]; exact max_eq_right (le_max_left _ _), by simp⟩
    · rw [LimitVal, inForce_concat, lastOf_concat, hopens]
      exact ⟨by rw [← hds]; exact max_eq_right (le_max_left _ _), by simp⟩
    · rw [hlimited, lastOf_concat, ← h.conn hopen]
    · have hsize := h.size hopen
      rw [hlimited, List.length_append, List.length_singleton]
      show (ite _ _ _ : List _).length = _
      split
      · rw [List.length_append, List.length_singleton]
        omega
      · omega
    · show setAttr s.conf _ _ _ (lanhost2EntryNode j) _ = _
      rw [hlimited]
      by_cases hji : j = i
      · subst hji
        rw [setAttr_self, if_pos (List.mem_append_right _ List.mem_cons_self)]
      · have hpath : lanhost2EntryNode j ≠ lanhost2EntryNode i := fun hp =>
          hji ((lanhost2EntryNode_inj (lt_of_mem_entries hj) (lt_of_mem_entries hi)).mp hp)
        have hmem : j ∈ limited cfg l ++ [i] ↔ j ∈ limited cfg l := by simp [hji]
        rw [setAttr_of_ne (.inl hpath)]
        exact (h.status hopen j hj).trans (if_congr hmem.symm rfl rfl)
    · rw [hcount, ← h.num hopen]
      show (ite _ _ _ : Nat) = _
      split <;> rfl
    · show _ ≤ ((ite _ _ _ : Nat) : Int)
      rw [hcount] at hc
      rw [h.num hopen]
      split at hc
      · next hctrl => rwa [if_pos hctrl]
      · next hctrl => rwa [if_neg hctrl]

/-- **The state after the loop.** -/
theorem controlInv_run (cfg : Conf) (a : AccessState) : ControlInv cfg (hosts cfg)
    ((entries cfg).foldl (handleEntry (maxCtrlLanHost cfg)) (initControl cfg a)) := by
  have hrun : ∀ l : List Nat, (∀ i ∈ l, i ∈ entries cfg) →
      ControlInv cfg (l.filter fun i => macText cfg i ≠ [])
        (l.foldl (handleEntry (maxCtrlLanHost cfg)) (initControl cfg a)) := by
    intro l hl
    induction l using List.reverseRecOn with
    | nil => exact controlInv_init cfg a
    | append_singleton l i ih =>
      have hinv := ih fun j hj => hl j (List.mem_append_left _ hj)
      rw [List.foldl_append, List.filter_append]
      by_cases hmac : macText cfg i = []
      · rw [List.filter_cons_of_neg (by simpa using hmac), List.filter_nil, List.append_nil]
        show ControlInv _ _ (handleEntry _ _ i)
        rw [handleEntry_noMac hinv.frame hmac]
        exact hinv
      · rw [List.filter_cons_of_pos (by simpa using hmac), List.filter_nil]
        exact handleEntry_inv hinv (hl i (by simp)) hmac
  exact hrun (entries cfg) fun _ h => h

/-! ## The result -/

/-- A row is the own one if nothing that the entry lacks was set before. -/
theorem rowAfter_eq_ownRow_iff (cfg : Conf) (before : List Nat) (i : Nat) :
    rowAfter cfg before i = ownRow cfg i ↔
      (usLimit cfg i = none → lastOf (usLimit cfg) 0 before ≤ 0) ∧
        (dsLimit cfg i = none → lastOf (dsLimit cfg) 0 before ≤ 0) ∧
          (connOf cfg i = none → lastOf (connOf cfg) (-1) (limited cfg before) = -1) := by
  have hlimit : ∀ (o : Option Int) (v : Int),
      max 0 (o.getD v) = max 0 (o.getD 0) ↔ (o = none → v ≤ 0) := by
    intro o v
    cases o with
    | none => simp
    | some w => simp
  have hconn : ∀ (o : Option Int) (v : Int), o.getD v = o.getD (-1) ↔ (o = none → v = -1) := by
    intro o v
    cases o with
    | none => simp
    | some w => simp
  rw [rowAfter, ownRow, AclRow.mk.injEq, hlimit, hlimit, hconn]
  simp only [and_true]

theorem status_eq_one_iff {p : Prop} [Decidable p] :
    some (if p then "1" else "0").toList = some "1".toList ↔ p := by
  by_cases hp : p
  · simp [hp]
  · simp [hp]

theorem limitedFrom_sublist (cfg : Conf) (b : Bool) (l : List Nat) :
    (limitedFrom cfg b l).Sublist l := by
  induction l generalizing b with
  | nil => exact List.Sublist.refl []
  | cons i is ih =>
    rw [limitedFrom]
    split
    · exact (ih true).cons_cons i
    · exact (ih false).cons i

theorem limited_hosts_sublist (cfg : Conf) : (limited cfg (hosts cfg)).Sublist (entries cfg) :=
  (limitedFrom_sublist cfg false _).trans List.filter_sublist

theorem entries_nodup (cfg : Conf) : (entries cfg).Nodup := List.nodup_range

theorem limited_hosts_nodup (cfg : Conf) : (limited cfg (hosts cfg)).Nodup :=
  (limited_hosts_sublist cfg).nodup (entries_nodup cfg)

/-- The controlled entries are counted if and only if none of them is skipped. -/
theorem countP_entries_eq_iff (cfg : Conf) :
    ((entries cfg).countP fun i => Controlled cfg i) = controlledCount cfg (hosts cfg) ↔
      ∀ i ∈ entries cfg, i ∉ limited cfg (hosts cfg) → ¬ Controlled cfg i := by
  constructor
  · intro hcount i hi hnot hctrl
    have hsub : (i :: limited cfg (hosts cfg)).Subperm (entries cfg) := by
      refine List.subperm_of_subset (List.nodup_cons.mpr ⟨hnot, limited_hosts_nodup cfg⟩) ?_
      exact List.cons_subset.mpr ⟨hi, (limited_hosts_sublist cfg).subset⟩
    have hle := hsub.countP_le fun i => decide (Controlled cfg i)
    rw [List.countP_cons_of_pos (by simpa using hctrl), hcount, controlledCount] at hle
    exact absurd hle (Nat.not_succ_le_self _)
  · intro hnone
    rw [controlledCount, List.countP_eq_length_filter, List.countP_eq_length_filter]
    refine List.Perm.length_eq ?_
    rw [List.perm_ext_iff_of_nodup ((entries_nodup cfg).filter _)
      ((limited_hosts_nodup cfg).filter _)]
    intro i
    rw [List.mem_filter, List.mem_filter]
    constructor
    · rintro ⟨hi, hctrl⟩
      by_contra hnot
      exact hnone i hi (fun hmem => hnot ⟨hmem, hctrl⟩) (of_decide_eq_true hctrl)
    · rintro ⟨hi, hctrl⟩
      exact ⟨(limited_hosts_sublist cfg).subset hi, hctrl⟩

/-- The rows are right under the first condition. -/
theorem ControlInv.rows_iff {cfg : Conf} {s : ControlState} (h : ControlInv cfg (hosts cfg) s) :
    (∀ e ∈ s.lanMacAcl, HasLimit cfg e.1 ∧ e.2 = ownRow cfg e.1) ↔
      ∀ before i after, hosts cfg = before ++ i :: after → GetsRow cfg before i →
        HasLimit cfg i ∧ rowAfter cfg before i = ownRow cfg i := by
  constructor
  · intro hright before i after hsplit hgets
    have hmem : (i, rowAfter cfg before i) ∈ s.lanMacAcl :=
      (h.rows _).mpr ⟨before, i, after, hsplit, hgets, rfl⟩
    exact hright (i, rowAfter cfg before i) hmem
  · intro hcond e he
    obtain ⟨before, i, after, hsplit, hgets, rfl⟩ := (h.rows e).mp he
    exact hcond before i after hsplit hgets

/-- The status and the number are right under the second condition. -/
theorem ControlInv.status_iff {cfg : Conf} {s : ControlState} (h : ControlInv cfg (hosts cfg) s)
    (hlt : (controlledCount cfg (hosts cfg) : Int) < maxCtrlLanHost cfg) :
    ((∀ i ∈ entries cfg, (controlStatus s.conf i = some "1".toList ↔ Controlled cfg i)) ∧
        s.ctrlNum = (entries cfg).countP fun i => Controlled cfg i) ↔
      ∀ i ∈ entries cfg, i ∉ limited cfg (hosts cfg) →
        ¬ Controlled cfg i ∧ controlStatus cfg i ≠ some "1".toList := by
  rw [h.num hlt]
  constructor
  · rintro ⟨hstatus, hcount⟩ i hi hnot
    have hctrl := (countP_entries_eq_iff cfg).mp hcount.symm i hi hnot
    have hold := hstatus i hi
    rw [h.status hlt i hi, if_neg hnot] at hold
    exact ⟨hctrl, fun hone => hctrl (hold.mp hone)⟩
  · intro hskip
    refine ⟨fun i hi => ?_, ((countP_entries_eq_iff cfg).mpr fun i hi hnot => ?_).symm⟩
    · rw [h.status hlt i hi]
      by_cases hmem : i ∈ limited cfg (hosts cfg)
      · rw [if_pos hmem]
        exact status_eq_one_iff
      · rw [if_neg hmem]
        exact iff_of_false (hskip i hi hmem).2 (hskip i hi hmem).1
    · exact (hskip i hi hnot).1

/-- **The rows, the status of each entry and the number are right exactly under the condition.** -/
theorem control_right_iff (cfg : Conf) (a : AccessState) :
    ControlRight cfg (svcOtherHandleEventLanhost2Config cfg a) ↔ ControlCond cfg := by
  have h := controlInv_run cfg a
  generalize hs : (entries cfg).foldl (handleEntry (maxCtrlLanHost cfg)) (initControl cfg a) = s at h
  -- the two numbers written at the end leave the status of the entries as it is
  have hresult : (svcOtherHandleEventLanhost2Config cfg a).conf =
      setAttr (setAttr s.conf lanhost2CommonNode "ControlListNumber".toList
        (snprintf 32 (fmtNat s.ctrlNum))) lanhost2CommonNode "LANHostNumber".toList
        (snprintf 32 (fmtNat s.hostNum)) := by
    rw [← hs]
    rfl
  have hacl : (svcOtherHandleEventLanhost2Config cfg a).lanMacAcl = s.lanMacAcl := by
    rw [← hs]
    rfl
  have hctrl : (svcOtherHandleEventLanhost2Config cfg a).ctrlNum = s.ctrlNum := by
    rw [← hs]
    rfl
  have hconf : ∀ i, controlStatus (svcOtherHandleEventLanhost2Config cfg a).conf i =
      controlStatus s.conf i := by
    intro i
    have hnum : "ControlStatus".toList ≠ "ControlListNumber".toList := by decide
    have hhost : "ControlStatus".toList ≠ "LANHostNumber".toList := by decide
    rw [controlStatus, hresult, setAttr_of_ne (.inr hhost), setAttr_of_ne (.inr hnum),
      controlStatus]
  have hcount : (controlledCount cfg (hosts cfg) : Int) < maxCtrlLanHost cfg →
      ((svcOtherHandleEventLanhost2Config cfg a).conf lanhost2CommonNode
          "ControlListNumber".toList =
        some (fmtNat ((entries cfg).countP fun i => Controlled cfg i)) ↔
      s.ctrlNum = (entries cfg).countP fun i => Controlled cfg i) := by
    intro hlt
    have hne : "ControlListNumber".toList ≠ "LANHostNumber".toList := by decide
    have hsmall : s.ctrlNum < 10 ^ 10 := by
      have hle : controlledCount cfg (hosts cfg) ≤ (entries cfg).length :=
        List.countP_le_length.trans (limited_hosts_sublist cfg).length_le
      have hlen : (entries cfg).length ≤ intMax := by
        have hmax := maxLanHost_le cfg
        rw [entries, List.length_range]
        omega
      rw [h.num hlt]
      rw [intMax] at hlen
      omega
    have hfit : snprintf 32 (fmtNat s.ctrlNum) = fmtNat s.ctrlNum :=
      snprintf_eq (lt_of_le_of_lt ((length_fmtNat_le (by decide)).mpr hsmall) (by decide))
    rw [hresult, setAttr_of_ne (.inr hne), setAttr_self, hfit, Option.some_inj, fmtNat_inj]
  have hlimit : (s.ctrlNum : Int) < maxCtrlLanHost cfg ↔
      (controlledCount cfg (hosts cfg) : Int) < maxCtrlLanHost cfg := by
    constructor
    · intro hlt
      by_contra hge
      exact absurd (h.full (not_lt.mp hge)) (not_le.mpr hlt)
    · intro hlt
      rwa [h.num hlt]
  constructor
  · rintro ⟨hrows, hstatus, hnumber⟩
    rw [hctrl, hlimit] at hstatus hnumber
    rw [hacl, h.rows_iff] at hrows
    refine ⟨fun before i after hsplit hopens hlen hlt => ?_, fun hlt => ?_⟩
    · obtain ⟨hlim, hrow⟩ := hrows before i after hsplit ⟨hopens, hlen, hlt⟩
      exact ⟨hlim, (rowAfter_eq_ownRow_iff cfg before i).mp hrow⟩
    · refine (h.status_iff hlt).mp ⟨fun i hi => ?_, (hcount hlt).mp (hnumber hlt)⟩
      rw [← hconf]
      exact hstatus hlt i hi
  · rintro ⟨hrows, hskip⟩
    refine ⟨?_, ?_, ?_⟩
    · rw [hacl, h.rows_iff]
      rintro before i after hsplit ⟨hopens, hlen, hlt⟩
      obtain ⟨hlim, hrow⟩ := hrows before i after hsplit hopens hlen hlt
      exact ⟨hlim, (rowAfter_eq_ownRow_iff cfg before i).mpr hrow⟩
    · rw [hctrl, hlimit]
      intro hlt i hi
      rw [hconf]
      exact ((h.status_iff hlt).mpr (hskip hlt)).1 i hi
    · rw [hctrl, hlimit]
      intro hlt
      exact (hcount hlt).mpr ((h.status_iff hlt).mpr (hskip hlt)).2

/-- The first hosts have these attributes, and there are no more. -/
def hostConf (attrs : List (List (String × String))) : Conf := fun path name =>
  if path = lanhost2CommonNode then
    if name = "LANHostMaxNumber".toList then some (fmtNat attrs.length) else none
  else
    ((List.range attrs.length).find? fun i => path == lanhost2EntryNode i).bind fun i =>
      ((attrs.getD i []).find? fun e => e.1.toList == name).map fun e => e.2.toList

/-- The second host has only a MAC address. -/
def carriedLimits : Conf := hostConf [
  [("MAC", "00:11:22:33:44:55"), ("MaxUSBandwidth", "5"), ("MaxDSBandwidth", "7"),
    ("ConnectionType", "1")],
  [("MAC", "00:11:22:33:44:66")]]

/-- The host has no access to the internet, and no limits. -/
def blockedHost : Conf := hostConf [[("MAC", "00:11:22:33:44:55"), ("InternetAccess", "0")]]

/-- A host without limits gets those of the host before it, or it does not get its status. -/
theorem control_fails :
    ¬ ControlRight carriedLimits
        (svcOtherHandleEventLanhost2Config carriedLimits ⟨false, false, false, []⟩) ∧
      ¬ ControlRight blockedHost
        (svcOtherHandleEventLanhost2Config blockedHost ⟨false, false, false, []⟩) := by
  constructor
  · intro h
    have hrow : (1, AclRow.mk 5 7 1 [0x00, 0x11, 0x22, 0x33, 0x44, 0x66]) ∈
        (svcOtherHandleEventLanhost2Config carriedLimits ⟨false, false, false, []⟩).lanMacAcl := by
      decide +kernel
    have hnone : usLimit carriedLimits 1 = none ∧ dsLimit carriedLimits 1 = none := by
      decide +kernel
    exact (h.rows _ hrow).1.elim (· hnone.1) (· hnone.2)
  · intro h
    have hstatus : controlStatus (svcOtherHandleEventLanhost2Config blockedHost
        ⟨false, false, false, []⟩).conf 0 = none := by decide +kernel
    have hctrl : Controlled blockedHost 0 := by decide +kernel
    have hone := (h.status (by decide +kernel) 0 (by decide +kernel)).mpr hctrl
    rw [hstatus] at hone
    exact absurd hone (by simp)

end OnuFirmware.Other
