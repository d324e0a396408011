import OnuFirmware.Clib.Shift
import OnuFirmware.Lib.Run
import OnuFirmware.Other.AccessRules

/-!
# The mask of the Wi-Fi timers (`dbus_timer.c`)

`WifiEnableMask` has a bit for each SSID. `init_wifi_enable_mask` takes the bits from the attributes
`EnableSSID`; `doWifiTimerEvent` switches the SSIDs of a mask on or off and keeps the bits up to
date; `doSleepTimerEvent` calls it for all SSIDs when the gateway goes to sleep and when it wakes
up.

An SSID that is disabled stays off when the gateway wakes up, but its bit is set all the same
(`wifiMask_iff`).
-/

namespace OnuFirmware.Central

open Clib Cfg Lib
open Other (setAttr setAttr_self setAttr_of_ne)

/-! ## Constants -/

/-- `WLAN_2_4_G_NUM` and `WLAN_5_G_NUM`; `multi` is `TCSUPPORT_MULTI_USER_ITF`. -/
def wlanNum (multi : Bool) : Nat := if multi then 8 else 4

/-- `WLAN_BITMASK`. -/
def wlanBitmask (multi : Bool) : Int := if multi then 0xffff else 0xff

/-- `WLAN_2_4_G_NUM + WLAN_5_G_NUM`. -/
def ssidNum (multi : Bool) : Nat := wlanNum multi + wlanNum multi

def timerCommonNode : Str := "root.timer.common".toList
def usbMountCommonNode : Str := "root.UsbMount.Common".toList
def enableSSIDName : Str := "EnableSSID".toList
def wifiEnableMaskName : Str := "WifiEnableMask".toList
def hgwSleepName : Str := "HGWSleep".toList
def isExistName : Str := "isExist".toList
def sleepStatusName : Str := "SleepStatus".toList

/-- `wifi_type`: `0` for 2.4 GHz, `1` for 5 GHz. -/
def wifiType (multi : Bool) (ssidindex : Nat) : Nat := ssidindex / wlanNum multi

/-- `nodeName`: `WLAN_ENTRY_N_NODE` or `WLAN11AC_ENTRY_N_NODE`. -/
def ssidNode (multi : Bool) (ssidindex : Nat) : Str :=
  if wifiType multi ssidindex = 0 then
    snprintf 64 ("root.wlan.entry.".toList ++ fmtNat (ssidindex + 1))
  else snprintf 64 ("root.wlan11ac.entry.".toList ++ fmtNat (ssidindex - wlanNum multi + 1))

/-- `INFO_WLAN_NODE` or `INFO_WLAN11AC_NODE`. -/
def infoNode (multi : Bool) (ssidindex : Nat) : Str :=
  if wifiType multi ssidindex = 0 then "root.info.wlan".toList else "root.info.wlan11ac".toList

/-! ## The state -/

/-- The configuration and the Wi-Fi interfaces. `up` says which are up and `pending` which have had
their `EnableSSID` set to `1` since the last commit of their radio. `saves` counts the requests to
write the romfile to flash. -/
structure WifiState where
  cfg : Conf
  up : Nat → Bool
  pending : List Nat
  saves : Nat

/-- `/sbin/ifconfig ra.. down`: the interface goes down. -/
def WifiState.ifDown (st : WifiState) (ssidindex : Nat) : WifiState :=
  { st with up := Function.update st.up ssidindex false }

/-- `cfg_set_object_attr` of `EnableSSID` to `1`. -/
def WifiState.enableSSID (multi : Bool) (st : WifiState) (ssidindex : Nat) : WifiState :=
  { st with
    cfg := setAttr st.cfg (ssidNode multi ssidindex) enableSSIDName "1".toList
    pending := ssidindex :: st.pending }

/-- `cfg_commit_object` of the node of a radio: the interfaces that wait for it come up. -/
def WifiState.commit (multi : Bool) (st : WifiState) (radio : Nat) : WifiState :=
  { st with
    up := fun i => st.up i || (decide (i ∈ st.pending) && wifiType multi i == radio)
    pending := st.pending.filter fun i => wifiType multi i != radio }

/-- `atoi(WifiEnableMask)`, with the default of `doWifiTimerEvent`. -/
def readWifiMask (cfg : Conf) : Word :=
  let got := cfgGetObjectAttr (cfg timerCommonNode wifiEnableMaskName) [] 8
  if got.1 ≤ 0 then BitVec.ofInt 32 (atoi "65535".toList) else BitVec.ofInt 32 (atoi got.2)

/-- `cfg_set_object_attr` of `WifiEnableMask`. -/
def writeWifiMask (cfg : Conf) (mask : Word) : Conf :=
  setAttr cfg timerCommonNode wifiEnableMaskName (snprintf 8 (fmtWord mask))

/-! ## The timer events -/

/-- The variables of `doWifiTimerEvent` that its loop changes. -/
structure WifiLoop where
  st : WifiState
  wifienablemask : Word
  ssidCnt : Nat
  ssidacCnt : Nat
  needSave : Nat

/-- One turn of the loop of `doWifiTimerEvent`. -/
def wifiStep (multi : Bool) (enable : Str) (ssidmask : Nat) (optflag : Int) (l : WifiLoop)
    (ssidindex : Nat) : WifiLoop :=
  let status := attrText (l.st.cfg (infoNode multi ssidindex) isExistName) 8 []
  let got := cfgGetObjectAttr (l.st.cfg (ssidNode multi ssidindex) enableSSIDName) [] 8
  if ssidmask.testBit ssidindex = false then l
  else if strcasecmpEq status "on".toList = false then l
  else if got.1 ≤ 0 then l
  else if strcasecmpEq enable "True".toList ∧ getBit l.wifienablemask ssidindex = 0 then
    let l := { l with wifienablemask := setBit l.wifienablemask ssidindex }
    if got.2 = "0".toList ∧ optflag = 1 then l
    else if wifiType multi ssidindex = 0 then
      { l with
        st := l.st.enableSSID multi ssidindex
        ssidCnt := l.ssidCnt + 1
        needSave := l.needSave + 1 }
    else
      { l with
        st := l.st.enableSSID multi ssidindex
        ssidacCnt := l.ssidacCnt + 1
        needSave := l.needSave + 1 }
  else if strcasecmpEq enable "False".toList ∧ getBit l.wifienablemask ssidindex = 1 then
    { l with
      wifienablemask := clrBit l.wifienablemask ssidindex
      st := l.st.ifDown ssidindex }
  else l

/-- The end of `doWifiTimerEvent`, behind its loop. -/
def wifiDone (multi : Bool) (l : WifiLoop) : WifiState :=
  let st := { l.st with cfg := writeWifiMask l.st.cfg l.wifienablemask }
  let st := if 0 < l.ssidCnt then st.commit multi 0 else st
  let st := if 0 < l.ssidacCnt then st.commit multi 1 else st
  if 0 < l.needSave then { st with saves := st.saves + 1 } else st

/-- `doWifiTimerEvent`; `enable` is `none` for NULL. -/
def doWifiTimerEvent (multi : Bool) (enable : Option Str) (ssidmask optflag : Int)
    (st : WifiState) : Int × WifiState :=
  match enable with
  | none => (-1, st)
  | some enable =>
    if ssidmask < 0 ∨ wlanBitmask multi < ssidmask then (-1, st)
    else
      let l : WifiLoop :=
        { st := st, wifienablemask := readWifiMask st.cfg, ssidCnt := 0, ssidacCnt := 0,
          needSave := 0 }
      (0, wifiDone multi
        ((List.range (ssidNum multi)).foldl (wifiStep multi enable ssidmask.toNat optflag) l))

/-- The part of `doSleepTimerEvent` about storage, as far as it changes the configuration. -/
def switchStorage (cfg : Conf) (before after : String) : Conf :=
  let got := cfgGetObjectAttr (cfg usbMountCommonNode sleepStatusName) [] 32
  if 0 < got.1 ∧ got.2 = before.toList then
    setAttr cfg usbMountCommonNode sleepStatusName after.toList
  else cfg

/-- `HGWSleepVal`. -/
def hgwSleepVal (cfg : Conf) : Str := attrText (cfg timerCommonNode hgwSleepName) 4 []

/-- `doSleepTimerEvent`, without the commands for the LAN ports, the LEDs and the storage. -/
def doSleepTimerEvent (multi : Bool) (enable : Str) (st : WifiState) : Int × WifiState :=
  if strcasecmpEq enable "False".toList ∧ hgwSleepVal st.cfg = "0".toList then
    let st := (doWifiTimerEvent multi (some "True".toList) (wlanBitmask multi) 1 st).2
    let cfg := switchStorage st.cfg "1" "0"
    (0, { st with cfg := setAttr cfg timerCommonNode hgwSleepName "1".toList })
  else if strcasecmpEq enable "True".toList ∧ hgwSleepVal st.cfg = "1".toList then
    let st := (doWifiTimerEvent multi (some "False".toList) (wlanBitmask multi) 0 st).2
    let cfg := switchStorage st.cfg "0" "1"
    (0, { st with cfg := setAttr cfg timerCommonNode hgwSleepName "0".toList })
  else (-1, st)

/-- One turn of the loop of `init_wifi_enable_mask`. -/
def initMaskStep (multi : Bool) (cfg : Conf) (mask : Word) (ssidindex : Nat) : Word :=
  if attrText (cfg (ssidNode multi ssidindex) enableSSIDName) 4 [] = "1".toList then
    setBit mask ssidindex
  else mask

/-- `init_wifi_enable_mask`. -/
def initWifiEnableMask (multi : Bool) (st : WifiState) : WifiState :=
  let wifienablemask := (List.range (ssidNum multi)).foldl (initMaskStep multi st.cfg) 0
  { st with cfg := writeWifiMask st.cfg wifienablemask }

/-- A call of one of the two functions. -/
inductive TimerCall where
  | wifi (enable : Option Str) (ssidmask optflag : Int)
  | sleep (enable : Str)
deriving Repr, DecidableEq

/-- The state after a call. -/
def timerStep (multi : Bool) (st : WifiState) : TimerCall → WifiState
  | .wifi enable ssidmask optflag => (doWifiTimerEvent multi enable ssidmask optflag st).2
  | .sleep enable => (doSleepTimerEvent multi enable st).2

/-! ## What the mask should say -/

/-- The bit of an SSID in `WifiEnableMask`. -/
def WifiState.bit (st : WifiState) (i : Nat) : Bool := (readWifiMask st.cfg).getLsbD i

/-- The attribute `EnableSSID` of an SSID. -/
def WifiState.enableText (multi : Bool) (st : WifiState) (i : Nat) : Option Str :=
  st.cfg (ssidNode multi i) enableSSIDName

/-- A bit is set exactly if the interface is up. -/
def MaskRight (multi : Bool) (st : WifiState) : Prop := ∀ i < ssidNum multi, st.bit i = st.up i

/-- The call wakes the gateway up. -/
def wakesUp (st : WifiState) : TimerCall → Prop
  | .wifi _ _ _ => False
  | .sleep enable => strcasecmpEq enable "False".toList = true ∧ hgwSleepVal st.cfg = "0".toList

/-- Waking up brings no SSID up that is disabled. -/
def WakeRight (multi : Bool) (st : WifiState) (c : TimerCall) : Prop :=
  wakesUp st c → ∀ i < ssidNum multi, st.up i = false → (timerStep multi st c).up i = true →
    st.enableText multi i ≠ some "0".toList

/-- `doWifiTimerEvent` skips the interface of the SSID when it has set its bit. -/
structure MarksOnly (multi : Bool) (st : WifiState) (enable : Str) (ssidmask optflag : Int)
    (i : Nat) : Prop where
  named : ssidmask.toNat.testBit i = true
  on : strcasecmpEq enable "True".toList = true
  clear : st.bit i = false
  disabled : st.enableText multi i = some "0".toList
  flag : optflag = 1

/-- The call marks no SSID as enabled whose interface it skips. -/
def MaskCond (multi : Bool) (st : WifiState) : TimerCall → Prop
  | .wifi none _ _ => True
  | .wifi (some enable) ssidmask optflag => 0 ≤ ssidmask → ssidmask ≤ wlanBitmask multi →
    ∀ i < ssidNum multi, ¬ MarksOnly multi st enable ssidmask optflag i
  | .sleep enable => wakesUp st (.sleep enable) →
    ∀ i < ssidNum multi, ¬ (st.enableText multi i = some "0".toList ∧ st.bit i = false)

/-- Before `init_wifi_enable_mask`: both radios are there, every SSID is enabled or disabled, and
its interface is in the state that the attribute says. -/
structure WifiStart (multi : Bool) (st : WifiState) : Prop where
  radio : ∀ i < ssidNum multi,
    strcasecmpEq (attrText (st.cfg (infoNode multi i) isExistName) 8 []) "on".toList = true
  ssid : ∀ i < ssidNum multi,
    st.enableText multi i = some "0".toList ∨ st.enableText multi i = some "1".toList
  up : ∀ i < ssidNum multi, st.up i = decide (st.enableText multi i = some "1".toList)
  pending : st.pending = []

/-! ## Numbers and nodes -/

variable {multi : Bool}

theorem ssidNum_le (multi : Bool) : ssidNum multi ≤ 16 := by cases multi <;> decide

theorem wifiType_cases {i : Nat} (hi : i < ssidNum multi) :
    wifiType multi i = 0 ∨ wifiType multi i = 1 := by
  unfold wifiType
  cases multi
  · have hn : i < 8 := hi
    show i / 4 = 0 ∨ i / 4 = 1
    omega
  · have hn : i < 16 := hi
    show i / 8 = 0 ∨ i / 8 = 1
    omega

/-- Each SSID has a node of its own. -/
theorem ssidNode_inj {i j : Nat} (hi : i < ssidNum multi) (hj : j < ssidNum multi)
    (h : ssidNode multi i = ssidNode multi j) : i = j := by
  have h16 := ssidNum_le multi
  have hhead : ∀ m n : Nat, snprintf 64 ("root.wlan.entry.".toList ++ fmtNat m) ≠
      snprintf 64 ("root.wlan11ac.entry.".toList ++ fmtNat n) := by
    intro m n heq
    have h9 := congrArg (fun t : Str => t[9]?) heq
    simp [snprintf] at h9
  have hlt : ∀ k, k < 17 → k < 10 ^ 2 := fun k hk => by omega
  unfold ssidNode at h
  split at h
  · split at h
    · have := (snprintf_append_fmtNat_inj (hlt (i + 1) (by omega)) (hlt (j + 1) (by omega))
        (by decide)).mp h
      omega
    · exact absurd h (hhead _ _)
  · next hti =>
    split at h
    · exact absurd h.symm (hhead _ _)
    · next htj =>
      have hge : ∀ k, wifiType multi k ≠ 0 → wlanNum multi ≤ k := by
        intro k hk
        by_contra hlt
        exact hk (Nat.div_eq_of_lt (by omega))
      have hi' := hge i hti
      have hj' := hge j htj
      have := (snprintf_append_fmtNat_inj (hlt (i - wlanNum multi + 1) (by omega))
        (hlt (j - wlanNum multi + 1) (by omega)) (by decide)).mp h
      omega

/-- The mask is read as it was written, if it has the bits of the SSIDs only. -/
theorem readWifiMask_write (cfg : Conf) {mask : Word} (hm : mask.toNat < 65536) :
    readWifiMask (writeWifiMask cfg mask) = mask := by
  have hint : mask.toInt = (mask.toNat : Int) := by
    rw [BitVec.toInt_eq_toNat_cond, if_pos (by omega)]
  have htext : snprintf 8 (fmtWord mask) = fmtNat mask.toNat := by
    unfold fmtWord
    rw [hint, fmtInt_natCast]
    have hlen := (length_fmtNat_le (show 0 < 5 by decide)).mpr (show mask.toNat < 10 ^ 5 by omega)
    exact snprintf_eq (by omega)
  have hread : snprintf 8 (fmtNat mask.toNat) = fmtNat mask.toNat := by
    rw [← htext]
    unfold snprintf
    rw [List.take_take, Nat.min_self]
  unfold readWifiMask writeWifiMask
  rw [setAttr_self, htext]
  simp only [cfgGetObjectAttr_some, hread]
  have hpos : 0 < (fmtNat mask.toNat).length := List.length_pos_iff.mpr (fmtNat_ne_nil _)
  rw [if_neg (by omega), atoi_fmtNat (Nat.le_of_lt (Nat.lt_trans hm (by decide)))]
  exact BitVec.eq_of_toNat_eq (by rw [BitVec.ofInt_natCast, BitVec.toNat_ofNat]; omega)

/-- A word without bits from 16 on. -/
theorem toNat_lt_of_bits {mask : Word} (h : ∀ j < 32, 16 ≤ j → mask.getLsbD j = false) :
    mask.toNat < 65536 := by
  refine Nat.lt_pow_two_of_testBit (n := 16) mask.toNat fun j hj => ?_
  by_cases h32 : j < 32
  · exact h j h32 hj
  · exact BitVec.getLsbD_of_ge mask j (by omega)

/-! ## One call -/

/-- What holds between calls. -/
structure Ready (multi : Bool) (st : WifiState) : Prop where
  radio : ∀ i < ssidNum multi,
    strcasecmpEq (attrText (st.cfg (infoNode multi i) isExistName) 8 []) "on".toList = true
  ssid : ∀ i < ssidNum multi,
    st.enableText multi i = some "0".toList ∨ st.enableText multi i = some "1".toList
  mask : (readWifiMask st.cfg).toNat < 65536
  pending : st.pending = []

section Call

variable (multi : Bool) (st : WifiState) (enable : Str) (ssidmask : Nat) (optflag : Int)

/-- The call sets the bit. -/
def turnsOn (i : Nat) : Bool :=
  ssidmask.testBit i && strcasecmpEq enable "True".toList && !st.bit i

/-- The call clears the bit. -/
def turnsOff (i : Nat) : Bool :=
  ssidmask.testBit i && strcasecmpEq enable "False".toList && st.bit i

/-- The call leaves the interface alone when it sets the bit. -/
def skips (i : Nat) : Bool :=
  decide (st.enableText multi i = some "0".toList) && decide (optflag = 1)

/-- The variables when the loop has come to `k`. -/
structure LoopInv (k : Nat) (l : WifiLoop) : Prop where
  bits : ∀ j < 32, l.wifienablemask.getLsbD j =
    if j < k then (st.bit j || turnsOn st enable ssidmask j) && !turnsOff st enable ssidmask j
    else st.bit j
  up : ∀ j, l.st.up j = (st.up j && !(decide (j < k) && turnsOff st enable ssidmask j))
  ssid : ∀ j < ssidNum multi, l.st.enableText multi j =
    if j < k ∧ turnsOn st enable ssidmask j = true ∧ skips multi st optflag j = false then
      some "1".toList
    else st.enableText multi j
  other : ∀ p name, name ≠ enableSSIDName → l.st.cfg p name = st.cfg p name
  pending : ∀ j, j ∈ l.st.pending ↔
    j < k ∧ turnsOn st enable ssidmask j = true ∧ skips multi st optflag j = false
  cnt : 0 < l.ssidCnt ↔ ∃ j ∈ l.st.pending, wifiType multi j = 0
  cntac : 0 < l.ssidacCnt ↔ ∃ j ∈ l.st.pending, wifiType multi j ≠ 0

end Call

variable {st : WifiState} {enable : Str} {ssidmask : Nat} {optflag : Int}

theorem off_of_on {i : Nat} (hon : turnsOn st enable ssidmask i = true) :
    turnsOff st enable ssidmask i = false := by
  unfold turnsOn at hon
  unfold turnsOff
  cases hbit : st.bit i with
  | false => rw [Bool.and_false]
  | true => simp [hbit] at hon

theorem on_of_off {i : Nat} (hoff : turnsOff st enable ssidmask i = true) :
    turnsOn st enable ssidmask i = false := by
  refine Bool.eq_false_iff.mpr fun hon => ?_
  rw [off_of_on hon] at hoff
  cases hoff

theorem loopInv_zero (h : Ready multi st) : LoopInv multi st enable ssidmask optflag 0
    { st := st, wifienablemask := readWifiMask st.cfg, ssidCnt := 0, ssidacCnt := 0,
      needSave := 0 } where
  bits := fun j _ => (if_neg (Nat.not_lt_zero j)).symm
  up := fun j => by simp
  ssid := fun j _ => (if_neg fun hj => absurd hj.1 (Nat.not_lt_zero j)).symm
  other := fun _ _ _ => rfl
  pending := fun j => by simp [h.pending]
  cnt := by simp [h.pending]
  cntac := by simp [h.pending]

/-- An SSID at which the call changes nothing. -/
theorem LoopInv.same {k : Nat} {l : WifiLoop} (h : LoopInv multi st enable ssidmask optflag k l)
    (hon : turnsOn st enable ssidmask k = false) (hoff : turnsOff st enable ssidmask k = false) :
    LoopInv multi st enable ssidmask optflag (k + 1) l := by
  have hlt : ∀ j, j < k + 1 ↔ j < k ∨ j = k := fun j => by omega
  refine ⟨?_, ?_, ?_, h.other, ?_, h.cnt, h.cntac⟩
  · intro j hj
    rw [h.bits j hj]
    by_cases hjk : j = k
    · subst hjk
      rw [if_neg (Nat.lt_irrefl j), if_pos (Nat.lt_succ_self j), hon, hoff]
      simp
    · simp [hlt, hjk]
  · intro j
    rw [h.up j]
    by_cases hjk : j = k
    · subst hjk
      simp [hoff]
    · simp [hlt, hjk]
  · intro j hj
    rw [h.ssid j hj]
    by_cases hjk : j = k
    · subst hjk
      simp [hon]
    · simp [hlt, hjk]
  · intro j
    rw [h.pending j]
    by_cases hjk : j = k
    · subst hjk
      simp [hon]
    · simp [hlt, hjk]

/-- An SSID that the call turns off. -/
theorem LoopInv.off {k : Nat} {l : WifiLoop} (h : LoopInv multi st enable ssidmask optflag k l)
    (hk : k < 32) (hoff : turnsOff st enable ssidmask k = true) :
    LoopInv multi st enable ssidmask optflag (k + 1)
      { l with wifienablemask := clrBit l.wifienablemask k, st := l.st.ifDown k } := by
  have hlt : ∀ j, j < k + 1 ↔ j < k ∨ j = k := fun j => by omega
  have hon := on_of_off hoff
  refine ⟨?_, ?_, ?_, h.other, ?_, h.cnt, h.cntac⟩
  · intro j hj
    show (clrBit l.wifienablemask k).getLsbD j = _
    unfold clrBit
    rw [getLsbD_clear _ hk, h.bits j hj]
    by_cases hjk : j = k
    · subst hjk
      simp [hoff]
    · simp [hlt, hjk, Ne.symm hjk]
  · intro j
    show Function.update l.st.up k false j = _
    by_cases hjk : j = k
    · subst hjk
      rw [Function.update_self]
      simp [hoff]
    · rw [Function.update_of_ne hjk, h.up j]
      simp [hlt, hjk]
  · intro j hj
    show l.st.enableText multi j = _
    rw [h.ssid j hj]
    by_cases hjk : j = k
    · subst hjk
      simp [hon]
    · simp [hlt, hjk]
  · intro j
    show j ∈ l.st.pending ↔ _
    rw [h.pending j]
    by_cases hjk : j = k
    · subst hjk
      simp [hon]
    · simp [hlt, hjk]

/-- An SSID whose bit the call sets: the bit. -/
theorem LoopInv.setBits {k : Nat} {l : WifiLoop} (h : LoopInv multi st enable ssidmask optflag k l)
    (hk : k < 32) (hon : turnsOn st enable ssidmask k = true) (j : Nat) (hj : j < 32) :
    (setBit l.wifienablemask k).getLsbD j =
      if j < k + 1 then (st.bit j || turnsOn st enable ssidmask j) && !turnsOff st enable ssidmask j
      else st.bit j := by
  have hlt : ∀ j, j < k + 1 ↔ j < k ∨ j = k := fun j => by omega
  have hoff := off_of_on hon
  unfold setBit
  rw [getLsbD_set _ hk, h.bits j hj]
  by_cases hjk : j = k
  · subst hjk
    simp [hon, hoff]
  · simp [hlt, hjk, Ne.symm hjk]

/-- The call sets the bit of an SSID and leaves its interface alone. -/
theorem LoopInv.mark {k : Nat} {l : WifiLoop} (h : LoopInv multi st enable ssidmask optflag k l)
    (hk : k < 32) (hon : turnsOn st enable ssidmask k = true)
    (hskip : skips multi st optflag k = true) :
    LoopInv multi st enable ssidmask optflag (k + 1)
      { l with wifienablemask := setBit l.wifienablemask k } := by
  have hlt : ∀ j, j < k + 1 ↔ j < k ∨ j = k := fun j => by omega
  refine ⟨h.setBits hk hon, ?_, ?_, h.other, ?_, h.cnt, h.cntac⟩
  · intro j
    show l.st.up j = _
    rw [h.up j]
    by_cases hjk : j = k
    · subst hjk
      simp [off_of_on hon]
    · simp [hlt, hjk]
  · intro j hj
    show l.st.enableText multi j = _
    rw [h.ssid j hj]
    by_cases hjk : j = k
    · subst hjk
      simp [hskip]
    · simp [hlt, hjk]
  · intro j
    show j ∈ l.st.pending ↔ _
    rw [h.pending j]
    by_cases hjk : j = k
    · subst hjk
      simp [hskip]
    · simp [hlt, hjk]

/-- The call enables an SSID: all but the counters. -/
theorem LoopInv.enabled {k : Nat} {l : WifiLoop} (h : LoopInv multi st enable ssidmask optflag k l)
    (hk : k < ssidNum multi) (hon : turnsOn st enable ssidmask k = true)
    (hskip : skips multi st optflag k = false) {cnt cntac save : Nat}
    (hcnt : 0 < cnt ↔ ∃ j ∈ k :: l.st.pending, wifiType multi j = 0)
    (hcntac : 0 < cntac ↔ ∃ j ∈ k :: l.st.pending, wifiType multi j ≠ 0) :
    LoopInv multi st enable ssidmask optflag (k + 1)
      { st := l.st.enableSSID multi k, wifienablemask := setBit l.wifienablemask k, ssidCnt := cnt,
        ssidacCnt := cntac, needSave := save } := by
  have hlt : ∀ j, j < k + 1 ↔ j < k ∨ j = k := fun j => by omega
  have hk32 : k < 32 := by
    have := ssidNum_le multi
    omega
  have hoff := off_of_on hon
  refine ⟨h.setBits hk32 hon, ?_, ?_, ?_, ?_, hcnt, hcntac⟩
  · intro j
    show l.st.up j = _
    rw [h.up j]
    by_cases hjk : j = k
    · subst hjk
      simp [hoff]
    · simp [hlt, hjk]
  · intro j hj
    show setAttr l.st.cfg (ssidNode multi k) enableSSIDName "1".toList (ssidNode multi j) enableSSIDName = _
    by_cases hjk : j = k
    · subst hjk
      rw [setAttr_self, if_pos ⟨Nat.lt_succ_self j, hon, hskip⟩]
    · rw [setAttr_of_ne (.inl fun heq => hjk (ssidNode_inj hj hk heq))]
      have hssid : l.st.cfg (ssidNode multi j) enableSSIDName = _ := h.ssid j hj
      rw [hssid]
      simp [hlt, hjk]
  · intro p name hname
    show setAttr l.st.cfg (ssidNode multi k) enableSSIDName "1".toList p name = _
    rw [setAttr_of_ne (.inr hname), h.other p name hname]
  · intro j
    show j ∈ k :: l.st.pending ↔ _
    rw [List.mem_cons, h.pending j]
    by_cases hjk : j = k
    · subst hjk
      simp [hon, hskip]
    · simp [hlt, hjk]

/-- What is read of an SSID that is enabled or disabled. -/
theorem got_ssid {attr : Option Str} (h : attr = some "0".toList ∨ attr = some "1".toList) :
    ¬ (cfgGetObjectAttr attr [] 8).1 ≤ 0 ∧
      ((cfgGetObjectAttr attr [] 8).2 = "0".toList ↔ attr = some "0".toList) := by
  rcases h with rfl | rfl <;> decide

/-- **One turn of the loop.** -/
theorem loopInv_step (hst : Ready multi st) {k : Nat} {l : WifiLoop}
    (h : LoopInv multi st enable ssidmask optflag k l) (hk : k < ssidNum multi) :
    LoopInv multi st enable ssidmask optflag (k + 1)
      (wifiStep multi enable ssidmask optflag l k) := by
  have hk32 : k < 32 := by
    have := ssidNum_le multi
    omega
  have hssid : l.st.cfg (ssidNode multi k) enableSSIDName = st.enableText multi k := by
    have := h.ssid k hk
    rwa [if_neg fun hj => Nat.lt_irrefl k hj.1] at this
  have hinfo := h.other (infoNode multi k) isExistName (by decide)
  obtain ⟨hgot, hzero⟩ := got_ssid (hst.ssid k hk)
  have hbit : getBit l.wifienablemask k = if st.bit k then 1 else 0 := by
    have hb := h.bits k hk32
    rw [if_neg (Nat.lt_irrefl k)] at hb
    rw [getBit_eq _ hk32, hb]
  have hclear : getBit l.wifienablemask k = 0 ↔ st.bit k = false := by
    rw [hbit]
    cases st.bit k <;> decide
  have hset : getBit l.wifienablemask k = 1 ↔ st.bit k = true := by
    rw [hbit]
    cases st.bit k <;> decide
  unfold wifiStep
  simp only [hssid, hinfo]
  by_cases hnamed : ssidmask.testBit k = false
  · rw [if_pos hnamed]
    refine h.same ?_ ?_
    · unfold turnsOn
      rw [hnamed]
      rfl
    · unfold turnsOff
      rw [hnamed]
      rfl
  rw [if_neg hnamed, if_neg (by rw [hst.radio k hk]; decide), if_neg hgot]
  have hnamed : ssidmask.testBit k = true := Bool.eq_true_of_not_eq_false hnamed
  by_cases hon : strcasecmpEq enable "True".toList = true ∧ getBit l.wifienablemask k = 0
  · have hturns : turnsOn st enable ssidmask k = true := by
      unfold turnsOn
      rw [hnamed, hon.1, hclear.mp hon.2]
      rfl
    rw [if_pos hon]
    by_cases hskip : (cfgGetObjectAttr (st.enableText multi k) [] 8).2 = "0".toList ∧ optflag = 1
    · rw [if_pos hskip]
      refine h.mark hk32 hturns ?_
      unfold skips
      rw [decide_eq_true (hzero.mp hskip.1), decide_eq_true hskip.2]
      rfl
    · have hskip' : skips multi st optflag k = false := by
        rw [hzero] at hskip
        unfold skips
        rwa [Bool.and_eq_false_iff, decide_eq_false_iff_not, decide_eq_false_iff_not,
          ← not_and_or]
      rw [if_neg hskip]
      by_cases htype : wifiType multi k = 0
      · rw [if_pos htype]
        refine h.enabled hk hturns hskip' ?_ ?_
        · exact ⟨fun _ => ⟨k, List.mem_cons_self, htype⟩, fun _ => Nat.succ_pos _⟩
        · rw [h.cntac]
          simp [htype]
      · rw [if_neg htype]
        refine h.enabled hk hturns hskip' ?_ ?_
        · rw [h.cnt]
          simp [htype]
        · exact ⟨fun _ => ⟨k, List.mem_cons_self, htype⟩, fun _ => Nat.succ_pos _⟩
  rw [if_neg hon]
  have hturns : turnsOn st enable ssidmask k = false := by
    refine Bool.eq_false_iff.mpr fun hturns => hon ?_
    unfold turnsOn at hturns
    rw [Bool.and_eq_true, Bool.and_eq_true, Bool.not_eq_true'] at hturns
    exact ⟨hturns.1.2, hclear.mpr hturns.2⟩
  by_cases hoff : strcasecmpEq enable "False".toList = true ∧ getBit l.wifienablemask k = 1
  · rw [if_pos hoff]
    refine h.off hk32 ?_
    unfold turnsOff
    rw [hnamed, hoff.1, hset.mp hoff.2]
    rfl
  · rw [if_neg hoff]
    refine h.same hturns (Bool.eq_false_iff.mpr fun hturns => hoff ?_)
    unfold turnsOff at hturns
    rw [Bool.and_eq_true, Bool.and_eq_true] at hturns
    exact ⟨hturns.1.2, hset.mpr hturns.2⟩

/-- The whole loop. -/
theorem loopInv_range (hst : Ready multi st) : ∀ k, k ≤ ssidNum multi →
    LoopInv multi st enable ssidmask optflag k ((List.range k).foldl
      (wifiStep multi enable ssidmask optflag)
      { st := st, wifienablemask := readWifiMask st.cfg, ssidCnt := 0, ssidacCnt := 0,
        needSave := 0 })
  | 0, _ => loopInv_zero hst
  | k + 1, hk => by
    rw [List.range_succ, List.foldl_append]
    exact loopInv_step hst (loopInv_range hst k (Nat.le_of_succ_le hk)) hk

/-- What a call does to the state. -/
structure CallDone (multi : Bool) (st : WifiState) (enable : Str) (ssidmask : Nat) (optflag : Int)
    (st' : WifiState) : Prop where
  ready : Ready multi st'
  bits : ∀ i < ssidNum multi, st'.bit i =
    ((st.bit i || turnsOn st enable ssidmask i) && !turnsOff st enable ssidmask i)
  up : ∀ i < ssidNum multi, st'.up i =
    ((st.up i && !turnsOff st enable ssidmask i) ||
      (turnsOn st enable ssidmask i && !skips multi st optflag i))
  other : ∀ p name, name ≠ enableSSIDName → name ≠ wifiEnableMaskName →
    st'.cfg p name = st.cfg p name

/-- A commit that is left out because no SSID of the radio waits for it would do nothing. -/
theorem commit_of_pos {st : WifiState} {cnt radio : Nat}
    (h : 0 < cnt ↔ ∃ j ∈ st.pending, wifiType multi j = radio) :
    (if 0 < cnt then st.commit multi radio else st) = st.commit multi radio := by
  by_cases hcnt : 0 < cnt
  · rw [if_pos hcnt]
  · rw [if_neg hcnt]
    rw [h] at hcnt
    have hne : ∀ j ∈ st.pending, wifiType multi j ≠ radio := fun j hj heq => hcnt ⟨j, hj, heq⟩
    have hfilter : (st.pending.filter fun i => wifiType multi i != radio) = st.pending :=
      List.filter_eq_self.mpr fun j hj => bne_iff_ne.mpr (hne j hj)
    have hup : (fun i =>
      st.up i || (decide (i ∈ st.pending) && wifiType multi i == radio)) = st.up := by
      funext i
      by_cases hi : i ∈ st.pending
      · simp [hne i hi]
      · simp [hi]
    unfold WifiState.commit
    rw [hfilter, hup]

/-- The interfaces and the waiting SSIDs after both commits. -/
theorem commit_both {st : WifiState} (h : ∀ j ∈ st.pending, j < ssidNum multi) :
    ((st.commit multi 0).commit multi 1).pending = [] ∧
      ∀ i, ((st.commit multi 0).commit multi 1).up i = (st.up i || decide (i ∈ st.pending)) := by
  constructor
  · refine List.filter_eq_nil_iff.mpr fun j hj => ?_
    obtain ⟨hj, h0⟩ := List.mem_filter.mp hj
    have h1 := (wifiType_cases (h j hj)).resolve_left (bne_iff_ne.mp h0)
    simp [h1]
  · intro i
    show ((st.up i || (decide (i ∈ st.pending) && wifiType multi i == 0)) ||
      (decide (i ∈ st.pending.filter fun i => wifiType multi i != 0) && wifiType multi i == 1)) = _
    by_cases hi : i ∈ st.pending
    · rcases wifiType_cases (h i hi) with h0 | h1
      · simp [hi, h0]
      · simp [hi, h1]
    · simp [hi]

/-- **The end of the call**: the mask is stored, and the interfaces of the SSIDs that were enabled
come up. -/
theorem wifiDone_spec (hst : Ready multi st) {l : WifiLoop}
    (h : LoopInv multi st enable ssidmask optflag (ssidNum multi) l) :
    CallDone multi st enable ssidmask optflag (wifiDone multi l) := by
  have h16 := ssidNum_le multi
  have hmask : l.wifienablemask.toNat < 65536 := by
    refine toNat_lt_of_bits fun j hj hj16 => ?_
    rw [h.bits j hj, if_neg (by omega)]
    exact Nat.testBit_lt_two_pow
      (Nat.lt_of_lt_of_le hst.mask (Nat.pow_le_pow_right (show 0 < 2 by decide) hj16))
  have hlt : ∀ j ∈ l.st.pending, j < ssidNum multi := fun j hj => ((h.pending j).mp hj).1
  -- the two commits
  generalize hA : ({ l.st with cfg := writeWifiMask l.st.cfg l.wifienablemask } : WifiState) = A
  have hpendA : A.pending = l.st.pending := by rw [← hA]
  have hcnt : 0 < l.ssidCnt ↔ ∃ j ∈ A.pending, wifiType multi j = 0 := by rw [hpendA, h.cnt]
  have hcntac : 0 < l.ssidacCnt ↔ ∃ j ∈ (A.commit multi 0).pending, wifiType multi j = 1 := by
    rw [h.cntac]
    constructor
    · rintro ⟨j, hj, htype⟩
      refine ⟨j, List.mem_filter.mpr ⟨by rwa [hpendA], bne_iff_ne.mpr htype⟩, ?_⟩
      exact (wifiType_cases (hlt j hj)).resolve_left htype
    · rintro ⟨j, hj, htype⟩
      obtain ⟨hj, hne⟩ := List.mem_filter.mp hj
      exact ⟨j, by rwa [← hpendA], bne_iff_ne.mp hne⟩
  obtain ⟨hpend, hup⟩ := @commit_both multi A (by rw [hpendA]; exact hlt)
  have hdone : (wifiDone multi l).cfg = A.cfg ∧
      (wifiDone multi l).up = ((A.commit multi 0).commit multi 1).up ∧
      (wifiDone multi l).pending = ((A.commit multi 0).commit multi 1).pending := by
    unfold wifiDone
    rw [hA]
    dsimp only
    rw [commit_of_pos hcnt, commit_of_pos hcntac]
    split <;> exact ⟨rfl, rfl, rfl⟩
  obtain ⟨hcfg, hup', hpend'⟩ := hdone
  have hcfgA : A.cfg = writeWifiMask l.st.cfg l.wifienablemask := by rw [← hA]
  rw [hcfgA] at hcfg
  have hread : readWifiMask (wifiDone multi l).cfg = l.wifienablemask := by
    rw [hcfg, readWifiMask_write _ hmask]
  have hkeep : ∀ p name, name ≠ wifiEnableMaskName →
      (wifiDone multi l).cfg p name = l.st.cfg p name :=
    fun p name hname => by
      rw [hcfg]
      exact setAttr_of_ne (.inr hname)
  refine ⟨⟨?_, ?_, ?_, ?_⟩, ?_, ?_, ?_⟩
  · intro i hi
    rw [hkeep _ _ (by decide), h.other _ _ (by decide)]
    exact hst.radio i hi
  · intro i hi
    unfold WifiState.enableText
    rw [hkeep _ _ (by decide)]
    have hssid : l.st.cfg (ssidNode multi i) enableSSIDName = _ := h.ssid i hi
    rw [hssid]
    split
    · exact .inr rfl
    · exact hst.ssid i hi
  · rw [hread]
    exact hmask
  · rw [hpend', hpend]
  · intro i hi
    unfold WifiState.bit
    rw [hread, h.bits i (by omega), if_pos hi]
    rfl
  · intro i hi
    have hupA : A.up i = l.st.up i := by rw [← hA]
    rw [hup', hup i, hpendA, hupA, h.up i, decide_eq_true hi, Bool.true_and]
    congr 1
    rw [Bool.eq_iff_iff, decide_eq_true_iff, h.pending i, Bool.and_eq_true, Bool.not_eq_true']
    exact ⟨fun hp => hp.2, fun hp => ⟨hi, hp⟩⟩
  · intro p name hname hname'
    rw [hkeep p name hname', h.other p name hname]

/-- `doWifiTimerEvent` with arguments that it accepts. -/
theorem doWifiTimerEvent_spec (hst : Ready multi st) (enable : Str) {ssidmask : Int} (optflag : Int)
    (h0 : 0 ≤ ssidmask) (hle : ssidmask ≤ wlanBitmask multi) :
    CallDone multi st enable ssidmask.toNat optflag
      (doWifiTimerEvent multi (some enable) ssidmask optflag st).2 := by
  unfold doWifiTimerEvent
  dsimp only
  rw [if_neg (by omega)]
  exact wifiDone_spec hst (loopInv_range hst _ (Nat.le_refl _))

/-- If the mask was right, it is right after the call unless an SSID was marked and then skipped. -/
theorem CallDone.maskRight_iff {st' : WifiState} (h : CallDone multi st enable ssidmask optflag st')
    (hright : MaskRight multi st) : MaskRight multi st' ↔ ∀ i < ssidNum multi,
      ¬ (turnsOn st enable ssidmask i = true ∧ skips multi st optflag i = true) := by
  refine forall_congr' fun i => forall_congr' fun hi => ?_
  rw [h.bits i hi, h.up i hi, ← hright i hi]
  cases hon : turnsOn st enable ssidmask i with
  | false => simp
  | true =>
    have hbit : st.bit i = false := by
      unfold turnsOn at hon
      rw [Bool.and_eq_true, Bool.not_eq_true'] at hon
      exact hon.2
    rw [off_of_on hon, hbit]
    cases skips multi st optflag i <;> simp

/-- An interface that the call brings up is not one that it skips. -/
theorem CallDone.not_skips {st' : WifiState} (h : CallDone multi st enable ssidmask optflag st')
    {i : Nat} (hi : i < ssidNum multi) (hdown : st.up i = false) (hup : st'.up i = true) :
    skips multi st optflag i = false := by
  rw [h.up i hi, hdown, Bool.false_and, Bool.false_or, Bool.and_eq_true, Bool.not_eq_true'] at hup
  exact hup.2

theorem wlanBitmask_testBit {i : Nat} (hi : i < ssidNum multi) :
    (wlanBitmask multi).toNat.testBit i = true := by
  have hmask : (wlanBitmask multi).toNat = 2 ^ ssidNum multi - 1 := by cases multi <;> rfl
  rw [hmask, Nat.testBit_two_pow_sub_one, decide_eq_true hi]

theorem readWifiMask_congr {cfg cfg' : Conf}
    (h : cfg timerCommonNode wifiEnableMaskName = cfg' timerCommonNode wifiEnableMaskName) :
    readWifiMask cfg = readWifiMask cfg' := by
  unfold readWifiMask
  rw [h]

/-- Other attributes do not matter. -/
theorem Ready.congr {cfg : Conf} (h : Ready multi st)
    (hcfg : ∀ p name, name ≠ sleepStatusName → name ≠ hgwSleepName → cfg p name = st.cfg p name) :
    Ready multi { st with cfg := cfg } where
  radio := by
    intro i hi
    show strcasecmpEq (attrText (cfg _ isExistName) 8 []) _ = true
    rw [hcfg _ _ (by decide) (by decide)]
    exact h.radio i hi
  ssid := by
    intro i hi
    show cfg _ enableSSIDName = _ ∨ cfg _ enableSSIDName = _
    rw [hcfg _ _ (by decide) (by decide)]
    exact h.ssid i hi
  mask := by
    show (readWifiMask cfg).toNat < 65536
    rw [readWifiMask_congr (hcfg _ _ (by decide) (by decide))]
    exact h.mask
  pending := h.pending

theorem bit_congr {cfg : Conf} (hcfg : ∀ p name, name ≠ sleepStatusName → name ≠ hgwSleepName →
    cfg p name = st.cfg p name) (i : Nat) :
    ({ st with cfg := cfg } : WifiState).bit i = st.bit i := by
  unfold WifiState.bit
  rw [readWifiMask_congr (hcfg _ _ (by decide) (by decide))]

/-- The attributes that `doSleepTimerEvent` sets itself. -/
theorem sleepCfg_congr (cfg : Conf) (before after val : String) (p name : Str)
    (hname : name ≠ sleepStatusName) (hname' : name ≠ hgwSleepName) :
    setAttr (switchStorage cfg before after) timerCommonNode hgwSleepName val.toList p name =
    cfg p name := by
  rw [setAttr_of_ne (.inr hname')]
  unfold switchStorage
  split
  · exact setAttr_of_ne (.inr hname)
  · rfl

/-- **One call.** -/
theorem timerStep_spec (hst : Ready multi st) (c : TimerCall) :
    Ready multi (timerStep multi st c) ∧ WakeRight multi st c ∧
      (MaskRight multi st → (MaskRight multi (timerStep multi st c) ↔ MaskCond multi st c)) := by
  cases c with
  | wifi enable ssidmask optflag =>
    refine ⟨?_, fun hwake => hwake.elim, ?_⟩
    · cases enable with
      | none => exact hst
      | some enable =>
        by_cases hmask : ssidmask < 0 ∨ wlanBitmask multi < ssidmask
        · show Ready multi (doWifiTimerEvent multi (some enable) ssidmask optflag st).2
          unfold doWifiTimerEvent
          dsimp only
          rw [if_pos hmask]
          exact hst
        · exact (doWifiTimerEvent_spec hst enable optflag (by omega) (by omega)).ready
    · intro hright
      cases enable with
      | none => exact iff_of_true hright trivial
      | some enable =>
        by_cases hmask : ssidmask < 0 ∨ wlanBitmask multi < ssidmask
        · have hsame : (timerStep multi st (.wifi (some enable) ssidmask optflag)) = st := by
            show (doWifiTimerEvent multi (some enable) ssidmask optflag st).2 = st
            unfold doWifiTimerEvent
            dsimp only
            rw [if_pos hmask]
          rw [hsame]
          refine iff_of_true hright fun h0 hle => ?_
          omega
        · have hdone := doWifiTimerEvent_spec hst enable optflag (show 0 ≤ ssidmask by omega)
            (by omega)
          refine (hdone.maskRight_iff hright).trans ?_
          have hmarks : ∀ i, MarksOnly multi st enable ssidmask optflag i ↔
              turnsOn st enable ssidmask.toNat i = true ∧ skips multi st optflag i = true := by
            intro i
            unfold turnsOn skips
            simp only [Bool.and_eq_true, Bool.not_eq_true', decide_eq_true_eq]
            exact ⟨fun h => ⟨⟨⟨h.named, h.on⟩, h.clear⟩, h.disabled, h.flag⟩,
              fun h => ⟨h.1.1.1, h.1.1.2, h.1.2, h.2.1, h.2.2⟩⟩
          constructor
          · intro h _ _ i hi hm
            exact h i hi ((hmarks i).mp hm)
          · intro h i hi hm
            exact h (by omega) (by omega) i hi ((hmarks i).mpr hm)
  | sleep enable =>
    have hpos : (0 : Int) ≤ wlanBitmask multi := by cases multi <;> decide
    by_cases hwake : strcasecmpEq enable "False".toList = true ∧ hgwSleepVal st.cfg = "0".toList
    · -- waking up: all SSIDs, with the flag
      have hdone := doWifiTimerEvent_spec hst "True".toList 1 hpos (Int.le_refl _)
      generalize hst' : (doWifiTimerEvent multi (some "True".toList) (wlanBitmask multi) 1 st).2 = st'
        at hdone
      have hcfg := sleepCfg_congr st'.cfg "1" "0" "1"
      have hstep : timerStep multi st (.sleep enable) = { st' with
          cfg := setAttr (switchStorage st'.cfg "1" "0") timerCommonNode hgwSleepName "1".toList } := by
        show (doSleepTimerEvent multi enable st).2 = _
        unfold doSleepTimerEvent
        rw [if_pos hwake]
        dsimp only
        rw [hst']
      have hon : ∀ i < ssidNum multi, turnsOn st "True".toList (wlanBitmask multi).toNat i =
        !st.bit i := by
        intro i hi
        unfold turnsOn
        rw [wlanBitmask_testBit hi, show strcasecmpEq "True".toList "True".toList = true from rfl]
        rfl
      rw [hstep]
      refine ⟨hdone.ready.congr hcfg, ?_, fun hright => ?_⟩
      · intro _ i hi hdown hup
        rw [hstep] at hup
        have hskip := hdone.not_skips hi hdown hup
        intro htext
        unfold skips at hskip
        simp [htext] at hskip
      · have hsame : MaskRight multi { st' with
            cfg := setAttr (switchStorage st'.cfg "1" "0") timerCommonNode hgwSleepName "1".toList } ↔
            MaskRight multi st' :=
          forall_congr' fun i => forall_congr' fun _ => by rw [bit_congr hcfg]
        rw [hsame, hdone.maskRight_iff hright]
        constructor
        · intro h _ i hi hm
          refine h i hi ⟨?_, ?_⟩
          · rw [hon i hi, hm.2]
            rfl
          · unfold skips
            rw [decide_eq_true hm.1]
            rfl
        · intro h i hi hm
          refine h hwake i hi ⟨?_, ?_⟩
          · have hskip := hm.2
            unfold skips at hskip
            simpa using hskip
          · have hbit := hm.1
            rw [hon i hi] at hbit
            simpa using hbit
    · have hnowake : ¬ wakesUp st (.sleep enable) := hwake
      refine ⟨?_, fun h => absurd h hnowake, fun hright => ?_⟩
      · show Ready multi (doSleepTimerEvent multi enable st).2
        unfold doSleepTimerEvent
        rw [if_neg hwake]
        split
        · exact (doWifiTimerEvent_spec hst "False".toList 0 hpos (Int.le_refl _)).ready.congr
            (sleepCfg_congr _ "0" "1" "0")
        · exact hst
      · refine iff_of_true ?_ fun h => absurd h hnowake
        show MaskRight multi (doSleepTimerEvent multi enable st).2
        unfold doSleepTimerEvent
        rw [if_neg hwake]
        split
        · -- going to sleep sets no bit
          have hdone := doWifiTimerEvent_spec hst "False".toList 0 hpos (Int.le_refl _)
          have hright' := (hdone.maskRight_iff hright).mpr fun i hi hm => by
            have hskip := hm.2
            unfold skips at hskip
            simp at hskip
          intro i hi
          rw [bit_congr (sleepCfg_congr _ "0" "1" "0")]
          exact hright' i hi
        · exact hright

/-! ## Runs -/

/-- The bits that `init_wifi_enable_mask` has set when its loop has come to `k`. -/
theorem initMask_bits (h : WifiStart multi st) : ∀ k, k ≤ ssidNum multi → ∀ j < 32,
    ((List.range k).foldl (initMaskStep multi st.cfg) 0).getLsbD j =
      (decide (j < k) && decide (st.enableText multi j = some "1".toList))
  | 0, _, j, _ => by simp
  | k + 1, hk, j, hj => by
    have h16 := ssidNum_le multi
    have ih := initMask_bits h k (Nat.le_of_succ_le hk) j hj
    have hlt : j < k + 1 ↔ j < k ∨ j = k := by omega
    have htext : attrText (st.cfg (ssidNode multi k) enableSSIDName) 4 [] = "1".toList ↔
        st.enableText multi k = some "1".toList :=
      attrText_nil_eq_iff (by decide) (by decide)
    rw [List.range_succ, List.foldl_append, List.foldl_cons, List.foldl_nil]
    generalize (List.range k).foldl (initMaskStep multi st.cfg) 0 = mask at ih ⊢
    unfold initMaskStep
    by_cases hone : st.enableText multi k = some "1".toList
    · rw [if_pos (htext.mpr hone)]
      unfold setBit
      rw [getLsbD_set _ (by omega), ih]
      by_cases hjk : j = k
      · subst hjk
        simp [hone]
      · simp [hlt, hjk, Ne.symm hjk]
    · rw [if_neg fun h => hone (htext.mp h), ih]
      by_cases hjk : j = k
      · subst hjk
        rw [decide_eq_false hone, Bool.and_false, Bool.and_false]
      · simp [hlt, hjk]

/-- **After `init_wifi_enable_mask` the mask is right.** -/
theorem initWifiEnableMask_spec (h : WifiStart multi st) :
    Ready multi (initWifiEnableMask multi st) ∧ MaskRight multi (initWifiEnableMask multi st) := by
  have h16 := ssidNum_le multi
  have hbits := initMask_bits h (ssidNum multi) (Nat.le_refl _)
  have hkeep : ∀ p name, name ≠ wifiEnableMaskName →
      (initWifiEnableMask multi st).cfg p name = st.cfg p name := fun p name hname =>
    setAttr_of_ne (.inr hname)
  have hmask : ((List.range (ssidNum multi)).foldl (initMaskStep multi st.cfg) 0).toNat < 65536 := by
    refine toNat_lt_of_bits fun j hj hj16 => ?_
    rw [hbits j hj, decide_eq_false (by omega), Bool.false_and]
  have hread : readWifiMask (initWifiEnableMask multi st).cfg =
      (List.range (ssidNum multi)).foldl (initMaskStep multi st.cfg) 0 :=
    readWifiMask_write st.cfg hmask
  refine ⟨⟨?_, ?_, ?_, h.pending⟩, ?_⟩
  · intro i hi
    rw [hkeep _ _ (by decide)]
    exact h.radio i hi
  · intro i hi
    unfold WifiState.enableText
    rw [hkeep _ _ (by decide)]
    exact h.ssid i hi
  · rw [hread]
    exact hmask
  · intro i hi
    unfold WifiState.bit
    rw [hread, hbits i (by omega), decide_eq_true hi, Bool.true_and]
    exact (h.up i hi).symm

/-- The mask is right in every state of the run, and no call of it that wakes the gateway up brings
a disabled SSID up. -/
def WifiMaskOk (multi : Bool) (st : WifiState) (calls : List TimerCall) : Prop :=
  (∀ pre, pre <+: calls → MaskRight multi (pre.foldl (timerStep multi) st)) ∧
    ∀ pre c, pre ++ [c] <+: calls → WakeRight multi (pre.foldl (timerStep multi) st) c

/-- **The mask agrees with the interfaces in every run in which no SSID is marked that is skipped,
and in no other one.** -/
theorem wifiMask_iff (h : WifiStart multi st) (calls : List TimerCall) :
    WifiMaskOk multi (initWifiEnableMask multi st) calls ↔
      RunOk (timerStep multi) (MaskCond multi) (initWifiEnableMask multi st) calls := by
  obtain ⟨hready, hright⟩ := initWifiEnableMask_spec h
  have hreadyAt : ∀ pre : List TimerCall,
      Ready multi (pre.foldl (timerStep multi) (initWifiEnableMask multi st)) := by
    intro pre
    induction pre using List.reverseRecOn with
    | nil => exact hready
    | append_singleton pre c ih =>
      rw [List.foldl_append]
      exact (timerStep_spec ih c).1
  constructor
  · rintro ⟨hmask, -⟩
    refine RunOk.iff_prefix.mpr fun pre c hp => ?_
    have hbefore := hmask pre (List.IsPrefix.trans ⟨[c], rfl⟩ hp)
    have hafter := hmask (pre ++ [c]) hp
    rw [List.foldl_append] at hafter
    exact ((timerStep_spec (hreadyAt pre) c).2.2 hbefore).mp hafter
  · intro hrun
    refine ⟨fun pre hp => ?_, fun pre c _ => (timerStep_spec (hreadyAt pre) c).2.1⟩
    -- being ready and having the right mask go together from call to call
    refine (@RunOk.inv_prefix _ _ _ _ (fun s => Ready multi s ∧ MaskRight multi s)
      (fun s c hs hc => ?_) _ _ hrun ⟨hready, hright⟩ _ hp).2
    obtain ⟨hr, -, hm⟩ := timerStep_spec hs.1 c
    exact ⟨hr, (hm hs.2).mpr hc⟩

/-- A gateway with both radios; all SSIDs are enabled. -/
def allSsids : WifiState where
  cfg := fun _ name =>
    if name = isExistName then some "on".toList
    else if name = enableSSIDName then some "1".toList
    else if name = hgwSleepName then some "1".toList
    else none
  up := fun _ => true
  pending := []
  saves := 0

theorem wifiStart_allSsids : WifiStart false allSsids where
  radio := fun _ _ => rfl
  ssid := fun _ _ => .inr rfl
  up := fun _ _ => rfl
  pending := rfl

/-- The gateway sleeps and wakes up, and the first SSID is switched off. -/
def sleepAndWake : List TimerCall :=
  [.sleep "True".toList, .sleep "False".toList, .wifi (some "False".toList) 1 0]

/-- The interfaces go down and up again with their bits. -/
theorem wifiMask_allSsids :
    WifiMaskOk false (initWifiEnableMask false allSsids) sleepAndWake ∧
      ((sleepAndWake.take 1).foldl (timerStep false) (initWifiEnableMask false allSsids)).up 3 =
        false ∧
      ((sleepAndWake.take 2).foldl (timerStep false) (initWifiEnableMask false allSsids)).up 3 =
        true := by
  refine ⟨(wifiMask_iff wifiStart_allSsids _).mpr ⟨?_, ?_, ?_, trivial⟩, by decide +kernel,
    by decide +kernel⟩
  · exact fun hwakes => absurd hwakes.1 (by decide)
  · intro _ i hi hmarks
    have henabled : ∀ i < ssidNum false,
        (timerStep false (initWifiEnableMask false allSsids)
          (.sleep "True".toList)).enableText false i ≠ some "0".toList := by
      decide +kernel
    exact henabled i hi hmarks.1
  · intro _ _ i _ hmarks
    exact absurd hmarks.on (by decide)

/-- A gateway with both radios; only the first SSID is enabled. -/
def oneSsid : WifiState where
  cfg := fun p name =>
    if name = isExistName then some "on".toList
    else if name = enableSSIDName then
      if p = ssidNode false 0 then some "1".toList else some "0".toList
    else if name = hgwSleepName then some "1".toList
    else none
  up := fun i => i == 0
  pending := []
  saves := 0

theorem wifiStart_oneSsid : WifiStart false oneSsid where
  radio := fun _ _ => rfl
  ssid := by
    intro i _
    show (if _ then some "1".toList else some "0".toList) = _ ∨
      (if _ then some "1".toList else some "0".toList) = _
    split
    · exact .inr rfl
    · exact .inl rfl
  up := by
    intro i hi
    show (i == 0) = decide ((if ssidNode false i = ssidNode false 0 then some "1".toList
      else some "0".toList) = some "1".toList)
    by_cases h0 : i = 0
    · subst h0
      rfl
    · rw [if_neg fun heq => h0 (ssidNode_inj hi (by decide) heq)]
      simp [h0]
  pending := rfl

/-- After a night's sleep the bits of the disabled SSIDs are set. -/
theorem not_wifiMaskOk : ¬ ∀ (multi : Bool) (st : WifiState) (calls : List TimerCall),
    WifiStart multi st → WifiMaskOk multi (initWifiEnableMask multi st) calls := by
  intro h
  have hok := (h false oneSsid [.sleep "True".toList, .sleep "False".toList] wifiStart_oneSsid).1
    [.sleep "True".toList, .sleep "False".toList] (List.prefix_refl _)
  exact absurd (hok 1 (by decide)) (by decide +kernel)

end OnuFirmware.Central
