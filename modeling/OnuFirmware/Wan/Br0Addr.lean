import OnuFirmware.Cfg.ReadAttr
import OnuFirmware.Clib.Inet
import OnuFirmware.Wan.Entry

/-!
# The address of the bridge from a static prefix (`pd_info.c`)

A WAN with a static prefix gives the bridge `br0` an address: the prefix, and behind it the
interface id of the bridge. `update_br0_pdaddress` sets it when the WAN gets its IPv6 address and
takes it away when the WAN loses it; `Br0Addr` of the WAN entry is the record of the address that is
set.

The configured text of prefix and length is taken apart with `strtok`, which writes into the stored
configuration of the WAN, so what the next event reads is not what was configured.
-/

namespace OnuFirmware.Wan

open Lib Clib Cfg

/-- The loop of `create_br0_v6addr`: the bytes from `k` on are those of the interface id. -/
def mergeIfid (pd ifid : InAddr 16) (k : Nat) : InAddr 16 :=
  ⟨pd.val.take k ++ ifid.val.drop k, by
    rw [List.length_append, List.length_take, List.length_drop, pd.property, ifid.property]
    omega⟩

/-- `create_br0_v6addr`, where `ifid` is what `get_br0_v6addr` gives; `none` is the return value
-1. -/
def createBr0V6addr (ifid : InAddr 16) (pd : Str) (pdLen : Int) : Option Str :=
  if pdLen < 16 then none
  else (inetPton6 pd).map fun a => inetNtop6 (mergeIfid a ifid (pdLen / 8).toNat)

/-- The events of `update_pd_info`. -/
inductive PdEvent
  | getv6
  | lostv6
deriving Repr, DecidableEq

/-- The configuration of a WAN that the WAN service keeps, the attribute `Br0Addr` of its entry and
the commands that were executed. -/
structure Br0Wan where
  cfg : WanEntryCfg
  br0Addr : Option Str
  cmds : List Str

/-- A first call of `strtok(s, "/")`: the token, what is left for the next call, and the text that
is left in the place of `s`. -/
def strtokStart (s : Str) : Option Str × Str × Str :=
  let body := s.dropWhile (· == '/')
  let tok := body.takeWhile (· != '/')
  if body = [] then (none, [], s)
  else (some tok, body.drop (tok.length + 1), s.takeWhile (· == '/') ++ tok)

/-- The next call, `strtok(NULL, "/")`. -/
def strtokNext (rest : Str) : Option Str :=
  let body := rest.dropWhile (· == '/')
  if body = [] then none else some (body.takeWhile (· != '/'))

/-- The part of `update_br0_pdaddress` that takes the old address away. -/
def delBr0Addr (w : Br0Wan) : Br0Wan :=
  let got := cfgGetObjectAttr w.br0Addr [] 64
  if 0 < got.1 ∧ got.2 ≠ "N/A".toList then
    { w with
      br0Addr := some "N/A".toList
      cmds := w.cmds ++ ["/sbin/ifconfig br0 del ".toList ++ got.2] }
  else w

/-- The WAN gives the bridge an address from a static prefix. -/
def staticPdWan (cmccv2 : Bool) (cfg : WanEntryCfg) : Bool :=
  cfg.isRoute && cfg.isIpv6 && !cfg.dhcpv6pdEnable && cfg.pdorigin == "Static".toList &&
    (cfg.srvInternet || cfg.srvOther || cmccv2 && (cfg.srvIptv || cfg.srvOtt))

/-- The part of `update_br0_pdaddress` that sets the address. -/
def addBr0Addr (ifid : InAddr 16) (w : Br0Wan) : Br0Wan :=
  if w.cfg.pdaddr = [] then w
  else
    let (pos, rest, left) := strtokStart w.cfg.pdaddr
    let w := { w with cfg := { w.cfg with pdaddr := left } }
    match pos with
    | none => w
    | some pos =>
      let prefixText := snprintf 63 pos
      let lenText := ((strtokNext rest).map (snprintf 11)).getD []
      if prefixText ≠ [] ∧ lenText ≠ [] then
        match createBr0V6addr ifid prefixText (atoi lenText) with
        | none => w
        | some v6addr =>
          let ipv6Br0 := snprintf 63 (v6addr ++ '/' :: lenText)
          { w with
            br0Addr := some ipv6Br0
            cmds := w.cmds ++ [snprintf 128 ("/sbin/ifconfig br0 ".toList ++ ipv6Br0)] }
      else w

/-- `update_br0_pdaddress` for a WAN that has an object. -/
def updateBr0Pdaddress (cmccv2 : Bool) (ifid : InAddr 16) (w : Br0Wan) (evt : PdEvent) : Br0Wan :=
  let w := delBr0Addr w
  if w.cfg.isActive && staticPdWan cmccv2 w.cfg && evt == .getv6 then addBr0Addr ifid w else w

/-- A sequence of events. -/
def runBr0 (cmccv2 : Bool) (ifid : InAddr 16) (w : Br0Wan) (evts : List PdEvent) : Br0Wan :=
  evts.foldl (updateBr0Pdaddress cmccv2 ifid) w

/-! ## What the address should be -/

/-- A prefix with its length, as configured. -/
structure StaticPd where
  text : Str
  pd : InAddr 16
  valid : inetPton6 text = some pd
  len : Nat
  lower : 16 ≤ len
  upper : len ≤ 128

/-- The text of prefix and length. -/
def StaticPd.pdaddr (s : StaticPd) : Str := s.text ++ '/' :: fmtNat s.len

/-- The address has the first bits of the prefix, and the others of the interface id. -/
def IsBr0Addr (s : StaticPd) (ifid a : InAddr 16) : Prop :=
  ∀ i < 128, bitAt a.val i = if i < s.len then bitAt s.pd.val i else bitAt ifid.val i

/-- The result is the text of the address. -/
def CreateRight (s : StaticPd) (ifid : InAddr 16) (r : Option Str) : Prop :=
  ∃ t a, r = some t ∧ inetPton6 t = some a ∧ IsBr0Addr s ifid a

/-- Behind the last whole byte of the prefix, the prefix has the bits of the interface id. -/
def CreateCond (s : StaticPd) (ifid : InAddr 16) : Prop :=
  ∀ i < s.len, 8 * (s.len / 8) ≤ i → bitAt s.pd.val i = bitAt ifid.val i

/-- The attribute is the address with its length after the WAN has got its own one, and `N/A` after
it has lost it. -/
def Br0Right (s : StaticPd) (ifid : InAddr 16) : PdEvent → Option Str → Prop
  | .getv6, br0Addr => ∃ t, CreateRight s ifid (some t) ∧ br0Addr = some (t ++ '/' :: fmtNat s.len)
  | .lostv6, br0Addr => br0Addr = some "N/A".toList

/-- A WAN with a static prefix, before the events. -/
structure StaticWan (cmccv2 : Bool) (s : StaticPd) where
  wan : Br0Wan
  active : wan.cfg.isActive = true
  static : staticPdWan cmccv2 wan.cfg = true
  pdaddr : wan.cfg.pdaddr = s.pdaddr

/-- The condition on the events: the WAN gets its address at most once, and then the bits are right;
and if it loses it first of all, the attribute has a text. -/
structure EventCond (s : StaticPd) (ifid : InAddr 16) (br0Addr : Option Str)
    (evts : List PdEvent) : Prop where
  once : evts.count .getv6 ≤ 1
  bits : .getv6 ∈ evts → CreateCond s ifid
  first : evts.head? = some .lostv6 → ∃ v, br0Addr = some v ∧ v ≠ []

/-! ## The address -/

theorem StaticPd.slash_notMem (s : StaticPd) : '/' ∉ s.text := fun h =>
  absurd ((inetPton6_some s.valid).2 _ h) (by decide)

theorem StaticPd.text_ne_nil (s : StaticPd) : s.text ≠ [] := by
  intro h
  have hv := s.valid
  rw [h] at hv
  exact absurd hv (by simp [show inetPton6 [] = none from rfl])

/-- The text that `create_br0_v6addr` gives for the prefix. -/
def br0Text (s : StaticPd) (ifid : InAddr 16) : Str := inetNtop6 (mergeIfid s.pd ifid (s.len / 8))

theorem createBr0V6addr_eq (s : StaticPd) (ifid : InAddr 16) :
    createBr0V6addr ifid s.text s.len = some (br0Text s ifid) := by
  have hlow := s.lower
  have hdiv : ((s.len : Int) / 8).toNat = s.len / 8 := by omega
  rw [createBr0V6addr, if_neg (by omega), s.valid, hdiv]
  rfl

theorem bitAt_mergeIfid (s : StaticPd) (ifid : InAddr 16) (i : Nat) :
    bitAt (mergeIfid s.pd ifid (s.len / 8)).val i =
      if i / 8 < s.len / 8 then bitAt s.pd.val i else bitAt ifid.val i := by
  have hup := s.upper
  exact bitAt_take_append_drop (by rw [s.pd.property]; omega) i

/-- **The address is right exactly if the bits of the prefix behind its last whole byte are those of
the interface id.** -/
theorem createBr0V6addr_right_iff (s : StaticPd) (ifid : InAddr 16) :
    CreateRight s ifid (createBr0V6addr ifid s.text s.len) ↔ CreateCond s ifid := by
  have hup := s.upper
  rw [createBr0V6addr_eq]
  constructor
  · rintro ⟨t, a, ht, ha, hbits⟩ i hi hle
    obtain rfl := Option.some.inj ht
    rw [br0Text, inetPton6_inetNtop6] at ha
    have hbit := hbits i (by omega)
    rw [← Option.some.inj ha, bitAt_mergeIfid, if_pos hi, if_neg (by omega)] at hbit
    exact hbit.symm
  · intro h
    refine ⟨_, _, rfl, inetPton6_inetNtop6 _, fun i _ => ?_⟩
    rw [bitAt_mergeIfid]
    by_cases hi : i < s.len
    · rw [if_pos hi]
      split
      · rfl
      · exact (h i hi (by omega)).symm
    · rw [if_neg hi, if_neg (by omega)]

/-! ## Taking the text apart -/

theorem strtokStart_of_notMem {s : Str} (hs : s ≠ []) (h : '/' ∉ s) :
    strtokStart s = (some s, [], s) := by
  obtain ⟨c, t, rfl⟩ := List.exists_cons_of_ne_nil hs
  have hc : c ≠ '/' := fun he => h (he ▸ List.mem_cons_self)
  have htake : (c :: t).takeWhile (· != '/') = c :: t := by
    refine takeWhile_all fun d hd => ?_
    simpa using fun he : d = '/' => h (he ▸ hd)
  rw [strtokStart, List.dropWhile_cons_of_neg (by simpa using hc), htake,
    List.takeWhile_cons_of_neg (by simpa using hc), if_neg (List.cons_ne_nil c t)]
  simp

theorem strtokStart_slash {s : Str} (hs : s ≠ []) (h : '/' ∉ s) (r : Str) :
    strtokStart (s ++ '/' :: r) = (some s, r, s) := by
  obtain ⟨c, t, rfl⟩ := List.exists_cons_of_ne_nil hs
  have hc : c ≠ '/' := fun he => h (he ▸ List.mem_cons_self)
  have htake : (c :: t ++ '/' :: r).takeWhile (· != '/') = c :: t := by
    refine takeWhile_run (fun d hd => ?_) (by simp)
    simpa using fun he : d = '/' => h (he ▸ hd)
  have hdrop : (c :: (t ++ '/' :: r)).dropWhile (· == '/') = c :: t ++ '/' :: r :=
    List.dropWhile_cons_of_neg (by simpa using hc)
  rw [strtokStart, List.cons_append, hdrop, htake, List.takeWhile_cons_of_neg (by simpa using hc),
    if_neg (by simp)]
  simp

theorem strtokNext_fmtNat (n : Nat) : strtokNext (fmtNat n) = some (fmtNat n) := by
  have hslash : ∀ c ∈ fmtNat n, c ≠ '/' := fun c hc he =>
    absurd (isDigit_of_mem_fmtNat hc) (by rw [he]; decide)
  obtain ⟨c, t, hn, -⟩ := fmtNat_cons n
  have hdrop : (fmtNat n).dropWhile (· == '/') = fmtNat n := by
    have hc := hslash c (by rw [hn]; exact List.mem_cons_self)
    rw [hn, List.dropWhile_cons_of_neg (by simpa using hc)]
  have htake : (fmtNat n).takeWhile (· != '/') = fmtNat n :=
    takeWhile_all fun d hd => by simpa using hslash d hd
  rw [strtokNext, hdrop, htake, if_neg (fmtNat_ne_nil n)]

/-- The configured text is there: the address is set, and the text of the prefix is left. -/
theorem addBr0Addr_fresh (s : StaticPd) (ifid : InAddr 16) {w : Br0Wan}
    (h : w.cfg.pdaddr = s.pdaddr) :
    (addBr0Addr ifid w).br0Addr = some (br0Text s ifid ++ '/' :: fmtNat s.len) ∧
      (addBr0Addr ifid w).cfg = { w.cfg with pdaddr := s.text } := by
  have hup := s.upper
  have htext := (inetPton6_some s.valid).1
  have hout : (br0Text s ifid).length ≤ 51 := (inetPton6_some (inetPton6_inetNtop6 _)).1
  have hnum : (fmtNat s.len).length ≤ 3 := (length_fmtNat_le (by decide)).mpr (by omega)
  have hne : w.cfg.pdaddr ≠ [] := by rw [h]; simp [StaticPd.pdaddr]
  have hstart := strtokStart_slash s.text_ne_nil s.slash_notMem (fmtNat s.len)
  rw [addBr0Addr, if_neg hne, h, StaticPd.pdaddr, hstart]
  simp only [strtokNext_fmtNat, Option.map_some, Option.getD_some]
  rw [snprintf_eq (by omega : _ < 63), snprintf_eq (by omega : _ < 11),
    if_pos ⟨s.text_ne_nil, fmtNat_ne_nil _⟩, atoi_fmtNat (by rw [intMax]; omega),
    createBr0V6addr_eq]
  refine ⟨?_, rfl⟩
  show some (snprintf 63 _) = _
  rw [snprintf_eq]
  rw [List.length_append, List.length_cons]
  omega

/-- Only the text of the prefix is left: nothing happens. -/
theorem addBr0Addr_spent (s : StaticPd) (ifid : InAddr 16) {w : Br0Wan}
    (h : w.cfg.pdaddr = s.text) :
    (addBr0Addr ifid w).br0Addr = w.br0Addr ∧ (addBr0Addr ifid w).cfg = w.cfg := by
  have hne : w.cfg.pdaddr ≠ [] := by rw [h]; exact s.text_ne_nil
  rw [addBr0Addr, if_neg hne, h, strtokStart_of_notMem s.text_ne_nil s.slash_notMem]
  have hnext : strtokNext [] = none := rfl
  simp only [hnext, Option.map_none, Option.getD_none, ne_eq, not_true_eq_false, and_false,
    if_false]
  exact ⟨trivial, by rw [← h]⟩

/-! ## One event -/

/-- The attribute after the old address was taken away. -/
def delText (br0Addr : Option Str) : Option Str :=
  if br0Addr.getD [] = [] then br0Addr else some "N/A".toList

theorem delBr0Addr_eq (w : Br0Wan) :
    (delBr0Addr w).br0Addr = delText w.br0Addr ∧ (delBr0Addr w).cfg = w.cfg := by
  rw [delBr0Addr, delText]
  cases hv : w.br0Addr with
  | none => exact ⟨by simp [hv], by simp⟩
  | some v =>
    by_cases hnil : v = []
    · subst hnil
      simp [hv, snprintf]
    · have hpos : 0 < (cfgGetObjectAttr (some v) [] 64).1 := by
        rw [cfgGetObjectAttr_pos]
        simpa [attrText, snprintf] using hnil
      have hna :
          (cfgGetObjectAttr (some v) [] 64).2 = "N/A".toList ↔ some v = some "N/A".toList := by
        rw [cfgGetObjectAttr_snd]
        exact attrText_nil_eq_iff (by decide) (by decide)
      by_cases heq : v = "N/A".toList
      · subst heq
        rw [if_neg fun hc => hc.2 (hna.mpr rfl), Option.getD_some, if_neg hnil]
        exact ⟨hv, rfl⟩
      · have hcond : 0 < (cfgGetObjectAttr (some v) [] 64).1 ∧
            (cfgGetObjectAttr (some v) [] 64).2 ≠ "N/A".toList :=
          ⟨hpos, fun he => heq (Option.some.inj (hna.mp he))⟩
        simp only [if_pos hcond, Option.getD_some, if_neg hnil, and_self]

/-- What holds of the WAN between two events; `fresh` says that its stored text is the configured
one. -/
structure Between (cmccv2 : Bool) (s : StaticPd) (fresh : Bool) (w : Br0Wan) : Prop where
  active : w.cfg.isActive = true
  static : staticPdWan cmccv2 w.cfg = true
  pdaddr : w.cfg.pdaddr = if fresh then s.pdaddr else s.text

/-- **What one event does.** -/
theorem updateBr0Pdaddress_step {cmccv2 : Bool} {s : StaticPd} {fresh : Bool} {w : Br0Wan}
    (ifid : InAddr 16) (evt : PdEvent) (h : Between cmccv2 s fresh w) :
    Between cmccv2 s (fresh && evt != .getv6) (updateBr0Pdaddress cmccv2 ifid w evt) ∧
      (updateBr0Pdaddress cmccv2 ifid w evt).br0Addr =
        if evt = .getv6 ∧ fresh = true then some (br0Text s ifid ++ '/' :: fmtNat s.len)
        else delText w.br0Addr := by
  obtain ⟨hdel, hcfg⟩ := delBr0Addr_eq w
  rw [updateBr0Pdaddress, hcfg, h.active, h.static]
  cases evt with
  | lostv6 =>
    refine ⟨⟨?_, ?_, ?_⟩, ?_⟩
    · exact hcfg ▸ h.active
    · exact hcfg ▸ h.static
    · show (delBr0Addr w).cfg.pdaddr = _
      rw [hcfg, h.pdaddr, show (fresh && PdEvent.lostv6 != PdEvent.getv6) = fresh by simp]
    · exact hdel
  | getv6 =>
    have hpd := h.pdaddr
    rw [← hcfg] at hpd
    cases fresh with
    | true =>
      obtain ⟨haddr, hadd⟩ := addBr0Addr_fresh s ifid hpd
      refine ⟨⟨?_, ?_, ?_⟩, haddr⟩
      · show (addBr0Addr ifid (delBr0Addr w)).cfg.isActive = true
        rw [hadd, hcfg]
        exact h.active
      · show staticPdWan cmccv2 (addBr0Addr ifid (delBr0Addr w)).cfg = true
        rw [hadd, hcfg]
        exact h.static
      · show (addBr0Addr ifid (delBr0Addr w)).cfg.pdaddr = s.text
        rw [hadd]
    | false =>
      obtain ⟨haddr, hadd⟩ := addBr0Addr_spent s ifid hpd
      refine ⟨⟨?_, ?_, ?_⟩, haddr.trans hdel⟩
      · show (addBr0Addr ifid (delBr0Addr w)).cfg.isActive = true
        rw [hadd, hcfg]
        exact h.active
      · show staticPdWan cmccv2 (addBr0Addr ifid (delBr0Addr w)).cfg = true
        rw [hadd, hcfg]
        exact h.static
      · show (addBr0Addr ifid (delBr0Addr w)).cfg.pdaddr = s.text
        rw [hadd]
        exact hpd

/-! ## Runs -/

section Run

variable {cmccv2 : Bool} {s : StaticPd} (x : StaticWan cmccv2 s) (ifid : InAddr 16)

theorem runBr0_concat (pre : List PdEvent) (evt : PdEvent) :
    runBr0 cmccv2 ifid x.wan (pre ++ [evt]) =
      updateBr0Pdaddress cmccv2 ifid (runBr0 cmccv2 ifid x.wan pre) evt := by
  rw [runBr0, List.foldl_append]
  rfl

/-- The stored text is the configured one until the WAN has got its address. -/
theorem runBr0_between (pre : List PdEvent) :
    Between cmccv2 s (!pre.contains .getv6) (runBr0 cmccv2 ifid x.wan pre) := by
  induction pre using List.reverseRecOn with
  | nil => exact ⟨x.active, x.static, x.pdaddr⟩
  | append_singleton pre evt ih =>
    have hstep := (updateBr0Pdaddress_step ifid evt ih).1
    rw [runBr0_concat]
    have hfresh : (!(pre ++ [evt]).contains .getv6) =
        (!pre.contains .getv6 && evt != .getv6) := by
      rw [List.contains_append, Bool.not_or]
      cases evt <;> rfl
    rwa [hfresh]

/-- The attribute after one more event. -/
theorem runBr0_br0Addr (pre : List PdEvent) (evt : PdEvent) :
    (runBr0 cmccv2 ifid x.wan (pre ++ [evt])).br0Addr =
      if evt = .getv6 ∧ .getv6 ∉ pre then some (br0Text s ifid ++ '/' :: fmtNat s.len)
      else delText (runBr0 cmccv2 ifid x.wan pre).br0Addr := by
  rw [runBr0_concat, (updateBr0Pdaddress_step ifid evt (runBr0_between x ifid pre)).2]
  simp

theorem delText_eq_na {v : Option Str} (h : delText v = some "N/A".toList) : v.getD [] ≠ [] := by
  intro hnil
  rw [delText, if_pos hnil] at h
  rw [h] at hnil
  exact absurd hnil (by decide)

theorem delText_of_text {v : Option Str} (h : v.getD [] ≠ []) : delText v = some "N/A".toList :=
  if_neg h

/-- `N/A` and an empty attribute are no addresses. -/
theorem not_br0Right_delText (v : Option Str) : ¬ Br0Right s ifid .getv6 (delText v) := by
  rintro ⟨t, ⟨t', a, heq, ha, -⟩, ht⟩
  obtain rfl := Option.some.inj heq
  rw [delText] at ht
  split at ht
  · next hnil =>
    rw [ht] at hnil
    simp at hnil
  · rcases t with _ | ⟨c, t⟩
    · exact absurd ha (by simp [show inetPton6 [] = none from rfl])
    · -- the first character of the address would be the one of `N/A`
      have hc := (inetPton6_some ha).2 c List.mem_cons_self
      have hN : 'N' = c := (List.cons.inj (Option.some.inj ht)).1
      rw [← hN] at hc
      exact absurd hc (by decide)

/-- After the first event the attribute has a text. -/
theorem runBr0_text {pre : List PdEvent} (hne : pre ≠ [])
    (hfirst : pre.head? = some .lostv6 → x.wan.br0Addr.getD [] ≠ []) :
    (runBr0 cmccv2 ifid x.wan pre).br0Addr.getD [] ≠ [] := by
  induction pre using List.reverseRecOn with
  | nil => exact absurd rfl hne
  | append_singleton pre evt ih =>
    rw [runBr0_br0Addr]
    split
    · simp
    · next hold =>
      have htext : (runBr0 cmccv2 ifid x.wan pre).br0Addr.getD [] ≠ [] := by
        rcases pre with _ | ⟨e, pre⟩
        · cases evt with
          | getv6 => exact absurd ⟨rfl, List.not_mem_nil⟩ hold
          | lostv6 => exact hfirst rfl
        · exact ih (by simp) hfirst
      rw [delText_of_text htext]
      decide

/-- **The attribute is right after every event exactly under the condition on the events.** -/
theorem runBr0_right_iff (evts : List PdEvent) :
    (∀ pre evt, pre ++ [evt] <+: evts →
      Br0Right s ifid evt (runBr0 cmccv2 ifid x.wan (pre ++ [evt])).br0Addr) ↔
      EventCond s ifid x.wan.br0Addr evts := by
  constructor
  · intro h
    refine ⟨?_, fun hmem => ?_, fun hhead => ?_⟩
    · by_contra hcount
      -- the second time that the WAN gets its address
      have hmem : PdEvent.getv6 ∈ evts := List.count_pos_iff.mp (by omega)
      obtain ⟨a, b, rfl, ha⟩ := List.eq_append_cons_of_mem hmem
      rw [List.count_append, List.count_cons_self, List.count_eq_zero_of_not_mem ha] at hcount
      obtain ⟨c, d, rfl, -⟩ := List.eq_append_cons_of_mem
        (List.count_pos_iff.mp (by omega : 0 < b.count .getv6))
      have hright := h (a ++ .getv6 :: c) .getv6 ⟨d, by simp⟩
      rw [runBr0_br0Addr, if_neg (by simp)] at hright
      exact not_br0Right_delText ifid _ hright
    · obtain ⟨a, b, rfl, ha⟩ := List.eq_append_cons_of_mem hmem
      obtain ⟨t, hright, ht⟩ := h a .getv6 ⟨b, by simp⟩
      rw [runBr0_br0Addr, if_pos ⟨rfl, ha⟩] at ht
      have htext : br0Text s ifid = t := List.append_cancel_right (Option.some.inj ht)
      rw [← htext, ← createBr0V6addr_eq] at hright
      exact (createBr0V6addr_right_iff s ifid).mp hright
    · obtain ⟨rest, rfl⟩ := List.head?_eq_some_iff.mp hhead
      have hright := h [] .lostv6 ⟨rest, rfl⟩
      rw [runBr0_br0Addr, if_neg (by simp)] at hright
      have hne := delText_eq_na hright
      cases hv : x.wan.br0Addr with
      | none => exact absurd (show (runBr0 cmccv2 ifid x.wan []).br0Addr.getD [] = [] by
          rw [show (runBr0 cmccv2 ifid x.wan []).br0Addr = x.wan.br0Addr from rfl, hv]; rfl) hne
      | some v =>
        refine ⟨v, rfl, fun hnil => hne ?_⟩
        show x.wan.br0Addr.getD [] = []
        rw [hv, hnil]
        rfl
  · intro h pre evt hp
    cases evt with
    | getv6 =>
      have hcount := (List.Sublist.count_le .getv6 hp.sublist).trans h.once
      rw [List.count_append, List.count_singleton_self] at hcount
      have hnew : PdEvent.getv6 ∉ pre := fun hm => by
        have := List.count_pos_iff.mpr hm
        omega
      have hbits := h.bits (hp.subset (by simp))
      rw [runBr0_br0Addr, if_pos ⟨rfl, hnew⟩]
      refine ⟨_, ?_, rfl⟩
      rw [← createBr0V6addr_eq]
      exact (createBr0V6addr_right_iff s ifid).mpr hbits
    | lostv6 =>
      have hinit : evts.head? = some .lostv6 → x.wan.br0Addr.getD [] ≠ [] := fun hhead => by
        obtain ⟨v, hv, hne⟩ := h.first hhead
        rw [hv]
        exact hne
      rw [runBr0_br0Addr, if_neg (by simp)]
      refine delText_of_text ?_
      rcases pre with _ | ⟨e, pre⟩
      · obtain ⟨rest, rfl⟩ := hp
        exact hinit rfl
      · refine runBr0_text x ifid (by simp) fun hhead => hinit ?_
        obtain ⟨rest, rfl⟩ := hp
        simpa using hhead

end Run

/-- **A static prefix gives the bridge the address it should exactly under the two conditions: on
the bits for one address, and on the events for a sequence of them.** -/
theorem br0Address_right_iff (ifid : InAddr 16) (s : StaticPd) :
    (CreateRight s ifid (createBr0V6addr ifid s.text s.len) ↔ CreateCond s ifid) ∧
    ∀ (cmccv2 : Bool) (x : StaticWan cmccv2 s) (evts : List PdEvent),
      (∀ pre evt, pre ++ [evt] <+: evts →
        Br0Right s ifid evt (runBr0 cmccv2 ifid x.wan (pre ++ [evt])).br0Addr) ↔
        EventCond s ifid x.wan.br0Addr evts :=
  ⟨createBr0V6addr_right_iff s ifid, fun _ x evts => runBr0_right_iff x ifid evts⟩

/-- The prefix `2001:db8:f000::/36`. -/
def pd36 : StaticPd where
  text := "2001:db8:f000::".toList
  pd := ⟨[0x20, 1, 0xd, 0xb8, 0xf0, 0, 0, 0, 0, 0, 0, 0, 0, 0, 0, 0], rfl⟩
  valid := rfl
  len := 36
  lower := by decide
  upper := by decide

/-- The prefix `2001:db8::/32`. -/
def pd32 : StaticPd where
  text := "2001:db8::".toList
  pd := ⟨[0x20, 1, 0xd, 0xb8, 0, 0, 0, 0, 0, 0, 0, 0, 0, 0, 0, 0], rfl⟩
  valid := rfl
  len := 32
  lower := by decide
  upper := by decide

/-- A WAN in route mode for IPv6 with `INTERNET` service and the prefix `2001:db8::/32`. -/
def pd32Wan : StaticWan false pd32 where
  wan :=
    { cfg := { active := 1, wanmode := 1, version := 2, srvType := eSrvInternet,
               pdorigin := "Static".toList, pdaddr := "2001:db8::/32".toList }
      br0Addr := some "N/A".toList
      cmds := [] }
  active := by decide
  static := by decide
  pdaddr := rfl

/-- The interface id of a bridge with the MAC address `00:11:22:33:44:55`. -/
def macIfid : InAddr 16 :=
  ⟨[0, 0, 0x02, 0x22, 0x11, 0xe3, 0x44, 0xef, 0x02, 0x11, 0x22, 0xff, 0xfe, 0x33, 0x44, 0x55], rfl⟩

/-- The four bits of the prefix in its last byte are lost, and the second time that a WAN gets its
address the bridge gets none. -/
theorem br0Address_fails :
    ¬ CreateRight pd36 macIfid (createBr0V6addr macIfid pd36.text pd36.len) ∧
    ¬ ∀ pre evt, pre ++ [evt] <+: [PdEvent.getv6, .lostv6, .getv6] →
      Br0Right pd32 macIfid evt (runBr0 false macIfid pd32Wan.wan (pre ++ [evt])).br0Addr := by
  refine ⟨fun h => ?_, fun h => ?_⟩
  · have hbit := (createBr0V6addr_right_iff pd36 macIfid).mp h 32 (by decide) (by decide)
    exact absurd hbit (by decide)
  · exact absurd ((runBr0_right_iff pd32Wan macIfid _).mp h).once (by decide)

end OnuFirmware.Wan
