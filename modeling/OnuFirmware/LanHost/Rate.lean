import OnuFirmware.Clib.Num
import Mathlib.Tactic.Ring

/-!
# The rates of a LAN host (`sync_lan_host_info`)

With `SYNC_UPDATE_CNT` the counters of an entry go to its node. In the builds with
`TCSUPPORT_CT_UBUS` the rates are written beside them, as the difference of the counters of this
round and of the last one over the seconds between the two. The counters have 64 bits and are
printed in full; for the difference they are read back from their texts as an `int`.
-/

namespace OnuFirmware.LanHost

open Clib

/-! ## The branch -/

/-- The fields of `lan_host_entry_t` that the branch reads. -/
structure Counters where
  rxbytes : BitVec 64
  txbytes : BitVec 64
  lastrxbytes : BitVec 64
  lasttxbytes : BitVec 64
  sleeptime : Int
  upspeed : Word
  downspeed : Word
deriving Repr, DecidableEq

/-- The attributes of the node that the branch sets. -/
inductive CntAttr
  | rxBytes
  | txBytes
  | rxRateRt
  | txRateRt
  | upSpeed
  | downSpeed
deriving Repr, DecidableEq

/-- The length of the text buffers of the function. -/
def cntBufLen : Nat := 32

/-- A counter as text, `%llu`. -/
def counterText (w : BitVec 64) : Str := snprintf cntBufLen (fmtNat w.toNat)

/-- The rate as text, `%d` of `(atoi(buf) - atoi(last))/sleeptime`. -/
def rateText (cur last : BitVec 64) (sleeptime : Int) : Str :=
  snprintf cntBufLen
    (fmtInt ((atoi (counterText cur) - atoi (counterText last)).tdiv sleeptime))

/-- The branch for `SYNC_UPDATE_CNT`: the attributes that are set, in order. -/
def syncUpdateCnt (e : Counters) : List (CntAttr × Str) :=
  [(.rxBytes, counterText e.rxbytes), (.txBytes, counterText e.txbytes)] ++
    (if 0 < e.sleeptime then
      [(.rxRateRt, rateText e.rxbytes e.lastrxbytes e.sleeptime),
        (.txRateRt, rateText e.txbytes e.lasttxbytes e.sleeptime)]
    else []) ++
    [(.upSpeed, snprintf cntBufLen (fmtNat e.upspeed.toNat)),
      (.downSpeed, snprintf cntBufLen (fmtNat e.downspeed.toNat))]

/-! ## What is read back -/

/-- A counter fits into its buffer. -/
theorem counterText_eq (w : BitVec 64) : counterText w = fmtNat w.toNat := by
  have hlen : (fmtNat w.toNat).length ≤ 20 :=
    (length_fmtNat_le (by decide)).mpr (lt_trans w.isLt (by decide))
  exact snprintf_eq (by rw [cntBufLen]; omega)

/-- A counter read back stops at the greatest `int`. -/
theorem atoi_counterText (w : BitVec 64) : atoi (counterText w) = (min w.toNat intMax : Nat) := by
  obtain ⟨c, s, hn, hc⟩ := fmtNat_cons w.toNat
  rw [counterText_eq, hn, atoi_of_isDigit hc, ← hn, digitsVal_fmtNat]

/-- The difference that the branch computes when the counter has not gone back. -/
def seenBytes (cur last : BitVec 64) : Nat := min cur.toNat intMax - min last.toNat intMax

theorem seenBytes_le {cur last : BitVec 64} (h : last ≤ cur) :
    seenBytes cur last ≤ cur.toNat - last.toNat := by
  have hle : last.toNat ≤ cur.toNat := h
  rw [seenBytes]
  omega

theorem rateText_eq {cur last : BitVec 64} (h : last ≤ cur) (t : Nat) :
    rateText cur last t = fmtNat (seenBytes cur last / t) := by
  have hle : last.toNat ≤ cur.toNat := h
  have hdiff : atoi (counterText cur) - atoi (counterText last) = (seenBytes cur last : Nat) := by
    rw [atoi_counterText, atoi_counterText, seenBytes]
    omega
  have hmax : seenBytes cur last / t ≤ intMax := by
    refine le_trans (Nat.div_le_self _ _) ?_
    rw [seenBytes]
    omega
  have hlen := (length_fmtNat_le (show 0 < 10 by decide)).mpr (lt_ten_digits hmax)
  rw [rateText, hdiff, ← Int.ofNat_tdiv, fmtInt_natCast]
  exact snprintf_eq (by rw [cntBufLen]; omega)

/-! ## The rates -/

/-- What a rate is to be: the bytes since the last round, for each second between the two. -/
def byteRate (cur last : BitVec 64) (sleeptime : Int) : Nat :=
  (cur.toNat - last.toNat) / sleeptime.toNat

/-- Both rates of an entry are set, to the rates of its counters. -/
def RatesRight (e : Counters) : Prop :=
  (syncUpdateCnt e).lookup .rxRateRt =
      some (fmtNat (byteRate e.rxbytes e.lastrxbytes e.sleeptime)) ∧
    (syncUpdateCnt e).lookup .txRateRt =
      some (fmtNat (byteRate e.txbytes e.lasttxbytes e.sleeptime))

/-- The bytes above the greatest `int` do not make up another byte a second, together with what the
division leaves of the ones below. -/
def RateFits (cur last : BitVec 64) (sleeptime : Int) : Prop :=
  seenBytes cur last % sleeptime.toNat + (cur.toNat - last.toNat - seenBytes cur last) <
    sleeptime.toNat

instance (cur last : BitVec 64) (sleeptime : Int) : Decidable (RateFits cur last sleeptime) :=
  inferInstanceAs (Decidable (_ < _))

/-- Adding to a number leaves the quotient alone exactly when the remainder takes it. -/
theorem add_div_eq_iff {a b t : Nat} (ht : 0 < t) : (a + b) / t = a / t ↔ a % t + b < t := by
  have hab : a + b = a / t * t + (a % t + b) := by
    have := Nat.div_add_mod' a t
    omega
  have hsum : (a + b) / t = a / t + (a % t + b) / t := by
    rw [hab, Nat.add_comm, Nat.add_mul_div_right _ _ ht, Nat.add_comm]
  rw [hsum]
  constructor
  · intro h
    exact (Nat.div_eq_zero_iff_lt ht).mp (by omega)
  · intro h
    rw [Nat.div_eq_of_lt h, Nat.add_zero]

theorem rateText_right_iff {cur last : BitVec 64} (h : last ≤ cur) {t : Nat} (ht : 0 < t) :
    rateText cur last t = fmtNat (byteRate cur last t) ↔ RateFits cur last t := by
  have hsplit : cur.toNat - last.toNat =
      seenBytes cur last + (cur.toNat - last.toNat - seenBytes cur last) := by
    have := seenBytes_le h
    omega
  rw [rateText_eq h t, fmtNat_inj, byteRate, RateFits, Int.toNat_natCast, eq_comm]
  conv_lhs => rw [hsplit]
  exact add_div_eq_iff ht

theorem syncUpdateCnt_rates {e : Counters} (h : 0 < e.sleeptime) :
    (syncUpdateCnt e).lookup .rxRateRt = some (rateText e.rxbytes e.lastrxbytes e.sleeptime) ∧
      (syncUpdateCnt e).lookup .txRateRt = some (rateText e.txbytes e.lasttxbytes e.sleeptime) := by
  rw [syncUpdateCnt, if_pos h]
  exact ⟨rfl, rfl⟩

/-- **The rates are right exactly when the bytes above the greatest `int` do not count.** -/
theorem ratesRight_iff (e : Counters) (hrx : e.lastrxbytes ≤ e.rxbytes)
    (htx : e.lasttxbytes ≤ e.txbytes) (ht : 0 < e.sleeptime) :
    RatesRight e ↔ RateFits e.rxbytes e.lastrxbytes e.sleeptime ∧
      RateFits e.txbytes e.lasttxbytes e.sleeptime := by
  obtain ⟨t, hsleep⟩ := Int.eq_ofNat_of_zero_le (le_of_lt ht)
  obtain ⟨hr, hs⟩ := syncUpdateCnt_rates ht
  rw [RatesRight, hr, hs, hsleep, Option.some_inj, Option.some_inj]
  have htn : 0 < t := by omega
  rw [rateText_right_iff hrx htn, rateText_right_iff htx htn]

theorem ratesRight_iff_small :
    RatesRight ⟨1500, 900, 500, 900, 5, 0, 0⟩ ↔
      RateFits 1500 500 5 ∧ RateFits 900 900 5 :=
  ratesRight_iff ⟨1500, 900, 500, 900, 5, 0, 0⟩ (by decide) (by decide) (by decide)

/-- Three gigabytes in one second are reported as 2147483647 bytes. -/
theorem ratesRight_wrong : ¬ RatesRight ⟨3000000000, 0, 0, 0, 1, 0, 0⟩ := by
  rintro ⟨h, -⟩
  rw [(syncUpdateCnt_rates (by decide)).1, Option.some_inj] at h
  exact absurd ((rateText_right_iff (t := 1) (by decide) (by decide)).mp h) (by decide)

end OnuFirmware.LanHost
