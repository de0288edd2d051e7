/-
# Microseconds and `timeval`

Models `microtimeout2Timeval` (`src/rtcppkt.cpp`), `timeval2microtimeout` (`src/ccrtp/base.h`) and
`end2EndDelayed` (`src/control.cpp`), which dates a packet with them.  The first conversion puts
what is left of the division by a million into the seconds and the quotient into the microseconds.
`reverseReconsideration` converts the other way round.

* `microseconds_iff` : which counts and which times the conversions restore;
* `incOf_restores` : the conversion of `reverseReconsideration` restores all of them;
* `endToEndDelay_iff`, `end2EndDelayed_of_restored` : which packets are dated right.
-/
import Mathlib
import CcRtp.ReverseReconsideration

/-! ## The functions of the source -/

/-- `microtimeout2Timeval(to)` -/
def microtimeout2Timeval (timeout : BitVec 32) : Timeval :=
  ⟨(timeout % 1000000).toNat, (timeout / 1000000).toNat⟩

/-- `timeval2microtimeout(t)`: the value in microseconds, cut to 32 bits. -/
def timeval2microtimeout (t : Timeval) : BitVec 32 := .ofInt 32 (t.sec * 1000000 + t.usec)

/-- The time since a packet was made, `Inc` microseconds after the NTP time of a sender report. -/
def endToEndDelay (tNTP now : Timeval) (Inc : BitVec 32) : BitVec 32 :=
  let packetTime := timeradd tNTP (microtimeout2Timeval Inc)
  timeval2microtimeout (timersub now packetTime)

/-- `end2EndDelayed(pl)`, with `getEnd2EndDelay()`, the clock rate, the timestamp of the packet, the
RTP timestamp and the NTP time of the last sender report, and the current time.  It does not return
if the rate is less than 1000, which divides by zero. -/
def end2EndDelayed (delay rate timestamp : BitVec 32) (senderInfo : Option (BitVec 32 × Timeval))
    (now : Timeval) : Option Bool :=
  if delay = 0 then some false
  else
    match senderInfo with
    | none => some false
    | some (rtpTimestamp, tNTP) =>
        let tsInc := timestamp - rtpTimestamp
        if rate / 1000 = 0 then none
        else some (endToEndDelay tNTP now (tsInc * 1000 / (rate / 1000)) > delay)

/-! ## The law -/

/-- A count of microseconds becomes a time with less than a second of microseconds, and that becomes
the count again. -/
structure RestoresCount (t : BitVec 32) : Prop where
  normal : (microtimeout2Timeval t).Normal
  restores : timeval2microtimeout (microtimeout2Timeval t) = t

/-- A time interval that a count of 32 bits can hold. -/
structure Timeval.Countable (v : Timeval) : Prop extends v.Normal where
  nonneg_micros : 0 ≤ v.micros
  micros_lt : v.micros < 2 ^ 32

/-- The conversions are mutually inverse. -/
def MutuallyInverse : Prop :=
  (∀ t, RestoresCount t) ∧
    ∀ v : Timeval, v.Countable → microtimeout2Timeval (timeval2microtimeout v) = v

/-! ## What the conversions do -/

theorem timeval2microtimeout_eq (v : Timeval) :
    timeval2microtimeout v = BitVec.ofInt 32 v.micros := rfl

/-- **The two fields** are the remainder and the quotient. -/
theorem microtimeout2Timeval_eq (t : BitVec 32) :
    microtimeout2Timeval t = ⟨(t.toNat % 1000000 : ℕ), (t.toNat / 1000000 : ℕ)⟩ := by
  have hmillion : (1000000 : BitVec 32).toNat = 1000000 := rfl
  rw [microtimeout2Timeval, BitVec.toNat_umod, BitVec.toNat_udiv, hmillion]

/-- There are fewer than 4295 millions. -/
theorem normal_microtimeout2Timeval (t : BitVec 32) : (microtimeout2Timeval t).Normal := by
  have ht := t.isLt
  rw [microtimeout2Timeval_eq]
  exact ⟨by dsimp only; omega, by dsimp only; omega⟩

/-- The count of a time interval that fits. -/
theorem Timeval.Countable.toNat_eq {v : Timeval} (h : v.Countable) :
    ((timeval2microtimeout v).toNat : ℤ) = v.micros := by
  have hlow := h.nonneg_micros
  have hhigh := h.micros_lt
  rw [timeval2microtimeout_eq, BitVec.toNat_ofInt]
  omega

/-- Millions and units change places without a difference modulo `2 ^ 32` only if they are the same:
the sums differ by 999999 times the difference of the two, and 999999 is odd. -/
theorem swapped_eq_iff {a b : ℕ} (ha : a < 4295) (hb : b < 1000000) :
    (b * 1000000 + a) % 2 ^ 32 = a * 1000000 + b ↔ a = b := by
  have hsmall : ((b : ℤ) - a).natAbs < 2 ^ 32 := by omega
  constructor
  · intro h
    have hmod : a * 1000000 + b ≡ b * 1000000 + a [MOD 2 ^ 32] := by
      rw [← h]
      exact Nat.mod_modEq _ _
    have hproduct : ((b * 1000000 + a : ℕ) : ℤ) - ((a * 1000000 + b : ℕ) : ℤ) =
        999999 * (b - a) := by
      push_cast
      ring
    have hcoprime : IsCoprime ((2 ^ 32 : ℕ) : ℤ) ((999999 : ℕ) : ℤ) :=
      Nat.isCoprime_iff_coprime.mpr (by norm_num)
    have hdvd : ((2 ^ 32 : ℕ) : ℤ) ∣ 999999 * ((b : ℤ) - a) := hproduct ▸ Nat.modEq_iff_dvd.mp hmod
    have hzero : (b : ℤ) - a = 0 :=
      Int.eq_zero_of_dvd_of_natAbs_lt_natAbs (hcoprime.dvd_of_dvd_mul_left hdvd) hsmall
    exact (Int.natCast_inj.mp (Int.sub_eq_zero.mp hzero)).symm
  · rintro rfl
    exact Nat.mod_eq_of_lt (by omega)

/-- **Which counts are restored**: those whose quotient and remainder are the same. -/
theorem restores_iff (t : BitVec 32) :
    timeval2microtimeout (microtimeout2Timeval t) = t ↔ t.toNat / 1000000 = t.toNat % 1000000 := by
  have ht := t.isLt
  obtain ⟨a, ha⟩ : ∃ a, a = t.toNat / 1000000 := ⟨_, rfl⟩
  obtain ⟨b, hb⟩ : ∃ b, b = t.toNat % 1000000 := ⟨_, rfl⟩
  have hcount : (timeval2microtimeout (microtimeout2Timeval t)).toNat
      = (b * 1000000 + a) % 2 ^ 32 := by
    have hcast : ((b : ℤ) * 1000000 + a) = ((b * 1000000 + a : ℕ) : ℤ) := by push_cast; rfl
    rw [microtimeout2Timeval_eq, ← ha, ← hb, timeval2microtimeout, hcast, BitVec.ofInt_natCast,
      BitVec.toNat_ofNat]
  have hparts : t.toNat = a * 1000000 + b := by
    rw [ha, hb, Nat.mul_comm, Nat.div_add_mod]
  rw [← BitVec.toNat_inj, hcount, ← ha, ← hb, hparts]
  exact swapped_eq_iff (by omega) (by omega)

/-- **Which times are restored.** -/
theorem restores_timeval_iff {v : Timeval} (h : v.Countable) :
    microtimeout2Timeval (timeval2microtimeout v) = v ↔ v.sec = v.usec := by
  have hcount := h.toNat_eq
  have hlow := h.nonneg
  have hhigh := h.lt
  have hnonneg := h.nonneg_micros
  set n := (timeval2microtimeout v).toNat with hn
  have hmicros : (n : ℤ) = v.sec * 1000000 + v.usec := hcount
  have husec : ((n % 1000000 : ℕ) : ℤ) = v.usec := by omega
  have hsec : ((n / 1000000 : ℕ) : ℤ) = v.sec := by omega
  rw [microtimeout2Timeval_eq, ← hn, hsec, husec]
  cases v with
  | mk sec usec =>
      rw [Timeval.mk.injEq]
      dsimp only
      constructor
      · rintro ⟨hswap, -⟩
        exact hswap.symm
      · intro hsame
        exact ⟨hsame.symm, hsame⟩

/-- **When the microsecond conversions are inverse.**  A count of microseconds is restored exactly
if it has as many whole seconds as microseconds behind them, and so is a time; the time that a count
becomes has less than a second of microseconds in any case. -/
theorem microseconds_iff (t : BitVec 32) (v : Timeval) (hv : v.Countable) :
    (RestoresCount t ↔ t.toNat / 1000000 = t.toNat % 1000000) ∧
      (microtimeout2Timeval (timeval2microtimeout v) = v ↔ v.sec = v.usec) ∧
      (microtimeout2Timeval t).Normal := by
  refine ⟨?_, restores_timeval_iff hv, normal_microtimeout2Timeval t⟩
  constructor
  · intro h
    exact (restores_iff t).mp h.restores
  · intro h
    exact ⟨normal_microtimeout2Timeval t, (restores_iff t).mpr h⟩

/-- The theorem at one second, and at three seconds and three microseconds. -/
theorem microseconds_iff_three :
    ¬ RestoresCount 1000000 ∧ microtimeout2Timeval (timeval2microtimeout ⟨3, 3⟩) = ⟨3, 3⟩ := by
  have hthree : (⟨3, 3⟩ : Timeval).Countable :=
    ⟨⟨by decide, by decide⟩, by decide, by decide⟩
  obtain ⟨hcount, htime, -⟩ := microseconds_iff 1000000 ⟨3, 3⟩ hthree
  exact ⟨fun h => absurd (hcount.mp h) (by decide), htime.mpr rfl⟩

/-- A second becomes a microsecond. -/
theorem second_becomes_microsecond :
    timeval2microtimeout (microtimeout2Timeval 1000000) = 1 ∧ ¬ MutuallyInverse := by
  have hone : timeval2microtimeout (microtimeout2Timeval 1000000) = 1 := by decide
  refine ⟨hone, fun h => ?_⟩
  have hrestored := (h.1 1000000).restores
  rw [hone] at hrestored
  exact absurd hrestored (by decide)

/-! ## Its sibling and its caller -/

/-- **The conversion of `reverseReconsideration`** restores every count. -/
theorem incOf_restores (t : BitVec 32) : (incOf t).Normal ∧ timeval2microtimeout (incOf t) = t := by
  have hmillion : (1000000 : BitVec 32).toNat = 1000000 := rfl
  constructor
  · unfold incOf
    rw [BitVec.toNat_umod, hmillion]
    exact ⟨by dsimp only; omega, by dsimp only; omega⟩
  · rw [timeval2microtimeout_eq, ReconsInfo.micros_incOf, BitVec.ofInt_natCast, BitVec.ofNat_toNat,
      BitVec.setWidth_eq]

/-- **Which packets are dated right**: the delay is the time since the NTP time less the
microseconds behind it exactly if the conversion restores these. -/
theorem endToEndDelay_iff (tNTP now : Timeval) (Inc : BitVec 32) :
    endToEndDelay tNTP now Inc = BitVec.ofInt 32 (now.micros - tNTP.micros) - Inc
      ↔ Inc.toNat / 1000000 = Inc.toNat % 1000000 := by
  have hdelay : endToEndDelay tNTP now Inc = BitVec.ofInt 32 (now.micros - tNTP.micros)
      - timeval2microtimeout (microtimeout2Timeval Inc) := by
    rw [endToEndDelay, timeval2microtimeout_eq, timeval2microtimeout_eq, micros_timersub,
      micros_timeradd, ← Int.sub_sub, Int.sub_eq_add_neg,
      BitVec.ofInt_add, BitVec.ofInt_neg, BitVec.sub_eq_add_neg]
  rw [hdelay, ← restores_iff, BitVec.sub_right_inj]

/-- **`end2EndDelayed`** compares with the right delay if the increment since the sender report is
one that the conversion restores. -/
theorem end2EndDelayed_of_restored {delay rate timestamp rtpTimestamp : BitVec 32}
    {tNTP now : Timeval} (hdelay : delay ≠ 0) (hrate : rate / 1000 ≠ 0) {Inc : BitVec 32}
    (hInc : (timestamp - rtpTimestamp) * 1000 / (rate / 1000) = Inc)
    (hrestored : Inc.toNat / 1000000 = Inc.toNat % 1000000) :
    end2EndDelayed delay rate timestamp (some (rtpTimestamp, tNTP)) now
      = some (decide (delay < BitVec.ofInt 32 (now.micros - tNTP.micros) - Inc)) := by
  unfold end2EndDelayed
  dsimp only
  rw [if_neg hdelay, if_neg hrate, hInc, (endToEndDelay_iff tNTP now Inc).mpr hrestored]
