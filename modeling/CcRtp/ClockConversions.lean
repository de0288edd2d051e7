/-
# Clock conversions

Both directions of the conversion between times and timestamps: what `getSchedulingTimeout`
(`src/outqueue.cpp`) makes of the offset of a timestamp, and `getCurrentTimestamp`
(`src/queue.cpp`).  Either divides the clock rate by 1000 first.

* `micros_ofOffset`, `getCurrentTimestamp_eq` : the values;
* `conversions_iff` : the rates for which both directions are accurate and monotone.
-/
import CcRtp.SendingQueue

/-- The time of an offset, before the initial time is added: `10^6 * rem/rate`, by way of
`(1000ul*rem) / (rate/1000ul)`. -/
def Timeval.ofOffset (rate offset : BitVec 32) : Timeval :=
  ⟨(offset.toNat / rate.toNat : ℕ), (1000 * (offset.toNat % rate.toNat) / (rate.toNat / 1000) : ℕ)⟩

/-- It is the time that the scheduled time of a packet begins with. -/
theorem SendingQueue.sendTime_eq (q : SendingQueue) (timestamp : BitVec 32) (now : Timeval) :
    q.sendTime timestamp now =
      if q.currentRTPClockRate.toNat < 1000 then none
      else
        let send := timeradd
          (.ofOffset q.currentRTPClockRate (timestamp - q.info.initialTimestamp)) q.overflowTime
        (if now.sec - send.sec > 5000 then
            catchUp (overflow q.currentRTPClockRate.toNat) now (now.sec - send.sec).toNat send
              q.overflowTime
          else some (send, q.overflowTime)).map (fun (send, overflowTime) =>
            (if send.sec - now.sec > 20000 then timersub send (overflow q.currentRTPClockRate.toNat)
              else send, overflowTime)) :=
  rfl

/-- `getCurrentTimestamp()`: an `int32` that is multiplied as an unsigned number and divided as a
signed one. -/
def getCurrentTimestamp (rate : BitVec 32) (initialTime now : Timeval) : BitVec 32 :=
  let result : BitVec 32 := .ofInt 32 (now.usec - initialTime.usec)
  let result := result * (rate / 1000)
  let result := result.sdiv 1000
  result + .ofInt 32 ((now.sec - initialTime.sec) * rate.toNat)

/-- The times of all offsets: proper `timeval`s, a microsecond off at most, and in order. -/
structure AccurateTimes (rate : BitVec 32) : Prop where
  normal : ∀ offset, (Timeval.ofOffset rate offset).usec < 1000000
  close : ∀ offset : BitVec 32,
    |(Timeval.ofOffset rate offset).micros * rate.toNat - offset.toNat * 1000000| ≤ rate.toNat
  mono : ∀ a b : BitVec 32, a ≤ b →
    (Timeval.ofOffset rate a).micros ≤ (Timeval.ofOffset rate b).micros

/-- A reading of the clock behind the creation of the queue, in the first half of the timestamps. -/
structure InFirstHalf (rate : BitVec 32) (initialTime now : Timeval) : Prop where
  initial : initialTime.Normal
  normal : now.Normal
  elapsed : initialTime.micros ≤ now.micros
  short : (now.micros - initialTime.micros) * rate.toNat < 2 ^ 31 * 1000000

/-- The timestamps of all times: a unit off at most, and in order. -/
structure AccurateTimestamps (rate : BitVec 32) : Prop where
  close : ∀ initialTime now, InFirstHalf rate initialTime now →
    |(getCurrentTimestamp rate initialTime now).toNat * 1000000
      - (now.micros - initialTime.micros) * rate.toNat| ≤ 1000000
  mono : ∀ initialTime now now', InFirstHalf rate initialTime now →
    InFirstHalf rate initialTime now' → now.micros ≤ now'.micros →
    getCurrentTimestamp rate initialTime now ≤ getCurrentTimestamp rate initialTime now'

variable {rate : BitVec 32} {initialTime now now' : Timeval}

/-! ## From offsets to times -/

/-- For a rate in whole kilohertz, **the time is the exact one, cut to microseconds**. -/
theorem micros_ofOffset {r : ℕ} (hrate : rate.toNat = 1000 * r) (hr : 0 < r) (offset : BitVec 32) :
    (Timeval.ofOffset rate offset).micros = (1000 * offset.toNat / r : ℕ) := by
  have hsplit : 1000 * offset.toNat
      = 1000 * (offset.toNat % (1000 * r)) + r * (offset.toNat / (1000 * r) * 1000000) := by
    conv_lhs => rw [← Nat.mod_add_div offset.toNat (1000 * r)]
    ring
  have hdiv : 1000 * r / 1000 = r := Nat.mul_div_cancel_left r (by omega)
  rw [hsplit, Nat.add_mul_div_left _ _ hr]
  unfold Timeval.ofOffset Timeval.micros
  rw [hrate, hdiv]
  push_cast
  ring

theorem accurateTimes_of_kilohertz {r : ℕ} (hrate : rate.toNat = 1000 * r) (hr : 0 < r) :
    AccurateTimes rate where
  normal := by
    intro offset
    have hdiv : 1000 * r / 1000 = r := Nat.mul_div_cancel_left r (by omega)
    have hrem : offset.toNat % (1000 * r) < 1000 * r := Nat.mod_lt _ (by omega)
    have hlt : 1000 * (offset.toNat % (1000 * r)) / r < 1000000 :=
      (Nat.div_lt_iff_lt_mul hr).mpr (by omega)
    unfold Timeval.ofOffset
    rw [hrate, hdiv]
    exact Int.ofNat_lt.mpr hlt
  close := by
    intro offset
    rw [micros_ofOffset hrate hr, hrate, abs_le]
    have hdiv := Nat.div_add_mod (1000 * offset.toNat) r
    have hmod := Nat.mod_lt (1000 * offset.toNat) hr
    generalize 1000 * offset.toNat / r = t at hdiv ⊢
    have heq : ((t : ℤ) * (1000 * r : ℕ) : ℤ) = 1000 * (r * t : ℕ) := by
      push_cast
      ring
    rw [heq]
    constructor <;> omega
  mono := by
    intro a b hab
    have hle : a.toNat ≤ b.toNat := hab
    rw [micros_ofOffset hrate hr, micros_ofOffset hrate hr]
    exact Int.ofNat_le.mpr (Nat.div_le_div_right (Nat.mul_le_mul_left 1000 hle))

/-- For another rate, **the last offset of a second has a million microseconds**. -/
theorem kilohertz_of_accurateTimes (hrate : 1000 ≤ rate.toNat) (h : AccurateTimes rate) :
    1000 ∣ rate.toNat := by
  by_contra hdvd
  have hlt := rate.isLt
  have hmod : rate.toNat % 1000 ≠ 0 := fun hzero => hdvd (Nat.dvd_of_mod_eq_zero hzero)
  have hlast : (rate - 1).toNat = rate.toNat - 1 := by
    rw [BitVec.toNat_sub]
    have hone : (1 : BitVec 32).toNat = 1 := rfl
    omega
  have hnormal := h.normal (rate - 1)
  unfold Timeval.ofOffset at hnormal
  rw [hlast, Nat.mod_eq_of_lt (show rate.toNat - 1 < rate.toNat by omega)] at hnormal
  have hmany : 1000000 ≤ 1000 * (rate.toNat - 1) / (rate.toNat / 1000) :=
    (Nat.le_div_iff_mul_le (by omega)).mpr (by omega)
  exact absurd hnormal (not_lt.mpr (Int.ofNat_le.mpr hmany))

/-! ## From times to timestamps -/

/-- A signed division of an `int32` by 1000. -/
theorem sdiv_thousand (x : BitVec 32) : x.sdiv 1000 = .ofInt 32 (x.toInt.tdiv 1000) := by
  have hne : (1000 : BitVec 32) ≠ -1#32 := by decide
  have htoInt := BitVec.toInt_sdiv_of_ne_or_ne x 1000 (Or.inr hne)
  rw [← BitVec.ofInt_toInt (x := x.sdiv 1000), htoInt]
  rfl

/-- **The timestamp**, with the product of the microseconds reduced to an `int32`. -/
theorem getCurrentTimestamp_eq (rate : BitVec 32) (initialTime now : Timeval) :
    getCurrentTimestamp rate initialTime now
      = .ofInt 32 ((((now.usec - initialTime.usec) * (rate.toNat / 1000 : ℕ)).bmod (2 ^ 32)).tdiv
          1000 + (now.sec - initialTime.sec) * rate.toNat) := by
  have hkilo : rate / 1000 = .ofInt 32 (rate.toNat / 1000 : ℕ) := by
    rw [BitVec.ofInt_natCast]
    apply BitVec.eq_of_toNat_eq
    have hle : rate.toNat / 1000 ≤ rate.toNat := Nat.div_le_self _ _
    have hlt := rate.isLt
    have hthousand : (1000 : BitVec 32).toNat = 1000 := rfl
    rw [BitVec.toNat_udiv, BitVec.toNat_ofNat, hthousand]
    exact (Nat.mod_eq_of_lt (by omega)).symm
  unfold getCurrentTimestamp
  dsimp only
  rw [hkilo, ← BitVec.ofInt_mul, sdiv_thousand, BitVec.toInt_ofInt, ← BitVec.ofInt_add]

/-- The timestamp rounds towards the creation of the queue, by whole seconds and what the
microseconds add. -/
structure RoundedTimestamp (r sec usec t : ℤ) : Prop where
  down : 0 ≤ usec → 1000 * t ≤ sec * 1000000 * r + usec * r ∧
    sec * 1000000 * r + usec * r < 1000 * t + 1000
  up : usec ≤ 0 → 1000 * t - 1000 < sec * 1000000 * r + usec * r ∧
    sec * 1000000 * r + usec * r ≤ 1000 * t

theorem roundedTimestamp {r : ℤ} (hr : 0 ≤ r) (sec usec : ℤ) :
    RoundedTimestamp r sec usec ((usec * r).tdiv 1000 + sec * (1000 * r)) where
  down := by
    intro hpos
    have hprod : 0 ≤ usec * r := Int.mul_nonneg hpos hr
    have hsec : sec * 1000000 * r = 1000 * (sec * (1000 * r)) := by ring
    rw [Int.tdiv_eq_ediv_of_nonneg hprod, hsec]
    constructor <;> omega
  up := by
    intro hneg
    have hprod : 0 ≤ -(usec * r) := by
      rw [← Int.neg_mul]
      exact Int.mul_nonneg (by omega) hr
    have hsec : sec * 1000000 * r = 1000 * (sec * (1000 * r)) := by ring
    have htdiv : (usec * r).tdiv 1000 = -(-(usec * r) / 1000) := by
      rw [← Int.tdiv_eq_ediv_of_nonneg hprod, Int.neg_tdiv, Int.neg_neg]
    rw [htdiv, hsec]
    constructor <;> omega

/-- For a rate of whole kilohertz below 2148 kHz, the microseconds do not overflow and **the
timestamp is the rounded one**. -/
theorem toNat_getCurrentTimestamp {r : ℕ} (hrate : rate.toNat = 1000 * r) (hr : 0 < r)
    (hlow : r < 2148) (h : InFirstHalf rate initialTime now) :
    RoundedTimestamp r (now.sec - initialTime.sec) (now.usec - initialTime.usec)
      (getCurrentTimestamp rate initialTime now).toNat := by
  obtain ⟨⟨hi, hi'⟩, ⟨hn, hn'⟩, helapsed, hshort⟩ := h
  have hdiv : 1000 * r / 1000 = r := Nat.mul_div_cancel_left r (by omega)
  rw [getCurrentTimestamp_eq, hrate, hdiv, BitVec.toNat_ofInt]
  rw [hrate] at hshort
  have helapsed' : 0 ≤ (now.sec - initialTime.sec) * 1000000 * r
      + (now.usec - initialTime.usec) * r := by
    have hprod : 0 ≤ (now.micros - initialTime.micros) * r :=
      Int.mul_nonneg (by omega) (by omega)
    unfold Timeval.micros at hprod
    calc (0 : ℤ) ≤ _ := hprod
      _ = _ := by ring
  have hshort' : (now.sec - initialTime.sec) * 1000000 * r
      + (now.usec - initialTime.usec) * r < 2 ^ 31 * 1000 := by
    unfold Timeval.micros at hshort
    push_cast at hshort
    have heq : (now.sec * 1000000 + now.usec - (initialTime.sec * 1000000 + initialTime.usec))
        * (1000 * (r : ℤ)) = 1000 * ((now.sec - initialTime.sec) * 1000000 * r
          + (now.usec - initialTime.usec) * r) := by ring
    omega
  generalize now.sec - initialTime.sec = sec at helapsed' hshort' ⊢
  have husec : -1000000 < now.usec - initialTime.usec ∧ now.usec - initialTime.usec < 1000000 :=
    ⟨by omega, by omega⟩
  generalize now.usec - initialTime.usec = usec at helapsed' hshort' husec ⊢
  have hbelow : usec * r ≤ 999999 * 2147 :=
    calc usec * r ≤ 999999 * r := Int.mul_le_mul_of_nonneg_right (by omega) (by omega)
      _ ≤ 999999 * 2147 := Int.mul_le_mul_of_nonneg_left (by omega) (by omega)
  have habove : -(999999 * 2147) ≤ usec * r := by
    have hneg : -usec * r ≤ 999999 * 2147 :=
      calc -usec * r ≤ 999999 * r := Int.mul_le_mul_of_nonneg_right (by omega) (by omega)
        _ ≤ 999999 * 2147 := Int.mul_le_mul_of_nonneg_left (by omega) (by omega)
    rw [Int.neg_mul] at hneg
    omega
  rw [Int.bmod_eq_of_le (by norm_num; omega) (by norm_num; omega)]
  have hround := roundedTimestamp (show (0 : ℤ) ≤ r by omega) sec usec
  have hcast : ((1000 * r : ℕ) : ℤ) = 1000 * (r : ℤ) := by push_cast; rfl
  rw [hcast]
  generalize (usec * (r : ℤ)).tdiv 1000 + sec * (1000 * (r : ℤ)) = t at hround ⊢
  have hrange : 0 ≤ t ∧ t ≤ 2 ^ 31 := by
    rcases le_or_gt 0 usec with hpos | hneg
    · have hdown := hround.down hpos
      constructor <;> omega
    · have hup := hround.up (by omega)
      constructor <;> omega
  rw [Int.toNat_of_nonneg (Int.emod_nonneg _ (by norm_num)),
    Int.emod_eq_of_lt hrange.1 (by norm_num; omega)]
  exact hround

theorem accurateTimestamps_of_kilohertz {r : ℕ} (hrate : rate.toNat = 1000 * r) (hr : 0 < r)
    (hlow : r < 2148) : AccurateTimestamps rate where
  close := by
    intro initialTime now h
    obtain ⟨hdown, hup⟩ := toNat_getCurrentTimestamp hrate hr hlow h
    generalize ((getCurrentTimestamp rate initialTime now).toNat : ℤ) = t at hdown hup ⊢
    have heq : (now.micros - initialTime.micros) * rate.toNat
        = 1000 * ((now.sec - initialTime.sec) * 1000000 * r
          + (now.usec - initialTime.usec) * r) := by
      rw [hrate]
      unfold Timeval.micros
      push_cast
      ring
    rw [heq, abs_le]
    rcases le_total 0 (now.usec - initialTime.usec) with hpos | hneg
    · obtain ⟨h₁, h₂⟩ := hdown hpos
      constructor <;> omega
    · obtain ⟨h₁, h₂⟩ := hup hneg
      constructor <;> omega
  mono := by
    intro initialTime now now' h h' hle
    obtain ⟨hdown, hup⟩ := toNat_getCurrentTimestamp hrate hr hlow h
    obtain ⟨hdown', hup'⟩ := toNat_getCurrentTimestamp hrate hr hlow h'
    rw [BitVec.le_def]
    generalize (getCurrentTimestamp rate initialTime now).toNat = t at hdown hup ⊢
    generalize (getCurrentTimestamp rate initialTime now').toNat = t' at hdown' hup' ⊢
    have hnormal := h.normal
    have hnormal' := h'.normal
    obtain ⟨hn, hn'⟩ := hnormal
    obtain ⟨hm, hm'⟩ := hnormal'
    have hsec : now.sec - initialTime.sec ≤ now'.sec - initialTime.sec := by
      unfold Timeval.micros at hle
      omega
    have hexact : (now.sec - initialTime.sec) * 1000000 * r + (now.usec - initialTime.usec) * r
        ≤ (now'.sec - initialTime.sec) * 1000000 * r + (now'.usec - initialTime.usec) * r := by
      have hprod : (now.micros - initialTime.micros) * r ≤ (now'.micros - initialTime.micros) * r :=
        Int.mul_le_mul_of_nonneg_right (by omega) (by omega)
      unfold Timeval.micros at hprod
      calc _ = _ := by ring
        _ ≤ _ := hprod
        _ = _ := by ring
    rcases le_total 0 (now.usec - initialTime.usec) with hpos | hneg
    · have hlower := (hdown hpos).1
      rcases le_total 0 (now'.usec - initialTime.usec) with hpos' | hneg'
      · have hupper := (hdown' hpos').2
        omega
      · have hupper := (hup' hneg').2
        omega
    · rcases le_total 0 (now'.usec - initialTime.usec) with hpos' | hneg'
      · -- the seconds lie between the two
        have hbelow : (now.usec - initialTime.usec) * r ≤ 0 :=
          Int.mul_nonpos_of_nonpos_of_nonneg hneg (by omega)
        have habove : 0 ≤ (now'.usec - initialTime.usec) * r := Int.mul_nonneg hpos' (by omega)
        have hsecs : (now.sec - initialTime.sec) * 1000 * r
            ≤ (now'.sec - initialTime.sec) * 1000 * r :=
          Int.mul_le_mul_of_nonneg_right (by omega) (by omega)
        have hlower := (hup hneg).1
        have hupper := (hdown' hpos').2
        have heq : (now.sec - initialTime.sec) * 1000000 * r
            = 1000 * ((now.sec - initialTime.sec) * 1000 * r) := by ring
        have heq' : (now'.sec - initialTime.sec) * 1000000 * r
            = 1000 * ((now'.sec - initialTime.sec) * 1000 * r) := by ring
        omega
      · have hlower := (hup hneg).1
        have hupper := (hup' hneg').2
        omega

/-- The first microsecond of a second at which a product does not fit an `int32`. -/
theorem exists_overflowing {r : ℕ} (hlow : 2148 ≤ r) :
    ∃ u, u < 1000000 ∧ 2147483648 ≤ r * u ∧ r * u < 2147483648 + r := by
  have hdiv := Nat.div_add_mod (2147483648 + (r - 1)) r
  have hmod := Nat.mod_lt (2147483648 + (r - 1)) (show r > 0 by omega)
  have hlt : (2147483648 + (r - 1)) / r < 1000000 :=
    (Nat.div_lt_iff_lt_mul (by omega)).mpr (by omega)
  generalize (2147483648 + (r - 1)) / r = u at hdiv hlt
  exact ⟨u, hlt, by omega, by omega⟩

/-- At 2148 kHz and above, **the microseconds of a second overflow an `int32`**. -/
theorem rate_lt_of_accurateTimestamps (h : AccurateTimestamps rate) : rate.toNat < 2148000 := by
  by_contra hhigh
  have hlt := rate.isLt
  obtain ⟨u, hu, hover, hover'⟩ :=
    exists_overflowing (show 2148 ≤ rate.toNat / 1000 by omega)
  have hrate : (u : ℤ) * rate.toNat
      = 1000 * (rate.toNat / 1000 * u : ℕ) + (rate.toNat % 1000 * u : ℕ) := by
    conv_lhs => rw [← Nat.div_add_mod rate.toNat 1000]
    push_cast
    ring
  have hrest : rate.toNat % 1000 * u ≤ 1000 * 1000000 := Nat.mul_le_mul (by omega) (by omega)
  have hprod : ((u : ℤ) - 0) * (rate.toNat / 1000 : ℕ) = (rate.toNat / 1000 * u : ℕ) := by
    push_cast
    ring
  have hr : rate.toNat / 1000 ≤ 4294967 := by omega
  generalize rate.toNat / 1000 * u = x at hover hover' hrate hprod
  generalize rate.toNat % 1000 * u = y at hrate hrest
  have hneg : 0 ≤ 4294967296 - (x : ℤ) := by omega
  have hzero : (⟨0, 0⟩ : Timeval).micros = 0 := rfl
  have hmicros : (⟨0, u⟩ : Timeval).micros = u := by
    show (0 : ℤ) * 1000000 + u = u
    omega
  have hnormal : (⟨0, u⟩ : Timeval).Normal :=
    ⟨Int.natCast_nonneg u, show (u : ℤ) < 1000000 by omega⟩
  have hclose := h.close ⟨0, 0⟩ ⟨0, u⟩ ⟨⟨le_rfl, by norm_num⟩, hnormal,
    by rw [hzero, hmicros]; omega, by rw [hzero, hmicros, Int.sub_zero, hrate]; omega⟩
  have hwrap : (x : ℤ).bmod (2 ^ 32) = x - 4294967296 := by
    rw [Int.bmod_def]
    norm_num
    split_ifs <;> omega
  have htdiv : ((x : ℤ) - 4294967296).tdiv 1000 = -((4294967296 - (x : ℤ)) / 1000) := by
    rw [← Int.tdiv_eq_ediv_of_nonneg hneg, ← Int.neg_tdiv, Int.neg_sub]
  rw [hzero, hmicros, Int.sub_zero, hrate, getCurrentTimestamp_eq, BitVec.toNat_ofInt] at hclose
  dsimp only at hclose
  rw [hprod, hwrap, htdiv, Int.sub_zero, Int.zero_mul, Int.add_zero, abs_le] at hclose
  norm_num at hclose
  omega

/-! ## Both directions -/

/-- **When the clock conversions are accurate and monotone**: for rates of whole kilohertz below
2148 kHz. -/
theorem conversions_iff (hrate : 1000 ≤ rate.toNat) :
    (AccurateTimes rate ∧ AccurateTimestamps rate) ↔
      1000 ∣ rate.toNat ∧ rate.toNat < 2148000 := by
  constructor
  · rintro ⟨htimes, hstamps⟩
    exact ⟨kilohertz_of_accurateTimes hrate htimes, rate_lt_of_accurateTimestamps hstamps⟩
  · rintro ⟨⟨r, hr⟩, hlow⟩
    exact ⟨accurateTimes_of_kilohertz hr (by omega),
      accurateTimestamps_of_kilohertz hr (by omega) (by omega)⟩

/-- The theorem for the rate of audio at 8 kHz. -/
theorem conversions_iff_audio :
    (AccurateTimes 8000 ∧ AccurateTimestamps 8000) ↔
      1000 ∣ (8000 : BitVec 32).toNat ∧ (8000 : BitVec 32).toNat < 2148000 :=
  conversions_iff (by decide)

/-- **The offset 11014 at the static rate 11015 has more than a million microseconds.** -/
theorem last_offset_of_second : ¬ (AccurateTimes 11015 ∧ AccurateTimestamps 11015) := by
  rintro ⟨h, -⟩
  exact absurd (h.normal 11014) (by decide)
