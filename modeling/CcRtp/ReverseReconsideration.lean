/-
# Reverse reconsideration

Models `reverseReconsideration` (`src/control.cpp`).  When members leave, the time of the next RTCP
packet is to be brought nearer and that of the previous one too, in proportion to the members that
are left.  The distances are scaled in 32-bit microseconds, and both of them are added to the
current time.

* `toNat_scaled` : what becomes of a distance;
* `reverse_reconsideration_iff` : when both times are the reconsidered ones.
-/
import CcRtp.TimeArithmetic

/-! ## The function of the source -/

/-- `reconsInfo`: the times of the previous and the next RTCP packet, the current time, and the
number of members when the next packet was scheduled. -/
structure ReconsInfo where
  rtcpTp : Timeval
  rtcpTc : Timeval
  rtcpTn : Timeval
  rtcpPMembers : BitVec 32

/-- A count of microseconds as a time: `inc`. -/
def incOf (t : BitVec 32) : Timeval := ⟨(t / 1000000).toNat, (t % 1000000).toNat⟩

namespace ReconsInfo

variable (r : ReconsInfo) (members : BitVec 32)

/-- The distance from `a` to `b`, a `microtimeout_t`, times the members over the previous ones. -/
def scaled (a b : Timeval) : BitVec 32 :=
  let t : BitVec 32 := .ofInt 32 ((b.sec - a.sec) * 1000000 + (b.usec - a.usec))
  t * members / r.rtcpPMembers

/-- `reverseReconsideration()`, with `getMembersCount()`. -/
def reverseReconsideration : ReconsInfo :=
  let r :=
    if members < r.rtcpPMembers then
      { r with
        rtcpTn := timeradd r.rtcpTc (incOf (r.scaled members r.rtcpTc r.rtcpTn))
        -- added to the current time, too
        rtcpTp := timeradd r.rtcpTc (incOf (r.scaled members r.rtcpTp r.rtcpTc)) }
    else r
  { r with rtcpPMembers := members }

/-! ## What it should do -/

/-- The times have been reconsidered: both distances are scaled down. -/
structure Reconsidered (r' : ReconsInfo) : Prop where
  next : r'.rtcpTn.micros = r.rtcpTc.micros
    + (r.rtcpTn.micros - r.rtcpTc.micros) * members.toNat / r.rtcpPMembers.toNat
  previous : r'.rtcpTp.micros = r.rtcpTc.micros
    - (r.rtcpTc.micros - r.rtcpTp.micros) * members.toNat / r.rtcpPMembers.toNat
  current : r'.rtcpTc = r.rtcpTc
  ordered : r'.rtcpTp.micros ≤ r'.rtcpTc.micros ∧ r'.rtcpTc.micros ≤ r'.rtcpTn.micros
  members : r'.rtcpPMembers = members

/-- The law: with fewer members the times are reconsidered, else only the number of members is
stored. -/
def ReconsidersTimes : Prop :=
  (members < r.rtcpPMembers → r.Reconsidered members (r.reverseReconsideration members)) ∧
    (r.rtcpPMembers ≤ members →
      r.reverseReconsideration members = { r with rtcpPMembers := members })

/-! ## What it does -/

variable {r members} {a b : Timeval}

theorem micros_incOf (t : BitVec 32) : (incOf t).micros = t.toNat := by
  unfold incOf Timeval.micros
  dsimp only
  rw [BitVec.toNat_udiv, BitVec.toNat_umod]
  have hmillion : (1000000 : BitVec 32).toNat = 1000000 := rfl
  rw [hmillion]
  omega

/-- **A scaled distance**: the product is cut to 32 bits before it is divided. -/
theorem toNat_scaled {d : ℕ} (hd : b.micros - a.micros = d) (hlt : d < 2 ^ 32) :
    (r.scaled members a b).toNat = d * members.toNat % 2 ^ 32 / r.rtcpPMembers.toNat := by
  unfold scaled
  dsimp only
  rw [ofInt_sub_eq, hd, BitVec.ofInt_natCast, BitVec.toNat_udiv, BitVec.toNat_mul,
    BitVec.toNat_ofNat, Nat.mod_eq_of_lt hlt]

/-- Cut to 32 bits, the product gives the same quotient only if nothing was cut off. -/
theorem mod_div_eq_iff {x p : ℕ} (hp : 0 < p) (hlt : p < 2 ^ 32) :
    x % 2 ^ 32 / p = x / p ↔ x < 2 ^ 32 := by
  constructor
  · intro h
    by_contra hge
    have hle : x % 2 ^ 32 + p ≤ x := by omega
    have hdiv := Nat.div_le_div_right (c := p) hle
    rw [Nat.add_div_right _ hp] at hdiv
    omega
  · intro h
    rw [Nat.mod_eq_of_lt h]

/-- The times after the call, with fewer members. -/
theorem reverseReconsideration_of_lt (hlt : members < r.rtcpPMembers) {dn dp : ℕ}
    (hdn : r.rtcpTn.micros - r.rtcpTc.micros = dn) (hdp : r.rtcpTc.micros - r.rtcpTp.micros = dp)
    (hn : dn < 2 ^ 32) (hp : dp < 2 ^ 32) :
    (r.reverseReconsideration members).rtcpTn.micros = r.rtcpTc.micros
        + (dn * members.toNat % 2 ^ 32 / r.rtcpPMembers.toNat : ℕ) ∧
      (r.reverseReconsideration members).rtcpTp.micros = r.rtcpTc.micros
        + (dp * members.toNat % 2 ^ 32 / r.rtcpPMembers.toNat : ℕ) ∧
      (r.reverseReconsideration members).rtcpTc = r.rtcpTc ∧
      (r.reverseReconsideration members).rtcpPMembers = members := by
  unfold reverseReconsideration
  rw [if_pos hlt]
  refine ⟨?_, ?_, rfl, rfl⟩
  · rw [micros_timeradd, micros_incOf, toNat_scaled hdn hn]
  · rw [micros_timeradd, micros_incOf, toNat_scaled hdp hp]

/-- **When reverse reconsideration scales both times**: the product for the next packet fits
32 bits, and the previous packet is so near that its scaled distance is zero. -/
theorem reverse_reconsideration_iff (r : ReconsInfo) (members : BitVec 32)
    (hprevious : r.rtcpTp.micros ≤ r.rtcpTc.micros) (hnext : r.rtcpTc.micros ≤ r.rtcpTn.micros)
    (hp : r.rtcpTc.micros - r.rtcpTp.micros < 4000000000)
    (hn : r.rtcpTn.micros - r.rtcpTc.micros < 4000000000) (hpos : 0 < members.toNat) :
    r.ReconsidersTimes members ↔ r.rtcpPMembers ≤ members ∨
      ((r.rtcpTn.micros - r.rtcpTc.micros) * members.toNat < 2 ^ 32 ∧
        (r.rtcpTc.micros - r.rtcpTp.micros) * members.toNat < r.rtcpPMembers.toNat) := by
  obtain ⟨dn, hdn⟩ := Int.eq_ofNat_of_zero_le (Int.sub_nonneg_of_le hnext)
  obtain ⟨dp, hdp⟩ := Int.eq_ofNat_of_zero_le (Int.sub_nonneg_of_le hprevious)
  have hdn' : dn < 2 ^ 32 := by omega
  have hdp' : dp < 2 ^ 32 := by omega
  by_cases hlt : members < r.rtcpPMembers
  · have hfew : members.toNat < r.rtcpPMembers.toNat := hlt
    have hbound := r.rtcpPMembers.isLt
    have hnot : ¬ r.rtcpPMembers ≤ members := BitVec.not_le.mpr hlt
    obtain ⟨htn, htp, htc, hmembers⟩ := reverseReconsideration_of_lt hlt hdn hdp hdn' hdp'
    set m := members.toNat with hm
    set p := r.rtcpPMembers.toNat with hpm
    obtain ⟨qn, hqn⟩ : ∃ q : ℕ, q = dn * m / p := ⟨_, rfl⟩
    obtain ⟨qp, hqp⟩ : ∃ q : ℕ, q = dp * m / p := ⟨_, rfl⟩
    have hscaledn : (r.rtcpTn.micros - r.rtcpTc.micros) * (m : ℤ) / (p : ℤ) = qn := by
      rw [hdn, hqn]
      norm_cast
    have hscaledp : (r.rtcpTc.micros - r.rtcpTp.micros) * (m : ℤ) / (p : ℤ) = qp := by
      rw [hdp, hqp]
      norm_cast
    have hfits : (r.rtcpTn.micros - r.rtcpTc.micros) * (m : ℤ) < 2 ^ 32 ↔
        dn * m % 2 ^ 32 / p = qn := by
      rw [hdn, hqn, mod_div_eq_iff (by omega) hbound]
      norm_cast
    have hnear : (r.rtcpTc.micros - r.rtcpTp.micros) * (m : ℤ) < (p : ℤ) ↔ qp = 0 := by
      rw [hdp, hqp, Nat.div_eq_zero_iff_lt (by omega)]
      norm_cast
    have hcut : dp * m % 2 ^ 32 / p ≤ qp := by
      rw [hqp]
      exact Nat.div_le_div_right (Nat.mod_le _ _)
    rw [or_iff_right hnot, hfits, hnear]
    generalize dn * m % 2 ^ 32 / p = cn at htn ⊢
    generalize dp * m % 2 ^ 32 / p = cp at htp hcut ⊢
    constructor
    · rintro ⟨hreconsidered, -⟩
      obtain ⟨hnext', hprevious', -, -, -⟩ := hreconsidered hlt
      rw [htn, ← hm, ← hpm, hscaledn] at hnext'
      rw [htp, ← hm, ← hpm, hscaledp] at hprevious'
      -- what was added to the current time should have been subtracted, so it is zero
      exact ⟨by omega, by omega⟩
    · rintro ⟨hcn, hzero⟩
      refine ⟨fun _ => ⟨?_, ?_, htc, ⟨?_, ?_⟩, hmembers⟩, fun hle => absurd hle hnot⟩
      · rw [htn, ← hm, ← hpm, hscaledn, hcn]
      · rw [htp, ← hm, ← hpm, hscaledp]
        omega
      · rw [htp, htc]
        omega
      · rw [htn, htc]
        omega
  · have hle : r.rtcpPMembers ≤ members := BitVec.not_lt.mp hlt
    refine ⟨fun _ => Or.inl hle, fun _ => ⟨fun h => absurd h hlt, fun _ => ?_⟩⟩
    unfold reverseReconsideration
    rw [if_neg hlt]

/-- A session with two members: the last packet 10 s ago, the next one in 10 s. -/
def twoMembers : ReconsInfo := ⟨⟨90, 0⟩, ⟨100, 0⟩, ⟨110, 0⟩, 2⟩

/-- The theorem where nothing was sent before the current time. -/
theorem reverse_reconsideration_iff_first :
    ({ twoMembers with rtcpTp := ⟨100, 0⟩ } : ReconsInfo).ReconsidersTimes 1 :=
  (reverse_reconsideration_iff { twoMembers with rtcpTp := ⟨100, 0⟩ } 1 (by decide) (by decide)
    (by decide) (by decide) (by decide)).mpr (Or.inr ⟨by decide, by decide⟩)

/-- **When one of two members leaves**, the previous packet is said to be still to come. -/
theorem previous_packet_in_future : ¬ twoMembers.ReconsidersTimes 1 := by
  rintro ⟨h, -⟩
  exact absurd (h (by decide)).ordered.1 (by decide)

end ReconsInfo
