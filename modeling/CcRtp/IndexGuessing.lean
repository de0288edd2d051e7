/-
# Index guessing picks the nearest index

A receiver sees 16 bits of a packet index of 48 bits.  `guessIndex` (`src/CryptoContext.cpp`) makes
up the rest from the stored index; here that is compared with the rule that it is to implement, the
nearest index on the circle of `2 ^ 48` that ends in the 16 bits.

* `circularDistance_le_iff` : a distance is the length of a step;
* `modEq_of_near` : two numbers of one residue class are not both near the same number;
* `guessIndex_nearest` : the index that is guessed, for every stored index and sequence number.
-/
import CcRtp.CryptoContext

/-! ## Distances on a circle -/

/-- The distance of two numbers modulo `n`, the shorter way round. -/
def circularDistance (n : ℕ) (a b : ℤ) : ℕ := ((a - b).bmod n).natAbs

/-- A balanced remainder is not larger than the number. -/
theorem natAbs_bmod_le {n : ℕ} (hn : 0 < n) (e : ℤ) : (e.bmod n).natAbs ≤ e.natAbs := by
  have hlow := Int.le_bmod (x := e) hn
  have hhigh := Int.bmod_le (x := e) hn
  by_cases hsmall : -((n : ℤ) / 2) ≤ e ∧ e < ((n : ℤ) + 1) / 2
  · have hself : e.bmod n = e := (Int.bmod_eq_iff hn).mpr
      ⟨hsmall.1, hsmall.2, by rw [sub_self]; exact dvd_zero _⟩
    rw [hself]
  · omega

section Circle

variable {n p : ℕ} {a b v w i : ℤ} {d : ℕ}

/-- **A distance is the length of a step** that leads from the one number to the other. -/
theorem circularDistance_le_iff (hn : 0 < n) :
    circularDistance n a b ≤ d ↔ ∃ e : ℤ, e.natAbs ≤ d ∧ a ≡ b + e [ZMOD n] := by
  unfold circularDistance
  constructor
  · intro h
    refine ⟨(a - b).bmod n, h, Int.modEq_iff_dvd.mpr ?_⟩
    have hdvd := Int.dvd_bmod_sub_self (x := a - b) (m := n)
    have hstep : b + (a - b).bmod n - a = (a - b).bmod n - (a - b) := by ring
    rw [hstep]
    exact hdvd
  · rintro ⟨e, he, hae⟩
    obtain ⟨c, hc⟩ := Int.modEq_iff_dvd.mp hae
    have hab : a - b = e - n * c := by
      rw [← hc]
      ring
    rw [hab, Int.sub_mul_bmod_self_left]
    exact (natAbs_bmod_le hn e).trans he

/-- **Two numbers of one residue class** are not both near the same number. -/
theorem modEq_of_near (hn : 0 < n) (hp : (p : ℤ) ∣ n) (hvw : v ≡ w [ZMOD p])
    (hnear : circularDistance n v i + circularDistance n w i < p) : v ≡ w [ZMOD n] := by
  obtain ⟨e, he, hv⟩ := (circularDistance_le_iff (a := v) (b := i) hn).mp le_rfl
  obtain ⟨f, hf, hw⟩ := (circularDistance_le_iff (a := w) (b := i) hn).mp le_rfl
  have hsteps : i + e ≡ i + f [ZMOD p] := (hv.of_dvd hp).symm.trans (hvw.trans (hw.of_dvd hp))
  have hdvd : (p : ℤ) ∣ f - e := Int.modEq_iff_dvd.mp (Int.ModEq.add_left_cancel' i hsteps)
  have hzero : f - e = 0 := Int.eq_zero_of_dvd_of_natAbs_lt_natAbs hdvd (by omega)
  have hef : e = f := by omega
  rw [hef] at hv
  exact hv.trans hw.symm

end Circle

/-! ## The index that is guessed -/

namespace CryptoContext

/-- The numbers that `guessIndex` may answer with: the 48-bit indices that end in the sequence
number and are not farther than half a period of sequence numbers from the stored index. -/
structure NearIndex (ctx : CryptoContext) (newSeqNb : BitVec 16) (v : ℕ) : Prop where
  lt : v < 2 ^ 48
  ends : v ≡ newSeqNb.toNat [MOD 2 ^ 16]
  near : circularDistance (2 ^ 48) v ctx.index ≤ 2 ^ 15

/-- **The rollover counter that is guessed** is the stored one, or one period before or behind it,
and the step from the stored index is half a period at most. -/
theorem guessRoc_step (roc : BitVec 32) (sL newSeqNb : BitVec 16) :
    ∃ k : ℤ, (guessRoc roc sL newSeqNb).toNat ≡ roc.toNat + k [ZMOD 2 ^ 32] ∧
      (k * 2 ^ 16 + newSeqNb.toNat - sL.toNat).natAbs ≤ 2 ^ 15 := by
  have hone : (1 : BitVec 32).toNat = 1 := rfl
  have hroc := roc.isLt
  have hsL := sL.isLt
  have hseq := newSeqNb.isLt
  unfold guessRoc
  split_ifs with hlow hahead hbehind
  · refine ⟨-1, ?_, by omega⟩
    rw [BitVec.toNat_sub, hone]
    unfold Int.ModEq
    omega
  · exact ⟨0, by rw [add_zero], by omega⟩
  · refine ⟨1, ?_, by omega⟩
    rw [BitVec.toNat_add, hone]
    unfold Int.ModEq
    omega
  · exact ⟨0, by rw [add_zero], by omega⟩

/-- The joined index lies near the stored one. -/
theorem nearIndex_joinIndex (ctx : CryptoContext) (newSeqNb : BitVec 16) :
    ctx.NearIndex newSeqNb (joinIndex (guessRoc ctx.roc ctx.sL newSeqNb) newSeqNb).toNat := by
  have hseq := newSeqNb.isLt
  have hguess := (guessRoc ctx.roc ctx.sL newSeqNb).isLt
  obtain ⟨k, hk, hstep⟩ := guessRoc_step ctx.roc ctx.sL newSeqNb
  rw [toNat_joinIndex]
  refine ⟨by omega, ?_, ?_⟩
  · unfold Nat.ModEq
    rw [Nat.mul_add_mod']
  · refine (circularDistance_le_iff (Nat.two_pow_pos 48)).mpr ⟨_, hstep, ?_⟩
    have hmod : ((2 ^ 48 : ℕ) : ℤ) = 2 ^ 32 * 2 ^ 16 := by norm_num
    -- a period more in the rollover counter is a period more in the index
    have hperiod := (Int.ModEq.mul_right' (c := 2 ^ 16) hk).add_right (newSeqNb.toNat : ℤ)
    rw [hmod]
    calc (((guessRoc ctx.roc ctx.sL newSeqNb).toNat * 2 ^ 16 + newSeqNb.toNat : ℕ) : ℤ)
        = (guessRoc ctx.roc ctx.sL newSeqNb).toNat * 2 ^ 16 + newSeqNb.toNat := by
          push_cast
          ring
      _ ≡ (ctx.roc.toNat + k) * 2 ^ 16 + newSeqNb.toNat [ZMOD 2 ^ 32 * 2 ^ 16] := hperiod
      _ = ctx.index + (k * 2 ^ 16 + newSeqNb.toNat - ctx.sL.toNat) := by
          rw [index]
          push_cast
          ring

/-- **Index guessing picks the nearest index.**  Once a context has seen a packet, `guessIndex`
answers with an index that ends in the sequence number and is nearest to the stored one on the
circle of `2 ^ 48`; it leaves the rollover counter, the highest sequence number and the replay
window as they are.  Below half a period no other such index is as near. -/
theorem guessIndex_nearest (ctx : CryptoContext) (hset : ctx.seqNumSet = true)
    (newSeqNb : BitVec 16) :
    ctx.NearIndex newSeqNb (ctx.guessIndex newSeqNb).1.toNat ∧
      (ctx.guessIndex newSeqNb).2.roc = ctx.roc ∧ (ctx.guessIndex newSeqNb).2.sL = ctx.sL ∧
      (ctx.guessIndex newSeqNb).2.replayWindow = ctx.replayWindow ∧
      (circularDistance (2 ^ 48) (ctx.guessIndex newSeqNb).1.toNat ctx.index < 2 ^ 15 →
        ∀ w, ctx.NearIndex newSeqNb w → w = (ctx.guessIndex newSeqNb).1.toNat) := by
  rw [guessIndex_of_set hset]
  dsimp only
  have hnear := ctx.nearIndex_joinIndex newSeqNb
  set v := (joinIndex (guessRoc ctx.roc ctx.sL newSeqNb) newSeqNb).toNat with hv
  refine ⟨hnear, rfl, rfl, rfl, fun hlt w hw => ?_⟩
  have hends : (w : ℤ) ≡ v [ZMOD (2 ^ 16 : ℕ)] :=
    Int.natCast_modEq_iff.mpr (hw.ends.trans hnear.ends.symm)
  have hboth : circularDistance (2 ^ 48) w ctx.index + circularDistance (2 ^ 48) v ctx.index
      < 2 ^ 16 := by
    have hle := hw.near
    omega
  have hsame := modEq_of_near (Nat.two_pow_pos 48) (by decide) hends hboth
  exact (Int.natCast_modEq_iff.mp hsame).eq_of_lt_of_lt hw.lt hnear.lt

/-- The theorem right behind a wrap of the sequence number. -/
theorem guessIndex_nearest_wrap :
    ({ aesCmSha1 0 7 with seqNumSet := true, sL := 3 } : CryptoContext).NearIndex 65534
      (({ aesCmSha1 0 7 with seqNumSet := true, sL := 3 } : CryptoContext).guessIndex
        65534).1.toNat :=
  (guessIndex_nearest { aesCmSha1 0 7 with seqNumSet := true, sL := 3 } rfl 65534).1

end CryptoContext
