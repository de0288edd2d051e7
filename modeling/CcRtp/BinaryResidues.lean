/-
# Bit vectors as residues of binary polynomials

A bit vector of width `w` is a polynomial of degree below `w` over the field of two elements, and
the bit vectors of that width are the residues modulo a polynomial `X ^ w + m`.  Shifting, XOR and a
fixed constant are enough to multiply and to divide by `X` there, and from this everything else is
built.

* `residue_injective` : different bit vectors are different residues;
* `residue_xor`, `residue_timesX`, `residue_divX`, `residue_mul` : what the operations on bits
  compute.
-/
import Mathlib

open Polynomial

/-! ## Polynomials -/

namespace BinaryResidues

variable {w : ℕ}

/-- The polynomial with the bits as coefficients. -/
noncomputable def toPoly (b : BitVec w) : (ZMod 2)[X] :=
  ∑ i ∈ Finset.range w, if b.getLsbD i then X ^ i else 0

/-- The coefficients are the bits. -/
theorem coeff_toPoly (b : BitVec w) (n : ℕ) :
    (toPoly b).coeff n = if b.getLsbD n then 1 else 0 := by
  have hterm : ∀ i, (if b.getLsbD i then X ^ i else (0 : (ZMod 2)[X])).coeff n =
      if n = i then (if b.getLsbD n then 1 else 0) else 0 := by
    intro i
    by_cases hi : n = i
    · subst hi
      rw [if_pos rfl]
      split_ifs
      · rw [coeff_X_pow_self]
      · rw [coeff_zero]
    · rw [if_neg hi]
      split_ifs
      · rw [coeff_X_pow, if_neg hi]
      · rw [coeff_zero]
  rw [toPoly, finsetSum_coeff, Finset.sum_congr rfl (fun i _ => hterm i), Finset.sum_ite_eq]
  split_ifs with hn hb hb
  · rfl
  · rfl
  · exact absurd (Finset.mem_range.mpr (BitVec.lt_of_getLsbD hb)) hn
  · rfl

/-- The bits are determined by the polynomial. -/
theorem toPoly_injective : Function.Injective (toPoly : BitVec w → (ZMod 2)[X]) := by
  intro a b h
  refine BitVec.eq_of_getLsbD_eq fun i _ => ?_
  have hcoeff : (toPoly a).coeff i = (toPoly b).coeff i := by rw [h]
  rw [coeff_toPoly, coeff_toPoly] at hcoeff
  cases ha : a.getLsbD i <;> cases hb : b.getLsbD i <;> rw [ha, hb] at hcoeff
  · exact absurd hcoeff (by decide)
  · exact absurd hcoeff (by decide)

/-- The degree is below the width. -/
theorem degree_toPoly_lt (b : BitVec w) : (toPoly b).degree < w := by
  refine (degree_lt_iff_coeff_zero _ _).mpr fun n hn => ?_
  rw [coeff_toPoly, BitVec.getLsbD_of_ge b n hn, if_neg Bool.false_ne_true]

@[simp] theorem toPoly_zero : toPoly (0 : BitVec w) = 0 := by
  ext n
  have hbit : (0 : BitVec w).getLsbD n = false := BitVec.getLsbD_zero
  rw [coeff_toPoly, hbit, if_neg Bool.false_ne_true, coeff_zero]

/-- **XOR** is addition. -/
theorem toPoly_xor (a b : BitVec w) : toPoly (a ^^^ b) = toPoly a + toPoly b := by
  ext n
  rw [coeff_add, coeff_toPoly, coeff_toPoly, coeff_toPoly, BitVec.getLsbD_xor]
  cases a.getLsbD n <;> cases b.getLsbD n <;> decide

/-- **A shift to the left** is multiplication by `X`, but for the bit that is lost. -/
theorem X_mul_toPoly (b : BitVec w) :
    X * toPoly b = toPoly (b <<< 1) + if b.msb then X ^ w else 0 := by
  ext n
  have hlost : (if b.msb then X ^ w else (0 : (ZMod 2)[X])).coeff n =
      if b.msb ∧ n = w then 1 else 0 := by
    by_cases hb : b.msb
    · rw [if_pos hb, coeff_X_pow]
      exact if_congr (and_iff_right hb).symm rfl rfl
    · rw [if_neg hb, coeff_zero, if_neg (fun hand => hb hand.1)]
  rw [coeff_add, hlost, coeff_toPoly, BitVec.getLsbD_shiftLeft, BitVec.msb_eq_getLsbD_last]
  cases n with
  | zero =>
      have hempty : ¬(b.getLsbD (w - 1) = true ∧ 0 = w) := by
        rintro ⟨hb, rfl⟩
        exact absurd (BitVec.lt_of_getLsbD hb) (Nat.not_lt_zero _)
      rw [mul_coeff_zero, coeff_X_zero, zero_mul, if_neg hempty, add_zero]
      simp
  | succ n =>
      rw [coeff_X_mul, coeff_toPoly, Nat.add_sub_cancel]
      rcases lt_trichotomy (n + 1) w with hlt | heq | hgt
      · have hkept : ¬(b.getLsbD (w - 1) = true ∧ n + 1 = w) := fun hand => absurd hand.2 hlt.ne
        rw [if_neg hkept, add_zero]
        simp [hlt]
      · have hlast : w - 1 = n := by omega
        rw [hlast]
        simp [heq]
      · have hbeyond : ¬(b.getLsbD (w - 1) = true ∧ n + 1 = w) := fun hand => absurd hand.2 hgt.ne'
        rw [BitVec.getLsbD_of_ge b n (Nat.lt_succ_iff.mp hgt), if_neg hbeyond]
        simp

/-- **A shift to the right** is division by `X` with a remainder. -/
theorem toPoly_eq_X_mul (b : BitVec w) :
    toPoly b = X * toPoly (b >>> 1) + if b.getLsbD 0 then 1 else 0 := by
  ext n
  rw [coeff_add, coeff_toPoly]
  cases n with
  | zero =>
      rw [mul_coeff_zero, coeff_X_zero, zero_mul, zero_add]
      split_ifs
      · rw [coeff_one_zero]
      · rw [coeff_zero]
  | succ n =>
      have hunit : (if b.getLsbD 0 then (1 : (ZMod 2)[X]) else 0).coeff (n + 1) = 0 := by
        split_ifs
        · rw [coeff_one, if_neg (Nat.succ_ne_zero n)]
        · rw [coeff_zero]
      rw [coeff_X_mul, coeff_toPoly, hunit, add_zero, BitVec.getLsbD_ushiftRight, Nat.add_comm]

/-- The bit vector `1` is the polynomial `1`. -/
@[simp] theorem toPoly_one (w : ℕ) : toPoly (1 : BitVec (w + 1)) = 1 := by
  have hshift : (1 : BitVec (w + 1)) >>> 1 = 0 := by
    refine BitVec.eq_of_getLsbD_eq fun i _ => ?_
    simp
  rw [toPoly_eq_X_mul, hshift, toPoly_zero, mul_zero, zero_add, if_pos]
  simp

/-! ## Residues -/

/-- The polynomial `X ^ w + m`. -/
noncomputable def modulus (m : BitVec w) : (ZMod 2)[X] := X ^ w + toPoly m

/-- The residues modulo that polynomial. -/
abbrev Residue (m : BitVec w) : Type := AdjoinRoot (modulus m)

/-- The residue of a bit vector. -/
noncomputable def residue (m b : BitVec w) : Residue m := AdjoinRoot.mk (modulus m) (toPoly b)

/-- Multiplication by `X`. -/
def timesX (m b : BitVec w) : BitVec w := b <<< 1 ^^^ if b.msb then m else 0

/-- Division by `X`, with a constant for the remainder. -/
def divX (c b : BitVec w) : BitVec w := b >>> 1 ^^^ if b.getLsbD 0 then c else 0

/-- Multiplication of the first `n` bits of one by the other. -/
def mulBits (m a b : BitVec w) : ℕ → BitVec w
  | 0 => 0
  | n + 1 => timesX m (mulBits m a b n) ^^^ if b.getMsbD n then a else 0

/-- Multiplication. -/
def mul (m a b : BitVec w) : BitVec w := mulBits m a b w

variable (m : BitVec w)

/-- The modulus is monic. -/
theorem monic_modulus : (modulus m).Monic := monic_X_pow_add (degree_toPoly_lt m)

/-- Its degree is the width. -/
theorem degree_modulus : (modulus m).degree = w := by
  rw [modulus, degree_add_eq_left_of_degree_lt, degree_X_pow]
  rw [degree_X_pow]
  exact degree_toPoly_lt m

/-- **Different bit vectors are different residues.** -/
theorem residue_injective : Function.Injective (residue m) := by
  intro a b h
  refine toPoly_injective (sub_eq_zero.mp ?_)
  by_contra hne
  refine (monic_modulus m).not_dvd_of_degree_lt hne ?_ (AdjoinRoot.mk_eq_mk.mp h)
  rw [degree_modulus]
  exact (degree_sub_le _ _).trans_lt (max_lt (degree_toPoly_lt a) (degree_toPoly_lt b))

@[simp] theorem residue_zero : residue m 0 = 0 := by
  rw [residue, toPoly_zero, map_zero]

@[simp] theorem residue_one (m : BitVec (w + 1)) : residue m 1 = 1 := by
  rw [residue, toPoly_one, map_one]

/-- XOR is addition. -/
@[simp] theorem residue_xor (a b : BitVec w) : residue m (a ^^^ b) = residue m a + residue m b := by
  rw [residue, toPoly_xor, map_add]
  rfl

/-- The residues have characteristic two. -/
theorem two_eq_zero (m : BitVec (w + 1)) : (2 : Residue m) = 0 := by
  rw [← one_add_one_eq_two, ← residue_one m, ← residue_xor, BitVec.xor_self]
  exact residue_zero m

/-- `X ^ w` is the residue of `m`. -/
theorem root_pow : AdjoinRoot.root (modulus m) ^ w = residue m m := by
  rw [← AdjoinRoot.mk_X, ← map_pow]
  refine AdjoinRoot.mk_eq_mk.mpr ?_
  rw [CharTwo.sub_eq_add]
  exact dvd_refl (modulus m)

/-- **Multiplication by `X`.** -/
@[simp] theorem residue_timesX (b : BitVec w) :
    residue m (timesX m b) = AdjoinRoot.root (modulus m) * residue m b := by
  have hmul := congrArg (AdjoinRoot.mk (modulus m)) (X_mul_toPoly b)
  rw [map_mul, AdjoinRoot.mk_X, map_add] at hmul
  rw [timesX, residue_xor]
  refine Eq.trans (congrArg (residue m (b <<< 1) + ·) ?_) hmul.symm
  split_ifs
  · rw [map_pow, AdjoinRoot.mk_X, root_pow]
  · rw [residue_zero, map_zero]

/-- **Division by `X`**, if the constant is that of `1`. -/
theorem residue_divX {c : BitVec w} (hc : X * toPoly c + 1 = modulus m) (b : BitVec w) :
    AdjoinRoot.root (modulus m) * residue m (divX c b) = residue m b := by
  have hone : AdjoinRoot.root (modulus m) * residue m c = 1 := by
    rw [residue, ← AdjoinRoot.mk_X, ← map_mul, ← map_one (AdjoinRoot.mk (modulus m))]
    refine AdjoinRoot.mk_eq_mk.mpr ?_
    rw [CharTwo.sub_eq_add, hc]
  have hsplit := congrArg (AdjoinRoot.mk (modulus m)) (toPoly_eq_X_mul b)
  rw [map_add, map_mul, AdjoinRoot.mk_X] at hsplit
  rw [divX, residue_xor, mul_add]
  refine Eq.trans (congrArg (AdjoinRoot.root (modulus m) * residue m (b >>> 1) + ·) ?_) hsplit.symm
  split_ifs
  · rw [hone, map_one]
  · rw [residue_zero, mul_zero, map_zero]

/-- **Multiplication.** -/
theorem residue_mul (a b : BitVec w) : residue m (mul m a b) = residue m a * residue m b := by
  have hbits : ∀ n, n ≤ w →
      residue m (mulBits m a b n) = residue m a * residue m (b >>> (w - n)) := by
    intro n hn
    induction n with
    | zero =>
        have hempty : b >>> (w - 0) = 0 := by
          refine BitVec.eq_of_getLsbD_eq fun i _ => ?_
          rw [BitVec.getLsbD_ushiftRight, BitVec.getLsbD_of_ge b _ (by omega)]
          exact BitVec.getLsbD_zero.symm
        rw [mulBits, hempty, residue_zero, mul_zero]
    | succ n ih =>
        have hbit : (b >>> (w - (n + 1))).getLsbD 0 = b.getMsbD n := by
          rw [BitVec.getMsbD_eq_getLsbD, BitVec.getLsbD_ushiftRight,
            decide_eq_true (Nat.lt_of_succ_le hn),
            Bool.true_and, Nat.add_zero, Nat.add_comm, Nat.sub_sub]
        have hsplit := congrArg (AdjoinRoot.mk (modulus m)) (toPoly_eq_X_mul (b >>> (w - (n + 1))))
        have hshift : b >>> (w - (n + 1)) >>> 1 = b >>> (w - n) := by
          rw [← BitVec.shiftRight_add]
          congr 1
          omega
        rw [hshift, map_add, map_mul, AdjoinRoot.mk_X, hbit] at hsplit
        rw [mulBits, residue_xor, residue_timesX, ih (by omega)]
        show _ = residue m a * AdjoinRoot.mk (modulus m) _
        rw [hsplit]
        split_ifs
        · rw [map_one]
          show _ = residue m a * (_ * residue m (b >>> (w - n)) + 1)
          ring
        · rw [map_zero, residue_zero]
          show _ = residue m a * (_ * residue m (b >>> (w - n)) + 0)
          ring
  have hall := hbits w le_rfl
  rw [Nat.sub_self, BitVec.ushiftRight_zero] at hall
  exact hall

end BinaryResidues
