/-
# Sliding replay windows

The abstract side of replay protection: which indices a receiver that remembers
the last `W` indices below its highest accepted one may accept (`Acceptable`), and
how a machine word of `n` bits represents the accepted indices relative to a moving
head (`Marks`).

A machine shift is defined by the language only for counts below the operand's
width.  `ShiftUnit` carries a target's shift instructions with exactly those
guarantees; what it does with other counts is the target's own business.

* `Acceptable.notMem` : an acceptable index was not accepted before;
* `Marks.bit_clear` : the word answers whether an index below the head is new;
* `Marks.advance` : shifting the word left moves the head forward.
-/
import Mathlib

/-! ## Which indices may be accepted -/

/-- `i` lies above every index of `A`, or is at most `W - 1` below the highest of
them and not among them. -/
def Acceptable (W : ℕ) (A : List ℕ) (i : ℕ) : Prop :=
  (∀ a ∈ A, a < i) ∨ (i ∉ A ∧ ∀ a ∈ A, a < i + W)

instance (W : ℕ) (A : List ℕ) (i : ℕ) : Decidable (Acceptable W A i) :=
  inferInstanceAs (Decidable (_ ∨ _))

/-- An acceptable index is a new one. -/
theorem Acceptable.notMem {W : ℕ} {A : List ℕ} {i : ℕ} (h : Acceptable W A i) : i ∉ A := by
  rcases h with h | ⟨h, -⟩
  · intro hi
    exact lt_irrefl i (h i hi)
  · exact h

/-- Acceptability relative to the highest accepted index. -/
theorem acceptable_iff_of_max {W : ℕ} {A : List ℕ} {i h : ℕ} (hmem : h ∈ A)
    (hmax : ∀ a ∈ A, a ≤ h) : Acceptable W A i ↔ h < i ∨ (i ∉ A ∧ h < i + W) := by
  have habove : (∀ a ∈ A, a < i) ↔ h < i :=
    ⟨fun H => H h hmem, fun H a ha => lt_of_le_of_lt (hmax a ha) H⟩
  have hbelow : (∀ a ∈ A, a < i + W) ↔ h < i + W :=
    ⟨fun H => H h hmem, fun H a ha => lt_of_le_of_lt (hmax a ha) H⟩
  rw [Acceptable, habove, hbelow]

/-! ## The window as a machine word -/

/-- Bit `k` of `w` tells whether the index `k` below the head `h` is in `A`. -/
def Marks {n : ℕ} (w : BitVec n) (h : ℕ) (A : List ℕ) : Prop :=
  ∀ k < n, w.getLsbD k = true ↔ k ≤ h ∧ h - k ∈ A

/-- The word `1` has its low bit set and no other. -/
theorem getLsbD_one_iff {n k : ℕ} (hk : k < n) : (1 : BitVec n).getLsbD k = true ↔ k = 0 := by
  simp only [BitVec.ofNat_eq_ofNat, BitVec.getLsbD_one, Bool.and_eq_true,
    decide_eq_true_eq]
  omega

/-- A window with its low bit set marks the head alone. -/
theorem marks_one {n : ℕ} (h : ℕ) : Marks (1 : BitVec n) h [h] := by
  intro k hk
  rw [getLsbD_one_iff hk, List.mem_singleton]
  omega

/-- **The head moves forward.**  Shifting by the distance `d` and setting the low
bit marks the old indices and the new head. -/
theorem Marks.advance {n : ℕ} {w : BitVec n} {h d : ℕ} {A : List ℕ} (hw : Marks w h A)
    (hA : ∀ a ∈ A, a ≤ h) (hd : 0 < d) :
    Marks (w <<< d ||| 1) (h + d) ((h + d) :: A) := by
  intro k hk
  rw [BitVec.getLsbD_or, Bool.or_eq_true, getLsbD_one_iff hk, BitVec.getLsbD_shiftLeft]
  simp only [hk, decide_true, Bool.true_and, Bool.and_eq_true, Bool.not_eq_true',
    decide_eq_false_iff_not, List.mem_cons]
  by_cases hkd : k < d
  · -- the low `d` bits are shifted in as zeros, and no accepted index lies up there
    have hnot : h + d - k ∉ A := fun hmem => by
      have := hA _ hmem
      omega
    simp only [hkd, not_true_eq_false, false_and, false_or, hnot, or_false]
    omega
  · have hbit := hw (k - d) (by omega)
    rw [hbit, show h - (k - d) = h + d - k by omega]
    simp only [hkd, not_false_eq_true, true_and]
    constructor
    · rintro (⟨hle, hmem⟩ | rfl)
      · exact ⟨by omega, Or.inr hmem⟩
      · omega
    · rintro ⟨hle, heq | hmem⟩
      · right; omega
      · left
        exact ⟨by omega, hmem⟩

/-- Reading a bit of the window by shifting it down. -/
theorem bit_clear_iff {n : ℕ} (hn : 0 < n) (w : BitVec n) (k : ℕ) :
    w >>> k &&& 1 = 0 ↔ w.getLsbD k = false := by
  have hbit : (w >>> k &&& 1 : BitVec n).getLsbD 0 = w.getLsbD k := by
    simp [hn]
  constructor
  · intro h
    rw [← hbit, h]
    simp
  · intro h
    apply BitVec.eq_of_getLsbD_eq
    intro j hj
    by_cases hj0 : j = 0
    · subst hj0
      rw [hbit, h]
      simp
    · have hone : (1 : BitVec n).getLsbD j = false := by
        simp [hj0]
      rw [BitVec.getLsbD_and, hone]
      simp

/-- The window answers whether the index `k` below the head is new. -/
theorem Marks.bit_clear {n : ℕ} {w : BitVec n} {h k : ℕ} {A : List ℕ}
    (hw : Marks w h A) (hk : k < n) (hkh : k ≤ h) : w >>> k &&& 1 = 0 ↔ h - k ∉ A := by
  rw [bit_clear_iff (by omega), ← Bool.not_eq_true, hw k hk]
  simp [hkh]

/-! ## Machine shifts -/

/-- The shift instructions of a target.  The language fixes their results only for
counts from `0` to the operand's width less one. -/
structure ShiftUnit where
  shl64 : BitVec 64 → ℤ → BitVec 64
  shr64 : BitVec 64 → ℤ → BitVec 64
  shl32 : BitVec 32 → ℤ → BitVec 32
  shl64_of_lt : ∀ x (k : ℕ), k < 64 → shl64 x k = x <<< k
  shr64_of_lt : ∀ x (k : ℕ), k < 64 → shr64 x k = x >>> k
  shl32_of_lt : ∀ x (k : ℕ), k < 32 → shl32 x k = x <<< k

/-- The shift instructions of x86-64, which take the count modulo the width. -/
def ShiftUnit.x86 : ShiftUnit where
  shl64 := fun x c => x <<< (c % 64).toNat
  shr64 := fun x c => x >>> (c % 64).toNat
  shl32 := fun x c => x <<< (c % 32).toNat
  shl64_of_lt := fun x k hk => by
    rw [show ((k : ℤ) % 64).toNat = k by omega]
  shr64_of_lt := fun x k hk => by
    rw [show ((k : ℤ) % 64).toNat = k by omega]
  shl32_of_lt := fun x k hk => by
    rw [show ((k : ℤ) % 32).toNat = k by omega]
