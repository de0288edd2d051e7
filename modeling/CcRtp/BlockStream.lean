/-
# Streams that are taken in by blocks

A hash function takes in a message block by block, however the message arrives: what does not make
up a block is kept for later.  Some keep a whole block back, because the last one is treated
differently.

* `drain_append` : what was kept before is drained together with new input;
* `absorbBlocks_append` : what comes behind the blocks does not matter;
* `drain_absorbBlocks` : several blocks at once.
-/
import Mathlib.Data.List.Basic
import Mathlib.Algebra.Order.Group.Nat

/-- Blocks of `size` elements, of which one is taken in while more than `keep` elements are
there. -/
structure BlockStream (σ α : Type*) where
  absorb : σ → List α → σ
  size : ℕ
  keep : ℕ
  size_pos : 0 < size
  size_le : size ≤ keep + 1

namespace BlockStream

variable {σ α : Type*} (B : BlockStream σ α)

/-- Takes in blocks as long as there are enough elements, and returns the others. -/
def drain (s : σ) (m : List α) : σ × List α :=
  if B.keep < m.length then drain (B.absorb s (m.take B.size)) (m.drop B.size) else (s, m)
termination_by m.length
decreasing_by
  have hsize := B.size_pos
  rw [List.length_drop]
  omega

/-- Nothing is taken in as long as there is not too much. -/
theorem drain_of_le {s : σ} {m : List α} (h : m.length ≤ B.keep) : B.drain s m = (s, m) := by
  rw [drain, if_neg (Nat.not_lt.mpr h)]

/-- Otherwise a block is taken in first. -/
theorem drain_of_lt {s : σ} {m : List α} (h : B.keep < m.length) :
    B.drain s m = B.drain (B.absorb s (m.take B.size)) (m.drop B.size) := by
  rw [drain, if_pos h]

/-- What is left is not too much. -/
theorem length_drain_le (s : σ) (m : List α) : (B.drain s m).2.length ≤ B.keep := by
  induction s, m using drain.induct B with
  | case1 s m hlt ih =>
      rw [B.drain_of_lt hlt]
      exact ih
  | case2 s m hle =>
      rw [B.drain_of_le (Nat.not_lt.mp hle)]
      exact Nat.not_lt.mp hle

/-- **More input** may come later. -/
theorem drain_append (s : σ) (m m' : List α) :
    B.drain (B.drain s m).1 ((B.drain s m).2 ++ m') = B.drain s (m ++ m') := by
  induction s, m using drain.induct B with
  | case1 s m hlt ih =>
      have hsize : B.size ≤ m.length := B.size_le.trans hlt
      have hlong : B.keep < (m ++ m').length := by
        rw [List.length_append]
        exact hlt.trans_le (Nat.le_add_right _ _)
      rw [B.drain_of_lt hlt, ih, B.drain_of_lt hlong, List.take_append_of_le_length hsize,
        List.drop_append_of_le_length hsize]
  | case2 s m hle => rw [B.drain_of_le (Nat.not_lt.mp hle)]

/-- Takes in `n` blocks. -/
def absorbBlocks : ℕ → σ → List α → σ
  | 0, s, _ => s
  | n + 1, s, m => absorbBlocks n (B.absorb s (m.take B.size)) (m.drop B.size)

/-- Blocks are taken in one after the other. -/
theorem absorbBlocks_succ (n : ℕ) (s : σ) (m : List α) :
    B.absorbBlocks (n + 1) s m =
      B.absorb (B.absorbBlocks n s m) ((m.drop (n * B.size)).take B.size) := by
  induction n generalizing s m with
  | zero =>
      rw [Nat.zero_mul, List.drop_zero]
      rfl
  | succ n ih =>
      rw [absorbBlocks, ih, List.drop_drop, absorbBlocks, Nat.succ_mul, Nat.add_comm B.size]

/-- What comes behind the blocks does not matter. -/
theorem absorbBlocks_append {n : ℕ} {m : List α} (h : n * B.size ≤ m.length) (s : σ) (m' : List α) :
    B.absorbBlocks n s (m ++ m') = B.absorbBlocks n s m := by
  induction n with
  | zero => rfl
  | succ n ih =>
      rw [Nat.succ_mul] at h
      have hle : B.size ≤ (m.drop (n * B.size)).length := by
        rw [List.length_drop]
        omega
      rw [absorbBlocks_succ, absorbBlocks_succ, ih (by omega),
        List.drop_append_of_le_length (by omega), List.take_append_of_le_length hle]

/-- **Several blocks at once**, if there are enough elements for all of them. -/
theorem drain_absorbBlocks {n : ℕ} {s : σ} {m : List α}
    (h : n * B.size + B.keep < m.length + B.size) :
    B.drain s m = B.drain (B.absorbBlocks n s m) (m.drop (n * B.size)) := by
  induction n generalizing s m with
  | zero => rw [absorbBlocks, Nat.zero_mul, List.drop_zero]
  | succ n ih =>
      have hmul : (n + 1) * B.size = n * B.size + B.size := Nat.succ_mul n B.size
      have hlt : B.keep < m.length := by omega
      have hsize : B.size ≤ m.length := B.size_le.trans hlt
      have hrest : n * B.size + B.keep < (m.drop B.size).length + B.size := by
        rw [List.length_drop]
        omega
      rw [B.drain_of_lt hlt, ih hrest, absorbBlocks, List.drop_drop, hmul, Nat.add_comm B.size]

end BlockStream
