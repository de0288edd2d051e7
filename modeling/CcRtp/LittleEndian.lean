/-
# Words in little-endian order

Numbers as octet strings with the least significant octet first, and memory that is looked at as an
array of such words.

* `loadWords_storeWords` : words are read as they were written;
* `littleEndian_mod` : only the low-order octets are written.
-/
import CcRtp.Octets

/-- The `n` low-order octets of `x`, least significant first. -/
def littleEndian (n x : ℕ) : Octets := (bigEndian n x).reverse

/-- The number written by an octet string, least significant octet first. -/
def ofLittleEndian (l : Octets) : ℕ := ofBigEndian l.reverse

/-- A number of `n` octets. -/
@[simp] theorem length_littleEndian (n x : ℕ) : (littleEndian n x).length = n := by
  rw [littleEndian, List.length_reverse, length_bigEndian]

/-- A number that fits is read back. -/
theorem ofLittleEndian_littleEndian {n x : ℕ} (h : x < 256 ^ n) :
    ofLittleEndian (littleEndian n x) = x := by
  rw [ofLittleEndian, littleEndian, List.reverse_reverse, ofBigEndian_bigEndian n x h]

/-- Only the low-order octets are written. -/
theorem littleEndian_mod (n x : ℕ) : littleEndian n (x % 256 ^ n) = littleEndian n x := by
  have hread := bigEndian_ofBigEndian (bigEndian n x)
  rw [length_bigEndian, ofBigEndian_bigEndian_mod] at hread
  rw [littleEndian, hread, littleEndian]

/-! ## Arrays of words -/

section Words

variable {w k : ℕ}

/-- The first `n` words of `k` octets. -/
def loadWords (w k : ℕ) : ℕ → Octets → List (BitVec w)
  | 0, _ => []
  | n + 1, l => BitVec.ofNat w (ofLittleEndian (l.take k)) :: loadWords w k n (l.drop k)

/-- The octets of the words, `k` of each one. -/
def storeWords (k : ℕ) (X : List (BitVec w)) : Octets := X.flatMap (fun x => littleEndian k x.toNat)

/-- As many words are read as asked for. -/
@[simp] theorem length_loadWords (n : ℕ) (l : Octets) : (loadWords w k n l).length = n := by
  induction n generalizing l with
  | zero => rfl
  | succ n ih => rw [loadWords, List.length_cons, ih]

/-- The word at an index is made of the octets at its place. -/
theorem getD_loadWords {n i : ℕ} (hi : i < n) (l : Octets) :
    (loadWords w k n l).getD i 0 = BitVec.ofNat w (ofLittleEndian ((l.drop (k * i)).take k)) := by
  induction n generalizing i l with
  | zero => exact absurd hi (Nat.not_lt_zero i)
  | succ n ih =>
      rw [loadWords]
      cases i with
      | zero => rw [List.getD_cons_zero, Nat.mul_zero, List.drop_zero]
      | succ i =>
          rw [List.getD_cons_succ, ih (by omega), List.drop_drop, Nat.mul_succ, Nat.add_comm k]

/-- The words are stored one behind the other. -/
@[simp] theorem storeWords_cons (x : BitVec w) (X : List (BitVec w)) :
    storeWords k (x :: X) = littleEndian k x.toNat ++ storeWords k X := List.flatMap_cons

/-- Two arrays of words are stored one behind the other. -/
theorem storeWords_append (X Y : List (BitVec w)) :
    storeWords k (X ++ Y) = storeWords k X ++ storeWords k Y := List.flatMap_append

/-- Words that are zero are octets that are zero. -/
theorem storeWords_zeros (n : ℕ) :
    storeWords k (List.replicate n (0 : BitVec w)) = List.replicate (k * n) 0 := by
  induction n with
  | zero => rfl
  | succ n ih =>
      have hzero : (0 : BitVec w).toNat = 0 := BitVec.toNat_zero
      rw [List.replicate_succ, storeWords_cons, ih, littleEndian, hzero, bigEndian_zero,
        List.reverse_replicate, List.replicate_append_replicate, Nat.mul_succ, Nat.add_comm]

/-- A word takes up `k` octets. -/
@[simp] theorem length_storeWords (X : List (BitVec w)) :
    (storeWords k X).length = k * X.length := by
  induction X with
  | nil => rfl
  | cons x X ih =>
      rw [storeWords_cons, List.length_append, length_littleEndian, ih, List.length_cons]
      ring

/-- Only the octets of the words matter. -/
theorem loadWords_take {n m : ℕ} (h : k * n ≤ m) (l : Octets) :
    loadWords w k n (l.take m) = loadWords w k n l := by
  induction n generalizing m l with
  | zero => rfl
  | succ n ih =>
      rw [Nat.mul_succ] at h
      have hrest : k * n ≤ m - k := by omega
      rw [loadWords, loadWords, List.take_take, Nat.min_eq_left (by omega), List.drop_take,
        ih hrest]

/-- The numbers of `k` octets. -/
theorem two_pow_eight_mul (k : ℕ) : 2 ^ (8 * k) = 256 ^ k := by
  rw [pow_mul]
  norm_num

/-- **Words are read as they were written**, whatever is behind them. -/
theorem loadWords_storeWords (hw : w = 8 * k) (X : List (BitVec w)) (rest : Octets) :
    loadWords w k X.length (storeWords k X ++ rest) = X := by
  induction X with
  | nil => rfl
  | cons x X ih =>
      have hx : x.toNat < 256 ^ k := by
        rw [← two_pow_eight_mul, ← hw]
        exact x.isLt
      have hlength : (littleEndian k x.toNat).length = k := length_littleEndian k _
      rw [List.length_cons, loadWords, storeWords_cons, List.append_assoc, List.take_left' hlength,
        List.drop_left' hlength, ofLittleEndian_littleEndian hx, ih, BitVec.ofNat_toNat,
        BitVec.setWidth_eq]

end Words
