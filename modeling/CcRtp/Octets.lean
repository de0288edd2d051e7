/-
# Octet strings

Reusable infrastructure for packet formats and stream ciphers: octet strings as
lists of `UInt8`, the octet-wise XOR that every stream cipher ends in, reading
and overwriting a region of a buffer, big-endian (network order) integers, and the
bit fields of an octet.

The facts the rest of the development rests on are:

* `xorOctets_xorOctets` : XOR with the same long enough stream twice is the identity;
* `slice_append_mid`, `writeAt_append_mid` : reading and overwriting the middle of
  a concatenation;
* `writeAt_xorOctets` : encrypting a buffer piece by piece;
* `ofBigEndian_bigEndian` : network order loses nothing;
* `ofBigEndian_xorOctets` : XOR of octet strings is XOR of the numbers they write;
* `bitField_setBitField` : a bit field is read back as it was written.
-/
import Mathlib

/-- An octet string. -/
abbrev Octets := List UInt8

/-! ## XOR of octet strings -/

/-- XOR octet by octet, cut to the shorter of the two strings. -/
def xorOctets (a b : Octets) : Octets := List.zipWith (· ^^^ ·) a b

@[simp] theorem length_xorOctets (a b : Octets) :
    (xorOctets a b).length = min a.length b.length := by
  simp [xorOctets]

@[simp] theorem xorOctets_nil (b : Octets) : xorOctets [] b = [] := rfl

/-- XOR with the same stream twice restores the data. -/
theorem xorOctets_xorOctets (a s : Octets) (h : a.length ≤ s.length) :
    xorOctets (xorOctets a s) s = a := by
  induction a generalizing s with
  | nil => rfl
  | cons x a ih =>
      cases s with
      | nil => simp at h
      | cons y s =>
          have hxy : x ^^^ y ^^^ y = x := by rw [UInt8.xor_assoc]; simp
          have htail := ih s (by simpa using h)
          simp only [xorOctets, List.zipWith_cons_cons] at htail ⊢
          rw [hxy, htail]

/-- XOR with a stream in two parts: the data under the first part, then the rest. -/
theorem xorOctets_append_right (a s t : Octets) {n : ℕ} (hs : s.length = n)
    (h : n ≤ a.length) :
    xorOctets a (s ++ t) = xorOctets (a.take n) s ++ xorOctets (a.drop n) t := by
  have hlen : (a.take n).length = s.length := by
    rw [List.length_take]; omega
  nth_rewrite 1 [← List.take_append_drop n a]
  exact List.zipWith_append hlen

/-- Two streams encrypt the data alike exactly when they agree over it. -/
theorem xorOctets_right_inj (a s t : Octets) (hs : a.length ≤ s.length)
    (ht : a.length ≤ t.length) :
    xorOctets a s = xorOctets a t ↔ s.take a.length = t.take a.length := by
  induction a generalizing s t with
  | nil => simp
  | cons x a ih =>
      cases s with
      | nil => simp at hs
      | cons y s =>
          cases t with
          | nil => simp at ht
          | cons z t =>
              have htail := ih s t (by simpa using hs) (by simpa using ht)
              simp only [xorOctets, List.zipWith_cons_cons, List.cons.injEq,
                List.length_cons, List.take_succ_cons] at htail ⊢
              rw [htail, UInt8.xor_right_inj]

/-- XORing zeros gives the other string, cut to their number. -/
theorem xorOctets_zeros_left (n : ℕ) (s : Octets) (h : n ≤ s.length) :
    xorOctets (List.replicate n 0) s = s.take n := by
  induction n generalizing s with
  | zero => simp
  | succ n ih =>
      cases s with
      | nil => simp at h
      | cons x s =>
          have htail := ih s (by simpa using h)
          rw [List.replicate_succ, List.take_succ_cons, ← htail]
          simp [xorOctets]

/-- XORing with zeros changes nothing. -/
theorem xorOctets_zeros_right (a : Octets) : xorOctets a (List.replicate a.length 0) = a := by
  induction a with
  | nil => rfl
  | cons x a ih =>
      rw [List.length_cons, List.replicate_succ, xorOctets, List.zipWith_cons_cons,
        UInt8.xor_zero]
      exact congrArg (x :: ·) ih

/-- Only as much of the second string matters as the first one is long. -/
theorem xorOctets_take_right (a s : Octets) : xorOctets a (s.take a.length) = xorOctets a s := by
  induction a generalizing s with
  | nil => rfl
  | cons x a ih =>
      cases s with
      | nil => rfl
      | cons y s =>
          rw [List.length_cons, List.take_succ_cons, xorOctets, xorOctets,
            List.zipWith_cons_cons, List.zipWith_cons_cons]
          exact congrArg ((x ^^^ y) :: ·) (ih s)

/-- The front of an XOR. -/
theorem take_xorOctets (n : ℕ) (a s : Octets) :
    (xorOctets a s).take n = xorOctets (a.take n) (s.take n) := by
  rw [xorOctets, List.take_zipWith]
  rfl

/-! ## Regions of a buffer -/

/-- The `len` octets of `b` from offset `pos` on. -/
def slice (b : Octets) (pos len : ℕ) : Octets := (b.drop pos).take len

/-- `b` with the octets from offset `pos` on overwritten by `src` (`memcpy`). -/
def writeAt (b : Octets) (pos : ℕ) (src : Octets) : Octets :=
  b.take pos ++ src ++ b.drop (pos + src.length)

/-- Reading the middle of a concatenation. -/
theorem slice_append_mid (p m s : Octets) {pos len : ℕ} (hp : pos = p.length)
    (hm : len = m.length) : slice (p ++ m ++ s) pos len = m := by
  subst hp hm
  simp [slice, List.append_assoc]

/-- Reading the front of a concatenation. -/
theorem slice_append_left (m s : Octets) {len : ℕ} (hm : len = m.length) :
    slice (m ++ s) 0 len = m := by
  subst hm
  simp [slice]

/-- Reading the end of a concatenation. -/
theorem slice_append_right (p m : Octets) {pos len : ℕ} (hp : pos = p.length)
    (hm : len = m.length) : slice (p ++ m) pos len = m := by
  simpa using slice_append_mid p m [] hp hm

/-- Neighbouring regions. -/
theorem slice_append_slice (o : Octets) (p a b : ℕ) :
    slice o p a ++ slice o (p + a) b = slice o p (a + b) := by
  rw [slice, slice, slice, List.take_add, List.drop_drop]

theorem length_slice {o : Octets} {p n : ℕ} (h : p + n ≤ o.length) : (slice o p n).length = n := by
  rw [slice, List.length_take, List.length_drop]
  omega

/-- Overwriting the middle of a concatenation. -/
theorem writeAt_append_mid (p m m' s : Octets) {pos : ℕ} (hp : pos = p.length)
    (hm : m'.length = m.length) : writeAt (p ++ m ++ s) pos m' = p ++ m' ++ s := by
  subst hp
  unfold writeAt
  rw [hm, ← List.length_append, List.drop_left, List.append_assoc p m s, List.take_left]

/-- Overwriting the end of a concatenation. -/
theorem writeAt_append_right (p m m' : Octets) {pos : ℕ} (hp : pos = p.length)
    (hm : m'.length = m.length) : writeAt (p ++ m) pos m' = p ++ m' := by
  simpa using writeAt_append_mid p m m' [] hp hm

/-- Overwriting a region, from a decomposition of the buffer. -/
theorem writeAt_eq {b : Octets} (p m m' s : Octets) {pos : ℕ} (hb : b = p ++ m ++ s)
    (hp : pos = p.length) (hm : m'.length = m.length) : writeAt b pos m' = p ++ m' ++ s := by
  rw [hb]
  exact writeAt_append_mid p m m' s hp hm

/-- Filling in the zeros a buffer was set up with. -/
theorem writeAt_zeros (p m s : Octets) {pos n : ℕ} (hp : pos = p.length) (hn : n = m.length) :
    writeAt (p ++ (List.replicate n 0 ++ s)) pos m = p ++ m ++ s := by
  rw [← List.append_assoc]
  exact writeAt_append_mid p _ m s hp (by rw [List.length_replicate, hn])

/-- The front of a buffer that is overwritten further back. -/
theorem take_writeAt {b : Octets} {n pos : ℕ} (h : n ≤ pos) (hb : n ≤ b.length) (src : Octets) :
    (writeAt b pos src).take n = b.take n := by
  have hn : n ≤ (b.take pos).length := by
    rw [List.length_take]
    omega
  rw [writeAt, List.append_assoc, List.take_append_of_le_length hn, List.take_take,
    Nat.min_eq_left h]

/-- A buffer does not get shorter by being overwritten. -/
theorem length_le_writeAt {b : Octets} (pos : ℕ) (src : Octets) :
    b.length ≤ (writeAt b pos src).length := by
  simp only [writeAt, List.length_append, List.length_take, List.length_drop]
  omega

/-- Octets that are overwritten inside a buffer. -/
theorem length_writeAt {b : Octets} {pos : ℕ} {src : Octets} (h : pos + src.length ≤ b.length) :
    (writeAt b pos src).length = b.length := by
  simp only [writeAt, List.length_append, List.length_take, List.length_drop]
  omega

/-- What is written lies in the buffer afterwards. -/
theorem length_src_le_writeAt (b : Octets) (pos : ℕ) (src : Octets) :
    src.length ≤ (writeAt b pos src).length := by
  simp only [writeAt, List.length_append]
  omega

/-- Writing behind what has been written. -/
theorem writeAt_behind {p src b : Octets} {k : ℕ} (hp : p.length = k)
    (hle : k + src.length ≤ b.length) :
    writeAt (p ++ b.drop k) k src = p ++ src ++ b.drop (k + src.length) := by
  refine writeAt_eq p ((b.drop k).take src.length) src (b.drop (k + src.length)) ?_ hp.symm ?_
  · rw [List.append_assoc, ← List.drop_drop, List.take_append_drop]
  · rw [List.length_take, List.length_drop]
    omega

/-- **Encrypting the next octets** of a buffer whose first `k` octets are encrypted. -/
theorem writeAt_xorOctets {input output s b : Octets} {k n : ℕ} (hs : s.length = k)
    (hin : k + n ≤ input.length) (hout : k + n ≤ output.length) (hb : n ≤ b.length) :
    writeAt (xorOctets (input.take k) s ++ output.drop k) k (xorOctets (slice input k n) b)
      = xorOctets (input.take (k + n)) (s ++ b) ++ output.drop (k + n) := by
  have hfront : (xorOctets (input.take k) s).length = k := by
    rw [length_xorOctets, List.length_take]
    omega
  have hlength : (xorOctets (slice input k n) b).length = n := by
    rw [length_xorOctets, length_slice hin]
    exact Nat.min_eq_left hb
  have hsplit : xorOctets (input.take (k + n)) (s ++ b)
      = xorOctets (input.take k) s ++ xorOctets (slice input k n) b := by
    rw [xorOctets_append_right _ _ _ hs (by rw [List.length_take]; omega), List.take_take,
      List.drop_take, slice, Nat.min_eq_left (Nat.le_add_right _ _), Nat.add_sub_cancel_left]
  rw [writeAt_behind hfront (by rw [hlength]; exact hout), hlength, hsplit]

/-! ## Network order -/

/-- The `n` low-order octets of `x`, most significant first. -/
def bigEndian : ℕ → ℕ → Octets
  | 0, _ => []
  | n + 1, x => bigEndian n (x / 256) ++ [UInt8.ofNat x]

/-- The number written by an octet string, most significant octet first. -/
def ofBigEndian (l : Octets) : ℕ := l.foldl (fun acc b => acc * 256 + b.toNat) 0

@[simp] theorem length_bigEndian (n x : ℕ) : (bigEndian n x).length = n := by
  induction n generalizing x with
  | zero => rfl
  | succ n ih => simp [bigEndian, ih]

/-- One more low-order octet. -/
theorem ofBigEndian_concat (l : Octets) (b : UInt8) :
    ofBigEndian (l ++ [b]) = ofBigEndian l * 256 + b.toNat := by
  simp [ofBigEndian]

/-- Decoding gives back the encoded number, cut to the width. -/
theorem ofBigEndian_bigEndian_mod (n x : ℕ) :
    ofBigEndian (bigEndian n x) = x % 256 ^ n := by
  induction n generalizing x with
  | zero => simp [bigEndian, ofBigEndian, Nat.mod_one]
  | succ n ih =>
      rw [bigEndian, ofBigEndian_concat, ih, pow_succ, mul_comm (256 ^ n) 256,
        Nat.mod_mul]
      simp
      ring

/-- **Round trip.**  Decoding a number that fits the width gives it back. -/
theorem ofBigEndian_bigEndian (n x : ℕ) (h : x < 256 ^ n) :
    ofBigEndian (bigEndian n x) = x := by
  rw [ofBigEndian_bigEndian_mod, Nat.mod_eq_of_lt h]

/-- An octet string is a number below the power of 256. -/
theorem ofBigEndian_lt (l : Octets) : ofBigEndian l < 256 ^ l.length := by
  induction l using List.reverseRecOn with
  | nil => exact Nat.one_pos
  | append_singleton l b ih =>
      have hb := b.toNat_lt
      rw [ofBigEndian_concat, List.length_append, List.length_singleton, pow_succ]
      omega

/-- The number written by two octet strings, one behind the other. -/
theorem ofBigEndian_append (l l' : Octets) :
    ofBigEndian (l ++ l') = ofBigEndian l * 256 ^ l'.length + ofBigEndian l' := by
  induction l' using List.reverseRecOn with
  | nil => simp [ofBigEndian]
  | append_singleton l' b ih =>
      rw [← List.append_assoc, ofBigEndian_concat, ih, ofBigEndian_concat, List.length_append,
        List.length_singleton, pow_succ]
      ring

/-- **Round trip.**  Encoding the number that an octet string writes gives it back. -/
theorem bigEndian_ofBigEndian (l : Octets) : bigEndian l.length (ofBigEndian l) = l := by
  induction l using List.reverseRecOn with
  | nil => rfl
  | append_singleton l b ih =>
      have hb := b.toNat_lt
      have hdiv : (ofBigEndian l * 256 + b.toNat) / 256 = ofBigEndian l := by omega
      have hlow : UInt8.ofNat (ofBigEndian l * 256 + b.toNat) = b := by
        rw [← UInt8.toNat_inj, UInt8.toNat_ofNat']
        omega
      rw [List.length_append, List.length_singleton, bigEndian, ofBigEndian_concat, hdiv, ih, hlow]

/-- A number is read as it was written, and only then. -/
theorem ofBigEndian_eq_iff {l : Octets} {n y : ℕ} (hl : l.length = n) (hy : y < 256 ^ n) :
    ofBigEndian l = y ↔ l = bigEndian n y := by
  constructor
  · rintro rfl
    rw [← hl, bigEndian_ofBigEndian]
  · rintro rfl
    exact ofBigEndian_bigEndian n y hy

/-! ## The octets of a number -/

/-- The octets of a number in two parts. -/
theorem bigEndian_add (m n x : ℕ) :
    bigEndian (m + n) x = bigEndian m (x / 256 ^ n) ++ bigEndian n x := by
  induction n generalizing x with
  | zero => rw [Nat.add_zero, pow_zero, Nat.div_one, bigEndian, List.append_nil]
  | succ n ih =>
      rw [← Nat.add_assoc, bigEndian, ih, bigEndian, Nat.div_div_eq_div_mul, ← pow_succ',
        List.append_assoc]

theorem bigEndian_zero (n : ℕ) : bigEndian n 0 = List.replicate n 0 := by
  induction n with
  | zero => rfl
  | succ n ih =>
      rw [bigEndian, Nat.zero_div, ih, List.replicate_succ']
      rfl

/-- Octet `d` of a number, counted from the low-order end. -/
def octetAt (x d : ℕ) : UInt8 := UInt8.ofNat (x / 256 ^ d)

/-- The octets of a number, one by one. -/
theorem getElem_bigEndian {n i : ℕ} (x : ℕ) (h : i < (bigEndian n x).length) :
    (bigEndian n x)[i] = octetAt x (n - 1 - i) := by
  induction n generalizing x i with
  | zero => exact absurd h (Nat.not_lt_zero i)
  | succ n ih =>
      rw [length_bigEndian] at h
      simp only [bigEndian]
      by_cases hi : i < n
      · rw [List.getElem_append_left (by rw [length_bigEndian]; exact hi), ih, octetAt, octetAt,
          Nat.div_div_eq_div_mul, ← pow_succ', show n - 1 - i + 1 = n + 1 - 1 - i by omega]
      · rw [List.getElem_append_right (by rw [length_bigEndian]; omega), List.getElem_singleton,
          show n + 1 - 1 - i = 0 by omega, octetAt, pow_zero, Nat.div_one]

/-- A number of `m` octets has no others. -/
theorem octetAt_of_lt {x m d : ℕ} (h : x < 256 ^ m) (hd : m ≤ d) : octetAt x d = 0 := by
  have hlt : x < 256 ^ d := h.trans_le (Nat.pow_le_pow_right (by decide) hd)
  rw [octetAt, Nat.div_eq_of_lt hlt]
  rfl

/-- The octets of a number in two parts: those of the high part. -/
theorem octetAt_high {a b k d : ℕ} (hb : b < 256 ^ k) (hd : k ≤ d) :
    octetAt (a * 256 ^ k + b) d = octetAt a (d - k) := by
  have hpart : (a * 256 ^ k + b) / 256 ^ k = a := by
    rw [Nat.add_comm, Nat.add_mul_div_right _ _ (Nat.pow_pos (by decide)), Nat.div_eq_of_lt hb,
      Nat.zero_add]
  rw [octetAt, octetAt, show d = k + (d - k) by omega, pow_add, ← Nat.div_div_eq_div_mul, hpart,
    Nat.add_sub_cancel_left]

/-- Those of the low part. -/
theorem octetAt_low {a b k d : ℕ} (hd : d < k) : octetAt (a * 256 ^ k + b) d = octetAt b d := by
  have hsplit : a * 256 ^ k + b = b + a * 256 ^ (k - d - 1) * 256 * 256 ^ d := by
    rw [Nat.mul_assoc, Nat.mul_assoc, ← pow_succ', ← pow_add, show k - d - 1 + (d + 1) = k by omega,
      Nat.add_comm]
  rw [octetAt, octetAt, hsplit, Nat.add_mul_div_right _ _ (Nat.pow_pos (by decide)),
    ← UInt8.toNat_inj, UInt8.toNat_ofNat', UInt8.toNat_ofNat']
  omega

/-- Shifting a machine word to an octet. -/
theorem ofNat_ushiftRight {w : ℕ} (x : BitVec w) (d : ℕ) :
    UInt8.ofNat (x >>> (d * 8)).toNat = octetAt x.toNat d := by
  have hpow : 2 ^ (d * 8) = 256 ^ d := by
    rw [Nat.mul_comm, pow_mul]
    rfl
  rw [octetAt, BitVec.toNat_ushiftRight, Nat.shiftRight_eq_div_pow, hpow]

/-! ## XOR of numbers -/

/-- XOR of numbers in two parts. -/
theorem mul_two_pow_add_xor (k x y : ℕ) {p q : ℕ} (hp : p < 2 ^ k) (hq : q < 2 ^ k) :
    (x * 2 ^ k + p) ^^^ (y * 2 ^ k + q) = (x ^^^ y) * 2 ^ k + (p ^^^ q) := by
  have hlow : ((x * 2 ^ k + p) ^^^ (y * 2 ^ k + q)) % 2 ^ k = p ^^^ q := by
    rw [Nat.xor_mod_two_pow, Nat.mul_add_mod_of_lt hp, Nat.mul_add_mod_of_lt hq]
  have hhigh : ((x * 2 ^ k + p) ^^^ (y * 2 ^ k + q)) / 2 ^ k = x ^^^ y := by
    rw [Nat.xor_div_two_pow, Nat.add_comm, Nat.add_comm (y * 2 ^ k),
      Nat.add_mul_div_right _ _ (Nat.two_pow_pos k), Nat.add_mul_div_right _ _ (Nat.two_pow_pos k),
      Nat.div_eq_of_lt hp, Nat.div_eq_of_lt hq, Nat.zero_add, Nat.zero_add]
  have hparts := Nat.div_add_mod ((x * 2 ^ k + p) ^^^ (y * 2 ^ k + q)) (2 ^ k)
  rw [hhigh, hlow] at hparts
  rw [← hparts, Nat.mul_comm]

/-- **XOR of octet strings is XOR of their numbers.** -/
theorem ofBigEndian_xorOctets {a b : Octets} (h : a.length = b.length) :
    ofBigEndian (xorOctets a b) = ofBigEndian a ^^^ ofBigEndian b := by
  induction a using List.reverseRecOn generalizing b with
  | nil =>
      rw [List.length_nil] at h
      rw [List.eq_nil_of_length_eq_zero h.symm]
      rfl
  | append_singleton a x ih =>
      rcases List.eq_nil_or_concat b with rfl | ⟨b, y, rfl⟩
      · simp at h
      · rw [List.concat_eq_append, List.length_append, List.length_append, List.length_singleton,
          List.length_singleton, Nat.add_right_cancel_iff] at h
        have hsplit : xorOctets (a ++ [x]) (b ++ [y]) = xorOctets a b ++ [x ^^^ y] :=
          List.zipWith_append h
        have hlast := mul_two_pow_add_xor 8 (ofBigEndian a) (ofBigEndian b) x.toNat_lt y.toNat_lt
        rw [List.concat_eq_append, hsplit, ofBigEndian_concat, ih h, UInt8.toNat_xor,
          ofBigEndian_concat, ofBigEndian_concat]
        exact hlast.symm

/-! ## Bit fields of an octet -/

/-- The bit field of `w` bits from bit `lo` on. -/
def bitField (b : UInt8) (lo w : ℕ) : BitVec w := b.toBitVec.extractLsb' lo w

/-- The octet with the bit field from bit `lo` on replaced by `v`. -/
def setBitField (b : UInt8) (lo : ℕ) {w : ℕ} (v : BitVec w) : UInt8 :=
  ⟨(b.toBitVec &&& ~~~((BitVec.allOnes w).setWidth 8 <<< lo)) ||| (v.setWidth 8 <<< lo)⟩

/-- The bits of the octet after the write. -/
theorem getLsbD_setBitField (b : UInt8) (lo : ℕ) {w : ℕ} (v : BitVec w) {i : ℕ} (hi : i < 8) :
    (setBitField b lo v).toBitVec.getLsbD i
      = if lo ≤ i ∧ i < lo + w then v.getLsbD (i - lo) else b.toBitVec.getLsbD i := by
  simp only [setBitField, BitVec.getLsbD_or, BitVec.getLsbD_and, BitVec.getLsbD_not,
    BitVec.getLsbD_shiftLeft, BitVec.getLsbD_setWidth, BitVec.getLsbD_allOnes, hi]
  by_cases h1 : lo ≤ i
  · by_cases h2 : i < lo + w
    · simp [h1, h2, show ¬ i < lo by omega, show i - lo < 8 by omega, show i - lo < w by omega]
    · have hv : v.getLsbD (i - lo) = false := BitVec.getLsbD_of_ge v _ (by omega)
      simp [h1, h2, hv, show ¬ i - lo < w by omega]
  · simp [h1, show i < lo by omega]

/-- Reading back the field written. -/
theorem bitField_setBitField (b : UInt8) (lo : ℕ) {w : ℕ} (v : BitVec w) (h : lo + w ≤ 8) :
    bitField (setBitField b lo v) lo w = v := by
  ext i hi
  rw [bitField, BitVec.getElem_extractLsb', getLsbD_setBitField b lo v (by omega),
    if_pos (by omega), Nat.add_sub_cancel_left, BitVec.getLsbD_eq_getElem]

/-- Writing one field leaves the others alone. -/
theorem bitField_setBitField_of_disjoint (b : UInt8) (lo : ℕ) {w : ℕ} (v : BitVec w)
    {lo' w' : ℕ} (h : lo' + w' ≤ 8) (hdisj : lo' + w' ≤ lo ∨ lo + w ≤ lo') :
    bitField (setBitField b lo v) lo' w' = bitField b lo' w' := by
  ext i hi
  rw [bitField, bitField, BitVec.getElem_extractLsb', BitVec.getElem_extractLsb',
    getLsbD_setBitField b lo v (by omega), if_neg (by omega)]
