/-
# `MD5Digest`: the hash function behind the random numbers

Models the class `MD5Digest` of `src/queue.cpp`, with `unsigned long` of 64 bits.  It is a hash
function and a stream at once: octets arrive through `putDigest`, which takes in a block as soon as
it is full, and through the buffer of the stream, which `overflow` empties when there is no room for
the next octet.  The words are computed with 64 bits; only their low halves count, and `rotate_left`
takes care of that.

The specification is `Md5.digest`, with 32-bit words.

* `low_transform` : the low halves of the words are those of MD5;
* `run_eq` : in any run of the operations, what is put out is the hash of what was put in since it
  was put out before;
* `lengthField_eq_iff` : the length in the padding is right up to 2²⁹ octets, where `count` has no
  carry.
-/
import CcRtp.BlockStream
import CcRtp.LittleEndian

/-! ## The specification -/

/-- The four words of the hash. -/
@[ext] structure Md5State (w : ℕ) where
  a : BitVec w
  b : BitVec w
  c : BitVec w
  d : BitVec w
  deriving DecidableEq, Repr

namespace Md5

/-- The constants of the 64 steps. -/
def table : List (BitVec 32) :=
  [0xd76aa478, 0xe8c7b756, 0x242070db, 0xc1bdceee, 0xf57c0faf, 0x4787c62a, 0xa8304613, 0xfd469501,
    0x698098d8, 0x8b44f7af, 0xffff5bb1, 0x895cd7be, 0x6b901122, 0xfd987193, 0xa679438e, 0x49b40821,
    0xf61e2562, 0xc040b340, 0x265e5a51, 0xe9b6c7aa, 0xd62f105d, 0x02441453, 0xd8a1e681, 0xe7d3fbc8,
    0x21e1cde6, 0xc33707d6, 0xf4d50d87, 0x455a14ed, 0xa9e3e905, 0xfcefa3f8, 0x676f02d9, 0x8d2a4c8a,
    0xfffa3942, 0x8771f681, 0x6d9d6122, 0xfde5380c, 0xa4beea44, 0x4bdecfa9, 0xf6bb4b60, 0xbebfbc70,
    0x289b7ec6, 0xeaa127fa, 0xd4ef3085, 0x04881d05, 0xd9d4d039, 0xe6db99e5, 0x1fa27cf8, 0xc4ac5665,
    0xf4292244, 0x432aff97, 0xab9423a7, 0xfc93a039, 0x655b59c3, 0x8f0ccc92, 0xffeff47d, 0x85845dd1,
    0x6fa87e4f, 0xfe2ce6e0, 0xa3014314, 0x4e0811a1, 0xf7537e82, 0xbd3af235, 0x2ad7d2bb, 0xeb86d391]

/-- The rotations of the four rounds. -/
def rotations : List (List ℕ) := [[7, 12, 17, 22], [5, 9, 14, 20], [4, 11, 16, 23], [6, 10, 15, 21]]

/-- The function of the step `i`. -/
def nonlinear (i : ℕ) (x y z : BitVec 32) : BitVec 32 :=
  match i / 16 with
  | 0 => (x &&& y) ||| (~~~x &&& z)
  | 1 => (x &&& z) ||| (y &&& ~~~z)
  | 2 => x ^^^ y ^^^ z
  | _ => y ^^^ (x ||| ~~~z)

/-- The number of the word that the step `i` takes. -/
def wordOf (i : ℕ) : ℕ :=
  match i / 16 with
  | 0 => i % 16
  | 1 => (5 * i + 1) % 16
  | 2 => (3 * i + 5) % 16
  | _ => 7 * i % 16

/-- The rotation of the step `i`. -/
def rotationOf (i : ℕ) : ℕ := (rotations.getD (i / 16) []).getD (i % 4) 0

/-- The step `i`. -/
def step (x : List (BitVec 32)) (s : Md5State 32) (i : ℕ) : Md5State 32 where
  a := s.d
  b := s.b + (s.a + nonlinear i s.b s.c s.d + x.getD (wordOf i) 0 + table.getD i 0).rotateLeft
    (rotationOf i)
  c := s.b
  d := s.c

/-- The sum of the words. -/
def add {w : ℕ} (s t : Md5State w) : Md5State w := ⟨s.a + t.a, s.b + t.b, s.c + t.c, s.d + t.d⟩

/-- A block of 64 octets. -/
def compress (s : Md5State 32) (block : Octets) : Md5State 32 :=
  add s ((List.range 64).foldl (step (loadWords 32 4 16 block)) s)

/-- The words at the start. -/
def initial : Md5State 32 := ⟨0x67452301, 0xefcdab89, 0x98badcfe, 0x10325476⟩

/-- The blocks of a message. -/
def stream : BlockStream (Md5State 32) UInt8 where
  absorb := compress
  size := 64
  keep := 63
  size_pos := by decide
  size_le := by decide

/-- A message with its padding, in front of the field for its length. -/
def padded (m : Octets) (field : Octets) : Octets :=
  m ++ (0x80 :: List.replicate ((119 - m.length % 64) % 64) 0) ++ field

/-- The hash of a message with some field for the length. -/
def digestWith (field : Octets) (m : Octets) : Octets :=
  let s := stream.absorbBlocks ((padded m field).length / 64) initial (padded m field)
  storeWords 4 [s.a, s.b, s.c, s.d]

/-- **MD5.** -/
def digest (m : Octets) : Octets := digestWith (littleEndian 8 (8 * m.length)) m

example : digest [97, 98, 99] =
    [0x90, 0x01, 0x50, 0x98, 0x3c, 0xd2, 0x4f, 0xb0, 0xd6, 0x96, 0x3f, 0x7d,
    0x28, 0xe1, 0x7f, 0x72] := by
  decide +kernel

end Md5

/-! ## The functions of the source -/

/-- `rotate_left` -/
def rotate_left (x : BitVec 64) (n : ℕ) : BitVec 64 := x <<< n ||| (x &&& 0xffffffff) >>> (32 - n)

namespace MD5Digest

/-- `F` -/
def F (x y z : BitVec 64) : BitVec 64 := (x &&& y) ||| (~~~x &&& z)

/-- `G` -/
def G (x y z : BitVec 64) : BitVec 64 := (x &&& z) ||| (y &&& ~~~z)

/-- `H` -/
def H (x y z : BitVec 64) : BitVec 64 := x ^^^ y ^^^ z

/-- `md5I` -/
def md5I (x y z : BitVec 64) : BitVec 64 := y ^^^ (x ||| ~~~z)

/-- What `FF`, `GG`, `HH` and `II` leave in `a`. -/
def mixed (f : BitVec 64 → BitVec 64 → BitVec 64 → BitVec 64) (a b c d x : BitVec 64) (s : ℕ)
    (ac : BitVec 64) : BitVec 64 :=
  let a := a + (f b c d + x + ac)
  rotate_left a s + b

/-- `FF` -/
def FF := mixed F

/-- `GG` -/
def GG := mixed G

/-- `HH` -/
def HH := mixed H

/-- `II` -/
def II := mixed md5I

/-- The steps of `FF`: the number of the word, the rotation and the constant. -/
def stepsFF : List (ℕ × ℕ × BitVec 64) :=
  [(0, 7, 0xd76aa478), (1, 12, 0xe8c7b756), (2, 17, 0x242070db), (3, 22, 0xc1bdceee),
    (4, 7, 0xf57c0faf), (5, 12, 0x4787c62a), (6, 17, 0xa8304613), (7, 22, 0xfd469501),
    (8, 7, 0x698098d8), (9, 12, 0x8b44f7af), (10, 17, 0xffff5bb1), (11, 22, 0x895cd7be),
    (12, 7, 0x6b901122), (13, 12, 0xfd987193), (14, 17, 0xa679438e), (15, 22, 0x49b40821)]

/-- The steps of `GG`: the number of the word, the rotation and the constant. -/
def stepsGG : List (ℕ × ℕ × BitVec 64) :=
  [(1, 5, 0xf61e2562), (6, 9, 0xc040b340), (11, 14, 0x265e5a51), (0, 20, 0xe9b6c7aa),
    (5, 5, 0xd62f105d), (10, 9, 0x2441453), (15, 14, 0xd8a1e681), (4, 20, 0xe7d3fbc8),
    (9, 5, 0x21e1cde6), (14, 9, 0xc33707d6), (3, 14, 0xf4d50d87), (8, 20, 0x455a14ed),
    (13, 5, 0xa9e3e905), (2, 9, 0xfcefa3f8), (7, 14, 0x676f02d9), (12, 20, 0x8d2a4c8a)]

/-- The steps of `HH`: the number of the word, the rotation and the constant. -/
def stepsHH : List (ℕ × ℕ × BitVec 64) :=
  [(5, 4, 0xfffa3942), (8, 11, 0x8771f681), (11, 16, 0x6d9d6122), (14, 23, 0xfde5380c),
    (1, 4, 0xa4beea44), (4, 11, 0x4bdecfa9), (7, 16, 0xf6bb4b60), (10, 23, 0xbebfbc70),
    (13, 4, 0x289b7ec6), (0, 11, 0xeaa127fa), (3, 16, 0xd4ef3085), (6, 23, 0x4881d05),
    (9, 4, 0xd9d4d039), (12, 11, 0xe6db99e5), (15, 16, 0x1fa27cf8), (2, 23, 0xc4ac5665)]

/-- The steps of `II`: the number of the word, the rotation and the constant. -/
def stepsII : List (ℕ × ℕ × BitVec 64) :=
  [(0, 6, 0xf4292244), (7, 10, 0x432aff97), (14, 15, 0xab9423a7), (5, 21, 0xfc93a039),
    (12, 6, 0x655b59c3), (3, 10, 0x8f0ccc92), (10, 15, 0xffeff47d), (1, 21, 0x85845dd1),
    (8, 6, 0x6fa87e4f), (15, 10, 0xfe2ce6e0), (6, 15, 0xa3014314), (13, 21, 0x4e0811a1),
    (4, 6, 0xf7537e82), (11, 10, 0xbd3af235), (2, 15, 0x2ad7d2bb), (9, 21, 0xeb86d391)]

/-- One call, after which the variables change their places: `FF(a, b, c, d, ...)`, `FF(d, a, b, c,
...)`, `FF(c, d, a, b, ...)`, `FF(b, c, d, a, ...)`. -/
def call (g : BitVec 64 → BitVec 64 → BitVec 64 → BitVec 64 → BitVec 64 → ℕ → BitVec 64 → BitVec 64)
    (x : List (BitVec 64)) (s : Md5State 64) (entry : ℕ × ℕ × BitVec 64) : Md5State 64 where
  a := s.d
  b := g s.a s.b s.c s.d (x.getD entry.1 0) entry.2.1 entry.2.2
  c := s.b
  d := s.c

/-- `x[i]`; the octet that is shifted by 24 is an `int`, with its sign. -/
def wordAt (buf : Octets) (i : ℕ) : BitVec 64 :=
  (buf.getD (4 * i) 0).toBitVec.setWidth 64 |||
    (buf.getD (4 * i + 1) 0).toBitVec.setWidth 64 <<< 8 |||
    (buf.getD (4 * i + 2) 0).toBitVec.setWidth 64 <<< 16 |||
    ((buf.getD (4 * i + 3) 0).toBitVec.setWidth 32 <<< 24).signExtend 64

/-- The new words from a full buffer. -/
def transform (s : Md5State 64) (buf : Octets) : Md5State 64 :=
  let x := (List.range 16).map (wordAt buf)
  let t := stepsFF.foldl (call FF x) s
  let t := stepsGG.foldl (call GG x) t
  let t := stepsHH.foldl (call HH x) t
  let t := stepsII.foldl (call II x) t
  Md5.add s t

end MD5Digest

/-- `MD5Digest`; `pptr` is the place of `pptr()` in the buffer. -/
structure MD5Digest where
  state : Md5State 64
  count0 : BitVec 64
  count1 : BitVec 64
  buf : Octets
  bpos : ℕ
  pptr : ℕ
  md5 : Octets
  updated : Bool

namespace MD5Digest

/-- `initDigest` -/
def initDigest (d : MD5Digest) : MD5Digest :=
  { d with
    count0 := 0
    count1 := 0
    state := ⟨0x67452301, 0xefcdab89, 0x98badcfe, 0x10325476⟩
    bpos := 0
    updated := true
    pptr := 0 }

/-- `MD5Digest()`: the arrays hold anything. -/
def new (buf : Fin 64 → UInt8) (md5 : Octets) : MD5Digest :=
  { initDigest ⟨⟨0, 0, 0, 0⟩, 0, 0, List.ofFn buf, 0, 0, md5, true⟩ with updated := true }

/-- `update` -/
def update (d : MD5Digest) : MD5Digest :=
  if d.bpos = 0 then d
  else
    let buf := writeAt d.buf d.bpos (List.replicate (64 - d.bpos) 0)
    let count0 := d.count0 + 512
    let count1 := if count0 < 512 then d.count1 + 1 else d.count1
    { d with
      buf := buf
      bpos := 0
      count0 := count0
      count1 := count1
      state := transform d.state buf
      updated := true }

/-- `buf[bpos++] = c`, and the buffer is taken in when it is full. -/
def putOctet (d : MD5Digest) (c : UInt8) : MD5Digest :=
  let d := { d with buf := d.buf.set d.bpos c, bpos := d.bpos + 1 }
  if 64 ≤ d.bpos then update d else d

/-- `putDigest` -/
def putDigest (d : MD5Digest) (buffer : Octets) : MD5Digest :=
  let d := { d with bpos := d.pptr }
  let d := if 64 ≤ d.bpos then update d else d
  let d := buffer.foldl putOctet d
  { d with pptr := d.bpos }

/-- `overflow`; without an octet for `EOF`. -/
def overflow (d : MD5Digest) (c : Option UInt8) : MD5Digest :=
  let d := { d with updated := true, bpos := d.pptr }
  let d := if 64 ≤ d.bpos then update d else d
  let d :=
    match c with
    | some c => { d with buf := d.buf.set d.bpos c, bpos := d.bpos + 1 }
    | none => d
  { d with pptr := d.bpos }

/-- One octet for the stream: it is put into the buffer as long as there is room. -/
def sputc (d : MD5Digest) (c : UInt8) : MD5Digest :=
  if d.pptr < 64 then { d with buf := d.buf.set d.pptr c, pptr := d.pptr + 1 }
  else d.overflow (some c)

/-- Octets for the stream. -/
def sputn (d : MD5Digest) (s : Octets) : MD5Digest := s.foldl sputc d

/-- `pad` -/
def pad : Octets := 0x80 :: List.replicate 63 0

/-- Counts the octets in the buffer, and puts the padding and the length behind them. -/
def putPadding (d : MD5Digest) : MD5Digest :=
  let count0 := d.count0 + BitVec.ofNat 64 (8 * d.bpos)
  let count1 := if count0 < BitVec.ofNat 64 (8 * d.bpos) then d.count1 + 1 else d.count1
  let d := { d with count0 := count0, count1 := count1 }
  let cbuf := littleEndian 4 count0.toNat ++ littleEndian 4 count1.toNat
  let i := count0.toNat / 8 % 64
  let len := if i < 56 then 56 - i else 120 - i
  let d := if len ≠ 0 then d.putDigest (pad.take len) else d
  d.putDigest cbuf

/-- `commit` -/
def commit (d : MD5Digest) : MD5Digest :=
  let d := { d with bpos := d.pptr }
  if d.updated = false ∧ d.bpos = 0 then d
  else
    let d := d.putPadding
    initDigest { d with md5 := storeWords 4 [d.state.a, d.state.b, d.state.c, d.state.d] }

/-- `getDigest` -/
def getDigest (d : MD5Digest) : MD5Digest × Octets :=
  let d := d.commit
  (d, d.md5)

/-- The digit `%x`. -/
def hexDigit (n : ℕ) : UInt8 := if n < 10 then UInt8.ofNat (48 + n) else UInt8.ofNat (87 + n)

/-- `strDigest`: the characters that it puts out. -/
def strDigest (d : MD5Digest) : MD5Digest × Octets :=
  let d := d.commit
  (d, d.md5.flatMap (fun b => [hexDigit (b.toNat / 16), hexDigit (b.toNat % 16)]))

end MD5Digest

/-! ## The low halves of the words -/

namespace Md5State

/-- The low halves. -/
def low (s : Md5State 64) : Md5State 32 :=
  ⟨s.a.setWidth 32, s.b.setWidth 32, s.c.setWidth 32, s.d.setWidth 32⟩

end Md5State

namespace MD5Digest

/-- **`rotate_left`** rotates the low half, whatever is in the high half. -/
theorem low_rotate_left (x : BitVec 64) {n : ℕ} (hn : n < 32) :
    (rotate_left x n).setWidth 32 = (x.setWidth 32).rotateLeft n := by
  apply BitVec.eq_of_getLsbD_eq
  intro i hi
  rw [BitVec.getLsbD_rotateLeft_of_le hn]
  unfold rotate_left
  have hmask : ∀ k, (0xffffffff : BitVec 64).getLsbD k = decide (k < 32) := by
    intro k
    by_cases hk : k < 64
    · have hall : ∀ k < 64, (0xffffffff : BitVec 64).getLsbD k = decide (k < 32) := by decide
      exact hall k hk
    · rw [BitVec.getLsbD_of_ge _ _ (by omega), decide_eq_false (by omega)]
  simp only [BitVec.getLsbD_setWidth, BitVec.getLsbD_or, BitVec.getLsbD_shiftLeft,
    BitVec.getLsbD_ushiftRight, BitVec.getLsbD_and, hmask]
  by_cases hlow : i < n
  · have hplace : 32 - n + i < 32 := by omega
    simp [hi, hlow, hplace]
  · have hplace : ¬ 32 - n + i < 32 := by omega
    simp [hi, hlow, hplace, show i < 64 by omega, show i - n < 32 by omega]

/-- **One call** computes a step on the low halves. -/
theorem low_mixed {f : BitVec 64 → BitVec 64 → BitVec 64 → BitVec 64}
    {f' : BitVec 32 → BitVec 32 → BitVec 32 → BitVec 32}
    (hf : ∀ x y z, (f x y z).setWidth 32 = f' (x.setWidth 32) (y.setWidth 32) (z.setWidth 32))
    (a b c d x : BitVec 64) {n : ℕ} (hn : n < 32) (ac : BitVec 64) :
    (mixed f a b c d x n ac).setWidth 32 =
      b.setWidth 32 + (a.setWidth 32 + f' (b.setWidth 32) (c.setWidth 32) (d.setWidth 32) +
        x.setWidth 32 + ac.setWidth 32).rotateLeft n := by
  have hle : 32 ≤ 64 := by decide
  unfold mixed
  dsimp only
  rw [BitVec.setWidth_add _ _ hle, low_rotate_left _ hn, BitVec.setWidth_add _ _ hle,
    BitVec.setWidth_add _ _ hle, BitVec.setWidth_add _ _ hle, hf, BitVec.add_comm,
    ← BitVec.add_assoc, ← BitVec.add_assoc]

section Nonlinear

variable {i : ℕ} (x y z : BitVec 64)

/-- The low half of `F` is the function of the first 16 steps. -/
theorem low_F (hi : i / 16 = 0) :
    (F x y z).setWidth 32 = Md5.nonlinear i (x.setWidth 32) (y.setWidth 32) (z.setWidth 32) := by
  unfold Md5.nonlinear
  rw [hi, F, BitVec.setWidth_or, BitVec.setWidth_and, BitVec.setWidth_and,
    BitVec.setWidth_not (by decide)]
  rfl

/-- The low half of `G` is the function of the next 16 steps. -/
theorem low_G (hi : i / 16 = 1) :
    (G x y z).setWidth 32 = Md5.nonlinear i (x.setWidth 32) (y.setWidth 32) (z.setWidth 32) := by
  unfold Md5.nonlinear
  rw [hi, G, BitVec.setWidth_or, BitVec.setWidth_and, BitVec.setWidth_and,
    BitVec.setWidth_not (by decide)]
  rfl

/-- The low half of `H` is the function of the third 16 steps. -/
theorem low_H (hi : i / 16 = 2) :
    (H x y z).setWidth 32 = Md5.nonlinear i (x.setWidth 32) (y.setWidth 32) (z.setWidth 32) := by
  unfold Md5.nonlinear
  rw [hi, H, BitVec.setWidth_xor, BitVec.setWidth_xor]
  rfl

/-- The low half of `I` is the function of the last 16 steps. -/
theorem low_md5I (hi : i / 16 = 3) :
    (md5I x y z).setWidth 32 = Md5.nonlinear i (x.setWidth 32) (y.setWidth 32) (z.setWidth 32) := by
  unfold Md5.nonlinear
  rw [hi, md5I, BitVec.setWidth_xor, BitVec.setWidth_or, BitVec.setWidth_not (by decide)]
  rfl

end Nonlinear

/-- All rotations are by less than a word. -/
theorem rotationOf_lt (i : ℕ) : Md5.rotationOf i < 32 := by
  unfold Md5.rotationOf
  have hall : ∀ l ∈ Md5.rotations, ∀ n ∈ l, n < 32 := by decide
  have hrow : ∀ n ∈ Md5.rotations.getD (i / 16) [], n < 32 := by
    by_cases hi : i / 16 < Md5.rotations.length
    · rw [List.getD_eq_getElem _ _ hi]
      exact hall _ (List.getElem_mem hi)
    · rw [List.getD_eq_default _ _ (Nat.not_lt.mp hi)]
      exact fun n hn => absurd hn List.not_mem_nil
  by_cases hi : i % 4 < (Md5.rotations.getD (i / 16) []).length
  · rw [List.getD_eq_getElem _ _ hi]
    exact hrow _ (List.getElem_mem hi)
  · rw [List.getD_eq_default _ _ (Nat.not_lt.mp hi)]
    decide

/-- What the source has in its calls for the step `i`. -/
def entryOf (i : ℕ) : ℕ × ℕ × BitVec 64 :=
  (Md5.wordOf i, Md5.rotationOf i, (Md5.table.getD i 0).setWidth 64)

/-- The low half of a word of the block. -/
theorem getD_map_low (x : List (BitVec 64)) (i : ℕ) :
    (x.map (BitVec.setWidth 32)).getD i 0 = (x.getD i 0).setWidth 32 := by
  rw [List.getD_eq_getElem?_getD, List.getD_eq_getElem?_getD, List.getElem?_map]
  cases x[i]? with
  | none => rfl
  | some word => rfl

/-- **A round** of sixteen calls computes sixteen steps on the low halves. -/
theorem low_round {f : BitVec 64 → BitVec 64 → BitVec 64 → BitVec 64} {r : ℕ}
    (hf : ∀ {i : ℕ} (x y z : BitVec 64), i / 16 = r → (f x y z).setWidth 32 =
      Md5.nonlinear i (x.setWidth 32) (y.setWidth 32) (z.setWidth 32))
    {steps : List ℕ} (hsteps : ∀ i ∈ steps, i / 16 = r) (x : List (BitVec 64)) (s : Md5State 64) :
    ((steps.map entryOf).foldl (call (mixed f) x) s).low =
      steps.foldl (Md5.step (x.map (BitVec.setWidth 32))) s.low := by
  induction steps generalizing s with
  | nil => rfl
  | cons i steps ih =>
      have hword := low_mixed (fun x y z => hf x y z (hsteps i List.mem_cons_self)) s.a s.b s.c s.d
        (x.getD (Md5.wordOf i) 0) (rotationOf_lt i) ((Md5.table.getD i 0).setWidth 64)
      have hconstant : ((Md5.table.getD i 0).setWidth 64).setWidth 32 = Md5.table.getD i 0 := by
        rw [BitVec.setWidth_setWidth_of_le _ (by decide), BitVec.setWidth_eq]
      have hcall : (call (mixed f) x s (entryOf i)).low =
          Md5.step (x.map (BitVec.setWidth 32)) s.low i := by
        rw [hconstant, ← getD_map_low] at hword
        exact Md5State.ext rfl hword rfl rfl
      rw [List.map_cons, List.foldl_cons, ih (fun j hj => hsteps j (List.mem_cons_of_mem i hj)),
        hcall, List.foldl_cons]

/-- Octets put together with OR are added up. -/
theorem toNat_or_shiftLeft {x y : BitVec 32} {k : ℕ} (hx : x.toNat < 2 ^ k) (hy : y.toNat < 256)
    (hk : k ≤ 24) : (x ||| y <<< k).toNat = x.toNat + y.toNat * 2 ^ k := by
  have hpow : 2 ^ k ≤ 2 ^ 24 := Nat.pow_le_pow_right (by decide) hk
  have hshift : y.toNat <<< k = y.toNat * 2 ^ k := Nat.shiftLeft_eq _ _
  have hlt : y.toNat * 2 ^ k < 2 ^ 32 :=
    calc y.toNat * 2 ^ k < 256 * 2 ^ k := Nat.mul_lt_mul_of_pos_right hy (Nat.two_pow_pos k)
      _ ≤ 256 * 2 ^ 24 := Nat.mul_le_mul_left 256 hpow
      _ = 2 ^ 32 := by norm_num
  rw [BitVec.toNat_or, BitVec.toNat_shiftLeft, hshift, Nat.mod_eq_of_lt hlt, Nat.or_comm, ← hshift,
    ← Nat.shiftLeft_add_eq_or_of_lt hx, Nat.add_comm, hshift]

/-- Four octets as a word. -/
theorem word_of_octets (b₀ b₁ b₂ b₃ : UInt8) :
    b₀.toBitVec.setWidth 32 ||| b₁.toBitVec.setWidth 32 <<< 8 ||| b₂.toBitVec.setWidth 32 <<< 16 |||
        b₃.toBitVec.setWidth 32 <<< 24 = BitVec.ofNat 32 (ofLittleEndian [b₀, b₁, b₂, b₃]) := by
  have hoctet : ∀ b : UInt8, (b.toBitVec.setWidth 32).toNat = b.toNat := by
    intro b
    have hb := b.toNat_lt
    rw [BitVec.toNat_setWidth, Nat.mod_eq_of_lt]
    · rfl
    · exact lt_trans hb (by decide)
  have h₀ := b₀.toNat_lt
  have h₁ := b₁.toNat_lt
  have h₂ := b₂.toNat_lt
  have h₃ := b₃.toNat_lt
  have hvalue : ofLittleEndian [b₀, b₁, b₂, b₃] =
      b₀.toNat + b₁.toNat * 2 ^ 8 + b₂.toNat * 2 ^ 16 + b₃.toNat * 2 ^ 24 := by
    unfold ofLittleEndian ofBigEndian
    simp only [List.reverse_cons, List.reverse_nil, List.nil_append, List.cons_append,
      List.foldl_cons, List.foldl_nil]
    omega
  have hfirst :=
    toNat_or_shiftLeft (x := b₀.toBitVec.setWidth 32) (y := b₁.toBitVec.setWidth 32) (k := 8)
    (by rw [hoctet]; omega) (by rw [hoctet]; omega) (by omega)
  rw [hoctet, hoctet] at hfirst
  have hsecond := toNat_or_shiftLeft (y := b₂.toBitVec.setWidth 32) (k := 16)
    (hfirst.trans_lt (by omega)) (by rw [hoctet]; omega) (by omega)
  rw [hoctet, hfirst] at hsecond
  have hthird := toNat_or_shiftLeft (y := b₃.toBitVec.setWidth 32) (k := 24)
    (hsecond.trans_lt (by omega)) (by rw [hoctet]; omega) (by omega)
  rw [hoctet, hsecond] at hthird
  apply BitVec.eq_of_toNat_eq
  rw [hthird, BitVec.toNat_ofNat, hvalue, Nat.mod_eq_of_lt (by omega)]

/-- **The words of the buffer**: the sign of an octet does not reach the low half. -/
theorem low_wordAt (buf : Octets) (i : ℕ) :
    (wordAt buf i).setWidth 32 = BitVec.ofNat 32 (ofLittleEndian
      [buf.getD (4 * i) 0, buf.getD (4 * i + 1) 0, buf.getD (4 * i + 2) 0,
        buf.getD (4 * i + 3) 0]) := by
  have hle : 32 ≤ 64 := by decide
  have hoctet : ∀ b : BitVec 8, (b.setWidth 64).setWidth 32 = b.setWidth 32 := fun b =>
    BitVec.setWidth_setWidth_of_le b hle
  have hsign : ∀ x : BitVec 32, (x.signExtend 64).setWidth 32 = x := by
    intro x
    apply BitVec.eq_of_getLsbD_eq
    intro k hk
    rw [BitVec.getLsbD_setWidth, BitVec.getLsbD_signExtend, decide_eq_true hk,
      decide_eq_true (by omega), if_pos hk]
    rfl
  unfold wordAt
  rw [BitVec.setWidth_or, BitVec.setWidth_or, BitVec.setWidth_or,
    BitVec.setWidth_shiftLeft_of_le hle, BitVec.setWidth_shiftLeft_of_le hle, hoctet, hoctet,
    hoctet, hsign, word_of_octets]

/-- The words of `transform`, although an octet of 128 or more is sign-extended, are those of the
block. -/
theorem low_words {buf : Octets} (hbuf : buf.length = 64) :
    ((List.range 16).map (wordAt buf)).map (BitVec.setWidth 32) = loadWords 32 4 16 buf := by
  apply List.ext_getElem
  · rw [List.length_map, List.length_map, List.length_range, length_loadWords]
  · intro i hi hi'
    have hlt : i < 16 := by rwa [length_loadWords] at hi'
    have htake : (buf.drop (4 * i)).take 4 = [buf.getD (4 * i) 0, buf.getD (4 * i + 1) 0,
        buf.getD (4 * i + 2) 0, buf.getD (4 * i + 3) 0] := by
      have hget : ∀ (j : ℕ) (hj : 4 * i + j < buf.length), buf[4 * i + j] =
          buf.getD (4 * i + j) 0 :=
        fun j hj => (List.getD_eq_getElem _ _ hj).symm
      apply List.ext_getElem
      · rw [List.length_take, List.length_drop]
        simp only [List.length_cons, List.length_nil]
        omega
      · intro j hj hj'
        rw [List.getElem_take, List.getElem_drop]
        match j, hj' with
        | 0, _ => exact hget 0 (by omega)
        | 1, _ => exact hget 1 (by omega)
        | 2, _ => exact hget 2 (by omega)
        | 3, _ => exact hget 3 (by omega)
    rw [List.getElem_map, List.getElem_map, List.getElem_range, low_wordAt, ← htake,
      ← List.getD_eq_getElem _ 0 hi', getD_loadWords hlt]

/-- **The transformation** of the words computes the compression function on their low halves. -/
theorem low_transform (s : Md5State 64) {buf : Octets} (hbuf : buf.length = 64) :
    (transform s buf).low = Md5.compress s.low buf := by
  have hle : 32 ≤ 64 := by decide
  have hadd : ∀ s t : Md5State 64, (Md5.add s t).low = Md5.add s.low t.low := fun s t =>
    Md5State.ext (BitVec.setWidth_add _ _ hle) (BitVec.setWidth_add _ _ hle)
      (BitVec.setWidth_add _ _ hle) (BitVec.setWidth_add _ _ hle)
  have hFF : stepsFF = (List.range' 0 16).map entryOf := by decide
  have hGG : stepsGG = (List.range' 16 16).map entryOf := by decide
  have hHH : stepsHH = (List.range' 32 16).map entryOf := by decide
  have hII : stepsII = (List.range' 48 16).map entryOf := by decide
  have hrange : List.range 64 =
      List.range' 0 16 ++ List.range' 16 16 ++ List.range' 32 16 ++ List.range' 48 16 := by decide
  have hmem : ∀ r : ℕ, r < 4 → ∀ i ∈ List.range' (16 * r) 16, i / 16 = r := by decide
  unfold transform
  dsimp only
  rw [hadd, hFF, hGG, hHH, hII, FF, GG, HH, II, low_round low_md5I (hmem 3 (by omega)),
    low_round low_H (hmem 2 (by omega)), low_round low_G (hmem 1 (by omega)),
    low_round low_F (hmem 0 (by omega)), Md5.compress, low_words hbuf, hrange, List.foldl_append,
    List.foldl_append, List.foldl_append]

/-! ## Taking in a message -/

/-- After `n` blocks of the message `m`, the last `pos` octets are in the buffer. -/
structure At (state : Md5State 64) (buf : Octets) (pos : ℕ) (m : Octets) (n : ℕ) : Prop where
  length : m.length = 64 * n + pos
  le : pos ≤ 64
  buffer : buf.length = 64
  take : buf.take pos = m.drop (64 * n)
  state : state.low = Md5.stream.absorbBlocks n Md5.initial m

section At

variable {state : Md5State 64} {buf : Octets} {pos n : ℕ} {m : Octets}

/-- One more octet in the buffer. -/
theorem At.put (h : At state buf pos m n) (hlt : pos < 64) (c : UInt8) :
    At state (buf.set pos c) (pos + 1) (m ++ [c]) n := by
  have hlength := h.length
  have hbuffer := h.buffer
  have hblocks : n * Md5.stream.size ≤ m.length := by
    show n * 64 ≤ m.length
    omega
  refine ⟨?_, hlt, ?_, ?_, ?_⟩
  · rw [List.length_append, List.length_singleton]
    omega
  · rw [List.length_set, hbuffer]
  · rw [List.drop_append_of_le_length (by omega), ← h.take]
    apply List.ext_getElem?
    intro i
    rw [List.getElem?_take, List.getElem?_append, List.length_take, hbuffer, Nat.min_eq_left hlt.le,
      List.getElem?_take, List.getElem?_set]
    rcases Nat.lt_trichotomy i pos with hi | hi | hi
    · rw [if_pos (by omega), if_neg (by omega), if_pos hi, if_pos hi]
    · subst hi
      rw [if_pos (by omega), if_pos rfl, if_pos (by omega), if_neg (Nat.lt_irrefl i), Nat.sub_self]
      rfl
    · rw [if_neg (by omega), if_neg (by omega), List.getElem?_eq_none]
      rw [List.length_singleton]
      omega
  · rw [h.state, Md5.stream.absorbBlocks_append hblocks]

/-- **A full buffer** is a block. -/
theorem At.full (h : At state buf 64 m n) : At (transform state buf) buf 0 m (n + 1) := by
  have hlength := h.length
  have htake := h.take
  rw [List.take_of_length_le h.buffer.le] at htake
  refine ⟨by omega, Nat.zero_le _, h.buffer, ?_, ?_⟩
  · rw [List.take_zero, List.drop_of_length_le (by omega)]
  · have hblock : (m.drop (n * Md5.stream.size)).take Md5.stream.size = buf := by
      show (m.drop (n * 64)).take 64 = buf
      rw [Nat.mul_comm, ← htake, List.take_of_length_le h.buffer.le]
    rw [BlockStream.absorbBlocks_succ, hblock, low_transform _ h.buffer, h.state]
    rfl

end At

/-- `count` has the bits of `n` blocks; the digest is never marked as not updated. -/
def Counted (d : MD5Digest) (n : ℕ) : Prop :=
  d.count0 = BitVec.ofNat 64 (512 * n) ∧ d.count1 = BitVec.ofNat 64 (512 * n / 2 ^ 64) ∧
    d.updated = true

/-- A sum has a carry exactly if it is less than what was added. -/
theorem carry {x y : ℕ} (hy : y < 2 ^ 64) :
    (if BitVec.ofNat 64 x + BitVec.ofNat 64 y < BitVec.ofNat 64 y then
      BitVec.ofNat 64 (x / 2 ^ 64) + 1 else BitVec.ofNat 64 (x / 2 ^ 64)) =
        BitVec.ofNat 64 ((x + y) / 2 ^ 64) := by
  have hiff : BitVec.ofNat 64 x + BitVec.ofNat 64 y < BitVec.ofNat 64 y ↔ (x + y) % 2 ^ 64 < y := by
    rw [← BitVec.ofNat_add, BitVec.lt_def, BitVec.toNat_ofNat, BitVec.toNat_ofNat,
      Nat.mod_eq_of_lt hy]
  by_cases hlt : (x + y) % 2 ^ 64 < y
  · have hdiv : (x + y) / 2 ^ 64 = x / 2 ^ 64 + 1 := by omega
    rw [if_pos (hiff.mpr hlt), hdiv, BitVec.ofNat_add]
    rfl
  · have hdiv : (x + y) / 2 ^ 64 = x / 2 ^ 64 := by omega
    rw [if_neg (fun h => hlt (hiff.mp h)), hdiv]

/-- **`update`** of a full buffer. -/
theorem update_spec {d : MD5Digest} {m : Octets} {n : ℕ} (h : At d.state d.buf d.bpos m n)
    (hfull : d.bpos = 64) :
    At d.update.state d.update.buf d.update.bpos m (n + 1) ∧ d.update.bpos = 0 ∧
      (d.Counted n → d.update.Counted (n + 1)) := by
  have hbuf : writeAt d.buf d.bpos (List.replicate (64 - d.bpos) 0) = d.buf := by
    rw [hfull, Nat.sub_self, List.replicate_zero, writeAt, List.append_nil, List.length_nil,
      Nat.add_zero, List.take_append_drop]
  unfold update
  rw [if_neg (by omega), hbuf]
  rw [hfull] at h
  refine ⟨h.full, rfl, ?_⟩
  rintro ⟨hcount0, hcount1, -⟩
  have hadd : 512 * (n + 1) = 512 * n + 512 := Nat.mul_succ _ _
  refine ⟨?_, ?_, rfl⟩
  · dsimp only
    rw [hadd, BitVec.ofNat_add, ← hcount0]
    rfl
  · have hbits : (512 : BitVec 64) = BitVec.ofNat 64 512 := rfl
    dsimp only
    rw [hadd, hcount0, hcount1, hbits, carry (by norm_num)]

/-- **The buffer is emptied** if there is no room. -/
theorem make_room {d : MD5Digest} {m : Octets} {n : ℕ} (h : At d.state d.buf d.bpos m n) :
    ∃ n', At (if 64 ≤ d.bpos then d.update else d).state (if 64 ≤ d.bpos then d.update else d).buf
        (if 64 ≤ d.bpos then d.update else d).bpos m n' ∧
      (if 64 ≤ d.bpos then d.update else d).bpos < 64 ∧
      (d.Counted n → (if 64 ≤ d.bpos then d.update else d).Counted n') := by
  by_cases hfull : 64 ≤ d.bpos
  · obtain ⟨hat, hzero, hcounted⟩ := update_spec h (le_antisymm h.le hfull)
    rw [if_pos hfull]
    exact ⟨n + 1, hat, by omega, hcounted⟩
  · rw [if_neg hfull]
    exact ⟨n, h, by omega, id⟩

/-- **Octets through `putDigest`.** -/
theorem foldl_putOctet {d : MD5Digest} {m : Octets} {n : ℕ} (h : At d.state d.buf d.bpos m n)
    (hlt : d.bpos < 64) (buffer : Octets) :
    ∃ n', At (buffer.foldl putOctet d).state (buffer.foldl putOctet d).buf
        (buffer.foldl putOctet d).bpos (m ++ buffer) n' ∧
      (buffer.foldl putOctet d).bpos < 64 ∧
      (d.Counted n → (buffer.foldl putOctet d).Counted n') := by
  induction buffer generalizing d m n with
  | nil =>
      rw [List.append_nil]
      exact ⟨n, h, hlt, id⟩
  | cons c buffer ih =>
      have hput : At { d with buf := d.buf.set d.bpos c, bpos := d.bpos + 1 }.state
          { d with buf := d.buf.set d.bpos c, bpos := d.bpos + 1 }.buf
          { d with buf := d.buf.set d.bpos c, bpos := d.bpos + 1 }.bpos (m ++ [c]) n := h.put hlt c
      obtain ⟨n₁, hat₁, hlt₁, hcounted₁⟩ := make_room hput
      obtain ⟨n₂, hat₂, hlt₂, hcounted₂⟩ := ih hat₁ hlt₁
      rw [List.append_assoc, List.singleton_append] at hat₂
      exact ⟨n₂, hat₂, hlt₂, fun hcounted => hcounted₂ (hcounted₁ hcounted)⟩

/-- The digest has taken in the message `m` since it was put out. -/
def Taken (d : MD5Digest) (m : Octets) : Prop := ∃ n, At d.state d.buf d.pptr m n ∧ d.Counted n

/-- Octets that are put in one by one, with the blocks taken in on the way. -/
theorem putDigest_spec {d : MD5Digest} {m : Octets} {n : ℕ} (h : At d.state d.buf d.pptr m n)
    (buffer : Octets) :
    ∃ n', At (d.putDigest buffer).state (d.putDigest buffer).buf (d.putDigest buffer).pptr
        (m ++ buffer) n' ∧ (d.putDigest buffer).pptr < 64 ∧
      (d.Counted n → (d.putDigest buffer).Counted n') := by
  have hstart : At { d with bpos := d.pptr }.state { d with bpos := d.pptr }.buf
      { d with bpos := d.pptr }.bpos m n := h
  obtain ⟨n₁, hat₁, hlt₁, hcounted₁⟩ := make_room hstart
  obtain ⟨n₂, hat₂, hlt₂, hcounted₂⟩ := foldl_putOctet hat₁ hlt₁ buffer
  exact ⟨n₂, hat₂, hlt₂, fun hcounted => hcounted₂ (hcounted₁ hcounted)⟩

/-- What has been put in, after `putDigest`. -/
theorem Taken.putDigest {d : MD5Digest} {m : Octets} (h : d.Taken m) (buffer : Octets) :
    (d.putDigest buffer).Taken (m ++ buffer) := by
  obtain ⟨n, hat, hcounted⟩ := h
  obtain ⟨n', hat', -, hcounted'⟩ := putDigest_spec hat buffer
  exact ⟨n', hat', hcounted' hcounted⟩

/-- **An octet through the stream**: `overflow` makes room for it if there is none. -/
theorem Taken.sputc {d : MD5Digest} {m : Octets} (h : d.Taken m) (c : UInt8) :
    (d.sputc c).Taken (m ++ [c]) := by
  obtain ⟨n, hat, hcounted⟩ := h
  unfold MD5Digest.sputc
  by_cases hroom : d.pptr < 64
  · rw [if_pos hroom]
    exact ⟨n, hat.put hroom c, hcounted⟩
  · rw [if_neg hroom]
    have hstart : At { d with updated := true, bpos := d.pptr }.state
        { d with updated := true, bpos := d.pptr }.buf
        { d with updated := true, bpos := d.pptr }.bpos m n := hat
    obtain ⟨n₁, hat₁, hlt₁, hcounted₁⟩ := make_room hstart
    exact ⟨n₁, hat₁.put hlt₁ c, hcounted₁ ⟨hcounted.1, hcounted.2.1, rfl⟩⟩

/-- What has been put in, after octets through the stream. -/
theorem Taken.sputn {d : MD5Digest} {m : Octets} (h : d.Taken m) (s : Octets) :
    (d.sputn s).Taken (m ++ s) := by
  induction s generalizing d m with
  | nil =>
      rw [List.append_nil]
      exact h
  | cons c s ih =>
      have hrest := ih (h.sputc c)
      rw [List.append_assoc, List.singleton_append] at hrest
      exact hrest

/-- Nothing has been put in after `initDigest`. -/
theorem Taken.initDigest {d : MD5Digest} (hbuf : d.buf.length = 64) : d.initDigest.Taken [] :=
  ⟨0, ⟨rfl, Nat.zero_le _, hbuf, rfl, rfl⟩, rfl, rfl, rfl⟩

/-- Nothing has been put into a new object. -/
theorem taken_new (buf : Fin 64 → UInt8) (md5 : Octets) : (new buf md5).Taken [] :=
  Taken.initDigest List.length_ofFn

/-! ## Putting out the hash -/

/-- What `commit` puts behind the padding: `count[0]` has 64 bits, of which 32 are put. -/
def lengthField (n : ℕ) : Octets := littleEndian 4 (8 * n) ++ littleEndian 4 (8 * n / 2 ^ 64)

/-- Four octets say nothing of the high half. -/
theorem littleEndian_ofNat (n : ℕ) :
    littleEndian 4 (BitVec.ofNat 64 n).toNat = littleEndian 4 n := by
  rw [← littleEndian_mod 4 (BitVec.ofNat 64 n).toNat, ← littleEndian_mod 4 n, BitVec.toNat_ofNat]
  congr 1
  omega

/-- The hash is made of the low halves. -/
theorem storeWords_low (s : Md5State 64) :
    storeWords 4 [s.a, s.b, s.c, s.d] = storeWords 4 [s.low.a, s.low.b, s.low.c, s.low.d] := by
  have hlow : ∀ x : BitVec 64, littleEndian 4 x.toNat = littleEndian 4 (x.setWidth 32).toNat := by
    intro x
    rw [BitVec.toNat_setWidth, ← littleEndian_mod 4 x.toNat]
    rfl
  simp only [storeWords_cons, Md5State.low, ← hlow]
  rfl

/-- **The padding** fills the last block up to the field for the length. -/
theorem pad_eq (n : ℕ) :
    pad.take (if n % 64 < 56 then 56 - n % 64 else 120 - n % 64) =
      0x80 :: List.replicate ((119 - n % 64) % 64) 0 := by
  have hmod : n % 64 < 64 := Nat.mod_lt _ (by decide)
  have hlength : (if n % 64 < 56 then 56 - n % 64 else 120 - n % 64) = (119 - n % 64) % 64 + 1 := by
    split_ifs with h <;> omega
  rw [hlength, pad, List.take_succ_cons, List.take_replicate, Nat.min_eq_left (by omega)]

/-- The padding and the length are put in like other octets. -/
theorem putPadding_spec {d : MD5Digest} {m : Octets} {n : ℕ} (hat : At d.state d.buf d.pptr m n)
    (hcounted : d.Counted n) (hbpos : d.bpos = d.pptr) :
    ∃ n', At d.putPadding.state d.putPadding.buf d.putPadding.pptr
        (Md5.padded m (lengthField m.length)) n' ∧ d.putPadding.pptr < 64 := by
  obtain ⟨hcount0, hcount1, -⟩ := hcounted
  have hlength := hat.length
  have hle := hat.le
  have hbits : 512 * n + 8 * d.bpos = 8 * m.length := by omega
  have hsum : d.count0 + BitVec.ofNat 64 (8 * d.bpos) = BitVec.ofNat 64 (8 * m.length) := by
    rw [hcount0, ← BitVec.ofNat_add, hbits]
  have hcarry : (if BitVec.ofNat 64 (8 * m.length) < BitVec.ofNat 64 (8 * d.bpos) then d.count1 + 1
      else d.count1) = BitVec.ofNat 64 (8 * m.length / 2 ^ 64) := by
    have hcarry := carry (x := 512 * n) (y := 8 * d.bpos) (by norm_num; omega)
    rw [← hcount0, hsum, ← hcount1, hbits] at hcarry
    exact hcarry
  have hplace : (BitVec.ofNat 64 (8 * m.length)).toNat / 8 % 64 = m.length % 64 := by
    rw [BitVec.toNat_ofNat]
    omega
  have hpad : (if m.length % 64 < 56 then 56 - m.length % 64 else 120 - m.length % 64) ≠ 0 := by
    split_ifs with hlow <;> omega
  have hstart : At { d with count0 := BitVec.ofNat 64 (8 * m.length),
                            count1 := BitVec.ofNat 64 (8 * m.length / 2 ^ 64) }.state
      { d with count0 := BitVec.ofNat 64 (8 * m.length),
               count1 := BitVec.ofNat 64 (8 * m.length / 2 ^ 64) }.buf
      { d with count0 := BitVec.ofNat 64 (8 * m.length),
               count1 := BitVec.ofNat 64 (8 * m.length / 2 ^ 64) }.pptr m n := hat
  obtain ⟨n₁, hat₁, -, -⟩ :=
    putDigest_spec hstart (0x80 :: List.replicate ((119 - m.length % 64) % 64) 0)
  obtain ⟨n₂, hat₂, hlt₂, -⟩ := putDigest_spec hat₁ (lengthField m.length)
  unfold putPadding
  dsimp only
  rw [hsum, hcarry, hplace, if_pos hpad, pad_eq, littleEndian_ofNat, littleEndian_ofNat]
  exact ⟨n₂, hat₂, hlt₂⟩

/-- **`commit`** puts out the hash of what was taken in, and starts again. -/
theorem Taken.commit {d : MD5Digest} {m : Octets} (h : d.Taken m) :
    d.commit.md5 = Md5.digestWith (lengthField m.length) m ∧ d.commit.Taken [] := by
  obtain ⟨n₀, hat₀, hcounted⟩ := h
  have hstart : At { d with bpos := d.pptr }.state { d with bpos := d.pptr }.buf
      { d with bpos := d.pptr }.pptr m n₀ := hat₀
  obtain ⟨n, hat, hlt⟩ := putPadding_spec hstart hcounted rfl
  have hlength := hat.length
  have hwhole : (Md5.padded m (lengthField m.length)).length % 64 = 0 := by
    unfold Md5.padded lengthField
    simp only [List.length_append, List.length_cons, List.length_replicate, length_littleEndian]
    omega
  have hblocks : (Md5.padded m (lengthField m.length)).length / 64 = n := by omega
  have hupdated : ¬ (d.updated = false ∧ d.pptr = 0) := by
    rw [hcounted.2.2]
    exact fun hboth => Bool.noConfusion hboth.1
  unfold MD5Digest.commit
  dsimp only
  rw [if_neg hupdated]
  refine ⟨?_, Taken.initDigest ?_⟩
  · show storeWords 4 [_, _, _, _] = _
    rw [storeWords_low, hat.state, Md5.digestWith, hblocks]
  · dsimp only
    exact hat.buffer

end MD5Digest

/-! ## Runs -/

/-- What is done with a digest. -/
inductive DigestAction : Type where
  | initDigest
  | putDigest (buffer : Octets)
  | sputn (s : Octets)
  | getDigest
  | strDigest

namespace MD5Digest

/-- An action, with what it puts out. -/
def perform (d : MD5Digest) : DigestAction → MD5Digest × Option Octets
  | .initDigest => (d.initDigest, none)
  | .putDigest buffer => (d.putDigest buffer, none)
  | .sputn s => (d.sputn s, none)
  | .getDigest => (d.getDigest.1, some d.getDigest.2)
  | .strDigest => (d.strDigest.1, some d.strDigest.2)

/-- All that is put out. -/
def run (d : MD5Digest) : List DigestAction → List (Option Octets)
  | [] => []
  | action :: actions => (d.perform action).2 :: run (d.perform action).1 actions

end MD5Digest

namespace Md5

/-- The characters of a hash. -/
def hex (hash : Octets) : Octets :=
  hash.flatMap (fun b => [MD5Digest.hexDigit (b.toNat / 16), MD5Digest.hexDigit (b.toNat % 16)])

/-- The octets that have been put in since the hash was put out, and what is put out by an
action. -/
def perform (hash : Octets → Octets) (m : Octets) : DigestAction → Octets × Option Octets
  | .initDigest => ([], none)
  | .putDigest buffer => (m ++ buffer, none)
  | .sputn s => (m ++ s, none)
  | .getDigest => ([], some (hash m))
  | .strDigest => ([], some (hex (hash m)))

/-- All that is put out. -/
def run (hash : Octets → Octets) (m : Octets) : List DigestAction → List (Option Octets)
  | [] => []
  | action :: actions => (perform hash m action).2 :: run hash (perform hash m action).1 actions

end Md5

namespace MD5Digest

/-- The hash with the field that `commit` puts in. -/
def hash (m : Octets) : Octets := Md5.digestWith (lengthField m.length) m

/-- **An action** on a digest that has taken in a message. -/
theorem Taken.perform {d : MD5Digest} {m : Octets} (h : d.Taken m) (action : DigestAction) :
    (d.perform action).2 = (Md5.perform hash m action).2 ∧
      (d.perform action).1.Taken (Md5.perform hash m action).1 := by
  cases action with
  | initDigest =>
      obtain ⟨n, hat, -⟩ := h
      exact ⟨rfl, Taken.initDigest hat.buffer⟩
  | putDigest buffer => exact ⟨rfl, h.putDigest buffer⟩
  | sputn s => exact ⟨rfl, h.sputn s⟩
  | getDigest =>
      obtain ⟨hmd5, hnext⟩ := h.commit
      exact ⟨congrArg some hmd5, hnext⟩
  | strDigest =>
      obtain ⟨hmd5, hnext⟩ := h.commit
      exact ⟨congrArg (fun md5 => some (Md5.hex md5)) hmd5, hnext⟩

/-- **Any actions** put out the hashes of what was put in, by induction on the actions. -/
theorem Taken.run {d : MD5Digest} {m : Octets} (h : d.Taken m) (actions : List DigestAction) :
    d.run actions = Md5.run hash m actions := by
  induction actions generalizing d m with
  | nil => rfl
  | cons action actions ih =>
      obtain ⟨hout, hnext⟩ := h.perform action
      rw [MD5Digest.run, hout, ih hnext, Md5.run]

/-- The length is what MD5 puts in, if it fits one of the two words. -/
theorem lengthField_eq_iff {n : ℕ} (hn : n < 2 ^ 61) :
    lengthField n = littleEndian 8 (8 * n) ↔ n < 2 ^ 29 := by
  have hsplit : littleEndian 8 (8 * n) =
      littleEndian 4 (8 * n) ++ littleEndian 4 (8 * n / 2 ^ 32) := by
    have hparts := bigEndian_add 4 4 (8 * n)
    have hpower : 256 ^ 4 = 2 ^ 32 := by norm_num
    rw [hpower] at hparts
    rw [littleEndian, littleEndian, littleEndian, ← List.reverse_append, ← hparts]
  have hzero : 8 * n / 2 ^ 64 = 0 := by omega
  rw [lengthField, hsplit, List.append_cancel_left_eq, hzero]
  constructor
  · intro heq
    have hread := congrArg ofLittleEndian heq
    have hhigh : 8 * n / 2 ^ 32 < 256 ^ 4 := by norm_num; omega
    rw [ofLittleEndian_littleEndian (by norm_num), ofLittleEndian_littleEndian hhigh] at hread
    omega
  · intro hlt
    congr 1
    omega

/-- **Any run**: what is put out is the hash of what was put in since it was put out before, through
whichever of the two ways and in whichever pieces.  With messages below 2²⁹ octets, and only with
those, the padding is that of MD5. -/
theorem run_eq (buf : Fin 64 → UInt8) (md5 : Octets) (actions : List DigestAction) :
    (new buf md5).run actions = Md5.run hash [] actions ∧
      (∀ m : Octets, m.length < 2 ^ 29 → hash m = Md5.digest m) ∧
      ∀ n < 2 ^ 61, (lengthField n = littleEndian 8 (8 * n) ↔ n < 2 ^ 29) := by
  refine ⟨(taken_new buf md5).run actions, fun m hm => ?_, fun n hn => lengthField_eq_iff hn⟩
  rw [hash, (lengthField_eq_iff (by omega)).mpr hm, Md5.digest]

theorem run_eq_two_pieces :
    (new (fun _ => 7) []).run [.sputn [97], .putDigest [98, 99], .getDigest] =
        [none, none, some (hash [97, 98, 99])] ∧
      hash [97, 98, 99] = Md5.digest [97, 98, 99] ∧ lengthField 3 = littleEndian 8 24 := by
  have hrun := run_eq (fun _ => 7) [] [.sputn [97], .putDigest [98, 99], .getDigest]
  exact ⟨hrun.1, hrun.2.1 [97, 98, 99] (by decide), (hrun.2.2 3 (by decide)).mpr (by decide)⟩

end MD5Digest
