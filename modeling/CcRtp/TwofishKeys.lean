/-
# The key schedule of Twofish

Models the tables and the key schedule of `src/ccrtp/crypto/twofish.c`: the q-boxes, the tables of
the MDS matrix, the function `h`, the Reed-Solomon reduction of the key and the keyed S-boxes.  The
source computes with shifts and XORs in two fields of 256 elements, with a division by `x` in place
of multiplications, and in one buffer of 68 octets; `Reference` says what is meant, with a matrix
product and a remainder of polynomials.

* `mdsTable_eq_join` : a table holds the products of a column of the matrix;
* `rsWords_remainder` : the words of the S-vector are remainders of the words of the key;
* `rsWords_frame` : the reduction stays in the buffer;
* `prepareKey_encrypt` : with a prepared key the table driven cipher is the reference cipher;
* `prepareKey_padded` : keys of other lengths are padded with zeros;
* `permutes` : what the cipher object needs of the block function.
-/
import CcRtp.BinaryResidues
import CcRtp.Twofish

open BinaryResidues

namespace Twofish

/-! ## The tables of the source -/

/-- `t_table` -/
def tTable : Fin 2 → Fin 4 → List (BitVec 8) :=
  ![![[0x8, 0x1, 0x7, 0xD, 0x6, 0xF, 0x3, 0x2, 0x0, 0xB, 0x5, 0x9, 0xE, 0xC, 0xA, 0x4],
      [0xE, 0xC, 0xB, 0x8, 0x1, 0x2, 0x3, 0x5, 0xF, 0x4, 0xA, 0x6, 0x7, 0x0, 0x9, 0xD],
      [0xB, 0xA, 0x5, 0xE, 0x6, 0xD, 0x9, 0x0, 0xC, 0x8, 0xF, 0x3, 0x2, 0x4, 0x7, 0x1],
      [0xD, 0x7, 0xF, 0x4, 0x1, 0x2, 0x6, 0xE, 0x9, 0xB, 0x3, 0x0, 0x8, 0x5, 0xC, 0xA]],
    ![[0x2, 0x8, 0xB, 0xD, 0xF, 0x7, 0x6, 0xE, 0x3, 0x1, 0x9, 0x4, 0x0, 0xA, 0xC, 0x5],
      [0x1, 0xE, 0x2, 0xB, 0x4, 0xC, 0x3, 0x7, 0x6, 0xD, 0xA, 0x5, 0xF, 0x9, 0x0, 0x8],
      [0x4, 0xC, 0x7, 0x5, 0x1, 0x6, 0x9, 0xA, 0x0, 0xE, 0xD, 0x8, 0x2, 0xB, 0x3, 0xF],
      [0xB, 0x9, 0x5, 0x1, 0xC, 0x3, 0xD, 0xE, 0x6, 0x4, 0x7, 0xF, 0x2, 0x0, 0x8, 0xA]]]

/-- `ROR4BY1(x)` -/
def ror4by1 (x : BitVec 8) : BitVec 8 := x >>> 1 ||| x <<< 3 &&& 0x8

/-- `make_q_table(t, q)`: the entry of `q` at `i`. -/
def makeQTable (t : Fin 4 → List (BitVec 8)) (i : BitVec 8) : BitVec 8 :=
  let ae := i >>> 4
  let be := i &&& 0xf
  let ao := ae ^^^ be
  let bo := ae ^^^ ror4by1 be ^^^ (ae <<< 3 &&& 8)
  let ae := (t 0).getD ao.toNat 0
  let be := (t 1).getD bo.toNat 0
  let ao := ae ^^^ be
  let bo := ae ^^^ ror4by1 be ^^^ (ae <<< 3 &&& 8)
  let ae := (t 2).getD ao.toNat 0
  let be := (t 3).getD bo.toNat 0
  be <<< 4 ||| ae

/-- `initialise_q_boxes()` -/
def qTable (k : Fin 2) : BitVec 8 → BitVec 8 := makeQTable (tTable k)

/-- `q0` -/
abbrev q0 : BitVec 8 → BitVec 8 := qTable 0

/-- `q1` -/
abbrev q1 : BitVec 8 → BitVec 8 := qTable 1

/-- `mds_poly_divx_const` -/
def mdsPolyDivxConst : List (BitVec 32) := [0, 0xb4]

/-- `(q >> 1) ^ mds_poly_divx_const[q & 1]` -/
def mdsDivx (q : BitVec 32) : BitVec 32 := q >>> 1 ^^^ mdsPolyDivxConst.getD (q &&& 1).toNat 0

/-- `initialise_mds_tables()`: the entry of `MDS_table[k]` at `i`. -/
def mdsTable (k : Fin 4) (i : BitVec 8) : BitVec 32 :=
  let q := (qTable (![1, 0, 1, 0] k) i).setWidth 32
  let qef := mdsDivx q
  let q5b := mdsDivx qef ^^^ q
  let qef := qef ^^^ q5b
  ![qef <<< 24 ||| qef <<< 16 ||| q5b <<< 8 ||| q,
    q <<< 24 ||| q5b <<< 16 ||| qef <<< 8 ||| qef,
    qef <<< 24 ||| q <<< 16 ||| qef <<< 8 ||| q5b,
    q5b <<< 24 ||| qef <<< 16 ||| q <<< 8 ||| q5b] k

/-! ## The function `h` -/

/-- `H02(y, L)` -/
def h02 (y : BitVec 8) (L : ℕ → BitVec 8) : BitVec 32 := mdsTable 0 (q0 (q0 y ^^^ L 8) ^^^ L 0)

/-- `H12(y, L)` -/
def h12 (y : BitVec 8) (L : ℕ → BitVec 8) : BitVec 32 := mdsTable 1 (q0 (q1 y ^^^ L 9) ^^^ L 1)

/-- `H22(y, L)` -/
def h22 (y : BitVec 8) (L : ℕ → BitVec 8) : BitVec 32 := mdsTable 2 (q1 (q0 y ^^^ L 10) ^^^ L 2)

/-- `H32(y, L)` -/
def h32 (y : BitVec 8) (L : ℕ → BitVec 8) : BitVec 32 := mdsTable 3 (q1 (q1 y ^^^ L 11) ^^^ L 3)

/-- `H03(y, L)` -/
def h03 (y : BitVec 8) (L : ℕ → BitVec 8) : BitVec 32 := h02 (q1 y ^^^ L 16) L

/-- `H13(y, L)` -/
def h13 (y : BitVec 8) (L : ℕ → BitVec 8) : BitVec 32 := h12 (q1 y ^^^ L 17) L

/-- `H23(y, L)` -/
def h23 (y : BitVec 8) (L : ℕ → BitVec 8) : BitVec 32 := h22 (q0 y ^^^ L 18) L

/-- `H33(y, L)` -/
def h33 (y : BitVec 8) (L : ℕ → BitVec 8) : BitVec 32 := h32 (q0 y ^^^ L 19) L

/-- `H04(y, L)` -/
def h04 (y : BitVec 8) (L : ℕ → BitVec 8) : BitVec 32 := h03 (q1 y ^^^ L 24) L

/-- `H14(y, L)` -/
def h14 (y : BitVec 8) (L : ℕ → BitVec 8) : BitVec 32 := h13 (q0 y ^^^ L 25) L

/-- `H24(y, L)` -/
def h24 (y : BitVec 8) (L : ℕ → BitVec 8) : BitVec 32 := h23 (q0 y ^^^ L 26) L

/-- `H34(y, L)` -/
def h34 (y : BitVec 8) (L : ℕ → BitVec 8) : BitVec 32 := h33 (q1 y ^^^ L 27) L

/-- The return codes. -/
def SUCCESS : ℤ := 1

def ERR_KEY_LEN : ℤ := -15

def ERR_ILL_ARG : ℤ := -16

/-- `h(k, L, kCycles)` -/
def h (k : BitVec 8) (L : ℕ → BitVec 8) (kCycles : ℕ) : BitVec 32 :=
  match kCycles with
  | 2 => h02 k L ^^^ h12 k L ^^^ h22 k L ^^^ h32 k L
  | 3 => h03 k L ^^^ h13 k L ^^^ h23 k L ^^^ h33 k L
  | 4 => h04 k L ^^^ h14 k L ^^^ h24 k L ^^^ h34 k L
  | _ => BitVec.ofInt 32 ERR_ILL_ARG

/-- `fill_keyed_sboxes(S, kCycles, xkey)` -/
def fillKeyedSboxes (S : ℕ → BitVec 8) (kCycles : ℕ) (xkey : TwofishKey) : ℤ × TwofishKey :=
  match kCycles with
  | 2 => (SUCCESS, { xkey with s := fun k i => ![h02 i S, h12 i S, h22 i S, h32 i S] k })
  | 3 => (SUCCESS, { xkey with s := fun k i => ![h03 i S, h13 i S, h23 i S, h33 i S] k })
  | 4 => (SUCCESS, { xkey with s := fun k i => ![h04 i S, h14 i S, h24 i S, h34 i S] k })
  | _ => (ERR_ILL_ARG, xkey)

/-! ## The Reed-Solomon reduction -/

/-- `rs_poly_const` -/
def rsPolyConst : List (BitVec 32) := [0, 0x14d]

/-- `rs_poly_div_const` -/
def rsPolyDivConst : List (BitVec 32) := [0, 0xa6]

/-- `bx` -/
def rsTimesX (b : BitVec 8) : BitVec 8 :=
  (b.setWidth 32 <<< 1 ^^^ rsPolyConst.getD (b >>> 7).toNat 0).setWidth 8

/-- `bxx` -/
def rsTimesXX (b : BitVec 8) : BitVec 8 :=
  ((b >>> 1).setWidth 32 ^^^ rsPolyDivConst.getD (b &&& 1).toNat 0 ^^^
    (rsTimesX b).setWidth 32).setWidth 8

/-- The octet `K[i]`. -/
def octetOf (K : Octets) (i : ℕ) : BitVec 8 := (K.getD i 0).toBitVec

/-- `K[i] ^= b` -/
def xorAt (K : Octets) (i : ℕ) (b : BitVec 8) : Octets := K.set i ⟨octetOf K i ^^^ b⟩

/-- The body of the loop over the coefficients. -/
def rsStep (K : Octets) (t : ℕ) : Octets :=
  let b := octetOf K t
  let bx := rsTimesX b
  let bxx := rsTimesXX b
  xorAt (xorAt (xorAt (xorAt K (t - 1) bxx) (t - 2) bx) (t - 3) bxx) (t - 4) b

/-- The loop over the coefficients, with `t = sptr + 3 + n`. -/
def rsLoop (sptr : ℕ) : ℕ → Octets → Octets
  | 0, K => K
  | n + 1, K => rsLoop sptr n (rsStep K (sptr + 3 + (n + 1)))

/-- `memset(sptr, 0, 4)` and `memcpy(sptr + 4, kptr, 8)` with `kptr = K + 8 * j`: the polynomial of
the key word `j` is put at `sptr`. -/
def loadWord (K : Octets) (sptr j : ℕ) : Octets :=
  let K := writeAt K sptr (List.replicate 4 0)
  writeAt K (sptr + 4) (slice K (8 * j) 8)

/-- The loop over the key, with `kptr = K + 8 * j`. -/
def rsWords : ℕ → ℕ → Octets → Octets
  | 0, _, K => K
  | j + 1, sptr, K => rsWords j (sptr + 8) (rsLoop sptr 8 (loadWord K sptr j))

/-! ## The key schedule -/

/-- The body of the loop that computes the round key words. -/
def roundKeyStep (K : Octets) (kCycles : ℕ) (xkey : TwofishKey) (i : ℕ) : TwofishKey :=
  let A := h (BitVec.ofNat 8 i) (octetOf K) kCycles
  let B := h (BitVec.ofNat 8 (i + 1)) (fun j => octetOf K (4 + j)) kCycles
  let B := rol32 B 8
  let A := A + B
  let B := B + A
  { xkey with K := Function.update (Function.update xkey.K i A) (i + 1) (rol32 B 9) }

/-- The loop over `i = 0, 2, ..., 38`. -/
def roundKeys (K : Octets) (kCycles : ℕ) (xkey : TwofishKey) : TwofishKey :=
  ((List.range 20).map (fun i => 2 * i)).foldl (roundKeyStep K kCycles) xkey

/-- The buffer with the key, padded with zeros. -/
def padKey (key : Octets) (keyLen : ℕ) : Octets :=
  key.take keyLen ++ List.replicate (68 - keyLen) 0

/-- `kCycles` -/
def cycles (keyLen : ℕ) : ℕ :=
  let kCycles := (keyLen + 7) >>> 3
  if kCycles < 2 then 2 else kCycles

/-- `Twofish_prepare_key(key, key_len, xkey)`: its result and the expanded key, or nothing if it
does not return. -/
def prepareKey (initialised : Bool) (key : Octets) (keyLen : ℤ) (xkey : TwofishKey) :
    Option (ℤ × TwofishKey) :=
  if initialised = false then none
  else if keyLen < 0 ∨ keyLen > 32 then some (ERR_KEY_LEN, xkey)
  else
    let K := padKey key keyLen.toNat
    let kCycles := cycles keyLen.toNat
    let xkey := roundKeys K kCycles xkey
    let K := rsWords kCycles 32 K
    some (SUCCESS, (fillKeyedSboxes (fun i => octetOf K (32 + i)) kCycles xkey).2)

/-! ## The reference cipher -/

namespace Reference

/-- Which q-box an octet goes through in a stage. -/
def qOrder : ℕ → Fin 4 → Fin 2
  | 0 => ![1, 0, 1, 0]
  | 1 => ![0, 0, 1, 1]
  | 2 => ![0, 1, 0, 1]
  | 3 => ![1, 1, 0, 0]
  | _ => ![1, 0, 0, 1]

/-- The MDS matrix. -/
def mds : Fin 4 → Fin 4 → BitVec 8 :=
  ![![0x01, 0xEF, 0x5B, 0x5B],
    ![0x5B, 0xEF, 0xEF, 0x01],
    ![0xEF, 0x5B, 0x01, 0xEF],
    ![0xEF, 0x01, 0xEF, 0x5B]]

/-- The stages with `k` words of a key, the last word first. -/
def stages (L : ℕ → Fin 4 → BitVec 8) : ℕ → (Fin 4 → BitVec 8) → Fin 4 → BitVec 8
  | 0, y => fun j => qTable (qOrder 0 j) (y j)
  | k + 1, y => stages L k (fun j => qTable (qOrder (k + 1) j) (y j) ^^^ L k j)

/-- The product of the matrix with a column, in the field of `x^8 + x^6 + x^5 + x^3 + 1`. -/
def mdsProduct (y : Fin 4 → BitVec 8) : Fin 4 → BitVec 8 := fun i =>
  mul 0x69 (mds i 0) (y 0) ^^^ mul 0x69 (mds i 1) (y 1) ^^^ mul 0x69 (mds i 2) (y 2) ^^^
    mul 0x69 (mds i 3) (y 3)

/-- The function `h` on words. -/
def h (L : ℕ → Fin 4 → BitVec 8) (k : ℕ) (x : BitVec 32) : BitVec 32 :=
  join (mdsProduct (stages L k (fun j => selectByte x j)))

/-- The round key words from the even and the odd words of the key. -/
def roundKey (Me Mo : ℕ → Fin 4 → BitVec 8) (k i : ℕ) : BitVec 32 :=
  let A := h Me k (join (fun _ => BitVec.ofNat 8 (i / 2 * 2)))
  let B := rol32 (h Mo k (join (fun _ => BitVec.ofNat 8 (i / 2 * 2 + 1)))) 8
  if i % 2 = 0 then A + B else rol32 (A + 2 * B) 9

/-- A round, with `S` as the key of the S-boxes. -/
def round (S : ℕ → Fin 4 → BitVec 8) (K : ℕ → BitVec 32) (k : ℕ)
    (s : (BitVec 32 × BitVec 32) × BitVec 32 × BitVec 32) (r : ℕ) :
    (BitVec 32 × BitVec 32) × BitVec 32 × BitVec 32 :=
  let t0 := h S k s.1.1
  let t1 := h S k (rol32 s.1.2 8)
  ((ror32 (s.2.1 ^^^ (t0 + t1 + K (2 * r + 8))) 1, rol32 s.2.2 1 ^^^ (t0 + 2 * t1 + K (2 * r + 9))),
    s.1)

/-- The cipher: whitening, sixteen rounds, the last exchange undone, whitening. -/
def encrypt (S Me Mo : ℕ → Fin 4 → BitVec 8) (k : ℕ) (p : Block) : Block :=
  let K := roundKey Me Mo k
  let R := (List.range 16).foldl (round S K k)
    ((get32 p 0 ^^^ K 0, get32 p 1 ^^^ K 1), get32 p 2 ^^^ K 2, get32 p 3 ^^^ K 3)
  put32 ![R.2.1 ^^^ K 4, R.2.2 ^^^ K 5, R.1.1 ^^^ K 6, R.1.2 ^^^ K 7]

end Reference

/-! ## Words of octets -/

theorem selectByte_xor (x y : BitVec 32) (j : ℕ) :
    selectByte (x ^^^ y) j = selectByte x j ^^^ selectByte y j := by
  rw [selectByte, BitVec.ushiftRight_xor_distrib, BitVec.setWidth_xor]
  rfl

theorem join_xor (a b : Fin 4 → BitVec 8) : join (fun j => a j ^^^ b j) = join a ^^^ join b := by
  rw [← join_selectByte (join a ^^^ join b)]
  congr 1
  funext j
  rw [selectByte_xor, selectByte_join, selectByte_join]

/-- A rotation by an octet. -/
theorem selectByte_rol32 (x : BitVec 32) (j : Fin 4) :
    selectByte (rol32 x 8) j = selectByte x ((j + 3) % 4) := by
  refine BitVec.eq_of_getLsbD_eq fun i hi => ?_
  rw [getLsbD_selectByte _ _ hi, getLsbD_selectByte _ _ hi, rol32, BitVec.getLsbD_or,
    BitVec.getLsbD_shiftLeft, BitVec.getLsbD_ushiftRight]
  have hbeyond : ∀ n, 32 ≤ n → x.getLsbD n = false := fun n hn => BitVec.getLsbD_of_ge x n hn
  fin_cases j
  · simp
    grind
  · simp
    grind
  · simp
    grind
  · simp
    grind

/-! ## The tables -/

/-- The division in 32 bits is that in 8 bits. -/
theorem mdsDivx_setWidth : ∀ q : BitVec 8, mdsDivx (q.setWidth 32) = (divX 0xb4 q).setWidth 32 := by
  decide

/-- `0xb4` is `1 / x`. -/
theorem X_mul_b4 : Polynomial.X * toPoly (0xb4 : BitVec 8) + 1 = modulus (0x69 : BitVec 8) := by
  have hsplit := toPoly_eq_X_mul (0x69 : BitVec 8)
  have hmul := X_mul_toPoly (0xb4 : BitVec 8)
  have hbit : (0x69 : BitVec 8).getLsbD 0 = true := by decide
  have hmsb : (0xb4 : BitVec 8).msb = true := by decide
  have hshift : (0xb4 : BitVec 8) <<< 1 = 0x68 := by decide
  have hone : (0x69 : BitVec 8) = 0x68 ^^^ 1 := by decide
  rw [hmul, hmsb, hshift, if_pos rfl, modulus, hone, toPoly_xor, toPoly_one]
  ring

/-- **Division by `x`** is multiplication by a constant. -/
theorem residue_divX_b4 (b : BitVec 8) :
    residue 0x69 (divX 0xb4 b) = residue 0x69 (divX 0xb4 1) * residue 0x69 b := by
  have hb := residue_divX 0x69 X_mul_b4 b
  have hone := residue_divX 0x69 X_mul_b4 (1 : BitVec 8)
  have hunit : residue (0x69 : BitVec 8) 1 = 1 := residue_one 0x69
  rw [hunit] at hone
  calc residue 0x69 (divX 0xb4 b)
      = (AdjoinRoot.root (modulus 0x69) * residue 0x69 (divX 0xb4 1)) *
          residue 0x69 (divX 0xb4 b) := by rw [hone, one_mul]
    _ = residue 0x69 (divX 0xb4 1) *
          (AdjoinRoot.root (modulus 0x69) * residue 0x69 (divX 0xb4 b)) := by ring
    _ = residue 0x69 (divX 0xb4 1) * residue 0x69 b := by rw [hb]

/-- `5B` is `1 + 1 / x^2`. -/
theorem mul_5b (q : BitVec 8) : mul 0x69 0x5B q = divX 0xb4 (divX 0xb4 q) ^^^ q := by
  have hconst : (0x5B : BitVec 8) = divX 0xb4 (divX 0xb4 1) ^^^ 1 := by decide
  refine residue_injective 0x69 ?_
  rw [residue_mul, hconst, residue_xor, residue_xor, residue_divX_b4 (divX 0xb4 1),
    residue_divX_b4 (divX 0xb4 q), residue_divX_b4 q, residue_one]
  ring

/-- `EF` is `1 + 1 / x + 1 / x^2`. -/
theorem mul_ef (q : BitVec 8) : mul 0x69 0xEF q = divX 0xb4 q ^^^ mul 0x69 0x5B q := by
  have hconst : (0xEF : BitVec 8) = divX 0xb4 1 ^^^ 0x5B := by decide
  refine residue_injective 0x69 ?_
  rw [residue_mul, hconst, residue_xor, residue_xor, residue_mul, residue_divX_b4 q]
  ring

theorem mul_01 (q : BitVec 8) : mul 0x69 0x01 q = q := by
  refine residue_injective 0x69 ?_
  rw [residue_mul]
  show residue 0x69 1 * _ = _
  rw [residue_one, one_mul]

/-- The order of the products in the tables. -/
theorem columns_eq_join (f : BitVec 8 → BitVec 8) (k : Fin 4) :
    ![join ![f 0x01, f 0x5B, f 0xEF, f 0xEF], join ![f 0xEF, f 0xEF, f 0x5B, f 0x01],
      join ![f 0x5B, f 0xEF, f 0x01, f 0xEF], join ![f 0x5B, f 0x01, f 0xEF, f 0x5B]] k =
      join (fun j => f (Reference.mds j k)) := by
  have hcolumn : ∀ c : Fin 4 → BitVec 8, (∀ j, c j = f (Reference.mds j k)) →
      join c = join (fun j => f (Reference.mds j k)) := fun c hc => congrArg join (funext hc)
  fin_cases k
  · exact hcolumn _ (fun j => by fin_cases j <;> rfl)
  · exact hcolumn _ (fun j => by fin_cases j <;> rfl)
  · exact hcolumn _ (fun j => by fin_cases j <;> rfl)
  · exact hcolumn _ (fun j => by fin_cases j <;> rfl)

/-- **The tables** hold the products of the columns of the matrix. -/
theorem mdsTable_eq_join (k : Fin 4) (i : BitVec 8) :
    mdsTable k i =
      join (fun j => mul 0x69 (Reference.mds j k) (qTable (Reference.qOrder 0 k) i)) := by
  have hor : ∀ a b c d : BitVec 32, d ||| c ||| b ||| a = a ||| b ||| c ||| d := by
    intro a b c d
    ac_rfl
  have hword : ∀ a b c d : BitVec 8, d.setWidth 32 <<< 24 ||| c.setWidth 32 <<< 16 |||
      b.setWidth 32 <<< 8 ||| a.setWidth 32 = join ![a, b, c, d] := fun a b c d => hor _ _ _ _
  rw [← columns_eq_join (fun c => mul 0x69 c (qTable (Reference.qOrder 0 k) i)) k, mdsTable,
    mdsDivx_setWidth, mdsDivx_setWidth, ← BitVec.setWidth_xor, ← BitVec.setWidth_xor, hword, hword,
    hword, hword, ← mul_5b, ← mul_ef, mul_01]
  rfl

/-! ## The function `h` -/

/-- The words of a key at every eighth octet. -/
def spacedWords (L : ℕ → BitVec 8) (i : ℕ) (j : Fin 4) : BitVec 8 := L (8 * i + j)

/-- The four columns of `h`. -/
theorem mdsTable_stages (z : Fin 4 → BitVec 8) :
    mdsTable 0 (z 0) ^^^ mdsTable 1 (z 1) ^^^ mdsTable 2 (z 2) ^^^ mdsTable 3 (z 3) =
      join (Reference.mdsProduct (fun j => qTable (Reference.qOrder 0 j) (z j))) := by
  rw [mdsTable_eq_join, mdsTable_eq_join, mdsTable_eq_join, mdsTable_eq_join, ← join_xor,
    ← join_xor, ← join_xor]
  rfl

/-- The columns of the macros for two, three and four stages. -/
def columns (L : ℕ → BitVec 8) (k : ℕ) (y : Fin 4 → BitVec 8) : BitVec 32 :=
  match k with
  | 2 => h02 (y 0) L ^^^ h12 (y 1) L ^^^ h22 (y 2) L ^^^ h32 (y 3) L
  | 3 => h03 (y 0) L ^^^ h13 (y 1) L ^^^ h23 (y 2) L ^^^ h33 (y 3) L
  | _ => h04 (y 0) L ^^^ h14 (y 1) L ^^^ h24 (y 2) L ^^^ h34 (y 3) L

/-- S-boxes that are given as columns. -/
theorem g0_eq (f₀ f₁ f₂ f₃ : BitVec 8 → BitVec 32) (K : ℕ → BitVec 32) {x : BitVec 32}
    {y : Fin 4 → BitVec 8} (hy : y = fun j : Fin 4 => selectByte x j) :
    (TwofishKey.mk (fun k i => ![f₀ i, f₁ i, f₂ i, f₃ i] k) K).g0 x =
      f₀ (y 0) ^^^ f₁ (y 1) ^^^ f₂ (y 2) ^^^ f₃ (y 3) := by
  subst hy
  rfl

/-- The second function looks at the word rotated by an octet. -/
theorem g1_eq_g0 (xkey : TwofishKey) (x : BitVec 32) : xkey.g1 x = xkey.g0 (rol32 x 8) := by
  have h0 : selectByte (rol32 x 8) 0 = selectByte x 3 := selectByte_rol32 x 0
  have h1 : selectByte (rol32 x 8) 1 = selectByte x 0 := selectByte_rol32 x 1
  have h2 : selectByte (rol32 x 8) 2 = selectByte x 1 := selectByte_rol32 x 2
  have h3 : selectByte (rol32 x 8) 3 = selectByte x 2 := selectByte_rol32 x 3
  rw [TwofishKey.g1, TwofishKey.g0, h0, h1, h2, h3]

section Stages

variable {k : ℕ} (hk : k = 2 ∨ k = 3 ∨ k = 4) (L : ℕ → BitVec 8)

include hk

/-- **The macros for two, three and four stages** are the stages and the matrix. -/
theorem columns_eq (y : Fin 4 → BitVec 8) :
    columns L k y = join (Reference.mdsProduct (Reference.stages (spacedWords L) k y)) := by
  rcases hk with rfl | rfl | rfl
  · unfold columns h02 h12 h22 h32
    exact mdsTable_stages (fun j => qTable (Reference.qOrder 1 j)
      (qTable (Reference.qOrder 2 j) (y j) ^^^ spacedWords L 1 j) ^^^ spacedWords L 0 j)
  · unfold columns h03 h13 h23 h33 h02 h12 h22 h32
    exact mdsTable_stages (fun j => qTable (Reference.qOrder 1 j)
      (qTable (Reference.qOrder 2 j) (qTable (Reference.qOrder 3 j) (y j) ^^^ spacedWords L 2 j) ^^^
        spacedWords L 1 j) ^^^ spacedWords L 0 j)
  · unfold columns h04 h14 h24 h34 h03 h13 h23 h33 h02 h12 h22 h32
    exact mdsTable_stages (fun j => qTable (Reference.qOrder 1 j)
      (qTable (Reference.qOrder 2 j) (qTable (Reference.qOrder 3 j)
        (qTable (Reference.qOrder 4 j) (y j) ^^^ spacedWords L 3 j) ^^^ spacedWords L 2 j) ^^^
        spacedWords L 1 j) ^^^ spacedWords L 0 j)

/-- **The function `h`** of an octet, four times. -/
theorem h_eq (y : BitVec 8) :
    h y L k = Reference.h (spacedWords L) k (join (fun _ => y)) := by
  have hoctets : (fun j : Fin 4 => selectByte (join (fun _ => y)) j) = fun _ => y :=
    funext fun j => selectByte_join _ j
  rw [Reference.h, hoctets, ← columns_eq hk]
  rcases hk with rfl | rfl | rfl
  · rw [h, columns]
  · rw [h, columns]
  · simp only [h, columns]

/-- **The keyed S-boxes.** -/
theorem fillKeyedSboxes_g0 (xkey : TwofishKey) (x : BitVec 32) :
    (fillKeyedSboxes L k xkey).2.g0 x = Reference.h (spacedWords L) k x := by
  obtain ⟨y, hy⟩ : ∃ y : Fin 4 → BitVec 8, y = fun j : Fin 4 => selectByte x j := ⟨_, rfl⟩
  rw [Reference.h, ← hy, ← columns_eq hk L]
  rcases hk with rfl | rfl | rfl
  · exact g0_eq (fun i => h02 i L) (fun i => h12 i L) (fun i => h22 i L)
      (fun i => h32 i L) xkey.K hy
  · exact g0_eq (fun i => h03 i L) (fun i => h13 i L) (fun i => h23 i L)
      (fun i => h33 i L) xkey.K hy
  · exact g0_eq (fun i => h04 i L) (fun i => h14 i L) (fun i => h24 i L)
      (fun i => h34 i L) xkey.K hy

end Stages

/-! ## The buffer -/

@[simp] theorem length_xorAt (K : Octets) (i : ℕ) (b : BitVec 8) :
    (xorAt K i b).length = K.length :=
  List.length_set

theorem octetOf_xorAt {K : Octets} {i : ℕ} (hi : i < K.length) (b : BitVec 8) (j : ℕ) :
    octetOf (xorAt K i b) j = if j = i then octetOf K i ^^^ b else octetOf K j := by
  unfold octetOf xorAt
  rw [List.getD_eq_getElem?_getD, List.getElem?_set]
  by_cases hj : j = i
  · subst hj
    rw [if_pos rfl, if_pos rfl, if_pos hi]
    rfl
  · rw [if_neg (fun heq => hj heq.symm), if_neg hj, ← List.getD_eq_getElem?_getD]

@[simp] theorem length_rsStep (K : Octets) (t : ℕ) : (rsStep K t).length = K.length := by
  unfold rsStep
  dsimp only
  rw [length_xorAt, length_xorAt, length_xorAt, length_xorAt]

@[simp] theorem length_rsLoop (sptr n : ℕ) (K : Octets) : (rsLoop sptr n K).length = K.length := by
  induction n generalizing K with
  | zero => rfl
  | succ n ih => rw [rsLoop, ih, length_rsStep]

/-- **What a step writes**: four octets below the one that it reads. -/
theorem octetOf_rsStep {K : Octets} {t : ℕ} (ht : t + 4 < K.length) (j : ℕ) :
    octetOf (rsStep K (t + 4)) j =
      if j = t then octetOf K t ^^^ octetOf K (t + 4)
      else if j = t + 1 then octetOf K (t + 1) ^^^ rsTimesXX (octetOf K (t + 4))
      else if j = t + 2 then octetOf K (t + 2) ^^^ rsTimesX (octetOf K (t + 4))
      else if j = t + 3 then octetOf K (t + 3) ^^^ rsTimesXX (octetOf K (t + 4))
      else octetOf K j := by
  have h3 : t + 4 - 1 = t + 3 := rfl
  have h2 : t + 4 - 2 = t + 2 := rfl
  have h1 : t + 4 - 3 = t + 1 := rfl
  have h0 : t + 4 - 4 = t := rfl
  unfold rsStep
  dsimp only
  rw [h3, h2, h1, h0]
  simp (disch := (try simp only [length_xorAt]); omega) only [octetOf_xorAt]
  by_cases hj0 : j = t
  · simp [hj0]
  · by_cases hj1 : j = t + 1
    · simp [hj1]
    · by_cases hj2 : j = t + 2
      · simp [hj2]
      · simp [hj0, hj1, hj2]

theorem octetOf_writeAt {K src : Octets} {p : ℕ} (hp : p + src.length ≤ K.length) (j : ℕ) :
    octetOf (writeAt K p src) j =
      if p ≤ j ∧ j < p + src.length then octetOf src (j - p) else octetOf K j := by
  unfold octetOf writeAt
  have htake : (K.take p).length = p := by rw [List.length_take]; omega
  rw [List.append_assoc, List.getD_eq_getElem?_getD, List.getD_eq_getElem?_getD,
    List.getD_eq_getElem?_getD]
  rcases Nat.lt_or_ge j p with hlow | hge
  · rw [if_neg (by omega), List.getElem?_append_left (by omega), List.getElem?_take_of_lt hlow]
  · rw [List.getElem?_append_right (by omega), htake]
    by_cases hmid : j < p + src.length
    · rw [if_pos ⟨hge, hmid⟩, List.getElem?_append_left (by omega)]
    · rw [if_neg (by omega), List.getElem?_append_right (by omega), List.getElem?_drop]
      congr 4
      omega

theorem octetOf_slice {K : Octets} {p n j : ℕ} (hj : j < n) :
    octetOf (slice K p n) j = octetOf K (p + j) := by
  unfold octetOf slice
  rw [List.getD_eq_getElem?_getD, List.getD_eq_getElem?_getD, List.getElem?_take_of_lt hj,
    List.getElem?_drop]

section Load

variable {K : Octets} {sptr j : ℕ} (hsptr : sptr + 12 ≤ K.length) (hj : 8 * j + 8 ≤ sptr)

include hsptr hj

theorem length_loadWord : (loadWord K sptr j).length = K.length := by
  unfold loadWord
  have hzeros : (writeAt K sptr (List.replicate 4 0)).length = K.length :=
    length_writeAt (by rw [List.length_replicate]; omega)
  dsimp only
  rw [length_writeAt, hzeros]
  rw [length_slice (by omega), hzeros]
  omega

theorem octetOf_loadWord (i : ℕ) :
    octetOf (loadWord K sptr j) i =
      if i < sptr ∨ sptr + 12 ≤ i then octetOf K i
      else if i < sptr + 4 then 0 else octetOf K (8 * j + (i - (sptr + 4))) := by
  have hzeros : (writeAt K sptr (List.replicate 4 0)).length = K.length :=
    length_writeAt (by rw [List.length_replicate]; omega)
  have hslice : (slice (writeAt K sptr (List.replicate 4 0)) (8 * j) 8).length = 8 :=
    length_slice (by omega)
  unfold loadWord
  dsimp only
  rw [octetOf_writeAt (by omega), hslice]
  have hfirst : ∀ i, octetOf (writeAt K sptr (List.replicate 4 0)) i =
      if sptr ≤ i ∧ i < sptr + 4 then 0 else octetOf K i := by
    intro i
    rw [octetOf_writeAt (by rw [List.length_replicate]; omega), List.length_replicate]
    split_ifs with hin
    · unfold octetOf
      rw [List.getD_eq_getElem?_getD, List.getElem?_replicate]
      split_ifs <;> rfl
    · rfl
  by_cases hin : sptr + 4 ≤ i ∧ i < sptr + 4 + 8
  · rw [if_pos hin, octetOf_slice (by omega), hfirst, if_neg (by omega), if_neg (by omega),
      if_neg (by omega)]
  · rw [if_neg hin, hfirst]
    split_ifs <;> first | rfl | omega

end Load

/-! ## The Reed-Solomon reduction -/

/-- What the loop over the coefficients leaves as it was. -/
theorem octetOf_rsLoop {sptr n : ℕ} {K : Octets} (hn : sptr + 3 + n < K.length) {i : ℕ}
    (hi : i < sptr ∨ sptr + 3 + n ≤ i) : octetOf (rsLoop sptr n K) i = octetOf K i := by
  induction n generalizing K with
  | zero => rfl
  | succ n ih =>
      have hstep : rsStep K (sptr + 3 + (n + 1)) = rsStep K (sptr + n + 4) := by
        congr 1
        omega
      rw [rsLoop, hstep, ih (by rw [length_rsStep]; omega) (by omega), octetOf_rsStep (by omega)]
      rw [if_neg (by omega), if_neg (by omega), if_neg (by omega), if_neg (by omega)]

/-- **The reduction stays in its part of the buffer.** -/
theorem rsWords_frame (j sptr : ℕ) {K : Octets} (hsptr : sptr + 8 * j + 4 ≤ K.length)
    (hj : 8 * j ≤ sptr) {i : ℕ} (hi : i < sptr ∨ sptr + 8 * j + 4 ≤ i) :
    octetOf (rsWords j sptr K) i = octetOf K i := by
  induction j generalizing sptr K with
  | zero => rfl
  | succ j ih =>
      have hload : (loadWord K sptr j).length = K.length := length_loadWord (by omega) (by omega)
      show octetOf (rsWords j (sptr + 8) (rsLoop sptr 8 (loadWord K sptr j))) i = _
      rw [ih (sptr + 8) (by rw [length_rsLoop, hload]; omega) (by omega) (by omega),
        octetOf_rsLoop (by omega) (by omega), octetOf_loadWord (by omega) (by omega),
        if_pos (by omega)]

/-- The field of the reduction, that of `x^8 + x^6 + x^3 + x^2 + 1`. -/
abbrev RsResidue : Type := Residue (0x4d : BitVec 8)

theorem rsTimesX_eq : ∀ b : BitVec 8, rsTimesX b = timesX 0x4d b := by
  decide

theorem rsTimesXX_eq : ∀ b : BitVec 8, rsTimesXX b = divX 0xa6 b ^^^ timesX 0x4d b := by
  decide

/-- `x` -/
noncomputable def rsX : RsResidue := AdjoinRoot.root (modulus 0x4d)

/-- `1 / x` -/
noncomputable def rsInvX : RsResidue := residue 0x4d 0xa6

/-- `0xa6` is `1 / x`. -/
theorem X_mul_a6 : Polynomial.X * toPoly (0xa6 : BitVec 8) + 1 = modulus (0x4d : BitVec 8) := by
  have hmul := X_mul_toPoly (0xa6 : BitVec 8)
  have hmsb : (0xa6 : BitVec 8).msb = true := by decide
  have hshift : (0xa6 : BitVec 8) <<< 1 = 0x4c := by decide
  have hone : (0x4d : BitVec 8) = 0x4c ^^^ 1 := by decide
  rw [hmul, hmsb, hshift, if_pos rfl, modulus, hone, toPoly_xor, toPoly_one]
  ring

theorem rsX_mul_rsInvX : rsX * rsInvX = 1 := by
  have hdiv := residue_divX 0x4d X_mul_a6 (1 : BitVec 8)
  have hconst : divX (0xa6 : BitVec 8) 1 = 0xa6 := by decide
  rw [hconst, residue_one] at hdiv
  exact hdiv

theorem residue_rsTimesX (b : BitVec 8) : residue 0x4d (rsTimesX b) = rsX * residue 0x4d b := by
  rw [rsTimesX_eq, residue_timesX]
  rfl

theorem residue_rsTimesXX (b : BitVec 8) :
    residue 0x4d (rsTimesXX b) = (rsX + rsInvX) * residue 0x4d b := by
  have hdiv : residue 0x4d (divX 0xa6 b) = rsInvX * residue 0x4d b := by
    have hb : rsX * residue 0x4d (divX 0xa6 b) = residue 0x4d b := residue_divX 0x4d X_mul_a6 b
    calc residue 0x4d (divX 0xa6 b)
        = (rsX * rsInvX) * residue 0x4d (divX 0xa6 b) := by rw [rsX_mul_rsInvX, one_mul]
      _ = rsInvX * (rsX * residue 0x4d (divX 0xa6 b)) := by ring
      _ = rsInvX * residue 0x4d b := by rw [hb]
  have htimes : residue 0x4d (timesX 0x4d b) = rsX * residue 0x4d b := residue_timesX 0x4d b
  rw [rsTimesXX_eq, residue_xor, hdiv, htimes]
  ring

open Polynomial in
/-- `y^4 + (x + 1/x) y^3 + x y^2 + (x + 1/x) y + 1` -/
noncomputable def rsGenerator : RsResidue[X] :=
  X ^ 4 + (C (rsX + rsInvX) * X ^ 3 + C rsX * X ^ 2 + C (rsX + rsInvX) * X + 1)

open Polynomial in
/-- The polynomial with the coefficients `f 0`, ..., `f (n - 1)`. -/
noncomputable def octetPoly (n : ℕ) (f : ℕ → BitVec 8) : RsResidue[X] :=
  ∑ i ∈ Finset.range n, C (residue 0x4d (f i)) * X ^ i

instance : Nontrivial RsResidue := by
  refine AdjoinRoot.nontrivial _ ?_
  rw [degree_modulus]
  decide

open Polynomial in
theorem degree_octetPoly_lt (n : ℕ) (f : ℕ → BitVec 8) : (octetPoly n f).degree < n := by
  refine (degree_lt_iff_coeff_zero _ _).mpr fun k hk => ?_
  rw [octetPoly, finsetSum_coeff]
  refine Finset.sum_eq_zero fun i hi => ?_
  have hlt := Finset.mem_range.mp hi
  rw [coeff_C_mul, coeff_X_pow, if_neg (by omega), mul_zero]

open Polynomial in
theorem degree_rsGenerator : rsGenerator.Monic ∧ rsGenerator.degree = 4 := by
  have hrest : (C (rsX + rsInvX) * X ^ 3 + C rsX * X ^ 2 + C (rsX + rsInvX) * X + 1 :
      RsResidue[X]).degree < (4 : ℕ) := by
    refine (degree_lt_iff_coeff_zero _ _).mpr fun k hk => ?_
    rw [coeff_add, coeff_add, coeff_add, coeff_C_mul, coeff_C_mul, coeff_C_mul, coeff_X_pow,
      coeff_X_pow, coeff_X, coeff_one, if_neg (by omega), if_neg (by omega), if_neg (by omega),
      if_neg (by omega)]
    ring
  refine ⟨monic_X_pow_add hrest, ?_⟩
  rw [rsGenerator, degree_add_eq_left_of_degree_lt, degree_X_pow]
  · rfl
  · rw [degree_X_pow]
    exact hrest

open Polynomial in
/-- **A step of the loop** subtracts a multiple of the generator. -/
theorem octetPoly_rsStep {K : Octets} {sptr n : ℕ} (hn : sptr + n + 4 < K.length) :
    octetPoly (n + 5) (fun i => octetOf K (sptr + i)) =
      octetPoly (n + 4) (fun i => octetOf (rsStep K (sptr + n + 4)) (sptr + i)) +
        rsGenerator * (C (residue 0x4d (octetOf K (sptr + n + 4))) * X ^ n) := by
  have hlow : ∀ i ∈ Finset.range n,
      C (residue 0x4d (octetOf (rsStep K (sptr + n + 4)) (sptr + i))) * X ^ i =
        (C (residue 0x4d (octetOf K (sptr + i))) * X ^ i : RsResidue[X]) := by
    intro i hi
    have hlt := Finset.mem_range.mp hi
    rw [octetOf_rsStep hn, if_neg (by omega), if_neg (by omega), if_neg (by omega),
      if_neg (by omega)]
  have h0 := octetOf_rsStep hn (sptr + n)
  have h1 := octetOf_rsStep hn (sptr + n + 1)
  have h2 := octetOf_rsStep hn (sptr + n + 2)
  have h3 := octetOf_rsStep hn (sptr + n + 3)
  rw [if_pos rfl] at h0
  rw [if_neg (by omega), if_pos rfl] at h1
  rw [if_neg (by omega), if_neg (by omega), if_pos rfl] at h2
  rw [if_neg (by omega), if_neg (by omega), if_neg (by omega), if_pos rfl] at h3
  have htwo : (2 : RsResidue[X]) = 0 := by
    have hC : (2 : RsResidue[X]) = C 2 := rfl
    rw [hC, two_eq_zero, C_0]
  unfold octetPoly
  rw [Finset.sum_range_succ, Finset.sum_range_succ, Finset.sum_range_succ, Finset.sum_range_succ,
    Finset.sum_range_succ, Finset.sum_range_succ, Finset.sum_range_succ, Finset.sum_range_succ,
    Finset.sum_range_succ, Finset.sum_congr rfl hlow]
  simp only [← Nat.add_assoc]
  rw [h0, h1, h2, h3, residue_xor, residue_xor, residue_xor, residue_xor, residue_rsTimesX,
    residue_rsTimesXX, rsGenerator]
  simp only [C_add, C_mul]
  generalize C (residue 0x4d (octetOf K (sptr + n + 4))) = b
  -- every term but the first ones occurs twice
  linear_combination (-(b * X ^ n * (X ^ 0 + (C rsX + C rsInvX) * X + C rsX * X ^ 2 +
    (C rsX + C rsInvX) * X ^ 3))) * htwo

open Polynomial in
/-- **The loop** leaves the remainder. -/
theorem octetPoly_rsLoop {K : Octets} {sptr n : ℕ} (hn : sptr + 3 + n < K.length) :
    ∃ quotient : RsResidue[X], octetPoly (4 + n) (fun i => octetOf K (sptr + i)) =
      octetPoly 4 (fun i => octetOf (rsLoop sptr n K) (sptr + i)) + rsGenerator * quotient := by
  induction n generalizing K with
  | zero =>
      refine ⟨0, ?_⟩
      rw [mul_zero]
      exact (add_zero _).symm
  | succ n ih =>
      have hread : sptr + 3 + (n + 1) = sptr + n + 4 := by omega
      obtain ⟨quotient, hquotient⟩ := ih (K := rsStep K (sptr + n + 4))
        (by rw [length_rsStep]; omega)
      have hbound : sptr + n + 4 < K.length := by omega
      have hstep := octetPoly_rsStep hbound
      have hlow : 4 + n = n + 4 := Nat.add_comm 4 n
      have hhigh : 4 + (n + 1) = n + 5 := by omega
      refine ⟨quotient + C (residue 0x4d (octetOf K (sptr + n + 4))) * X ^ n, ?_⟩
      rw [rsLoop, hread, hhigh, hstep, ← hlow, hquotient]
      ring

/-- The polynomial that is loaded. -/
theorem octetPoly_loadWord {K : Octets} {sptr j : ℕ} (hsptr : sptr + 12 ≤ K.length)
    (hj : 8 * j + 8 ≤ sptr) :
    octetPoly 12 (fun i => octetOf (loadWord K sptr j) (sptr + i)) =
      Polynomial.X ^ 4 * octetPoly 8 (fun i => octetOf K (8 * j + i)) := by
  have hload := octetOf_loadWord hsptr hj
  have hlow : ∀ i ∈ Finset.range 4,
      Polynomial.C (residue 0x4d (octetOf (loadWord K sptr j) (sptr + i))) * Polynomial.X ^ i =
        (0 : Polynomial RsResidue) := by
    intro i hi
    have hlt := Finset.mem_range.mp hi
    rw [hload, if_neg (by omega), if_pos (by omega), residue_zero, Polynomial.C_0, zero_mul]
  have hhigh : ∀ i ∈ Finset.range 8,
      Polynomial.C (residue 0x4d (octetOf (loadWord K sptr j) (sptr + (4 + i)))) *
        Polynomial.X ^ (4 + i) = Polynomial.X ^ 4 *
          (Polynomial.C (residue 0x4d (octetOf K (8 * j + i))) * Polynomial.X ^ i) := by
    intro i hi
    have hlt := Finset.mem_range.mp hi
    have hindex : sptr + (4 + i) - (sptr + 4) = i := by omega
    rw [hload, if_neg (by omega), if_neg (by omega), hindex, pow_add]
    ring
  unfold octetPoly
  refine (Finset.sum_range_add _ 4 8).trans ?_
  rw [Finset.sum_eq_zero hlow, Finset.sum_congr rfl hhigh, zero_add, Finset.mul_sum]

/-- One word of the key is reduced. -/
theorem octetPoly_reduced {K : Octets} {sptr j : ℕ} (hsptr : sptr + 12 ≤ K.length)
    (hj : 8 * j + 8 ≤ sptr) :
    octetPoly 4 (fun i => octetOf (rsLoop sptr 8 (loadWord K sptr j)) (sptr + i)) =
      (Polynomial.X ^ 4 * octetPoly 8 (fun i => octetOf K (8 * j + i))) %ₘ rsGenerator := by
  obtain ⟨hmonic, hdegree⟩ := degree_rsGenerator
  have hload := length_loadWord hsptr hj
  have hbound : sptr + 3 + 8 < (loadWord K sptr j).length := by omega
  obtain ⟨quotient, hquotient⟩ := octetPoly_rsLoop hbound
  rw [← octetPoly_loadWord hsptr hj]
  refine (Polynomial.div_modByMonic_unique quotient _ hmonic ⟨hquotient.symm, ?_⟩).2.symm
  rw [hdegree]
  exact degree_octetPoly_lt 4 _

/-- **The words of the S-vector** are the remainders of the words of the key, in reverse order. -/
theorem rsWords_remainder (j sptr : ℕ) {K : Octets} (hsptr : sptr + 8 * j + 4 ≤ K.length)
    (hj : 8 * j ≤ sptr) {m : ℕ} (hm : m < j) :
    octetPoly 4 (fun i => octetOf (rsWords j sptr K) (sptr + 8 * m + i)) =
      (Polynomial.X ^ 4 * octetPoly 8 (fun i => octetOf K (8 * (j - 1 - m) + i))) %ₘ
        rsGenerator := by
  induction j generalizing sptr K m with
  | zero => exact absurd hm (Nat.not_lt_zero m)
  | succ j ih =>
      have hlength : (rsLoop sptr 8 (loadWord K sptr j)).length = K.length := by
        rw [length_rsLoop, length_loadWord (by omega) (by omega)]
      show octetPoly 4 (fun i => octetOf (rsWords j (sptr + 8) (rsLoop sptr 8 (loadWord K sptr j)))
        (sptr + 8 * m + i)) = _
      cases m with
      | zero =>
          -- the words behind it do not touch it
          have hroom : sptr + 12 ≤ K.length := by omega
          have hbefore : 8 * j + 8 ≤ sptr := by omega
          have hreduced := octetPoly_reduced hroom hbefore
          have hword : j + 1 - 1 - 0 = j := rfl
          rw [hword, ← hreduced]
          refine Finset.sum_congr rfl fun i hi => ?_
          have hlt := Finset.mem_range.mp hi
          dsimp only
          have hframe := rsWords_frame j (sptr + 8) (K := rsLoop sptr 8 (loadWord K sptr j))
            (by omega) (by omega) (i := sptr + i) (by omega)
          rw [Nat.mul_zero, Nat.add_zero sptr, hframe]
      | succ m =>
          have hrest := ih (sptr + 8) (K := rsLoop sptr 8 (loadWord K sptr j)) (by omega) (by omega)
            (Nat.lt_of_succ_lt_succ hm)
          have hindex : sptr + 8 * (m + 1) = sptr + 8 + 8 * m := by omega
          have hword : j + 1 - 1 - (m + 1) = j - 1 - m := by omega
          have hkey : octetPoly 8
              (fun i => octetOf (rsLoop sptr 8 (loadWord K sptr j)) (8 * (j - 1 - m) + i)) =
                octetPoly 8 (fun i => octetOf K (8 * (j - 1 - m) + i)) := by
            refine Finset.sum_congr rfl fun i hi => ?_
            have hlt := Finset.mem_range.mp hi
            have hload : (loadWord K sptr j).length = K.length :=
              length_loadWord (by omega) (by omega)
            dsimp only
            rw [octetOf_rsLoop (by omega) (by omega), octetOf_loadWord (by omega) (by omega),
              if_pos (by omega)]
          rw [hindex, hword, hrest, hkey]

/-! ## The expanded key -/

/-- The key words of an expanded key with `n` of the loop's rounds done. -/
theorem foldl_roundKeyStep (K : Octets) (kCycles : ℕ) (xkey : TwofishKey) {n i : ℕ} (hi : i < n) :
    (((List.range n).map (fun i => 2 * i)).foldl (roundKeyStep K kCycles) xkey).K (2 * i) =
        h (BitVec.ofNat 8 (2 * i)) (octetOf K) kCycles +
          rol32 (h (BitVec.ofNat 8 (2 * i + 1)) (fun j => octetOf K (4 + j)) kCycles) 8 ∧
      (((List.range n).map (fun i => 2 * i)).foldl (roundKeyStep K kCycles) xkey).K (2 * i + 1) =
        rol32 (h (BitVec.ofNat 8 (2 * i)) (octetOf K) kCycles +
          2 * rol32 (h (BitVec.ofNat 8 (2 * i + 1)) (fun j => octetOf K (4 + j)) kCycles) 8) 9 := by
  induction n with
  | zero => exact absurd hi (Nat.not_lt_zero i)
  | succ n ih =>
      rw [List.range_succ, List.map_append, List.foldl_append]
      generalize hfold : ((List.range n).map (fun i => 2 * i)).foldl (roundKeyStep K kCycles) xkey =
        xkey'
      rw [hfold] at ih
      show (roundKeyStep K kCycles xkey' (2 * n)).K (2 * i) = _ ∧
        (roundKeyStep K kCycles xkey' (2 * n)).K (2 * i + 1) = _
      unfold roundKeyStep
      dsimp only
      rcases Nat.lt_succ_iff_lt_or_eq.mp hi with hlt | rfl
      · obtain ⟨heven, hodd⟩ := ih hlt
        rw [Function.update_of_ne (by omega), Function.update_of_ne (by omega),
          Function.update_of_ne (by omega), Function.update_of_ne (by omega)]
        exact ⟨heven, hodd⟩
      · rw [Function.update_of_ne (by omega), Function.update_self, Function.update_self]
        refine ⟨rfl, ?_⟩
        congr 1
        ring

/-- The other parts of the loop leave the S-boxes. -/
theorem fillKeyedSboxes_K (S : ℕ → BitVec 8) {k : ℕ} (hk : k = 2 ∨ k = 3 ∨ k = 4)
    (xkey : TwofishKey) :
    (fillKeyedSboxes S k xkey).2.K = xkey.K := by
  rcases hk with rfl | rfl | rfl
  · rw [fillKeyedSboxes]
  · rw [fillKeyedSboxes]
  · rw [fillKeyedSboxes]

theorem cycles_cases {keyLen : ℕ} (h : keyLen ≤ 32) :
    cycles keyLen = 2 ∨ cycles keyLen = 3 ∨ cycles keyLen = 4 := by
  have hshift : (keyLen + 7) >>> 3 = (keyLen + 7) / 8 := Nat.shiftRight_eq_div_pow _ 3
  unfold cycles
  dsimp only
  rw [hshift]
  split_ifs
  · exact Or.inl rfl
  · omega

/-- **The round key words** are those of the reference. -/
theorem roundKeys_K (K : Octets) {k : ℕ} (hk : k = 2 ∨ k = 3 ∨ k = 4) (xkey : TwofishKey) {i : ℕ}
    (hi : i < 40) : (roundKeys K k xkey).K i = Reference.roundKey (spacedWords (octetOf K))
      (spacedWords (fun j => octetOf K (4 + j))) k i := by
  have hhalf : i / 2 < 20 := by omega
  obtain ⟨heven, hodd⟩ := foldl_roundKeyStep K k xkey hhalf
  rw [h_eq hk, h_eq hk] at heven hodd
  unfold Reference.roundKey
  dsimp only
  rw [Nat.mul_comm (i / 2) 2]
  rcases Nat.mod_two_eq_zero_or_one i with hmod | hmod
  · have hindex : 2 * (i / 2) = i := by omega
    rw [if_pos hmod, ← heven, hindex]
    rfl
  · have hindex : 2 * (i / 2) + 1 = i := by omega
    rw [if_neg (by omega), ← hodd, hindex]
    rfl

/-- **A cipher with the words and the boxes of the reference** is the reference cipher. -/
theorem encrypt_eq_reference {xkey : TwofishKey} {S Me Mo : ℕ → Fin 4 → BitVec 8} {k : ℕ}
    (hs : ∀ x, xkey.g0 x = Reference.h S k x)
    (hK : ∀ i, i < 40 → xkey.K i = Reference.roundKey Me Mo k i) (p : Block) :
    xkey.encrypt p = Reference.encrypt S Me Mo k p := by
  have hround : ∀ s, ∀ r ∈ List.range 16,
      xkey.network.round s r = Reference.round S (Reference.roundKey Me Mo k) k s r := by
    intro s r hr
    have hlt := List.mem_range.mp hr
    have heven : 8 + 2 * r = 2 * r + 8 := Nat.add_comm _ _
    have hodd : 8 + 2 * r + 1 = 2 * r + 9 := by omega
    show (xkey.encryptRnd r s.1 s.2, s.1) = _
    unfold TwofishKey.encryptRnd Reference.round
    dsimp only
    rw [g1_eq_g0, hs, hs, hodd, heven, hK _ (by omega), hK _ (by omega)]
  unfold TwofishKey.encrypt Reference.encrypt
  rw [TwofishKey.foldl_encryptCycle, FeistelNetwork.rounds, List.foldl_ext _ _ _ hround]
  unfold TwofishKey.getInput TwofishKey.putOutput
  simp only [Nat.add_zero, Nat.reduceAdd]
  rw [hK 0 (by omega), hK 1 (by omega), hK 2 (by omega), hK 3 (by omega), hK 4 (by omega),
    hK 5 (by omega), hK 6 (by omega), hK 7 (by omega)]
  generalize List.foldl _ _ _ = R
  rfl

/-- **A prepared key.**  With a key of up to 32 octets, padded with zeros to 16, 24 or 32 of them,
the tables of the source make up the cipher that they are meant to: its S-boxes and round key words
come from the matrix product, and the words of its S-vector are the remainders of the key words,
times `y^4`, modulo the generator. -/
theorem prepareKey_encrypt (key : Octets) {keyLen : ℤ} (hlow : 0 ≤ keyLen) (hhigh : keyLen ≤ 32)
    (hkey : keyLen ≤ key.length) (xkey₀ : TwofishKey) :
    ∃ (xkey : TwofishKey) (S : ℕ → BitVec 8),
      prepareKey true key keyLen xkey₀ = some (SUCCESS, xkey) ∧
      (∀ m < cycles keyLen.toNat, octetPoly 4 (fun i => S (8 * m + i)) =
        (Polynomial.X ^ 4 * octetPoly 8 (fun i => octetOf (padKey key keyLen.toNat)
          (8 * (cycles keyLen.toNat - 1 - m) + i))) %ₘ rsGenerator) ∧
      ∀ p, xkey.encrypt p =
        Reference.encrypt (spacedWords S) (spacedWords (octetOf (padKey key keyLen.toNat)))
          (spacedWords (fun j => octetOf (padKey key keyLen.toNat) (4 + j)))
            (cycles keyLen.toNat) p := by
  have hlength : keyLen.toNat ≤ 32 := by omega
  have hcycles := cycles_cases hlength
  have hlength : (padKey key keyLen.toNat).length = 68 := by
    rw [padKey, List.length_append, List.length_take, List.length_replicate]
    omega
  generalize hK : padKey key keyLen.toNat = K at hlength ⊢
  generalize hk : cycles keyLen.toNat = k at hcycles ⊢
  generalize hsbox : (fun i => octetOf (rsWords k 32 K) (32 + i)) = S
  refine ⟨(fillKeyedSboxes S k (roundKeys K k xkey₀)).2, S, ?_, fun m hm => ?_, fun p => ?_⟩
  · unfold prepareKey
    dsimp only
    rw [if_neg (by decide), if_neg (by omega), hK, hk, hsbox]
  · have hremainder := rsWords_remainder k 32 (K := K) (by omega) (by omega) hm
    rw [← hsbox, ← hremainder]
    refine Finset.sum_congr rfl fun i _ => ?_
    dsimp only
    rw [Nat.add_assoc]
  · refine encrypt_eq_reference (fun x => fillKeyedSboxes_g0 hcycles S _ x) (fun i hi => ?_) p
    rw [fillKeyedSboxes_K S hcycles, roundKeys_K K hcycles xkey₀ hi]

theorem prepareKey_encrypt_zeros : ∃ (xkey : TwofishKey) (S : ℕ → BitVec 8),
    prepareKey true (List.replicate 20 0) 20 ⟨fun _ _ => 0, fun _ => 0⟩ = some (SUCCESS, xkey) ∧
      ∀ p, xkey.encrypt p = Reference.encrypt (spacedWords S)
        (spacedWords (octetOf (padKey (List.replicate 20 0) 20)))
        (spacedWords (fun j => octetOf (padKey (List.replicate 20 0) 20) (4 + j))) 3 p := by
  have hlow : (0 : ℤ) ≤ 20 := by decide
  obtain ⟨xkey, S, hprepare, -, hencrypt⟩ :=
    prepareKey_encrypt (List.replicate 20 0) hlow (by decide)
    (by decide) ⟨fun _ _ => 0, fun _ => 0⟩
  exact ⟨xkey, S, hprepare, hencrypt⟩

/-- The test vector of the source for keys of 16 octets. -/
example : (prepareKey true
    [0x9F, 0x58, 0x9F, 0x5C, 0xF6, 0x12, 0x2C, 0x32, 0xB6, 0xBF, 0xEC, 0x2F, 0x2A, 0xE8,
      0xC3, 0x5A] 16
    ⟨fun _ _ => 0, fun _ => 0⟩).map (fun r => (r.2.encrypt (Block.ofOctets
      [0xD4, 0x91, 0xDB, 0x16, 0xE7, 0xB1, 0xC3, 0x9E, 0x86, 0xCB, 0x08, 0x6B, 0x78, 0x9F, 0x54,
        0x19])).toOctets) = some
      [0x01, 0x9F, 0x98, 0x09, 0xDE, 0x17, 0x11, 0x85, 0x8F, 0xAA, 0xC3, 0xA3, 0xBA, 0x20, 0xFB,
        0xC3] := by
  decide +kernel

/-- **Keys of other lengths** are keys of 16, 24 or 32 octets, padded with zeros. -/
theorem prepareKey_padded (key : Octets) {n : ℕ} (hn : n ≤ 32) (hkey : n ≤ key.length)
    (xkey : TwofishKey) :
    prepareKey true key n xkey =
      prepareKey true (key.take n ++ List.replicate (8 * cycles n - n) 0)
      (8 * cycles n : ℕ) xkey := by
  have hcases := cycles_cases hn
  have hle : n ≤ 8 * cycles n := by
    have hshift : (n + 7) >>> 3 = (n + 7) / 8 := Nat.shiftRight_eq_div_pow _ 3
    unfold cycles
    dsimp only
    rw [hshift]
    split_ifs <;> omega
  have hcycles : cycles (8 * cycles n) = cycles n := by
    rcases hcases with h | h | h
    · rw [h]
      rfl
    · rw [h]
      rfl
    · rw [h]
      rfl
  have hpad : padKey (key.take n ++ List.replicate (8 * cycles n - n) 0) (8 * cycles n) =
      padKey key n := by
    have htake : (key.take n).length = n := by
      rw [List.length_take]
      omega
    have hwhole : (key.take n ++ List.replicate (8 * cycles n - n) 0).length = 8 * cycles n := by
      rw [List.length_append, htake, List.length_replicate]
      omega
    unfold padKey
    rw [List.take_of_length_le (le_of_eq hwhole), List.append_assoc,
      List.replicate_append_replicate]
    congr 2
    omega
  unfold prepareKey
  dsimp only
  rw [if_neg (by decide), if_neg (by omega), if_neg (by decide), if_neg (by omega),
    Int.toNat_natCast, Int.toNat_natCast, hpad, hcycles]

/-! ## As a block function -/

/-- The block function of a key, as the cipher object sets it up. -/
def blockFn (key : Octets) (p : Block) : Block :=
  match prepareKey true key key.length ⟨fun _ _ => 0, fun _ => 0⟩ with
  | some (_, xkey) => xkey.encrypt p
  | none => p

/-- **The block function is injective** for every key. -/
theorem blockFn_injective (key : Octets) : Function.Injective (blockFn key) := by
  intro p p' heq
  unfold blockFn at heq
  split at heq
  · next xkey _ =>
      rw [← xkey.decrypt_encrypt p, heq, xkey.decrypt_encrypt]
  · exact heq

/-- Primitives with this Twofish permute the blocks if AES does. -/
theorem permutes {P : Primitives} (haes : ∀ k, Function.Injective (P.aes k)) :
    ({ P with twofish := blockFn } : Primitives).Permutes :=
  ⟨haes, blockFn_injective⟩

end Twofish
