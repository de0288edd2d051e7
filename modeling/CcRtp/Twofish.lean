/-
# The block cipher Twofish

Models the encryption and the decryption of `src/ccrtp/crypto/twofish.c`: with an expanded key of
round key words and four S-boxes, sixteen rounds go over a block of four words, two at a time so
that the halves need not change places.  A `Twofish_UInt32` has 32 bits, as `unsigned int` has.

* `encrypt_eq_iff` : with any expanded key, encryption and decryption undo each other.
-/
import CcRtp.FeistelNetwork
import CcRtp.SymCrypto

/-! ## The macros of the source -/

namespace Twofish

/-- A word has four octets, and a block four words. -/
scoped instance neZero_four : NeZero 4 := ⟨by decide⟩

/-- `ROL32(x, n)` -/
def rol32 (x : BitVec 32) (n : ℕ) : BitVec 32 := x <<< n ||| x >>> (32 - n)

/-- `ROR32(x, n)` -/
def ror32 (x : BitVec 32) (n : ℕ) : BitVec 32 := x >>> n ||| x <<< (32 - n)

/-- `SELECT_BYTE(X, b)` -/
def selectByte (x : BitVec 32) (b : ℕ) : BitVec 8 := (x >>> (8 * b)).setWidth 8

/-- A word of four octets, the least significant one first. -/
def join (b : Fin 4 → BitVec 8) : BitVec 32 :=
  (b 0).setWidth 32 ||| (b 1).setWidth 32 <<< 8 ||| (b 2).setWidth 32 <<< 16 |||
    (b 3).setWidth 32 <<< 24

/-- `GET32(p)` of the word with number `k`. -/
def get32 (p : Block) (k : Fin 4) : BitVec 32 := join (fun j => (p ⟨4 * k + j, by omega⟩).toBitVec)

/-- `PUT32` of four words. -/
def put32 (v : Fin 4 → BitVec 32) : Block :=
  fun i => ⟨selectByte (v ⟨i / 4, by omega⟩) (i % 4)⟩

end Twofish

/-- `Twofish_key`: the S-boxes and the round key words. -/
structure TwofishKey where
  s : Fin 4 → BitVec 8 → BitVec 32
  K : ℕ → BitVec 32

namespace TwofishKey

open Twofish

variable (xkey : TwofishKey)

/-- `g0(X, xkey)` -/
def g0 (x : BitVec 32) : BitVec 32 :=
  xkey.s 0 (selectByte x 0) ^^^ xkey.s 1 (selectByte x 1) ^^^ xkey.s 2 (selectByte x 2) ^^^
    xkey.s 3 (selectByte x 3)

/-- `g1(X, xkey)` -/
def g1 (x : BitVec 32) : BitVec 32 :=
  xkey.s 0 (selectByte x 3) ^^^ xkey.s 1 (selectByte x 0) ^^^ xkey.s 2 (selectByte x 1) ^^^
    xkey.s 3 (selectByte x 2)

/-- `ENCRYPT_RND(A, B, C, D, T0, T1, xkey, r)`: the new `C` and `D`. -/
def encryptRnd (r : ℕ) (ab cd : BitVec 32 × BitVec 32) : BitVec 32 × BitVec 32 :=
  let t0 := xkey.g0 ab.1
  let t1 := xkey.g1 ab.2
  (ror32 (cd.1 ^^^ (t0 + t1 + xkey.K (8 + 2 * r))) 1,
    rol32 cd.2 1 ^^^ (t0 + 2 * t1 + xkey.K (8 + 2 * r + 1)))

/-- `DECRYPT_RND(A, B, C, D, T0, T1, xkey, r)`: the new `C` and `D`. -/
def decryptRnd (r : ℕ) (ab cd : BitVec 32 × BitVec 32) : BitVec 32 × BitVec 32 :=
  let t0 := xkey.g0 ab.1
  let t1 := xkey.g1 ab.2
  (rol32 cd.1 1 ^^^ (t0 + t1 + xkey.K (8 + 2 * r)),
    ror32 (cd.2 ^^^ (t0 + 2 * t1 + xkey.K (8 + 2 * r + 1))) 1)

/-- `ENCRYPT_CYCLE(A, B, C, D, T0, T1, xkey, r)` -/
def encryptCycle (s : (BitVec 32 × BitVec 32) × BitVec 32 × BitVec 32) (r : ℕ) :
    (BitVec 32 × BitVec 32) × BitVec 32 × BitVec 32 :=
  let cd := xkey.encryptRnd (2 * r) s.1 s.2
  let ab := xkey.encryptRnd (2 * r + 1) cd s.1
  (ab, cd)

/-- `DECRYPT_CYCLE(A, B, C, D, T0, T1, xkey, r)` -/
def decryptCycle (s : (BitVec 32 × BitVec 32) × BitVec 32 × BitVec 32) (r : ℕ) :
    (BitVec 32 × BitVec 32) × BitVec 32 × BitVec 32 :=
  let cd := xkey.decryptRnd (2 * r + 1) s.1 s.2
  let ab := xkey.decryptRnd (2 * r) cd s.1
  (ab, cd)

/-- `GET_INPUT(src, A, B, C, D, xkey, koff)` -/
def getInput (src : Block) (koff : ℕ) : (BitVec 32 × BitVec 32) × BitVec 32 × BitVec 32 :=
  ((get32 src 0 ^^^ xkey.K koff, get32 src 1 ^^^ xkey.K (1 + koff)),
    get32 src 2 ^^^ xkey.K (2 + koff), get32 src 3 ^^^ xkey.K (3 + koff))

/-- `PUT_OUTPUT(A, B, C, D, dst, xkey, koff)` -/
def putOutput (s : (BitVec 32 × BitVec 32) × BitVec 32 × BitVec 32) (koff : ℕ) : Block :=
  put32 ![s.1.1 ^^^ xkey.K koff, s.1.2 ^^^ xkey.K (1 + koff), s.2.1 ^^^ xkey.K (2 + koff),
    s.2.2 ^^^ xkey.K (3 + koff)]

/-- `Twofish_encrypt(xkey, p, c)`: the block `c`. -/
def encrypt (p : Block) : Block :=
  xkey.putOutput ([0, 1, 2, 3, 4, 5, 6, 7].foldl xkey.encryptCycle (xkey.getInput p 0)).swap 4

/-- `Twofish_decrypt(xkey, c, p)`: the block `p`. -/
def decrypt (c : Block) : Block :=
  xkey.putOutput ([7, 6, 5, 4, 3, 2, 1, 0].foldl xkey.decryptCycle (xkey.getInput c 4)).swap 0

end TwofishKey

/-! ## Words and octets -/

namespace Twofish

/-- What is masked twice is as it was. -/
theorem xor_xor_self (x k : BitVec 32) : x ^^^ k ^^^ k = x := by
  rw [BitVec.xor_assoc, BitVec.xor_self, BitVec.xor_zero]

/-- The rotation back by one bit. -/
theorem ror32_rol32 (x : BitVec 32) : ror32 (rol32 x 1) 1 = x := by
  refine BitVec.eq_of_getLsbD_eq fun i hi => ?_
  have hbeyond : x.getLsbD (31 + (1 + i)) = false := BitVec.getLsbD_of_ge x _ (by omega)
  unfold ror32 rol32
  simp only [BitVec.getLsbD_or, BitVec.getLsbD_shiftLeft, BitVec.getLsbD_ushiftRight, hi]
  grind

theorem rol32_ror32 (x : BitVec 32) : rol32 (ror32 x 1) 1 = x := by
  refine BitVec.eq_of_getLsbD_eq fun i hi => ?_
  have hbeyond : x.getLsbD (1 + (31 + i)) = false := BitVec.getLsbD_of_ge x _ (by omega)
  unfold ror32 rol32
  simp only [BitVec.getLsbD_or, BitVec.getLsbD_shiftLeft, BitVec.getLsbD_ushiftRight, hi]
  grind

theorem getLsbD_selectByte (x : BitVec 32) (j : ℕ) {i : ℕ} (hi : i < 8) :
    (selectByte x j).getLsbD i = x.getLsbD (8 * j + i) := by
  rw [selectByte, BitVec.getLsbD_setWidth, BitVec.getLsbD_ushiftRight, decide_eq_true hi,
    Bool.true_and]

/-- The bits of a word of four octets. -/
theorem getLsbD_join (b : Fin 4 → BitVec 8) (j : Fin 4) {i : ℕ} (hi : i < 8) :
    (join b).getLsbD (8 * j + i) = (b j).getLsbD i := by
  have hbeyond : ∀ k n, 8 ≤ n → (b k).getLsbD n = false := fun k n hn => BitVec.getLsbD_of_ge _ n hn
  unfold join
  simp only [BitVec.getLsbD_or, BitVec.getLsbD_shiftLeft, BitVec.getLsbD_setWidth]
  fin_cases j
  · simp
    grind
  · simp
    grind
  · simp
    grind
  · simp
    grind

/-- **The octets** of a word of four octets. -/
@[simp] theorem selectByte_join (b : Fin 4 → BitVec 8) (j : Fin 4) :
    selectByte (join b) j = b j := by
  refine BitVec.eq_of_getLsbD_eq fun i hi => ?_
  rw [getLsbD_selectByte _ _ hi, getLsbD_join _ _ hi]

/-- **The word** of the octets of a word. -/
@[simp] theorem join_selectByte (x : BitVec 32) : join (fun j => selectByte x j) = x := by
  refine BitVec.eq_of_getLsbD_eq fun i hi => ?_
  have hsplit : i = 8 * (i / 8) + i % 8 := (Nat.div_add_mod i 8).symm
  have hword : i / 8 < 4 := by omega
  have hbit :=
    getLsbD_join (fun j => selectByte x j) ⟨i / 8, hword⟩ (Nat.mod_lt i (by omega : 0 < 8))
  rw [getLsbD_selectByte _ _ (Nat.mod_lt i (by omega))] at hbit
  rw [hsplit]
  exact hbit

/-- The words of a block are those it was put together from. -/
theorem get32_put32 (v : Fin 4 → BitVec 32) (k : Fin 4) : get32 (put32 v) k = v k := by
  refine Eq.trans ?_ (join_selectByte (v k))
  unfold get32 put32
  congr 1
  funext j
  have hword : (4 * k.val + j.val) / 4 = k := by omega
  have hoctet : (4 * k.val + j.val) % 4 = j := by omega
  dsimp only
  rw [hoctet]
  congr 2
  exact Fin.ext hword

/-- A block is put together from its words. -/
theorem put32_get32 (p : Block) : put32 (get32 p) = p := by
  funext i
  have hoctet : i.val % 4 < 4 := Nat.mod_lt _ (by omega)
  have hsame : selectByte (get32 p ⟨i.val / 4, by omega⟩) (i.val % 4) = (p i).toBitVec := by
    rw [get32]
    refine (selectByte_join _ ⟨i.val % 4, hoctet⟩).trans ?_
    congr 2
    exact Fin.ext (Nat.div_add_mod i.val 4)
  unfold put32
  rw [hsame]

end Twofish

/-! ## Encryption and decryption -/

namespace TwofishKey

open Twofish

variable (xkey : TwofishKey)

/-- A round of the source as one of a Feistel network. -/
def network : FeistelNetwork ℕ (BitVec 32 × BitVec 32) where
  mix := xkey.encryptRnd
  unmix := xkey.decryptRnd
  unmix_mix := by
    intro r ab cd
    unfold decryptRnd encryptRnd
    dsimp only
    rw [rol32_ror32, xor_xor_self, xor_xor_self, ror32_rol32]
  mix_unmix := by
    intro r ab cd
    unfold decryptRnd encryptRnd
    dsimp only
    rw [rol32_ror32, xor_xor_self, xor_xor_self, ror32_rol32]

/-- The sixteen rounds of an encryption. -/
theorem foldl_encryptCycle (s : (BitVec 32 × BitVec 32) × BitVec 32 × BitVec 32) :
    [0, 1, 2, 3, 4, 5, 6, 7].foldl xkey.encryptCycle s = xkey.network.rounds (List.range 16) s :=
  xkey.network.foldl_cycle (fun r => 2 * r) (fun r => 2 * r + 1) [0, 1, 2, 3, 4, 5, 6, 7] s

/-- The sixteen rounds of a decryption. -/
theorem foldl_decryptCycle (s : (BitVec 32 × BitVec 32) × BitVec 32 × BitVec 32) :
    [7, 6, 5, 4, 3, 2, 1, 0].foldl xkey.decryptCycle s =
      xkey.network.inverse.rounds (List.range 16).reverse s :=
  xkey.network.inverse.foldl_cycle (fun r => 2 * r + 1) (fun r => 2 * r) [7, 6, 5, 4, 3, 2, 1, 0] s

/-- The words that are read are those that were written with the same round keys. -/
theorem getInput_putOutput (s : (BitVec 32 × BitVec 32) × BitVec 32 × BitVec 32) (koff : ℕ) :
    xkey.getInput (xkey.putOutput s koff) koff = s := by
  obtain ⟨⟨a, b⟩, c, d⟩ := s
  unfold getInput putOutput
  rw [get32_put32, get32_put32, get32_put32, get32_put32]
  show ((a ^^^ _ ^^^ _, b ^^^ _ ^^^ _), c ^^^ _ ^^^ _, d ^^^ _ ^^^ _) = ((a, b), c, d)
  rw [xor_xor_self, xor_xor_self, xor_xor_self, xor_xor_self]

/-- The block that is written is the one that was read with the same round keys. -/
theorem putOutput_getInput (p : Block) (koff : ℕ) :
    xkey.putOutput (xkey.getInput p koff) koff = p := by
  refine Eq.trans ?_ (put32_get32 p)
  unfold getInput putOutput
  dsimp only
  rw [xor_xor_self, xor_xor_self, xor_xor_self, xor_xor_self]
  congr 1
  funext k
  fin_cases k <;> rfl

/-- **Decryption undoes encryption.** -/
theorem decrypt_encrypt (p : Block) : xkey.decrypt (xkey.encrypt p) = p := by
  unfold decrypt encrypt
  rw [getInput_putOutput, foldl_encryptCycle, foldl_decryptCycle, FeistelNetwork.rounds_inverse,
    Prod.swap_swap, putOutput_getInput]

/-- **Encryption undoes decryption.** -/
theorem encrypt_decrypt (c : Block) : xkey.encrypt (xkey.decrypt c) = c := by
  unfold decrypt encrypt
  rw [getInput_putOutput, foldl_encryptCycle, foldl_decryptCycle, FeistelNetwork.inverse_rounds,
    Prod.swap_swap, putOutput_getInput]

/-- **The cipher is a permutation of the blocks**, whatever the S-boxes and the round key words are,
and decryption is its inverse. -/
theorem encrypt_eq_iff (p c : Block) : xkey.encrypt p = c ↔ xkey.decrypt c = p := by
  constructor
  · rintro rfl
    exact xkey.decrypt_encrypt p
  · rintro rfl
    exact xkey.encrypt_decrypt c

end TwofishKey
