/-
# F8 mode, octet by octet

Models `f8_encrypt` and `processBlock` (`src/ccrtp/crypto/gcrypt/gcryptSrtpSymCrypto.cpp`) for an
object that has a key, over the block functions of the session key and of the key of the initial
vector, with the buffer that they write.  The form in place passes one buffer for input and output.

* `block_after` : what a call of `processBlock` makes of the variables;
* `f8EncryptVia_eq` : what the routine leaves in the buffer;
* `f8_mode_agrees` : both forms XOR the data with the F8 stream, and doing so twice restores it;
* `f8Encrypt_eq_inPlace` : the routine of `SrtpSymCrypto` is the one in place.
-/
import CcRtp.SymCrypto
import CcRtp.WhileLoop

namespace F8Mode

variable (E E' : Block → Block)

/-! ## The routines -/

/-- `F8_CIPHER_CTX`: the derived initial vector, the key stream block and the block counter. -/
structure F8CipherCtx where
  ivAccent : Block
  S : Block
  J : BitVec 32

/-- `processBlock(f8ctx, in, length, out)`: what is put out, and the context afterwards. -/
def processBlock (f8ctx : F8CipherCtx) (input : Octets) : Octets × F8CipherCtx :=
  -- the counter goes into the last word of the block, in network order
  let S := E (Block.xor (Block.xor f8ctx.S f8ctx.ivAccent) (numberBlock f8ctx.J))
  (xorOctets input S.toOctets, { f8ctx with S := S, J := f8ctx.J + 1 })

/-- The variables of `f8_encrypt` that change, with the buffer behind `out`. -/
structure Vars where
  out : Octets
  f8ctx : F8CipherCtx
  inLength : ℕ
  offset : ℕ

/-- `processBlock(&f8ctx, in+offset, n, out+offset)`.  The octets behind `in` are what `read` makes
of the octets behind `out`. -/
def Vars.block (read : Octets → Octets) (n : ℕ) (s : Vars) : Vars :=
  let r := processBlock E s.f8ctx (slice (read s.out) s.offset n)
  { s with out := writeAt s.out s.offset r.1, f8ctx := r.2 }

/-- A round of the loop over the whole blocks.  Nothing is said of an `offset` that an `int` cannot
hold. -/
def Vars.round (read : Octets → Octets) (s : Vars) : Option Vars :=
  let s := s.block E read 16
  if s.offset + 16 < 2 ^ 31 then
    some { s with inLength := s.inLength - 16, offset := s.offset + 16 }
  else none

/-- `f8_encrypt(in, in_length, out, iv, f8Cipher)`: the octets behind `out` afterwards.  There are
fewer rounds than octets. -/
def f8EncryptVia (read : Octets → Octets) (inLength : ℕ) (out : Octets) (iv : Block) :
    Option Octets :=
  let f8ctx : F8CipherCtx := ⟨E' iv, fun _ => 0, 0⟩
  (whileLoop (fun s => 16 ≤ s.inLength) (Vars.round E read) inLength ⟨out, f8ctx, inLength, 0⟩).map
    (fun s => if 0 < s.inLength then (s.block E read s.inLength).out else s.out)

/-- `f8_encrypt` from one buffer to another. -/
def f8EncryptTo (input output : Octets) (iv : Block) : Option Octets :=
  f8EncryptVia E E' (fun _ => input) input.length output iv

/-- `f8_encrypt(data, data_length, iv, f8Cipher)`, in place. -/
def f8EncryptInPlace (data : Octets) (iv : Block) : Option Octets :=
  f8EncryptVia E E' id data.length data iv

/-! ## The stream -/

/-- A block number, 128 bits in network order. -/
def numbered (j : ℕ) : Block := Block.ofOctets (bigEndian 16 j)

/-- The key stream block before block `j`: `S(-1)` is zero, and `S(j)` is the block function of
`S(j-1)`, the derived initial vector and `j`, XORed. -/
def previous (iv : Block) : ℕ → Block
  | 0 => fun _ => 0
  | j + 1 => E (Block.xor (Block.xor (previous iv j) (E' iv)) (numbered j))

/-- `S(j)` -/
def keyBlock (iv : Block) (j : ℕ) : Block := previous E E' iv (j + 1)

/-- The recurrence of the key stream. -/
theorem keyBlock_eq (iv : Block) (j : ℕ) :
    keyBlock E E' iv j = E (Block.xor (Block.xor (previous E E' iv j) (E' iv)) (numbered j)) := rfl

/-- The key stream of the first blocks. -/
def blocks (iv : Block) (j : ℕ) : Octets :=
  (List.range j).flatMap (fun i => (keyBlock E E' iv i).toOctets)

/-- How many blocks cover `n` octets. -/
def blockCount (n : ℕ) : ℕ := (n + 15) / 16

/-- **The F8 stream** of `n` octets. -/
def stream (iv : Block) (n : ℕ) : Octets := (blocks E E' iv (blockCount n)).take n

/-- The block counter of the code is the 128-bit block number. -/
theorem numberBlock_ofNat {j : ℕ} (hj : j < 2 ^ 32) :
    numberBlock (BitVec.ofNat 32 j) = numbered j := by
  have hhigh : j / 256 ^ 4 = 0 := Nat.div_eq_of_lt hj
  rw [numberBlock, numbered, BitVec.toNat_ofNat, Nat.mod_eq_of_lt hj, show 16 = 12 + 4 from rfl,
    bigEndian_add, hhigh, bigEndian_zero]

theorem blocks_succ (iv : Block) (j : ℕ) :
    blocks E E' iv (j + 1) = blocks E E' iv j ++ (keyBlock E E' iv j).toOctets := by
  rw [blocks, List.range_succ, List.flatMap_append, List.flatMap_singleton]
  rfl

@[simp] theorem length_blocks (iv : Block) (j : ℕ) : (blocks E E' iv j).length = 16 * j := by
  induction j with
  | zero => rfl
  | succ j ih => rw [blocks_succ, List.length_append, ih, Block.length_toOctets, Nat.mul_succ]

/-- The stream is as long as it is to be. -/
@[simp] theorem length_stream (iv : Block) (n : ℕ) : (stream E E' iv n).length = n := by
  rw [stream, List.length_take, length_blocks]
  unfold blockCount
  omega

/-! ## The states of the loop -/

/-- The octets behind `in` are still those of the input where nothing has been written. -/
def Reads (read : Octets → Octets) (input output : Octets) : Prop :=
  ∀ (front : Octets) (n : ℕ), slice (read (front ++ output.drop front.length)) front.length n
    = slice input front.length n

theorem reads_to (input output : Octets) : Reads (fun _ => input) input output := fun _ _ => rfl

theorem reads_inPlace (data : Octets) : Reads id data data := by
  intro front n
  rw [id, slice, List.drop_left, slice]

variable (iv : Block) (input output : Octets)

/-- The buffer when the first `k` octets of the input have been encrypted, with `j` blocks. -/
def written (j k : ℕ) : Octets := xorOctets (input.take k) (blocks E E' iv j) ++ output.drop k

/-- The variables when the loop has been run `j` times. -/
def after (j : ℕ) : Vars :=
  ⟨written E E' iv input output j (16 * j), ⟨E' iv, previous E E' iv j, BitVec.ofNat 32 j⟩,
    input.length - 16 * j, 16 * j⟩

variable {E E' iv input output} {read : Octets → Octets} {j n : ℕ}

/-- **A call of `processBlock`** encrypts the next octets. -/
theorem block_after (hread : Reads read input output) (hj : j < 2 ^ 32) (hn : n ≤ 16)
    (hin : 16 * j + n ≤ input.length) (hout : 16 * j + n ≤ output.length) :
    (after E E' iv input output j).block E read n
      = { after E E' iv input output j with
          out := written E E' iv input output (j + 1) (16 * j + n)
          f8ctx := ⟨E' iv, previous E E' iv (j + 1), BitVec.ofNat 32 (j + 1)⟩ } := by
  have hfront : (xorOctets (input.take (16 * j)) (blocks E E' iv j)).length = 16 * j := by
    rw [length_xorOctets, List.length_take, length_blocks]
    omega
  have hinput : slice (read (written E E' iv input output j (16 * j))) (16 * j) n
      = slice input (16 * j) n := by
    have hslice := hread (xorOctets (input.take (16 * j)) (blocks E E' iv j)) n
    rw [hfront] at hslice
    exact hslice
  have hwrite : writeAt (written E E' iv input output j (16 * j)) (16 * j)
      (xorOctets (slice input (16 * j) n) (keyBlock E E' iv j).toOctets)
        = written E E' iv input output (j + 1) (16 * j + n) := by
    rw [written, written, blocks_succ]
    exact writeAt_xorOctets (length_blocks E E' iv j) hin hout
      (by rw [Block.length_toOctets]; exact hn)
  unfold Vars.block processBlock after
  dsimp only
  rw [hinput, numberBlock_ofNat hj, ← keyBlock_eq E E' iv j, hwrite, ofNat_add_one]
  rfl

/-- A round of the loop. -/
theorem round_after (hread : Reads read input output) (hlen : input.length < 2 ^ 31)
    (hin : 16 * (j + 1) ≤ input.length) (hout : input.length ≤ output.length) :
    (after E E' iv input output j).round E read = some (after E E' iv input output (j + 1)) := by
  have hblock : (after E E' iv input output j).block E read 16 = _ :=
    block_after hread (by omega) le_rfl (by omega) (by omega)
  unfold Vars.round
  rw [hblock]
  unfold after
  dsimp only
  rw [if_pos (by omega), ← Nat.mul_succ, Nat.sub_sub, ← Nat.mul_succ]

/-- **The loop** ends behind the last whole block. -/
theorem loop_eq (hread : Reads read input output) (hlen : input.length < 2 ^ 31)
    (hout : input.length ≤ output.length) :
    whileLoop (fun s => 16 ≤ s.inLength) (Vars.round E read) input.length
        (after E E' iv input output 0)
      = some (after E E' iv input output (input.length / 16)) := by
  have hround : ∀ s, (∃ j, 16 * j ≤ input.length ∧ s = after E E' iv input output j) →
      decide (16 ≤ s.inLength) = true → ∃ t, s.round E read = some t ∧
        (∃ j, 16 * j ≤ input.length ∧ t = after E E' iv input output j) ∧
          t.inLength < s.inLength := by
    rintro s ⟨j, -, rfl⟩ hmore
    have hrest : 16 ≤ input.length - 16 * j := of_decide_eq_true hmore
    have hnext : 16 * (j + 1) ≤ input.length := by omega
    refine ⟨after E E' iv input output (j + 1), round_after hread hlen hnext hout,
      ⟨j + 1, hnext, rfl⟩, ?_⟩
    unfold after
    dsimp only
    omega
  obtain ⟨t, hloop, ⟨j, hj, rfl⟩, hdone⟩ := whileLoop_of_measure
    (fun s => ∃ j, 16 * j ≤ input.length ∧ s = after E E' iv input output j) Vars.inLength hround
    input.length (after E E' iv input output 0) ⟨0, Nat.zero_le _, rfl⟩ (Nat.sub_le _ _)
  have hrest : ¬ 16 ≤ input.length - 16 * j := of_decide_eq_false hdone
  rw [hloop, show input.length / 16 = j by omega]

/-! ## What the routines leave -/

/-- The buffer when all octets of the input have been encrypted. -/
theorem written_length : written E E' iv input output (blockCount input.length) input.length
    = xorOctets input (stream E E' iv input.length) ++ output.drop input.length := by
  rw [written, List.take_length, stream, xorOctets_take_right]

/-- **`f8_encrypt`** XORs the octets behind `in` with the F8 stream. -/
theorem f8EncryptVia_eq (hread : Reads read input output) (hlen : input.length < 2 ^ 31)
    (hout : input.length ≤ output.length) :
    f8EncryptVia E E' read input.length output iv
      = some (xorOctets input (stream E E' iv input.length) ++ output.drop input.length) := by
  have hstart : after E E' iv input output 0 = ⟨output, ⟨E' iv, fun _ => 0, 0⟩, input.length, 0⟩ :=
    rfl
  rw [f8EncryptVia, ← hstart, loop_eq hread hlen hout, Option.map_some, ← written_length]
  set m := input.length / 16 with hm
  have hremaining : (after E E' iv input output m).inLength = input.length % 16 := by
    unfold after
    dsimp only
    omega
  rw [hremaining]
  by_cases hrest : 0 < input.length % 16
  · have hcount : blockCount input.length = m + 1 := by
      unfold blockCount
      omega
    rw [if_pos hrest, block_after hread (by omega) (by omega) (by omega) (by omega), hcount,
      show 16 * m + input.length % 16 = input.length by omega]
  · have hcount : blockCount input.length = m := by
      unfold blockCount
      omega
    rw [if_neg hrest, hcount]
    unfold after
    rw [show 16 * m = input.length by omega]

/-- **F8 mode is its own inverse.**  For all block functions, every initial vector and fewer than
`2 ^ 31` octets of data, the block numbers fit 32 bits; from one buffer to another and in place,
`f8_encrypt` XORs the data with the F8 stream, which covers it; and both forms restore the data from
that. -/
theorem f8_mode_agrees (E E' : Block → Block) (iv : Block) (data output : Octets)
    (hlen : data.length < 2 ^ 31) (hout : data.length ≤ output.length) :
    (stream E E' iv data.length).length = data.length ∧ blockCount data.length ≤ 2 ^ 32 ∧
      f8EncryptTo E E' data output iv
        = some (xorOctets data (stream E E' iv data.length) ++ output.drop data.length) ∧
      f8EncryptInPlace E E' data iv = some (xorOctets data (stream E E' iv data.length)) ∧
      f8EncryptTo E E' (xorOctets data (stream E E' iv data.length)) output iv
        = some (data ++ output.drop data.length) ∧
      f8EncryptInPlace E E' (xorOctets data (stream E E' iv data.length)) iv = some data := by
  have hinPlace : ∀ d : Octets, d.length < 2 ^ 31 →
      f8EncryptInPlace E E' d iv = some (xorOctets d (stream E E' iv d.length)) := by
    intro d hd
    rw [f8EncryptInPlace, f8EncryptVia_eq (reads_inPlace d) hd le_rfl, List.drop_length,
      List.append_nil]
  have henc : (xorOctets data (stream E E' iv data.length)).length = data.length := by
    rw [length_xorOctets, length_stream, Nat.min_self]
  have hagain : xorOctets (xorOctets data (stream E E' iv data.length)) (stream E E' iv data.length)
      = data := xorOctets_xorOctets _ _ (length_stream E E' iv data.length).ge
  refine ⟨length_stream E E' iv data.length, ?_, ?_, hinPlace data hlen, ?_, ?_⟩
  · unfold blockCount
    omega
  · exact f8EncryptVia_eq (reads_to data output) hlen hout
  · rw [f8EncryptTo, f8EncryptVia_eq (reads_to _ output) (henc.trans_lt hlen) (henc.trans_le hout),
      henc, hagain]
  · rw [hinPlace _ (henc.trans_lt hlen), henc, hagain]

/-- The theorem at three octets, with block functions that add to every octet. -/
theorem f8_mode_agrees_short :
    f8EncryptTo (fun b i => b i + 1) (fun b i => b i + 2) [1, 2, 3] [0, 0, 0, 7] (Block.ofOctets [])
        = some (xorOctets [1, 2, 3] (stream (fun b i => b i + 1) (fun b i => b i + 2)
            (Block.ofOctets []) 3) ++ [7]) ∧
      f8EncryptInPlace (fun b i => b i + 1) (fun b i => b i + 2) [1, 2, 3] (Block.ofOctets [])
        = some (xorOctets [1, 2, 3] (stream (fun b i => b i + 1) (fun b i => b i + 2)
            (Block.ofOctets []) 3)) := by
  obtain ⟨-, -, hto, hinPlace, -⟩ := f8_mode_agrees (fun b i => b i + 1) (fun b i => b i + 2)
    (Block.ofOctets []) [1, 2, 3] [0, 0, 0, 7] (by decide) (by decide)
  exact ⟨hto, hinPlace⟩

end F8Mode

/-! ## The routine of the cipher object -/

namespace SrtpSymCrypto

open F8Mode

/-- The key stream from block `j` on, as the cipher object goes through it. -/
theorem f8Stream_eq_blocks (E E' : Block → Block) (iv : Block) (n : ℕ) : ∀ j, j + n ≤ 2 ^ 32 →
    blocks E E' iv (j + n)
      = blocks E E' iv j ++ f8Stream E (E' iv) n (previous E E' iv j) (BitVec.ofNat 32 j) := by
  induction n with
  | zero =>
      intro j _
      rw [Nat.add_zero, f8Stream, List.append_nil]
  | succ n ih =>
      intro j hj
      have hnext : f8Next E (E' iv) (previous E E' iv j) (BitVec.ofNat 32 j)
          = previous E E' iv (j + 1) := by
        rw [f8Next, numberBlock_ofNat (by omega)]
        rfl
      rw [← Nat.add_assoc, Nat.add_right_comm, ih (j + 1) (by omega), f8Stream, hnext,
        ofNat_add_one, blocks_succ, List.append_assoc]
      rfl

variable (P : Primitives) (c f8Cipher : SrtpSymCrypto) {k : Octets} (data : Octets) (iv : Block)

/-- **`f8_encrypt` of a cipher object** is the routine in place, with the block functions of the two
objects. -/
theorem f8Encrypt_eq_inPlace (hk : c.key = some k) (hlen : data.length < 2 ^ 31) :
    f8EncryptInPlace (blockFn P c.algorithm k) (fun b => f8Cipher.encrypt P b (fun _ => 0)) data iv
      = some (c.f8Encrypt P f8Cipher data iv) := by
  have hcount : 0 + blockCount data.length ≤ 2 ^ 32 := by
    unfold blockCount
    omega
  have hblocks := f8Stream_eq_blocks (blockFn P c.algorithm k)
    (fun b => f8Cipher.encrypt P b (fun _ => 0)) iv (blockCount data.length) 0 hcount
  rw [f8EncryptInPlace, f8EncryptVia_eq (reads_inPlace data) hlen le_rfl, List.drop_length,
    List.append_nil, f8Encrypt_keyed P c f8Cipher hk, stream, xorOctets_take_right]
  rw [Nat.zero_add] at hblocks
  rw [hblocks]
  rfl

end SrtpSymCrypto
