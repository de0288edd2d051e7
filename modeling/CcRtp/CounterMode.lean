/-
# The counter-mode routines, octet by octet

`src/ccrtp/crypto/gcrypt/gcryptSrtpSymCrypto.cpp` has three loops that count blocks in the last
two octets of the caller's initial vector: `get_ctr_cipher_stream`, and `ctr_encrypt` in place and
from one buffer to another.  They are modelled here for an object that has a key, over the block
function of the key, with the buffers that they write and the initial vector that they leave.

* `getCtrCipherStream_eq`, `ctrEncryptTo_eq`, `ctrEncryptInPlace_eq` : what each routine leaves;
* `counter_mode_agrees` : they use one and the same stream, and encrypting twice restores the data;
* `ctrEncrypt_eq_inPlace` : the routine of `SrtpSymCrypto` is the one in place.
-/
import CcRtp.SymCrypto

namespace CounterMode

variable (E : Block → Block)

/-! ## The routines -/

/-- `iv[14]` and `iv[15]` are set, the vector is encrypted, and `n` octets of input are XORed with
the beginning of the block. -/
def encryptRound (input : Octets) (n : ℕ) (ctr : BitVec 16) :
    Block × Octets × ℕ → Block × Octets × ℕ
  | (iv, output, p) =>
      let iv := setCounter iv ctr
      (iv, writeAt output p (xorOctets (slice input p n) (E iv).toOctets), p + n)

/-- `ctr_encrypt(input, input_length, output, iv)`: the output buffer and the initial vector
afterwards. -/
def ctrEncryptTo (input output : Octets) (iv : Block) : Option (Octets × Block) :=
  (countUp (input.length / 16) (encryptRound E input 16) (2 ^ 16) 0 (iv, output, 0)).map
    (fun (ctr, s) =>
      let l := input.length % 16
      -- the last bytes
      let s := if 0 < l then encryptRound E input l ctr s else s
      (s.2.1, s.1))

/-- The same round, with one buffer. -/
def inPlaceRound (n : ℕ) (ctr : BitVec 16) : Block × Octets × ℕ → Block × Octets × ℕ
  | (iv, data, p) =>
      let iv := setCounter iv ctr
      (iv, writeAt data p (xorOctets (slice data p n) (E iv).toOctets), p + n)

/-- `ctr_encrypt(data, data_length, iv)`, in place. -/
def ctrEncryptInPlace (data : Octets) (iv : Block) : Option (Octets × Block) :=
  (countUp (data.length / 16) (inPlaceRound E 16) (2 ^ 16) 0 (iv, data, 0)).map
    (fun (ctr, s) =>
      let l := data.length % 16
      let s := if 0 < l then inPlaceRound E l ctr s else s
      (s.2.1, s.1))

/-- A round of `get_ctr_cipher_stream`: the first `n` octets of the block are put where the counter
says. -/
def streamRound (n : ℕ) (ctr : BitVec 16) : Block × Octets → Block × Octets
  | (iv, output) =>
      let iv := setCounter iv ctr
      (iv, writeAt output (ctr.toNat * 16) ((E iv).toOctets.take n))

/-- `get_ctr_cipher_stream(output, length, iv)` -/
def getCtrCipherStream (output : Octets) (length : ℕ) (iv : Block) : Option (Octets × Block) :=
  (countUp (length / 16) (streamRound E 16) (2 ^ 16) 0 (iv, output)).map
    (fun (ctr, s) =>
      let s := if 0 < length % 16 then streamRound E (length % 16) ctr s else s
      (s.2, s.1))

/-! ## The stream -/

/-- The initial vector with its last two octets set to a block number, in network order. -/
def numberedBlock (iv : Block) (i : ℕ) : Block :=
  Block.ofOctets (iv.toOctets.take 14 ++ bigEndian 2 i)

/-- **The counter-mode stream** of `n` octets. -/
def stream (iv : Block) (n : ℕ) : Octets :=
  ((List.range ((n + 15) / 16)).flatMap (fun i => (E (numberedBlock iv i)).toOctets)).take n

/-- Setting the counter is numbering the block. -/
theorem setCounter_eq_numberedBlock (iv : Block) {i : ℕ} (hi : i < 2 ^ 16) :
    setCounter iv (BitVec.ofNat 16 i) = numberedBlock iv i := by
  have hhi := setCounter_hi iv (BitVec.ofNat 16 i)
  have hlo := setCounter_lo iv (BitVec.ofNat 16 i)
  rw [BitVec.toNat_ofNat, Nat.mod_eq_of_lt hi] at hhi hlo
  have hfourteen : (iv.toOctets.take 14).length = 14 := by
    rw [List.length_take, Block.length_toOctets]
    rfl
  funext k
  rw [numberedBlock, Block.ofOctets, List.getD_eq_getElem?_getD]
  by_cases hk : k.val < 14
  · rw [setCounter_of_lt iv _ k hk, List.getElem?_append_left (by rw [hfourteen]; exact hk),
      List.getElem?_take_of_lt hk, Block.toOctets, List.getElem?_ofFn, dif_pos k.isLt,
      Option.getD_some]
  · rw [List.getElem?_append_right (by rw [hfourteen]; omega), hfourteen]
    have hcases : k = 14 ∨ k = 15 := by omega
    rcases hcases with rfl | rfl
    · have hoctet : setCounter iv (BitVec.ofNat 16 i) 14 = UInt8.ofNat (i / 256) := by
        rw [← UInt8.toNat_inj, hhi, UInt8.toNat_ofNat', Nat.mod_eq_of_lt (by omega)]
      exact hoctet
    · have hoctet : setCounter iv (BitVec.ofNat 16 i) 15 = UInt8.ofNat i := by
        rw [← UInt8.toNat_inj, hlo, UInt8.toNat_ofNat']
      exact hoctet

/-- The stream is the beginning of the key stream. -/
theorem stream_eq (iv : Block) {n : ℕ} (hn : n < 2 ^ 20) :
    stream E iv n = (ctrStream E iv n).take n := by
  have hblocks : ctrBlocks iv n = (List.range ((n + 15) / 16)).map (numberedBlock iv) := by
    rw [ctrBlocks, counterBlocks, ← List.range_eq_range']
    refine List.map_congr_left (fun i hi => setCounter_eq_numberedBlock iv ?_)
    have hi' := List.mem_range.mp hi
    omega
  rw [stream, ctrStream, streamOf, hblocks, List.flatMap_map]

/-- The stream depends on the first 14 octets of the initial vector alone. -/
theorem stream_congr {iv iv' : Block} (h : iv'.toOctets.take 14 = iv.toOctets.take 14) (n : ℕ) :
    stream E iv' n = stream E iv n := by
  rw [stream, stream]
  simp only [numberedBlock, h]

/-! ## The states of the loops -/

/-- The initial vector after some rounds. -/
def ivAfter (iv : Block) : ℕ → Block
  | 0 => iv
  | j + 1 => setCounter iv (BitVec.ofNat 16 j)

/-- The counter overwrites the one before. -/
theorem setCounter_ivAfter (iv : Block) (j : ℕ) (ctr : BitVec 16) :
    setCounter (ivAfter iv j) ctr = setCounter iv ctr := by
  cases j with
  | zero => rfl
  | succ j =>
      funext i
      rw [ivAfter]
      unfold setCounter
      split_ifs <;> rfl

/-- The first 14 octets stay. -/
theorem take_ivAfter (iv : Block) (j : ℕ) :
    (ivAfter iv j).toOctets.take 14 = iv.toOctets.take 14 := by
  cases j with
  | zero => rfl
  | succ j =>
      refine List.ext_getElem ?_ (fun i h1 h2 => ?_)
      · rw [List.length_take, List.length_take, Block.length_toOctets, Block.length_toOctets]
      · rw [List.length_take, Block.length_toOctets] at h1
        rw [List.getElem_take, List.getElem_take]
        unfold Block.toOctets
        rw [List.getElem_ofFn, List.getElem_ofFn]
        exact setCounter_of_lt iv _ _ (show i < 14 by omega)

variable (iv : Block)

/-- The key stream of the first blocks. -/
def blocks (j : ℕ) : Octets := streamOf E (counterBlocks iv 0 j)

theorem length_blocks (j : ℕ) : (blocks E iv j).length = 16 * j := by
  rw [blocks, length_streamOf, length_counterBlocks]

theorem blocks_succ (j : ℕ) :
    blocks E iv (j + 1) = blocks E iv j ++ (E (setCounter iv (BitVec.ofNat 16 j))).toOctets := by
  rw [blocks, blocks, counterBlocks, List.range'_1_concat, List.map_append, streamOf_append,
    Nat.zero_add, List.map_singleton, streamOf_cons, streamOf_nil, List.append_nil]
  rfl

/-- A buffer when the first `k` octets of the input have been encrypted. -/
def written (input output : Octets) (j k : ℕ) : Octets :=
  xorOctets (input.take k) (blocks E iv j) ++ output.drop k

variable {E iv} {input output : Octets} {j n : ℕ}

/-- **A round** encrypts the next octets. -/
theorem encryptRound_written (hn : n ≤ 16) (hin : 16 * j + n ≤ input.length)
    (hout : 16 * j + n ≤ output.length) :
    encryptRound E input n (BitVec.ofNat 16 j) (ivAfter iv j, written E iv input output j (16 * j),
      16 * j)
      = (ivAfter iv (j + 1), written E iv input output (j + 1) (16 * j + n), 16 * j + n) := by
  have hwrite := writeAt_xorOctets (length_blocks E iv j) hin hout
    (b := (E (setCounter iv (BitVec.ofNat 16 j))).toOctets)
      (by rw [Block.length_toOctets]; exact hn)
  rw [encryptRound, setCounter_ivAfter, written, hwrite, ← blocks_succ]
  rfl

/-- In place, the octets that are read are still those of the data. -/
theorem inPlaceRound_written {data : Octets} (hn : n ≤ 16) (hdata : 16 * j + n ≤ data.length) :
    inPlaceRound E n (BitVec.ofNat 16 j) (ivAfter iv j, written E iv data data j (16 * j), 16 * j)
      = (ivAfter iv (j + 1), written E iv data data (j + 1) (16 * j + n), 16 * j + n) := by
  have hfront : (xorOctets (data.take (16 * j)) (blocks E iv j)).length = 16 * j := by
    rw [length_xorOctets, List.length_take, length_blocks]
    omega
  have hread : slice (written E iv data data j (16 * j)) (16 * j) n = slice data (16 * j) n := by
    rw [slice, written, List.drop_left' hfront, slice]
  rw [← encryptRound_written hn hdata hdata, inPlaceRound, encryptRound, hread]

theorem streamRound_written (hn : n ≤ 16) (hj : j < 2 ^ 16) (hout : 16 * j + n ≤ output.length) :
    streamRound E n (BitVec.ofNat 16 j) (ivAfter iv j, blocks E iv j ++ output.drop (16 * j))
      = (ivAfter iv (j + 1), (blocks E iv (j + 1)).take (16 * j + n) ++
        output.drop (16 * j + n)) := by
  have hlength : ((E (setCounter iv (BitVec.ofNat 16 j))).toOctets.take n).length = n := by
    rw [List.length_take, Block.length_toOctets]
    omega
  have hcut : (blocks E iv (j + 1)).take (16 * j + n)
      = blocks E iv j ++ (E (setCounter iv (BitVec.ofNat 16 j))).toOctets.take n := by
    rw [blocks_succ, ← length_blocks E iv j, List.take_length_add_append]
  rw [streamRound, setCounter_ivAfter, BitVec.toNat_ofNat, Nat.mod_eq_of_lt hj, Nat.mul_comm j 16,
    writeAt_behind (length_blocks E iv j) (by rw [hlength]; exact hout), hlength, ← hcut]
  rfl

/-! ## What the routines leave -/

theorem ctrStream_eq_blocks (E : Block → Block) (iv : Block) (n : ℕ) :
    ctrStream E iv n = blocks E iv ((n + 15) / 16) := rfl

/-- A buffer when all octets of the input have been encrypted. -/
theorem written_length : written E iv input output ((input.length + 15) / 16) input.length
    = xorOctets input (ctrStream E iv input.length) ++ output.drop input.length := by
  rw [written, List.take_length, ctrStream_eq_blocks]

/-- **From one buffer to another.** -/
theorem ctrEncryptTo_eq (hlen : input.length < 2 ^ 20) (hout : input.length ≤ output.length) :
    ctrEncryptTo E input output iv
      = some (xorOctets input (ctrStream E iv input.length) ++ output.drop input.length,
          ivAfter iv ((input.length + 15) / 16)) := by
  set m := input.length / 16 with hm
  have hloop : countUp m (encryptRound E input 16) (2 ^ 16) 0 (iv, output, 0)
      = some (BitVec.ofNat 16 m, ivAfter iv m, written E iv input output m (16 * m), 16 * m) :=
    countUp_states (fun j => (ivAfter iv j, written E iv input output j (16 * j), 16 * j))
      (by omega) (fun i hi => encryptRound_written le_rfl (by omega) (by omega))
  rw [ctrEncryptTo, ← hm, hloop, Option.map_some, ← written_length]
  dsimp only
  by_cases hrest : 0 < input.length % 16
  · rw [if_pos hrest, encryptRound_written (by omega) (by omega) (by omega),
      show 16 * m + input.length % 16 = input.length by omega,
      show (input.length + 15) / 16 = m + 1 by omega]
  · rw [if_neg hrest, show (input.length + 15) / 16 = m by omega,
      show 16 * m = input.length by omega]

/-- **In place.** -/
theorem ctrEncryptInPlace_eq {data : Octets} (hlen : data.length < 2 ^ 20) :
    ctrEncryptInPlace E data iv = some (xorOctets data (ctrStream E iv data.length),
      ivAfter iv ((data.length + 15) / 16)) := by
  set m := data.length / 16 with hm
  have hloop : countUp m (inPlaceRound E 16) (2 ^ 16) 0 (iv, data, 0)
      = some (BitVec.ofNat 16 m, ivAfter iv m, written E iv data data m (16 * m), 16 * m) :=
    countUp_states (fun j => (ivAfter iv j, written E iv data data j (16 * j), 16 * j))
      (by omega) (fun i hi => inPlaceRound_written le_rfl (by omega))
  have hall : xorOctets data (ctrStream E iv data.length)
      = written E iv data data ((data.length + 15) / 16) data.length := by
    rw [written_length, List.drop_length, List.append_nil]
  rw [ctrEncryptInPlace, ← hm, hloop, Option.map_some, hall]
  dsimp only
  by_cases hrest : 0 < data.length % 16
  · rw [if_pos hrest, inPlaceRound_written (by omega) (by omega),
      show 16 * m + data.length % 16 = data.length by omega,
      show (data.length + 15) / 16 = m + 1 by omega]
  · rw [if_neg hrest, show (data.length + 15) / 16 = m by omega, show 16 * m = data.length by omega]

/-- **The stream by itself.** -/
theorem getCtrCipherStream_eq {length : ℕ} (hlen : length < 2 ^ 20)
    (hout : length ≤ output.length) :
    getCtrCipherStream E output length iv
      = some ((ctrStream E iv length).take length ++ output.drop length,
          ivAfter iv ((length + 15) / 16)) := by
  set m := length / 16 with hm
  have hwhole : ∀ j, (blocks E iv j).take (16 * j) = blocks E iv j := fun j =>
    List.take_of_length_le (length_blocks E iv j).le
  have hloop : countUp m (streamRound E 16) (2 ^ 16) 0 (iv, output)
      = some (BitVec.ofNat 16 m, ivAfter iv m, blocks E iv m ++ output.drop (16 * m)) := by
    refine countUp_states (fun j => (ivAfter iv j, blocks E iv j ++ output.drop (16 * j)))
      (by omega) (fun i hi => ?_)
    rw [streamRound_written le_rfl (by omega) (by omega), ← Nat.mul_succ, hwhole]
  rw [getCtrCipherStream, ← hm, hloop, Option.map_some, ctrStream_eq_blocks]
  dsimp only
  by_cases hrest : 0 < length % 16
  · rw [if_pos hrest, streamRound_written (by omega) (by omega) (by omega),
      show 16 * m + length % 16 = length by omega, show (length + 15) / 16 = m + 1 by omega]
  · rw [if_neg hrest, show (length + 15) / 16 = m by omega, ← hwhole m,
      show 16 * m = length by omega, List.take_take, Nat.min_self]

/-- **The counter-mode routines agree.**  For every block function, every initial vector and fewer
than `2 ^ 20` octets of data, the three routines leave the same initial vector, which keeps its
first 14 octets; `get_ctr_cipher_stream` puts out the counter-mode stream, and both routines
`ctr_encrypt` the data XORed with this stream.  With any initial vector of the same first 14 octets
they restore the data. -/
theorem counter_mode_agrees (E : Block → Block) (iv : Block) (data output : Octets)
    (hlen : data.length < 2 ^ 20) (hout : data.length ≤ output.length) :
    ∃ iv', iv'.toOctets.take 14 = iv.toOctets.take 14 ∧
      getCtrCipherStream E output data.length iv
        = some (stream E iv data.length ++ output.drop data.length, iv') ∧
      ctrEncryptTo E data output iv
        = some (xorOctets data (stream E iv data.length) ++ output.drop data.length, iv') ∧
      ctrEncryptInPlace E data iv = some (xorOctets data (stream E iv data.length), iv') ∧
      ∀ iv₂ : Block, iv₂.toOctets.take 14 = iv.toOctets.take 14 → ∃ iv₂',
        ctrEncryptTo E (xorOctets data (stream E iv data.length)) output iv₂
            = some (data ++ output.drop data.length, iv₂') ∧
          ctrEncryptInPlace E (xorOctets data (stream E iv data.length)) iv₂
            = some (data, iv₂') := by
  have hcover : ∀ iv₁, data.length ≤ (stream E iv₁ data.length).length := by
    intro iv₁
    rw [stream_eq E iv₁ hlen, List.length_take]
    exact le_min le_rfl (le_length_ctrStream E iv₁ data.length)
  have hxor : ∀ (l : Octets) iv₁, l.length = data.length →
      xorOctets l (ctrStream E iv₁ l.length) = xorOctets l (stream E iv₁ data.length) := by
    intro l iv₁ hl
    rw [stream_eq E iv₁ hlen, ← hl, xorOctets_take_right]
  refine ⟨ivAfter iv ((data.length + 15) / 16), take_ivAfter iv _, ?_, ?_, ?_, fun iv₂ hiv₂ => ?_⟩
  · rw [getCtrCipherStream_eq hlen hout, stream_eq E iv hlen]
  · rw [ctrEncryptTo_eq hlen hout, hxor data iv rfl]
  · rw [ctrEncryptInPlace_eq hlen, hxor data iv rfl]
  · have henc : (xorOctets data (stream E iv data.length)).length = data.length := by
      rw [length_xorOctets]
      exact min_eq_left (hcover iv)
    have hagain : xorOctets (xorOctets data (stream E iv data.length))
        (ctrStream E iv₂ (xorOctets data (stream E iv data.length)).length) = data := by
      rw [hxor _ iv₂ henc, stream_congr E hiv₂, xorOctets_xorOctets _ _ (hcover iv)]
    refine ⟨ivAfter iv₂ ((data.length + 15) / 16), ?_, ?_⟩
    · rw [ctrEncryptTo_eq (henc.trans_lt hlen) (henc.trans_le hout), hagain, henc]
    · rw [ctrEncryptInPlace_eq (henc.trans_lt hlen), hagain, henc]

/-- The theorem at three octets, with a block function that adds one to every octet. -/
theorem counter_mode_agrees_short :
    ∃ iv' : Block, iv'.toOctets.take 14 = (Block.ofOctets []).toOctets.take 14 ∧
      getCtrCipherStream (fun b i => b i + 1) [0, 0, 0, 0] 3 (Block.ofOctets [])
        = some (stream (fun b i => b i + 1) (Block.ofOctets []) 3 ++ [0], iv') ∧
      ctrEncryptTo (fun b i => b i + 1) [1, 2, 3] [0, 0, 0, 0] (Block.ofOctets [])
        = some (xorOctets [1, 2, 3] (stream (fun b i => b i + 1) (Block.ofOctets []) 3) ++ [0],
            iv') := by
  obtain ⟨iv', hiv, hstream, hencrypt, -⟩ := counter_mode_agrees (fun b i => b i + 1)
    (Block.ofOctets []) [1, 2, 3] [0, 0, 0, 0] (by decide) (by decide)
  exact ⟨iv', hiv, hstream, hencrypt⟩

end CounterMode

/-! ## The routines of the cipher object -/

namespace SrtpSymCrypto

variable (P : Primitives) (c : SrtpSymCrypto) {k : Octets} (data : Octets) (iv : Block)

/-- **`ctr_encrypt` of a cipher object** is the routine in place. -/
theorem ctrEncrypt_eq_inPlace (hk : c.key = some k) :
    (c.ctrEncrypt P data iv).map Prod.fst
      = (CounterMode.ctrEncryptInPlace (blockFn P c.algorithm k) data iv).map Prod.fst := by
  by_cases hlen : data.length < 2 ^ 20
  · rw [ctrEncrypt_eq_some P c hk data iv hlen, CounterMode.ctrEncryptInPlace_eq hlen,
      Option.map_some, Option.map_some]
  · rw [ctrEncrypt_eq_none P c hk data iv (not_lt.mp hlen), CounterMode.ctrEncryptInPlace,
      countUp_eq_none _ (by omega), Option.map_none, Option.map_none, Option.map_none]

/-- `get_ctr_cipher_stream` of a cipher object, too. -/
theorem getCtrCipherStream_eq_filled (hk : c.key = some k) (hlen : data.length < 2 ^ 20) :
    c.getCtrCipherStream P data iv
      = (CounterMode.getCtrCipherStream (blockFn P c.algorithm k) data data.length iv).map
          Prod.fst := by
  rw [getCtrCipherStream_eq_some P c hk data iv hlen, CounterMode.getCtrCipherStream_eq hlen le_rfl,
    Option.map_some, List.drop_length, List.append_nil]

end SrtpSymCrypto
