/-
# `SrtpSymCrypto`: the SRTP cipher object

Models `src/ccrtp/crypto/gcrypt/gcryptSrtpSymCrypto.cpp`: key set-up, the block
call, the counter-mode routines and F8 mode.  The block functions themselves (AES,
Twofish) and the MACs (HMAC-SHA1, Skein) are parameters (`Primitives`).

`ctr_encrypt` and `get_ctr_cipher_stream` count their blocks in a `uint16_t` that is
compared with the number of whole blocks.  For 65536 whole blocks or more the test
never fails and the routine does not return; the model answers `none` then.  Beside
its result, `ctrEncrypt` reports the blocks it handed to the block cipher.

Main results:

* `ctrEncrypt_eq_some` : below `2^20` octets `ctr_encrypt` XORs the data with the
  counter-mode key stream and hands exactly the counter blocks to the cipher;
* `ctrEncrypt_eq_none` : from `2^20` octets on it does not return;
* `f8Encrypt_keyed` : `f8_encrypt` XORs the data with the F8 key stream.
-/
import CcRtp.KeyStream

/-- The encryption algorithms (`SrtpEncryptionNull`, `SrtpEncryptionAESCM`, ...). -/
inductive SrtpEncryption : Type where
  | null
  | aesCM
  | aesF8
  | twoCM
  | twoF8
  deriving DecidableEq, Repr

/-- The authentication algorithms (`SrtpAuthenticationNull`, ...). -/
inductive SrtpAuthentication : Type where
  | null
  | sha1Hmac
  | skeinHmac
  deriving DecidableEq, Repr

/-- The 20 octets of `temp` that a MAC is computed into. -/
abbrev Digest := Fin 20 → UInt8

/-- The primitives behind the cipher and MAC objects: the block functions by key,
HMAC-SHA1 by key and message, and Skein by key, MAC size in bits and message. -/
structure Primitives where
  aes : Octets → Block → Block
  twofish : Octets → Block → Block
  hmacSha1 : Octets → Octets → Digest
  macSkein : Octets → ℕ → Octets → Digest

/-- The block functions are permutations of the blocks, as those of block ciphers are. -/
structure Primitives.Permutes (P : Primitives) : Prop where
  aes : ∀ k, Function.Injective (P.aes k)
  twofish : ∀ k, Function.Injective (P.twofish k)

/-- Easily evaluated primitives for concrete runs: block functions that XOR the key, and
MACs that add up the octets of key and message. -/
def Primitives.additive : Primitives where
  aes := fun k b => Block.xor (Block.ofOctets k) b
  twofish := fun k b => Block.xor (Block.ofOctets k) b
  hmacSha1 := fun k m i => (k ++ m).foldl (· + ·) (UInt8.ofNat i)
  macSkein := fun k _ m i => (k ++ m).foldl (· + ·) (UInt8.ofNat i)

/-- The cipher object: its algorithm and, once set, its key. -/
structure SrtpSymCrypto where
  algorithm : SrtpEncryption
  key : Option Octets
  deriving DecidableEq, Repr

namespace SrtpSymCrypto

/-- `SrtpSymCrypto(int algo)`: no key yet. -/
def new (algo : SrtpEncryption) : SrtpSymCrypto := ⟨algo, none⟩

/-- `setNewKey`: AES takes keys of 16 and 32 octets and drops its key on any other;
Twofish takes what it is given. -/
def setNewKey (c : SrtpSymCrypto) (k : Octets) : Bool × SrtpSymCrypto :=
  match c.algorithm with
  | .aesCM | .aesF8 =>
      if k.length = 16 ∨ k.length = 32 then (true, { c with key := some k })
      else (false, { c with key := none })
  | .twoCM | .twoF8 => (true, { c with key := some k })
  | .null => (false, c)

variable (P : Primitives)

/-- The block function of a key under an algorithm. -/
def blockFn (algo : SrtpEncryption) (k : Octets) : Block → Block :=
  match algo with
  | .aesCM | .aesF8 => P.aes k
  | .twoCM | .twoF8 => P.twofish k
  | .null => id

/-- `encrypt(input, output)`: without a key the output block is left as it was. -/
def encrypt (c : SrtpSymCrypto) (input output : Block) : Block :=
  match c.key with
  | some k =>
      match c.algorithm with
      | .null => output
      | algo => blockFn P algo k input
  | none => output

/-- With a key and an algorithm `encrypt` applies the block function. -/
theorem encrypt_keyed (c : SrtpSymCrypto) {k : Octets} (hk : c.key = some k)
    (halg : c.algorithm ≠ .null) (input output : Block) :
    c.encrypt P input output = blockFn P c.algorithm k input := by
  rw [encrypt, hk]
  revert halg
  cases c.algorithm <;> intro halg
  · exact absurd rfl halg
  all_goals rfl

/-! ## Counter mode -/

/-- One round of the loop of `ctr_encrypt`: the next 16 octets of data are XORed with
the block cipher's answer to the initial vector with the counter in it.  The state
is the output so far, the blocks handed to the block cipher and the data to come. -/
def ctrRound (E : Block → Block) (iv : Block) (ctr : BitVec 16) :
    Octets × List Block × Octets → Octets × List Block × Octets
  | (out, blocks, data) =>
      (out ++ xorOctets (data.take 16) (E (setCounter iv ctr)).toOctets,
        blocks ++ [setCounter iv ctr], data.drop 16)

/-- `ctr_encrypt(data, data_length, iv)`, in place.  Also returned are the blocks
handed to the block cipher, in order. -/
def ctrEncrypt (c : SrtpSymCrypto) (data : Octets) (iv : Block) :
    Option (Octets × List Block) :=
  match c.key with
  | none => some (data, [])
  | some k =>
      let E := blockFn P c.algorithm k
      match countUp (data.length / 16) (ctrRound E iv) (2 ^ 16) 0 ([], [], data) with
      | none => none
      | some (ctr, out, blocks, rest) =>
          if 0 < data.length % 16 then
            -- the last, incomplete block
            some (out ++ xorOctets rest (E (setCounter iv ctr)).toOctets,
              blocks ++ [setCounter iv ctr])
          else some (out, blocks)

/-- One round of the loop of `get_ctr_cipher_stream`. -/
def streamRound (E : Block → Block) (iv : Block) (ctr : BitVec 16) (out : Octets) : Octets :=
  out ++ (E (setCounter iv ctr)).toOctets

/-- `get_ctr_cipher_stream(output, length, iv)`, where `output` is the buffer to be
filled.  An unkeyed cipher leaves the octets that are there. -/
def getCtrCipherStream (c : SrtpSymCrypto) (output : Octets) (iv : Block) : Option Octets :=
  match c.key with
  -- the loop runs all the same, so it may not end here either
  | none => if output.length / 16 < 2 ^ 16 then some output else none
  | some k =>
      let E := blockFn P c.algorithm k
      match countUp (output.length / 16) (streamRound E iv) (2 ^ 16) 0 [] with
      | none => none
      | some (ctr, out) =>
          if 0 < output.length % 16 then
            -- the beginning of one more block, copied from a local buffer
            some (out ++ (E (setCounter iv ctr)).toOctets.take (output.length % 16))
          else some out

/-! ## F8 mode -/

/-- `processBlock`: advance the key stream by one block and XOR it over the input. -/
def processBlock (E : Block → Block) (ivAccent S : Block) (J : BitVec 32) (input : Octets) :
    Octets × Block :=
  let S' := f8Next E ivAccent S J
  (xorOctets input S'.toOctets, S')

/-- The loop of `f8_encrypt` over `n` whole blocks, and the rest after it. -/
def f8Loop (E : Block → Block) (ivAccent : Block) : ℕ → Block → BitVec 32 → Octets → Octets
  | 0, S, J, data => if data = [] then [] else (processBlock E ivAccent S J data).1
  | n + 1, S, J, data =>
      let (out, S') := processBlock E ivAccent S J (data.take 16)
      out ++ f8Loop E ivAccent n S' (J + 1) (data.drop 16)

/-- `f8_encrypt(data, data_length, iv, f8Cipher)`, in place.  The initial content of
`ivAccent`, which an unkeyed `f8Cipher` leaves there, is taken to be zeros. -/
def f8Encrypt (c f8Cipher : SrtpSymCrypto) (data : Octets) (iv : Block) : Octets :=
  match c.key with
  | none => data
  | some k =>
      let ivAccent := f8Cipher.encrypt P iv (fun _ => 0)
      f8Loop (blockFn P c.algorithm k) ivAccent (data.length / 16) (fun _ => 0) 0 data

/-- `f8_deriveForIV`: key the cipher of the initial vector with the session key
masked by the session salt, which is filled up with `0x55`. -/
def f8DeriveForIV (f8Cipher : SrtpSymCrypto) (key salt : Octets) : SrtpSymCrypto :=
  -- keys that the local buffers cannot hold, and salts longer than the key, are ignored
  if 32 < key.length then f8Cipher
  else if key.length < salt.length then f8Cipher
  else
    let saltMask := salt ++ List.replicate (key.length - salt.length) 0x55
    (f8Cipher.setNewKey (xorOctets key saltMask)).2

/-! ## What the counter-mode routines compute -/

/-- `m` rounds of the loop of `ctr_encrypt`. -/
theorem foldl_ctrRound (E : Block → Block) (iv : Block) (m : ℕ) :
    ∀ (j : ℕ) (out : Octets) (blocks : List Block) (data : Octets), 16 * m ≤ data.length →
      (List.range' j m).foldl (fun s i => ctrRound E iv (BitVec.ofNat 16 i) s) (out, blocks, data)
        = (out ++ xorOctets (data.take (16 * m)) (streamOf E (counterBlocks iv j m)),
            blocks ++ counterBlocks iv j m, data.drop (16 * m)) := by
  induction m with
  | zero => intro j out blocks data _; simp
  | succ m ih =>
      intro j out blocks data hd
      rw [List.range'_succ, List.foldl_cons, ctrRound, ih (j + 1) _ _ _ (by
        rw [List.length_drop]; omega)]
      -- the first block of data, then the blocks of the induction hypothesis
      rw [counterBlocks_succ, streamOf_cons,
        xorOctets_append_right _ _ _ (Block.length_toOctets _)
          (by rw [List.length_take]; omega),
        List.take_take, List.drop_take, List.drop_drop,
        show min 16 (16 * (m + 1)) = 16 by omega, show 16 * (m + 1) - 16 = 16 * m by omega,
        show 16 + 16 * m = 16 * (m + 1) by omega]
      simp

/-- `m` rounds of the loop of `get_ctr_cipher_stream`. -/
theorem foldl_streamRound (E : Block → Block) (iv : Block) (m j : ℕ) (out : Octets) :
    (List.range' j m).foldl (fun s i => streamRound E iv (BitVec.ofNat 16 i) s) out
      = out ++ streamOf E (counterBlocks iv j m) := by
  induction m generalizing j out with
  | zero => simp
  | succ m ih =>
      rw [List.range'_succ, List.foldl_cons, ih, streamRound, counterBlocks_succ, streamOf_cons,
        List.append_assoc]

/-- **`ctr_encrypt` below `2^20` octets**: the data XORed with the counter-mode key
stream, the block cipher having been given the counter blocks in order. -/
theorem ctrEncrypt_eq_some (c : SrtpSymCrypto) {k : Octets} (hk : c.key = some k)
    (data : Octets) (iv : Block) (hlen : data.length < 2 ^ 20) :
    c.ctrEncrypt P data iv
      = some (xorOctets data (ctrStream (blockFn P c.algorithm k) iv data.length),
          ctrBlocks iv data.length) := by
  set E := blockFn P c.algorithm k with hE
  set m := data.length / 16 with hm
  have hloop := countUp_eq_some (ctrRound E iv) m 0 (2 ^ 16) ([], [], data) (by omega) (by omega)
  rw [Nat.zero_add, foldl_ctrRound E iv m 0 [] [] data (by omega)] at hloop
  have hstart : (0 : BitVec 16) = BitVec.ofNat 16 0 := rfl
  rw [ctrEncrypt, hk]
  simp only [← hE, ← hm]
  rw [hstart, hloop]
  simp only [List.nil_append]
  rw [ctrStream, ctrBlocks_eq, streamOf_append, ← hm,
    xorOctets_append_right data _ _ (by rw [length_streamOf, length_counterBlocks])
      (by omega)]
  split_ifs with h
  · simp
  · have hnil : data.drop (16 * m) = [] := by
      apply List.drop_eq_nil_of_le; omega
    simp [hnil]

/-- **`ctr_encrypt` from `2^20` octets on** does not return. -/
theorem ctrEncrypt_eq_none (c : SrtpSymCrypto) {k : Octets} (hk : c.key = some k)
    (data : Octets) (iv : Block) (hlen : 2 ^ 20 ≤ data.length) :
    c.ctrEncrypt P data iv = none := by
  rw [ctrEncrypt, hk]
  simp only
  rw [countUp_eq_none _ (by omega)]

/-- The same key stream decrypts: `ctr_encrypt` with the same initial vector undoes
itself. -/
theorem ctrEncrypt_ctrEncrypt (c : SrtpSymCrypto) (data : Octets) (iv : Block)
    (hlen : data.length < 2 ^ 20) :
    ∃ enc blocks, c.ctrEncrypt P data iv = some (enc, blocks) ∧ enc.length = data.length ∧
      c.ctrEncrypt P enc iv = some (data, blocks) := by
  cases hk : c.key with
  | none =>
      have hid : ∀ d, c.ctrEncrypt P d iv = some (d, []) := by
        intro d; rw [ctrEncrypt, hk]
      exact ⟨data, [], hid data, rfl, hid data⟩
  | some k =>
      have hcover := le_length_ctrStream (blockFn P c.algorithm k) iv data.length
      have henc := ctrEncrypt_eq_some P c hk data iv hlen
      set enc := xorOctets data (ctrStream (blockFn P c.algorithm k) iv data.length) with hdef
      have henclen : enc.length = data.length := by
        rw [hdef, length_xorOctets]; omega
      refine ⟨enc, _, henc, henclen, ?_⟩
      rw [ctrEncrypt_eq_some P c hk enc iv (by omega), henclen, hdef,
        xorOctets_xorOctets _ _ hcover]

/-- **`get_ctr_cipher_stream` below `2^20` octets**: the counter-mode key stream, cut
to the length asked for. -/
theorem getCtrCipherStream_eq_some (c : SrtpSymCrypto) {k : Octets} (hk : c.key = some k)
    (output : Octets) (iv : Block) (hlen : output.length < 2 ^ 20) :
    c.getCtrCipherStream P output iv
      = some ((ctrStream (blockFn P c.algorithm k) iv output.length).take output.length) := by
  set E := blockFn P c.algorithm k with hE
  set m := output.length / 16 with hm
  have hloop := countUp_eq_some (streamRound E iv) m 0 (2 ^ 16) [] (by omega) (by omega)
  rw [Nat.zero_add, foldl_streamRound] at hloop
  have hstart : (0 : BitVec 16) = BitVec.ofNat 16 0 := rfl
  have hwhole : (streamOf E (counterBlocks iv 0 m)).length = 16 * m := by
    rw [length_streamOf, length_counterBlocks]
  rw [getCtrCipherStream, hk]
  simp only [← hE, ← hm]
  rw [hstart, hloop]
  simp only [List.nil_append]
  have hall : (streamOf E (counterBlocks iv 0 m)).take output.length
      = streamOf E (counterBlocks iv 0 m) := by
    apply List.take_of_length_le; omega
  rw [ctrStream, ctrBlocks_eq, streamOf_append, ← hm, List.take_append, hwhole, hall]
  split_ifs with h
  · rw [show output.length - 16 * m = output.length % 16 by omega]
    simp
  · simp

/-! ## What `f8_encrypt` computes -/

/-- The loop of `f8_encrypt` XORs the data with the F8 key stream. -/
theorem f8Loop_eq (E : Block → Block) (ivAccent : Block) (n : ℕ) :
    ∀ (S : Block) (J : BitVec 32) (data : Octets), n = data.length / 16 →
      f8Loop E ivAccent n S J data
        = xorOctets data (f8Stream E ivAccent ((data.length + 15) / 16) S J) := by
  induction n with
  | zero =>
      intro S J data hn
      rw [f8Loop]
      split_ifs with h
      · simp [h]
      · have hpos : 0 < data.length := List.length_pos_iff.mpr h
        rw [show (data.length + 15) / 16 = 0 + 1 by omega]
        simp [f8Stream, processBlock]
  | succ n ih =>
      intro S J data hn
      have hdrop : (data.drop 16).length = data.length - 16 := List.length_drop
      rw [f8Loop, show (data.length + 15) / 16 = ((data.drop 16).length + 15) / 16 + 1 by omega,
        f8Stream]
      simp only [processBlock]
      rw [ih _ _ _ (by omega)]
      rw [xorOctets_append_right data _ _ (Block.length_toOctets _) (by omega)]

/-- The F8 key stream that `f8_encrypt` applies to `n` octets under `iv`. -/
def f8KeyStream (c f8Cipher : SrtpSymCrypto) (k : Octets) (iv : Block) (n : ℕ) : Octets :=
  f8Stream (blockFn P c.algorithm k) (f8Cipher.encrypt P iv (fun _ => 0)) ((n + 15) / 16)
    (fun _ => 0) 0

/-- The F8 key stream covers the data. -/
theorem le_length_f8KeyStream (c f8Cipher : SrtpSymCrypto) (k : Octets) (iv : Block) (n : ℕ) :
    n ≤ (f8KeyStream P c f8Cipher k iv n).length := by
  rw [f8KeyStream, length_f8Stream]
  omega

/-- **`f8_encrypt`** XORs the data with the F8 key stream of the initial vector. -/
theorem f8Encrypt_keyed (c f8Cipher : SrtpSymCrypto) {k : Octets} (hk : c.key = some k)
    (data : Octets) (iv : Block) :
    c.f8Encrypt P f8Cipher data iv
      = xorOctets data (f8KeyStream P c f8Cipher k iv data.length) := by
  rw [f8Encrypt, hk]
  simp only
  rw [f8Loop_eq _ _ _ _ _ _ rfl, f8KeyStream]

/-- `f8_encrypt` keeps the length. -/
theorem length_f8Encrypt (c f8Cipher : SrtpSymCrypto) (data : Octets) (iv : Block) :
    (c.f8Encrypt P f8Cipher data iv).length = data.length := by
  cases hk : c.key with
  | none => rw [f8Encrypt, hk]
  | some k =>
      have hcover := le_length_f8KeyStream P c f8Cipher k iv data.length
      rw [f8Encrypt_keyed P c f8Cipher hk, length_xorOctets]
      omega

/-- `f8_encrypt` with the same initial vector undoes itself. -/
theorem f8Encrypt_f8Encrypt (c f8Cipher : SrtpSymCrypto) (data : Octets) (iv : Block) :
    c.f8Encrypt P f8Cipher (c.f8Encrypt P f8Cipher data iv) iv = data := by
  cases hk : c.key with
  | none =>
      have hid : ∀ d, c.f8Encrypt P f8Cipher d iv = d := by
        intro d; rw [f8Encrypt, hk]
      rw [hid, hid]
  | some k =>
      have hlen := length_f8Encrypt P c f8Cipher data iv
      rw [f8Encrypt_keyed P c f8Cipher hk, hlen, f8Encrypt_keyed P c f8Cipher hk,
        xorOctets_xorOctets _ _ (le_length_f8KeyStream P c f8Cipher k iv data.length)]

/-- `f8_encrypt` XORs the data with what it makes of as many zeros. -/
theorem f8Encrypt_eq_xorOctets (c f8Cipher : SrtpSymCrypto) (data : Octets) (iv : Block) :
    c.f8Encrypt P f8Cipher data iv
      = xorOctets data (c.f8Encrypt P f8Cipher (List.replicate data.length 0) iv) := by
  cases hk : c.key with
  | none =>
      have hid : ∀ d, c.f8Encrypt P f8Cipher d iv = d := by
        intro d; rw [f8Encrypt, hk]
      rw [hid, hid, xorOctets_zeros_right]
  | some k =>
      rw [f8Encrypt_keyed P c f8Cipher hk, f8Encrypt_keyed P c f8Cipher hk, List.length_replicate,
        xorOctets_zeros_left _ _ (le_length_f8KeyStream P c f8Cipher k iv data.length),
        xorOctets_take_right]

/-- The first block that `f8_encrypt` makes of zeros. -/
theorem take_f8Encrypt_zeros (c f8Cipher : SrtpSymCrypto) {k : Octets} (hk : c.key = some k)
    (iv : Block) {n : ℕ} (hn : 16 ≤ n) :
    (c.f8Encrypt P f8Cipher (List.replicate n 0) iv).take 16
      = (f8Next (blockFn P c.algorithm k) (f8Cipher.encrypt P iv (fun _ => 0)) (fun _ => 0)
          0).toOctets := by
  have hcover := le_length_f8KeyStream P c f8Cipher k iv n
  rw [f8Encrypt_keyed P c f8Cipher hk, List.length_replicate, xorOctets_zeros_left _ _ hcover,
    List.take_take, show min 16 n = 16 by omega, f8KeyStream,
    show (n + 15) / 16 = (n - 1) / 16 + 1 by omega, f8Stream]
  exact List.take_left' (Block.length_toOctets _)

end SrtpSymCrypto

/-- Every block function of permuting primitives is injective. -/
theorem Primitives.Permutes.blockFn_injective {P : Primitives} (h : P.Permutes)
    {algo : SrtpEncryption} (halg : algo ≠ .null) (k : Octets) :
    Function.Injective (SrtpSymCrypto.blockFn P algo k) := by
  cases algo with
  | null => exact absurd rfl halg
  | aesCM => exact h.aes k
  | aesF8 => exact h.aes k
  | twoCM => exact h.twofish k
  | twoF8 => exact h.twofish k
