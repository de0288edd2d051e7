/-
# Session keys

What a sender's and a receiver's cryptographic context have in common, for SRTP and
SRTCP alike: the algorithms, the session salt, and the keyed cipher and MAC objects.
The two classes `CryptoContext` and `CryptoContextCtrl` of the source repeat the code
that works on these; it is stated once here, with the initial vectors as parameters.

* `transform` : encryption and decryption of a piece of memory;
* `authenticate` : the authentication tag of a message;
* `transform_transform` : the transform is its own inverse;
* `transform_f8KeyStream`, `f8KeyStream_inj` : F8 mode XORs a key stream over the data that
  determines its initial vector;
* `authenticate_eq`, `length_macTag` : the tag is a function of keys and message that
  fills the room made for it.

A call that does not return is `none`: `ctr_encrypt` on `2^20` octets and more, and the
use of an object that was never created.
-/
import CcRtp.SymCrypto

/-- A keyed MAC object: HMAC-SHA1, or Skein with its MAC size in bits. -/
inductive MacContext : Type where
  | sha1Hmac (key : Octets)
  | skeinMac (key : Octets) (bits : ℕ)
  deriving DecidableEq, Repr

/-- The MAC of a message. -/
def MacContext.digest (P : Primitives) : MacContext → Octets → Digest
  | .sha1Hmac key, msg => P.hmacSha1 key msg
  | .skeinMac key bits, msg => P.macSkein key bits msg

/-- Algorithms and session keys of a context.  A digest has 20 octets and is truncated,
so no tag is longer than that; without authentication there is no tag. -/
structure SessionKeys where
  ealg : SrtpEncryption
  aalg : SrtpAuthentication
  tagLength : ℕ
  kS : Octets
  cipher : Option SrtpSymCrypto
  f8Cipher : Option SrtpSymCrypto
  macCtx : Option MacContext
  tagLength_le : tagLength ≤ 20
  tagLength_null : aalg = .null → tagLength = 0

namespace SessionKeys

/-- The algorithm is one of the two counter modes. -/
def CounterMode (K : SessionKeys) : Prop := K.ealg = .aesCM ∨ K.ealg = .twoCM

/-- The algorithm is one of the two F8 modes. -/
def F8Mode (K : SessionKeys) : Prop := K.ealg = .aesF8 ∨ K.ealg = .twoF8

instance (K : SessionKeys) : Decidable K.CounterMode := inferInstanceAs (Decidable (_ ∨ _))

instance (K : SessionKeys) : Decidable K.F8Mode := inferInstanceAs (Decidable (_ ∨ _))

/-- Both families encrypt. -/
theorem CounterMode.ealg_ne_null {K : SessionKeys} (h : K.CounterMode) : K.ealg ≠ .null := by
  rcases h with h | h
  · rw [h]; decide
  · rw [h]; decide

theorem F8Mode.ealg_ne_null {K : SessionKeys} (h : K.F8Mode) : K.ealg ≠ .null := by
  rcases h with h | h
  · rw [h]; decide
  · rw [h]; decide

/-- The two families of modes exclude each other. -/
theorem F8Mode.not_counterMode {K : SessionKeys} (h : K.F8Mode) : ¬ K.CounterMode := by
  unfold CounterMode
  rcases h with h | h
  · rw [h]; decide
  · rw [h]; decide

/-- Every object that the algorithms need has been created. -/
structure Keyed (K : SessionKeys) : Prop where
  cipher : K.ealg ≠ .null → K.cipher.isSome = true
  f8Cipher : K.F8Mode → K.f8Cipher.isSome = true
  mac : K.aalg ≠ .null → K.macCtx.isSome = true

instance (K : SessionKeys) : Decidable K.Keyed :=
  decidable_of_iff ((K.ealg ≠ .null → K.cipher.isSome = true) ∧
      (K.F8Mode → K.f8Cipher.isSome = true) ∧ (K.aalg ≠ .null → K.macCtx.isSome = true))
    ⟨fun ⟨h1, h2, h3⟩ => ⟨h1, h2, h3⟩, fun ⟨h1, h2, h3⟩ => ⟨h1, h2, h3⟩⟩

variable (P : Primitives) (K : SessionKeys)

/-! ## Encryption and decryption -/

/-- The body of `srtpEncrypt` and `srtcpEncrypt`: `data` is transformed with the initial
vector of the mode.  Also returned are the blocks that counter mode handed to the block
cipher. -/
def transform (cmIv f8Iv : Block) (data : Octets) : Option (Octets × List Block) :=
  match K.ealg with
  | .null => some (data, [])
  | .aesCM | .twoCM => K.cipher.bind (fun c => c.ctrEncrypt P data cmIv)
  | .aesF8 | .twoF8 =>
      K.cipher.bind (fun c => K.f8Cipher.map (fun f8 => (c.f8Encrypt P f8 data f8Iv, [])))

variable {K}

/-- Counter mode does not look at the other initial vector. -/
theorem transform_counterMode (h : K.CounterMode) (cmIv f8Iv : Block) (data : Octets) :
    K.transform P cmIv f8Iv data = K.cipher.bind (fun c => c.ctrEncrypt P data cmIv) := by
  unfold transform
  rcases h with h | h
  · rw [h]
  · rw [h]

/-- Neither does F8 mode. -/
theorem transform_f8Mode (h : K.F8Mode) (cmIv f8Iv : Block) (data : Octets) :
    K.transform P cmIv f8Iv data = K.cipher.bind (fun c => K.f8Cipher.map (fun f8 =>
      (c.f8Encrypt P f8 data f8Iv, []))) := by
  unfold transform
  rcases h with h | h
  · rw [h]
  · rw [h]

/-- In counter mode `2^20` octets and more are never transformed. -/
theorem transform_eq_none (h : K.CounterMode) {c : SrtpSymCrypto} (hc : K.cipher = some c)
    {k : Octets} (hk : c.key = some k) (cmIv f8Iv : Block) {data : Octets}
    (hlong : 2 ^ 20 ≤ data.length) : K.transform P cmIv f8Iv data = none := by
  rw [transform_counterMode P h, hc]
  exact c.ctrEncrypt_eq_none P hk data cmIv hlong

variable {P}

/-- **The transform is its own inverse**, below `2^20` octets in counter mode and always
in F8 mode; it keeps the length. -/
theorem transform_transform (h : K.Keyed) (cmIv f8Iv : Block) {data : Octets}
    (hdata : K.CounterMode → data.length < 2 ^ 20) :
    ∃ out blocks, K.transform P cmIv f8Iv data = some (out, blocks) ∧
      out.length = data.length ∧ K.transform P cmIv f8Iv out = some (data, blocks) := by
  by_cases hnull : K.ealg = .null
  · unfold transform
    rw [hnull]
    exact ⟨data, [], rfl, rfl, rfl⟩
  obtain ⟨c, hc⟩ := Option.isSome_iff_exists.mp (h.cipher hnull)
  by_cases hcm : K.CounterMode
  · rw [transform_counterMode P hcm, hc]
    obtain ⟨out, blocks, hout, hlen, hback⟩ := c.ctrEncrypt_ctrEncrypt P data cmIv (hdata hcm)
    refine ⟨out, blocks, hout, hlen, ?_⟩
    rw [transform_counterMode P hcm, hc]
    exact hback
  · have hf8 : K.F8Mode := by
      unfold CounterMode F8Mode at *
      revert hnull hcm
      cases K.ealg <;> decide
    obtain ⟨f8, hf⟩ := Option.isSome_iff_exists.mp (h.f8Cipher hf8)
    rw [transform_f8Mode P hf8, hc, hf]
    refine ⟨_, _, rfl, c.length_f8Encrypt P f8 data f8Iv, ?_⟩
    rw [transform_f8Mode P hf8, hc, hf]
    show some (c.f8Encrypt P f8 (c.f8Encrypt P f8 data f8Iv) f8Iv, _) = _
    rw [c.f8Encrypt_f8Encrypt P f8]

/-! ## The F8 key stream -/

variable (P K)

/-- The `n` octets that F8 mode XORs over the data under an initial vector: what becomes of
`n` zeros. -/
def f8KeyStream (iv : Block) (n : ℕ) : Octets :=
  K.cipher.elim [] (fun c => K.f8Cipher.elim [] (fun f8 =>
    c.f8Encrypt P f8 (List.replicate n 0) iv))

variable {P K}

/-- In F8 mode both cipher objects are there. -/
theorem Keyed.f8Ciphers (h : K.Keyed) (hf8 : K.F8Mode) :
    ∃ c f8, K.cipher = some c ∧ K.f8Cipher = some f8 := by
  obtain ⟨c, hc⟩ := Option.isSome_iff_exists.mp (h.cipher hf8.ealg_ne_null)
  obtain ⟨f8, hf⟩ := Option.isSome_iff_exists.mp (h.f8Cipher hf8)
  exact ⟨c, f8, hc, hf⟩

/-- In F8 mode the transform XORs the data with the key stream. -/
theorem transform_f8KeyStream (h : K.Keyed) (hf8 : K.F8Mode) (cmIv f8Iv : Block)
    (data : Octets) :
    K.transform P cmIv f8Iv data
      = some (xorOctets data (K.f8KeyStream P f8Iv data.length), []) := by
  obtain ⟨c, f8, hc, hf⟩ := h.f8Ciphers hf8
  rw [transform_f8Mode P hf8, f8KeyStream, hc, hf]
  show some (c.f8Encrypt P f8 data f8Iv, ([] : List Block)) = _
  rw [Option.elim_some, Option.elim_some, ← c.f8Encrypt_eq_xorOctets P f8 data f8Iv]

/-- The key stream has the length that is asked for. -/
theorem length_f8KeyStream (h : K.Keyed) (hf8 : K.F8Mode) (iv : Block) (n : ℕ) :
    (K.f8KeyStream P iv n).length = n := by
  obtain ⟨c, f8, hc, hf⟩ := h.f8Ciphers hf8
  rw [f8KeyStream, hc, hf, Option.elim_some, Option.elim_some, c.length_f8Encrypt P f8,
    List.length_replicate]

/-- Both cipher objects of F8 mode have been given a key. -/
def F8Keyed (K : SessionKeys) : Prop :=
  ∃ c f8 k k', K.cipher = some c ∧ K.f8Cipher = some f8 ∧ c.key = some k ∧ f8.key = some k' ∧
    c.algorithm ≠ .null ∧ f8.algorithm ≠ .null

/-- **Different initial vectors give different key streams**, already in the first block,
if the block functions are permutations. -/
theorem f8KeyStream_inj (hP : P.Permutes) (hK : K.F8Keyed) {iv iv' : Block} {n : ℕ}
    (hn : 16 ≤ n) (h : K.f8KeyStream P iv n = K.f8KeyStream P iv' n) : iv = iv' := by
  obtain ⟨c, f8, k, k', hc, hf, hk, hk', halg, halg'⟩ := hK
  have hfirst := fun iv => c.take_f8Encrypt_zeros P f8 hk iv hn
  rw [f8KeyStream, f8KeyStream, hc, hf] at h
  have hblock := congrArg (List.take 16) h
  simp only [Option.elim_some, hfirst] at hblock
  -- peel off, from outside: the block function, the block number, the IV's block function
  have hE := hP.blockFn_injective halg k (Block.toOctets_injective hblock)
  have haccent := (Block.xor_right_inj _ _ _).mp ((Block.xor_left_inj _ _ _).mp hE)
  rw [f8.encrypt_keyed P hk' halg', f8.encrypt_keyed P hk' halg'] at haccent
  exact hP.blockFn_injective halg' k' haccent

/-! ## Authentication -/

variable (P K)

/-- The body of `srtpAuthenticate` and `srtcpAuthenticate`: the octets at the tag
afterwards, which were `old` before. -/
def authenticate (msg old : Octets) : Option Octets :=
  if K.aalg = .null then some old
  else K.macCtx.map (fun m => (List.ofFn (m.digest P msg)).take K.tagLength)

/-- The authentication tag of a message. -/
def macTag (msg : Octets) : Octets :=
  K.macCtx.elim [] (fun m => (List.ofFn (m.digest P msg)).take K.tagLength)

variable {P K}

/-- The tag fills the room that is made for it. -/
theorem length_macTag (h : K.Keyed) (msg : Octets) : (K.macTag P msg).length = K.tagLength := by
  have hle := K.tagLength_le
  unfold macTag
  cases hm : K.macCtx with
  | none =>
      have haalg : K.aalg = .null := by
        by_contra hne
        have hsome := h.mac hne
        rw [hm] at hsome
        cases hsome
      rw [K.tagLength_null haalg]
      rfl
  | some m =>
      simp only [Option.elim_some, List.length_take, List.length_ofFn]
      omega

/-- **Authentication with keys** computes the tag of the message. -/
theorem authenticate_eq (h : K.Keyed) (msg : Octets) {old : Octets}
    (hold : old.length = K.tagLength) : K.authenticate P msg old = some (K.macTag P msg) := by
  unfold authenticate
  split_ifs with haalg
  · have hlen := length_macTag (P := P) h msg
    have hzero := K.tagLength_null haalg
    rw [List.eq_nil_of_length_eq_zero (hold.trans hzero),
      List.eq_nil_of_length_eq_zero (hlen.trans hzero)]
  · obtain ⟨m, hm⟩ := Option.isSome_iff_exists.mp (h.mac haalg)
    rw [macTag, hm]
    rfl

end SessionKeys
