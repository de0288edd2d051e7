/-
# Key derivation

Models `CryptoContext::deriveSrtpKeys`, `CryptoContextCtrl::deriveSrtcpKeys`, their two
functions `computeIv`, and `newCryptoContextForSSRC` of both classes
(`src/CryptoContext.cpp`, `src/CryptoContextCtrl.cpp`).

The two derivations differ in the initial vectors only; `KeyMaterial` holds the members
they work on, and `KeyMaterial.derive` is their common body.  It overwrites the master key
and the master salt with zeros, which are then what a second derivation, or a context
cloned later, starts from.

* `KeyMaterial.derive_eq` : the session keys come from what the context holds as master
  key and master salt;
* `session_keys_from_master` : along every run of derivations and clones they come from
  the master secret the first context was made with, if no context is derived again or
  after it was cloned from a derived one; otherwise they come from zeros.
-/
import CcRtp.CryptoContextCtrl
import CcRtp.ClonePool

/-! ## The functions of the source -/

/-- The three session keys. -/
inductive KeyLabel : Type where
  | encryption
  | authentication
  | salt
  deriving DecidableEq, Repr

/-- The label of a key in the SRTP key derivation. -/
def KeyLabel.srtp : KeyLabel → BitVec 64
  | .encryption => 0
  | .authentication => 1
  | .salt => 2

/-- The label of a key in the SRTCP key derivation. -/
def KeyLabel.srtcp : KeyLabel → UInt8
  | .encryption => 3
  | .authentication => 4
  | .salt => 5

/-- `computeIv(iv, label, index, kdv, master_salt)` of the SRTP context. -/
def CryptoContext.computeIv (label index kdv : BitVec 64) (masterSalt : Octets) : Block := fun i =>
  let keyId := if kdv = 0 then label <<< 48 else (label <<< 48) ||| (index / kdv)
  if i.val < 7 then masterSalt.getD i 0
  else if i.val < 14 then
    UInt8.ofNat (keyId >>> (8 * (13 - i.val))).toNat ^^^ masterSalt.getD i 0
  else 0

/-- `computeIv(iv, label, master_salt)` of the SRTCP context. -/
def CryptoContextCtrl.computeIv (label : UInt8) (masterSalt : Octets) : Block := fun i =>
  if i.val = 7 then masterSalt.getD i 0 ^^^ label
  else if i.val < 14 then masterSalt.getD i 0
  else 0

/-- The members of a context that key derivation reads and writes. -/
structure KeyMaterial where
  masterKey : Octets
  masterSalt : Octets
  kE : Octets
  kA : Octets
  kS : Octets
  aalg : SrtpAuthentication
  tagLength : ℕ
  cipher : Option SrtpSymCrypto
  f8Cipher : Option SrtpSymCrypto
  macCtx : Option MacContext

/-- `memset(buf, 0, len)` -/
def cleared (buf : Octets) : Octets := List.replicate buf.length 0

namespace KeyMaterial

variable (P : Primitives)

/-- The MAC object of an authentication key, which replaces the one before. -/
def newMac (m : KeyMaterial) (kA : Octets) : Option MacContext :=
  match m.aalg with
  | .null => m.macCtx
  | .sha1Hmac => some (.sha1Hmac kA)
  | .skeinHmac => some (.skeinMac kA (m.tagLength * 8))

/-- The body of `deriveSrtpKeys` and `deriveSrtcpKeys`, with the initial vectors as a
function of label and master salt. -/
def derive (iv : KeyLabel → Octets → Block) (m : KeyMaterial) : Option KeyMaterial :=
  m.cipher.bind (fun cipher =>
    -- nobody looks at whether `setNewKey` took the key
    let cipher := (cipher.setNewKey m.masterKey).2
    (cipher.getCtrCipherStream P m.kE (iv .encryption m.masterSalt)).bind (fun kE =>
      (cipher.getCtrCipherStream P m.kA (iv .authentication m.masterSalt)).bind (fun kA =>
        (cipher.getCtrCipherStream P m.kS (iv .salt m.masterSalt)).map (fun kS =>
          -- only the session salt stays readable, for the initial vectors
          { m with
            masterKey := cleared m.masterKey
            masterSalt := cleared m.masterSalt
            kE := cleared kE
            kA := cleared kA
            kS := kS
            cipher := some (cipher.setNewKey kE).2
            f8Cipher := m.f8Cipher.map (fun f8 => f8.f8DeriveForIV kE kS)
            macCtx := m.newMac kA }))))

end KeyMaterial

namespace CryptoContext

variable (P : Primitives)

/-- The members that key derivation works on. -/
def material (ctx : CryptoContext) : KeyMaterial where
  masterKey := ctx.masterKey
  masterSalt := ctx.masterSalt
  kE := ctx.kE
  kA := ctx.kA
  kS := ctx.kS
  aalg := ctx.aalg
  tagLength := ctx.tagLength
  cipher := ctx.cipher
  f8Cipher := ctx.f8Cipher
  macCtx := ctx.macCtx

/-- `deriveSrtpKeys(index)` -/
def deriveSrtpKeys (ctx : CryptoContext) (index : BitVec 64) : Option CryptoContext :=
  (ctx.material.derive P (fun label => computeIv label.srtp index ctx.keyDerivRate)).map (fun m =>
    { ctx with
      masterKey := m.masterKey
      masterSalt := m.masterSalt
      kE := m.kE
      kA := m.kA
      kS := m.kS
      cipher := m.cipher
      f8Cipher := m.f8Cipher
      macCtx := m.macCtx })

/-- `newCryptoContextForSSRC(ssrc, roc, keyDerivRate)` -/
def newCryptoContextForSSRC (ctx : CryptoContext) (ssrc roc : BitVec 32)
    (keyDerivRate : BitVec 64) : CryptoContext :=
  CryptoContext.new ssrc roc keyDerivRate ctx.ealg ctx.aalg ctx.masterKey ctx.masterSalt ctx.ekeyl
    ctx.akeyl ctx.skeyl ctx.tagLength ctx.tagLength_le

end CryptoContext

namespace CryptoContextCtrl

variable (P : Primitives)

/-- The members that key derivation works on. -/
def material (ctx : CryptoContextCtrl) : KeyMaterial where
  masterKey := ctx.masterKey
  masterSalt := ctx.masterSalt
  kE := ctx.kE
  kA := ctx.kA
  kS := ctx.kS
  aalg := ctx.aalg
  tagLength := ctx.tagLength
  cipher := ctx.cipher
  f8Cipher := ctx.f8Cipher
  macCtx := ctx.macCtx

/-- `deriveSrtcpKeys()` -/
def deriveSrtcpKeys (ctx : CryptoContextCtrl) : Option CryptoContextCtrl :=
  (ctx.material.derive P (fun label => computeIv label.srtcp)).map (fun m =>
    { ctx with
      masterKey := m.masterKey
      masterSalt := m.masterSalt
      kE := m.kE
      kA := m.kA
      kS := m.kS
      cipher := m.cipher
      f8Cipher := m.f8Cipher
      macCtx := m.macCtx })

/-- `newCryptoContextForSSRC(ssrc)`; `sL` is what the memory of the new context happens to
hold as `s_l`. -/
def newCryptoContextForSSRC (ctx : CryptoContextCtrl) (ssrc sL : BitVec 32) : CryptoContextCtrl :=
  CryptoContextCtrl.new ssrc sL ctx.ealg ctx.aalg ctx.masterKey ctx.masterSalt ctx.ekeyl
    ctx.akeyl ctx.skeyl ctx.tagLength ctx.tagLength_le

end CryptoContextCtrl

/-! ## What a derivation installs -/

/-- The key that `get_ctr_cipher_stream` derives under a key `K` from an initial vector:
`n` octets of the counter-mode key stream. -/
def sessionKey (P : Primitives) (algo : SrtpEncryption) (K : Octets) (iv : Block) (n : ℕ) :
    Octets :=
  (ctrStream (SrtpSymCrypto.blockFn P algo K) iv n).take n

theorem length_sessionKey (P : Primitives) (algo : SrtpEncryption) (K : Octets) (iv : Block)
    (n : ℕ) : (sessionKey P algo K iv n).length = n := by
  have hcover := le_length_ctrStream (SrtpSymCrypto.blockFn P algo K) iv n
  rw [sessionKey, List.length_take]
  omega

namespace SrtpSymCrypto

/-- The keys that ciphers of an algorithm take. -/
def TakesKey (algo : SrtpEncryption) (k : Octets) : Prop :=
  match algo with
  | .aesCM | .aesF8 => k.length = 16 ∨ k.length = 32
  | .twoCM | .twoF8 => True
  | .null => False

instance : (algo : SrtpEncryption) → (k : Octets) → Decidable (TakesKey algo k)
  | .aesCM, k => inferInstanceAs (Decidable (k.length = 16 ∨ k.length = 32))
  | .aesF8, k => inferInstanceAs (Decidable (k.length = 16 ∨ k.length = 32))
  | .twoCM, _ => .isTrue trivial
  | .twoF8, _ => .isTrue trivial
  | .null, _ => .isFalse id

/-- Only the length of a key matters. -/
theorem takesKey_congr {algo : SrtpEncryption} {k k' : Octets} (h : k'.length = k.length) :
    TakesKey algo k' ↔ TakesKey algo k := by
  unfold TakesKey
  rw [h]

/-- A key that the cipher takes is its new key. -/
theorem setNewKey_eq (c : SrtpSymCrypto) {k : Octets} (h : TakesKey c.algorithm k) :
    c.setNewKey k = (true, { c with key := some k }) := by
  obtain ⟨algo, key⟩ := c
  cases algo with
  | null => exact absurd h id
  | aesCM => exact if_pos h
  | aesF8 => exact if_pos h
  | twoCM => rfl
  | twoF8 => rfl

/-- Setting a key keeps the algorithm. -/
theorem algorithm_setNewKey (c : SrtpSymCrypto) (k : Octets) :
    (c.setNewKey k).2.algorithm = c.algorithm := by
  obtain ⟨algo, key⟩ := c
  cases algo with
  | null => rfl
  | aesCM => simp only [setNewKey]; split_ifs <;> rfl
  | aesF8 => simp only [setNewKey]; split_ifs <;> rfl
  | twoCM => rfl
  | twoF8 => rfl

/-- Setting a key never looks at the key before. -/
theorem setNewKey_replace (c : SrtpSymCrypto) (halg : c.algorithm ≠ .null) (key : Option Octets)
    (k : Octets) : setNewKey { c with key := key } k = c.setNewKey k := by
  obtain ⟨algo, key'⟩ := c
  cases algo with
  | null => exact absurd rfl halg
  | aesCM => rfl
  | aesF8 => rfl
  | twoCM => rfl
  | twoF8 => rfl

end SrtpSymCrypto

namespace KeyMaterial

variable (P : Primitives)

/-- **The session keys of `m'` are the ones derived from `K` and `S`**: the encryption key
in the cipher and, masked with the salt, in the F8 cipher, the authentication key in the MAC
object, and the salt.  `m` tells the lengths and objects there were before. -/
structure Installed (iv : KeyLabel → Octets → Block) (algo : SrtpEncryption) (K S : Octets)
    (m m' : KeyMaterial) : Prop where
  cipher : m'.cipher = m.cipher.map (fun c =>
    (c.setNewKey (sessionKey P algo K (iv .encryption S) m.kE.length)).2)
  mac : m'.macCtx = m.newMac (sessionKey P algo K (iv .authentication S) m.kA.length)
  salt : m'.kS = sessionKey P algo K (iv .salt S) m.kS.length
  f8Cipher : m'.f8Cipher = m.f8Cipher.map (fun f8 =>
    f8.f8DeriveForIV (sessionKey P algo K (iv .encryption S) m.kE.length)
      (sessionKey P algo K (iv .salt S) m.kS.length))

/-- The session keys are short enough for the block counter. -/
def Short (m : KeyMaterial) : Prop :=
  m.kE.length < 2 ^ 20 ∧ m.kA.length < 2 ^ 20 ∧ m.kS.length < 2 ^ 20

variable {P} {m : KeyMaterial}

/-- **A derivation** installs the session keys of what the context holds as master key and
master salt, and leaves zeros in their place. -/
theorem derive_eq {c : SrtpSymCrypto} (hc : m.cipher = some c)
    (hkey : SrtpSymCrypto.TakesKey c.algorithm m.masterKey) (hshort : m.Short)
    (iv : KeyLabel → Octets → Block) :
    ∃ m', m.derive P iv = some m' ∧ m.Installed P iv c.algorithm m.masterKey m.masterSalt m' ∧
      m'.masterKey = cleared m.masterKey ∧ m'.masterSalt = cleared m.masterSalt ∧
      m'.kE.length = m.kE.length ∧ m'.kA.length = m.kA.length ∧ m'.kS.length = m.kS.length := by
  obtain ⟨hE, hA, hS⟩ := hshort
  have halg : c.algorithm ≠ .null := by
    intro h
    rw [h] at hkey
    exact hkey
  -- with the master key in it the cipher gives `sessionKey`
  have hstream : ∀ (buf : Octets) (block : Block), buf.length < 2 ^ 20 →
      SrtpSymCrypto.getCtrCipherStream P { c with key := some m.masterKey } buf block
        = some (sessionKey P c.algorithm m.masterKey block buf.length) := by
    intro buf block hlt
    exact SrtpSymCrypto.getCtrCipherStream_eq_some P { c with key := some m.masterKey } rfl buf
      block hlt
  have hclear : ∀ (block : Block) (n : ℕ),
      (cleared (sessionKey P c.algorithm m.masterKey block n)).length = n := by
    intro block n
    rw [cleared, List.length_replicate, length_sessionKey]
  rw [derive, hc, Option.bind_some]
  simp only [c.setNewKey_eq hkey, hstream _ _ hE, hstream _ _ hA, hstream _ _ hS,
    Option.bind_some, Option.map_some, c.setNewKey_replace halg]
  refine ⟨_, rfl, ⟨?_, rfl, rfl, rfl⟩, rfl, rfl, hclear _ _, hclear _ _,
    length_sessionKey _ _ _ _ _⟩
  rw [hc]
  rfl

end KeyMaterial

/-! ## Runs of derivations and clones -/

/-- The parameters of an active context, as the constructors document them: a master key
that the cipher takes, and session keys below `2^20` octets. -/
structure KeyPolicy where
  ealg : SrtpEncryption
  aalg : SrtpAuthentication
  masterKey : Octets
  masterSalt : Octets
  ekeyl : ℕ
  akeyl : ℕ
  skeyl : ℕ
  tagLength : ℕ
  takesKey : SrtpSymCrypto.TakesKey ealg masterKey
  ekeyl_lt : ekeyl < 2 ^ 20
  akeyl_lt : akeyl < 2 ^ 20
  skeyl_lt : skeyl < 2 ^ 20
  tagLength_le : tagLength ≤ 20

namespace KeyPolicy

variable (p : KeyPolicy)

/-- The SRTP context with these parameters. -/
def context (ssrc roc : BitVec 32) (keyDerivRate : BitVec 64) : CryptoContext :=
  CryptoContext.new ssrc roc keyDerivRate p.ealg p.aalg p.masterKey p.masterSalt p.ekeyl p.akeyl
    p.skeyl p.tagLength p.tagLength_le

/-- The SRTCP context with these parameters. -/
def contextCtrl (ssrc sL : BitVec 32) : CryptoContextCtrl :=
  CryptoContextCtrl.new ssrc sL p.ealg p.aalg p.masterKey p.masterSalt p.ekeyl p.akeyl p.skeyl
    p.tagLength p.tagLength_le

/-- The algorithm of the cipher object that the session keys are derived with. -/
def cipherAlgorithm : SrtpEncryption :=
  match p.ealg with
  | .null => .null
  | .twoCM | .twoF8 => .twoCM
  | .aesCM | .aesF8 => .aesCM

theorem active : p.ealg ≠ .null := by
  intro h
  have htakes := p.takesKey
  rw [h] at htakes
  exact htakes

theorem newCipher_eq : newCipher p.ealg = some (SrtpSymCrypto.new p.cipherAlgorithm) := by
  have hactive := p.active
  unfold newCipher cipherAlgorithm
  cases h : p.ealg with
  | null => exact absurd h hactive
  | aesCM => rfl
  | aesF8 => rfl
  | twoCM => rfl
  | twoF8 => rfl

theorem takesKey_cipherAlgorithm : SrtpSymCrypto.TakesKey p.cipherAlgorithm p.masterKey := by
  have htakes := p.takesKey
  unfold cipherAlgorithm
  cases h : p.ealg with
  | null => exact absurd h p.active
  | aesCM => rw [h] at htakes; exact htakes
  | aesF8 => rw [h] at htakes; exact htakes
  | twoCM => trivial
  | twoF8 => trivial

end KeyPolicy

@[simp] theorem cleared_cleared (buf : Octets) : cleared (cleared buf) = cleared buf := by
  rw [cleared, cleared, List.length_replicate]

/-- What is left of a secret. -/
def remains (spent : Bool) (secret : Octets) : Octets := if spent then cleared secret else secret

theorem cleared_remains (spent : Bool) (secret : Octets) :
    cleared (remains spent secret) = cleared secret := by
  cases spent with
  | false => rfl
  | true => exact cleared_cleared secret

theorem length_remains (spent : Bool) (secret : Octets) :
    (remains spent secret).length = secret.length := by
  cases spent with
  | false => rfl
  | true => exact List.length_replicate

/-- **The invariant of a context**: it holds the master secret, or zeros once the secret is
spent, and its objects and buffers are those of the policy. -/
structure HoldsSecret (p : KeyPolicy) (spent : Bool) (m : KeyMaterial) : Prop where
  masterKey : m.masterKey = remains spent p.masterKey
  masterSalt : m.masterSalt = remains spent p.masterSalt
  cipher : ∃ c, m.cipher = some c ∧ c.algorithm = p.cipherAlgorithm
  short : m.Short

namespace HoldsSecret

variable {P : Primitives} {p : KeyPolicy} {spent : Bool} {m : KeyMaterial}

/-- **A derivation** installs keys derived from what is left of the master secret, and
spends it. -/
theorem derive (h : HoldsSecret p spent m) (iv : KeyLabel → Octets → Block) :
    ∃ m', m.derive P iv = some m' ∧
      m.Installed P iv p.cipherAlgorithm (remains spent p.masterKey) (remains spent p.masterSalt)
        m' ∧ HoldsSecret p true m' := by
  obtain ⟨c, hc, halg⟩ := h.cipher
  have hkey : SrtpSymCrypto.TakesKey c.algorithm m.masterKey := by
    rw [halg, h.masterKey, SrtpSymCrypto.takesKey_congr (length_remains spent p.masterKey)]
    exact p.takesKey_cipherAlgorithm
  obtain ⟨m', hm', hinst, hmk, hms, hE, hA, hS⟩ := KeyMaterial.derive_eq (P := P) hc hkey
    h.short iv
  rw [halg, h.masterKey, h.masterSalt] at hinst
  refine ⟨m', hm', hinst, ⟨?_, ?_, ?_, ?_⟩⟩
  · rw [hmk, h.masterKey, cleared_remains]
    rfl
  · rw [hms, h.masterSalt, cleared_remains]
    rfl
  · -- `setNewKey` leaves the algorithm of the object
    refine ⟨_, hinst.cipher.trans (by rw [hc]; rfl), ?_⟩
    rw [SrtpSymCrypto.algorithm_setNewKey, halg]
  · rw [KeyMaterial.Short, hE, hA, hS]
    exact h.short

end HoldsSecret

theorem length_keyBuffer_lt {used : Bool} {len n : ℕ} (h : len < n) :
    (keyBuffer used len).length < n := by
  unfold keyBuffer
  split_ifs
  · rw [List.length_replicate]
    exact h
  · exact Nat.zero_lt_of_lt h

section

variable (P : Primitives) (p : KeyPolicy)

/-- The derivation call on the context returns with the session keys derived from `K` and
`S` installed. -/
def CryptoContext.DerivesFrom (K S : Octets) (t : Tracked CryptoContext) (index : BitVec 64) :
    Prop :=
  ∃ ctx', t.obj.deriveSrtpKeys P index = some ctx' ∧
    t.obj.material.Installed P (fun label => computeIv label.srtp index t.obj.keyDerivRate)
      p.cipherAlgorithm K S ctx'.material

/-- The same for an SRTCP context. -/
def CryptoContextCtrl.DerivesFrom (K S : Octets) (t : Tracked CryptoContextCtrl) (_ : Unit) :
    Prop :=
  ∃ ctx', t.obj.deriveSrtcpKeys P = some ctx' ∧
    t.obj.material.Installed P (fun label => computeIv label.srtcp) p.cipherAlgorithm K S
      ctx'.material

/-- Derivations and clones of SRTP contexts; a clone is given its SSRC, rollover counter
and derivation rate. -/
def CryptoContext.keyStep : List (Tracked CryptoContext) →
    PoolCall (BitVec 64) (BitVec 32 × BitVec 32 × BitVec 64) → List (Tracked CryptoContext) :=
  poolStep (fun ctx index => ctx.deriveSrtpKeys P index)
    (fun ctx n => ctx.newCryptoContextForSSRC n.1 n.2.1 n.2.2)

/-- Derivations and clones of SRTCP contexts; a clone is given its SSRC and what its memory
holds as `s_l`. -/
def CryptoContextCtrl.keyStep : List (Tracked CryptoContextCtrl) →
    PoolCall Unit (BitVec 32 × BitVec 32) → List (Tracked CryptoContextCtrl) :=
  poolStep (fun ctx _ => ctx.deriveSrtcpKeys P) (fun ctx n => ctx.newCryptoContextForSSRC n.1 n.2)

variable {P p}

/-- The context follows the policy. -/
structure CryptoContext.Follows (p : KeyPolicy) (t : Tracked CryptoContext) : Prop where
  secret : HoldsSecret p t.spent t.obj.material
  ealg : t.obj.ealg = p.ealg
  ekeyl : t.obj.ekeyl = p.ekeyl
  akeyl : t.obj.akeyl = p.akeyl
  skeyl : t.obj.skeyl = p.skeyl

namespace CryptoContext.Follows

variable {t : Tracked CryptoContext}

/-- A new context that is given what is left of the secret follows the policy. -/
theorem new (spent : Bool) (ssrc roc : BitVec 32) (rate : BitVec 64) (aalg : SrtpAuthentication)
    {tagLength : ℕ} (htag : tagLength ≤ 20) :
    Follows p ⟨CryptoContext.new ssrc roc rate p.ealg aalg (remains spent p.masterKey)
      (remains spent p.masterSalt) p.ekeyl p.akeyl p.skeyl tagLength htag, spent⟩ := by
  refine ⟨⟨rfl, rfl, ⟨_, p.newCipher_eq, rfl⟩, ?_⟩, rfl, rfl, rfl, rfl⟩
  exact ⟨length_keyBuffer_lt p.ekeyl_lt, length_keyBuffer_lt p.akeyl_lt,
    length_keyBuffer_lt p.skeyl_lt⟩

/-- So does a clone. -/
theorem clone (h : Follows p t) (ssrc roc : BitVec 32) (rate : BitVec 64) :
    Follows p ⟨t.obj.newCryptoContextForSSRC ssrc roc rate, t.spent⟩ := by
  have hkey : t.obj.masterKey = remains t.spent p.masterKey := h.secret.masterKey
  have hsalt : t.obj.masterSalt = remains t.spent p.masterSalt := h.secret.masterSalt
  have hnew := Follows.new (p := p) t.spent ssrc roc rate t.obj.aalg t.obj.tagLength_le
  rw [newCryptoContextForSSRC, hkey, hsalt]
  simp only [h.ealg, h.ekeyl, h.akeyl, h.skeyl]
  exact hnew

/-- A derivation installs keys from what is left of the secret, and the context follows the
policy with the secret spent. -/
theorem deriveSrtpKeys (h : Follows p t) (index : BitVec 64) :
    ∃ ctx', t.obj.deriveSrtpKeys P index = some ctx' ∧
      t.obj.material.Installed P (fun label => computeIv label.srtp index t.obj.keyDerivRate)
        p.cipherAlgorithm (remains t.spent p.masterKey) (remains t.spent p.masterSalt)
        ctx'.material ∧ Follows p ⟨ctx', true⟩ := by
  obtain ⟨m', hm', hinst, hsecret⟩ := h.secret.derive (P := P)
    (fun label => computeIv label.srtp index t.obj.keyDerivRate)
  refine ⟨_, by rw [CryptoContext.deriveSrtpKeys, hm']; rfl, ?_, ?_⟩
  · exact ⟨hinst.cipher, hinst.mac, hinst.salt, hinst.f8Cipher⟩
  · refine ⟨?_, h.ealg, h.ekeyl, h.akeyl, h.skeyl⟩
    exact ⟨hsecret.masterKey, hsecret.masterSalt, hsecret.cipher, hsecret.short⟩

end CryptoContext.Follows

/-- The SRTCP context follows the policy. -/
structure CryptoContextCtrl.Follows (p : KeyPolicy) (t : Tracked CryptoContextCtrl) : Prop where
  secret : HoldsSecret p t.spent t.obj.material
  ealg : t.obj.ealg = p.ealg
  ekeyl : t.obj.ekeyl = p.ekeyl
  akeyl : t.obj.akeyl = p.akeyl
  skeyl : t.obj.skeyl = p.skeyl

namespace CryptoContextCtrl.Follows

variable {t : Tracked CryptoContextCtrl}

/-- A new context that is given what is left of the secret follows the policy. -/
theorem new (spent : Bool) (ssrc sL : BitVec 32) (aalg : SrtpAuthentication) {tagLength : ℕ}
    (htag : tagLength ≤ 20) :
    Follows p ⟨CryptoContextCtrl.new ssrc sL p.ealg aalg (remains spent p.masterKey)
      (remains spent p.masterSalt) p.ekeyl p.akeyl p.skeyl tagLength htag, spent⟩ := by
  refine ⟨⟨rfl, rfl, ⟨_, p.newCipher_eq, rfl⟩, ?_⟩, rfl, rfl, rfl, rfl⟩
  exact ⟨length_keyBuffer_lt p.ekeyl_lt, length_keyBuffer_lt p.akeyl_lt,
    length_keyBuffer_lt p.skeyl_lt⟩

/-- So does a clone. -/
theorem clone (h : Follows p t) (ssrc sL : BitVec 32) :
    Follows p ⟨t.obj.newCryptoContextForSSRC ssrc sL, t.spent⟩ := by
  have hkey : t.obj.masterKey = remains t.spent p.masterKey := h.secret.masterKey
  have hsalt : t.obj.masterSalt = remains t.spent p.masterSalt := h.secret.masterSalt
  have hnew := Follows.new (p := p) t.spent ssrc sL t.obj.aalg t.obj.tagLength_le
  rw [newCryptoContextForSSRC, hkey, hsalt]
  simp only [h.ealg, h.ekeyl, h.akeyl, h.skeyl]
  exact hnew

/-- A derivation installs keys from what is left of the secret, and the context follows the
policy with the secret spent. -/
theorem deriveSrtcpKeys (h : Follows p t) :
    ∃ ctx', t.obj.deriveSrtcpKeys P = some ctx' ∧
      t.obj.material.Installed P (fun label => computeIv label.srtcp) p.cipherAlgorithm
        (remains t.spent p.masterKey) (remains t.spent p.masterSalt) ctx'.material ∧
      Follows p ⟨ctx', true⟩ := by
  obtain ⟨m', hm', hinst, hsecret⟩ := h.secret.derive (P := P) (fun label => computeIv label.srtcp)
  refine ⟨_, by rw [CryptoContextCtrl.deriveSrtcpKeys, hm']; rfl, ?_, ?_⟩
  · exact ⟨hinst.cipher, hinst.mac, hinst.salt, hinst.f8Cipher⟩
  · refine ⟨?_, h.ealg, h.ekeyl, h.akeyl, h.skeyl⟩
    exact ⟨hsecret.masterKey, hsecret.masterSalt, hsecret.cipher, hsecret.short⟩

end CryptoContextCtrl.Follows

/-- **Every derivation of a run** takes what is left of the secret: the master key and salt
of the policy, or zeros. -/
theorem CryptoContext.alongRun_derivesFrom (ssrc roc : BitVec 32) (rate : BitVec 64)
    (calls : List (PoolCall (BitVec 64) (BitVec 32 × BitVec 32 × BitVec 64))) :
    AlongRun (keyStep P) (OnUse (fun t index => DerivesFrom P p (remains t.spent p.masterKey)
      (remains t.spent p.masterSalt) t index)) [⟨p.context ssrc roc rate, false⟩] calls := by
  refine alongRun_onUse (Follows p) ?_ ?_ ?_ ?_ calls
  · intro t index c h hc
    obtain ⟨ctx', hctx', -, hfollows⟩ := h.deriveSrtpKeys (P := P) index
    rw [hctx', Option.some_inj] at hc
    rw [← hc]
    exact hfollows
  · intro t n h
    exact h.clone n.1 n.2.1 n.2.2
  · intro t index h
    obtain ⟨ctx', hctx', hinst, -⟩ := h.deriveSrtpKeys (P := P) index
    exact ⟨ctx', hctx', hinst⟩
  · intro t ht
    rw [List.mem_singleton.mp ht]
    exact Follows.new false ssrc roc rate p.aalg p.tagLength_le

/-- The same for SRTCP contexts. -/
theorem CryptoContextCtrl.alongRun_derivesFrom (ssrc sL : BitVec 32)
    (calls : List (PoolCall Unit (BitVec 32 × BitVec 32))) :
    AlongRun (keyStep P) (OnUse (fun t u => DerivesFrom P p (remains t.spent p.masterKey)
      (remains t.spent p.masterSalt) t u)) [⟨p.contextCtrl ssrc sL, false⟩] calls := by
  refine alongRun_onUse (Follows p) ?_ ?_ ?_ ?_ calls
  · intro t _ c h hc
    obtain ⟨ctx', hctx', -, hfollows⟩ := h.deriveSrtcpKeys (P := P)
    rw [hctx', Option.some_inj] at hc
    rw [← hc]
    exact hfollows
  · intro t n h
    exact h.clone n.1 n.2
  · intro t _ h
    obtain ⟨ctx', hctx', hinst, -⟩ := h.deriveSrtcpKeys (P := P)
    exact ⟨ctx', hctx', hinst⟩
  · intro t ht
    rw [List.mem_singleton.mp ht]
    exact Follows.new false ssrc sL p.aalg p.tagLength_le

end

/-- **Session keys come from the master secret exactly as long as it is there.**  In every
run of derivations and clones, for SRTP and for SRTCP contexts: if each derivation is made
on a context that was neither derived before nor cloned from a context that had been, then
each one installs the keys derived from the master key and salt of the first context.  A
derivation on any other context installs keys derived from zeros. -/
theorem session_keys_from_master (P : Primitives) (p : KeyPolicy) :
    (∀ (ssrc roc : BitVec 32) (rate : BitVec 64)
        (calls : List (PoolCall (BitVec 64) (BitVec 32 × BitVec 32 × BitVec 64))),
      (AlongRun (CryptoContext.keyStep P) (OnUse (fun t _ => t.spent = false))
          [⟨p.context ssrc roc rate, false⟩] calls →
        AlongRun (CryptoContext.keyStep P)
          (OnUse (CryptoContext.DerivesFrom P p p.masterKey p.masterSalt))
          [⟨p.context ssrc roc rate, false⟩] calls) ∧
      AlongRun (CryptoContext.keyStep P)
        (OnUse (fun t index => t.spent = true →
          CryptoContext.DerivesFrom P p (cleared p.masterKey) (cleared p.masterSalt) t index))
        [⟨p.context ssrc roc rate, false⟩] calls) ∧
    (∀ (ssrc sL : BitVec 32) (calls : List (PoolCall Unit (BitVec 32 × BitVec 32))),
      (AlongRun (CryptoContextCtrl.keyStep P) (OnUse (fun t _ => t.spent = false))
          [⟨p.contextCtrl ssrc sL, false⟩] calls →
        AlongRun (CryptoContextCtrl.keyStep P)
          (OnUse (CryptoContextCtrl.DerivesFrom P p p.masterKey p.masterSalt))
          [⟨p.contextCtrl ssrc sL, false⟩] calls) ∧
      AlongRun (CryptoContextCtrl.keyStep P)
        (OnUse (fun t u => t.spent = true →
          CryptoContextCtrl.DerivesFrom P p (cleared p.masterKey) (cleared p.masterSalt) t u))
        [⟨p.contextCtrl ssrc sL, false⟩] calls) := by
  constructor
  · intro ssrc roc rate calls
    have hall := CryptoContext.alongRun_derivesFrom (P := P) (p := p) ssrc roc rate calls
    constructor
    · refine onUse_of_imp (hall.onUse_mono (fun t index h hunspent => ?_))
      rw [hunspent] at h
      exact h
    · refine hall.onUse_mono (fun t index h hspent => ?_)
      rw [hspent] at h
      exact h
  · intro ssrc sL calls
    have hall := CryptoContextCtrl.alongRun_derivesFrom (P := P) (p := p) ssrc sL calls
    constructor
    · refine onUse_of_imp (hall.onUse_mono (fun t u h hunspent => ?_))
      rw [hunspent] at h
      exact h
    · refine hall.onUse_mono (fun t u h hspent => ?_)
      rw [hspent] at h
      exact h

/-! ## A second derivation -/

/-- The session salt that a derivation call installs. -/
theorem CryptoContext.DerivesFrom.salt {P : Primitives} {p : KeyPolicy} {K S : Octets}
    {t : Tracked CryptoContext} {index : BitVec 64} (h : DerivesFrom P p K S t index) :
    (t.obj.deriveSrtpKeys P index).map (fun ctx => ctx.kS)
      = some (sessionKey P p.cipherAlgorithm K
          (computeIv KeyLabel.salt.srtp index t.obj.keyDerivRate S) t.obj.kS.length) := by
  obtain ⟨ctx', hctx', hinst⟩ := h
  rw [hctx', Option.map_some, Option.some_inj]
  exact hinst.salt

/-- AES in counter mode and HMAC-SHA1 with a master key of ones and a master salt of
twos. -/
def KeyPolicy.sample : KeyPolicy where
  ealg := .aesCM
  aalg := .sha1Hmac
  masterKey := List.replicate 16 1
  masterSalt := List.replicate 14 2
  ekeyl := 16
  akeyl := 20
  skeyl := 14
  tagLength := 10
  takesKey := by decide
  ekeyl_lt := by decide
  akeyl_lt := by decide
  skeyl_lt := by decide
  tagLength_le := demoTagLength_le

/-- The theorem at a context and its clone, neither of which has been derived before. -/
theorem session_keys_from_master_cloned :
    AlongRun (CryptoContext.keyStep .additive)
        (OnUse (CryptoContext.DerivesFrom .additive .sample KeyPolicy.sample.masterKey
          KeyPolicy.sample.masterSalt))
        [⟨KeyPolicy.sample.context 0x1122 0 0, false⟩]
        [.clone 0 (0x3344, 0, 0), .use 1 0, .use 0 0] ∧
      AlongRun (CryptoContextCtrl.keyStep .additive)
        (OnUse (CryptoContextCtrl.DerivesFrom .additive .sample KeyPolicy.sample.masterKey
          KeyPolicy.sample.masterSalt))
        [⟨KeyPolicy.sample.contextCtrl 0x1122 0, false⟩]
        [.clone 0 (0x3344, 0), .use 1 (), .use 0 ()] := by
  obtain ⟨hsrtp, hsrtcp⟩ := session_keys_from_master .additive .sample
  exact ⟨(hsrtp 0x1122 0 0 _).1 (by decide), (hsrtcp 0x1122 0 _).1 (by decide)⟩

/-- **A second derivation, and a clone of a derived context, do not use the master
secret.** -/
theorem rederived_keys_not_from_master :
    ¬ AlongRun (CryptoContext.keyStep .additive)
        (OnUse (CryptoContext.DerivesFrom .additive .sample KeyPolicy.sample.masterKey
          KeyPolicy.sample.masterSalt))
        [⟨KeyPolicy.sample.context 0x1122 0 0, false⟩] [.use 0 0, .use 0 0] ∧
      ¬ AlongRun (CryptoContext.keyStep .additive)
        (OnUse (CryptoContext.DerivesFrom .additive .sample KeyPolicy.sample.masterKey
          KeyPolicy.sample.masterSalt))
        [⟨KeyPolicy.sample.context 0x1122 0 0, false⟩]
        [.use 0 0, .clone 0 (0x3344, 0, 0), .use 1 0] := by
  set ctx := KeyPolicy.sample.context 0x1122 0 0 with hctx
  set derived := (ctx.deriveSrtpKeys .additive 0).getD ctx with hderived
  constructor
  · rintro ⟨-, hsecond, -⟩
    have hsalt := (hsecond ⟨derived, true⟩ (by decide)).salt
    exact absurd hsalt (by decide)
  · rintro ⟨-, -, hclone, -⟩
    have hsalt := (hclone ⟨derived.newCryptoContextForSSRC 0x3344 0 0, true⟩
      (by decide)).salt
    exact absurd hsalt (by decide)
