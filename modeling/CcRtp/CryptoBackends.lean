/-
# The two builds of `SrtpSymCrypto`

`SrtpSymCrypto` is implemented twice, over libgcrypt
(`src/ccrtp/crypto/gcrypt/gcryptSrtpSymCrypto.cpp`) and over OpenSSL
(`src/ccrtp/crypto/openssl/SrtpSymCrypto.cpp`).  The routines for counter mode and F8 mode
are the same text in both files.  The builds differ in `setNewKey` and in `encrypt`:

* OpenSSL refuses keys of 24 octets for Twofish too;
* OpenSSL releases the old key before it looks at the length of the new one, and a key that
  is refused leaves the pointer to released memory behind;
* OpenSSL does not ask whether there is a key before it encrypts a block.

A call may return, run for ever, or be undefined: that is the use of a null pointer or of
released memory.  A run makes calls on several objects, since `f8_encrypt` is given a second
one.

* `ctrEncryptBy_gcrypt`, `getCtrCipherStreamBy_gcrypt`, `f8EncryptBy_gcrypt` : with a key, the
  routines are those of `SymCrypto`;
* `crypto_backends_agree_iff` : along which runs the builds agree.
-/
import CcRtp.SymCrypto
import CcRtp.AlongRun

/-- How a call ends. -/
inductive Outcome (α : Type*) where
  | returned (a : α)
  | neverReturns
  | undefined
  deriving DecidableEq

namespace Outcome

variable {α β : Type*}

/-- What comes behind a call is done if it returns. -/
def bind : Outcome α → (α → Outcome β) → Outcome β
  | returned a, f => f a
  | neverReturns, _ => neverReturns
  | undefined, _ => undefined

def map (f : α → β) (x : Outcome α) : Outcome β := x.bind (fun a => returned (f a))

@[simp] theorem bind_returned (a : α) (f : α → Outcome β) : (returned a).bind f = f a := rfl

@[simp] theorem bind_undefined (f : α → Outcome β) : (undefined : Outcome α).bind f = undefined :=
  rfl

@[simp] theorem map_returned (f : α → β) (a : α) : (returned a).map f = returned (f a) := rfl

@[simp] theorem map_undefined (f : α → β) : (undefined : Outcome α).map f = undefined := rfl

/-- Two functions of a result, one after the other. -/
theorem map_map {γ : Type*} (f : α → β) (g : β → γ) (x : Outcome α) :
    (x.map f).map g = x.map (fun a => g (f a)) := by
  cases x <;> rfl

/-- An injective function of a result loses nothing of the outcome. -/
theorem map_injective {f : α → β} (hf : Function.Injective f) :
    Function.Injective (Outcome.map f) := by
  intro x y h
  cases x with
  | returned a =>
      cases y with
      | returned b =>
          rw [map_returned, map_returned, returned.injEq] at h
          rw [hf h]
      | neverReturns => cases h
      | undefined => cases h
  | neverReturns => cases y <;> first | rfl | cases h
  | undefined => cases y <;> first | rfl | cases h

@[simp] theorem returned_ne_undefined (a : α) : returned a ≠ undefined := nofun

@[simp] theorem neverReturns_ne_undefined : (neverReturns : Outcome α) ≠ undefined := nofun

/-- Steps that are defined are defined one after the other. -/
theorem bind_ne_undefined {x : Outcome α} {f : α → Outcome β} (hx : x ≠ undefined)
    (hf : ∀ a, f a ≠ undefined) : x.bind f ≠ undefined := by
  cases x with
  | returned a => exact hf a
  | neverReturns => exact neverReturns_ne_undefined
  | undefined => exact absurd rfl hx

/-- A function of a result adds no undefined behaviour. -/
theorem map_ne_undefined {x : Outcome α} (f : α → β) (hx : x ≠ undefined) :
    x.map f ≠ undefined :=
  bind_ne_undefined hx (fun _ => returned_ne_undefined _)

/-- A call that returns, or runs for ever. -/
def ofOption : Option α → Outcome α
  | some a => returned a
  | none => neverReturns

end Outcome

/-- `for (; ctr < l; ctr++) body`, with a body that may not return. -/
def countUpOutcome {σ : Type*} {w : ℕ} (l : ℕ) (body : BitVec w → σ → Outcome σ) :
    ℕ → BitVec w → σ → Outcome (BitVec w × σ)
  | 0, _, _ => .neverReturns
  | rounds + 1, ctr, s =>
      if ctr.toNat < l then (body ctr s).bind (countUpOutcome l body rounds (ctr + 1))
      else .returned (ctr, s)

/-- A counting loop is defined if its body is. -/
theorem countUpOutcome_ne_undefined {σ : Type*} {w l : ℕ} {body : BitVec w → σ → Outcome σ}
    (hbody : ∀ ctr s, body ctr s ≠ .undefined) (rounds : ℕ) :
    ∀ ctr s, countUpOutcome l body rounds ctr s ≠ .undefined := by
  induction rounds with
  | zero => exact fun _ _ => Outcome.neverReturns_ne_undefined
  | succ rounds ih =>
      intro ctr s
      rw [countUpOutcome]
      split_ifs
      · exact Outcome.bind_ne_undefined (hbody ctr s) (ih (ctr + 1))
      · exact Outcome.returned_ne_undefined _

/-! ## The routines that the builds share

Each is given what the build makes of `key == NULL` and of `encrypt`, and the octets that
its local buffer holds before it is written. -/

section Routines

variable (isNull : Bool) (encrypt : Block → Block → Outcome Block)

/-- A round of the loop of `ctr_encrypt`: the output so far, `temp`, and the data to come. -/
def ctrEncryptRound (iv : Block) (ctr : BitVec 16) (s : Octets × Block × Octets) :
    Outcome (Octets × Block × Octets) :=
  (encrypt (setCounter iv ctr) s.2.1).map (fun temp =>
    (s.1 ++ xorOctets (s.2.2.take 16) temp.toOctets, temp, s.2.2.drop 16))

/-- `ctr_encrypt`, into a buffer that holds `output` before.  In place, that is the input. -/
def ctrEncryptBy (temp : Block) (input output : Octets) (iv : Block) : Outcome Octets :=
  if isNull then .returned output
  else
    (countUpOutcome (input.length / 16) (ctrEncryptRound encrypt iv) (2 ^ 16) 0
      ([], temp, input)).bind (fun r =>
        if 0 < input.length % 16 then
          (encrypt (setCounter iv r.1) r.2.2.1).map (fun temp =>
            r.2.1 ++ xorOctets r.2.2.2 temp.toOctets)
        else .returned r.2.1)

/-- A round of the loop of `get_ctr_cipher_stream`: the octets that are written, and the
output buffer behind them. -/
def cipherStreamRound (iv : Block) (ctr : BitVec 16) (s : Octets × Octets) :
    Outcome (Octets × Octets) :=
  (encrypt (setCounter iv ctr) (Block.ofOctets (s.2.take 16))).map (fun block =>
    (s.1 ++ block.toOctets, s.2.drop 16))

/-- `get_ctr_cipher_stream`; there is no test for a key here. -/
def getCtrCipherStreamBy (temp : Block) (output : Octets) (iv : Block) : Outcome Octets :=
  (countUpOutcome (output.length / 16) (cipherStreamRound encrypt iv) (2 ^ 16) 0
    ([], output)).bind (fun r =>
      if 0 < output.length % 16 then
        (encrypt (setCounter iv r.1) temp).map (fun temp =>
          r.2.1 ++ temp.toOctets.take (output.length % 16))
      else .returned r.2.1)

/-- `processBlock`, which encrypts the key stream block in place. -/
def processBlockBy (ivAccent S : Block) (J : BitVec 32) (input : Octets) :
    Outcome (Octets × Block) :=
  (encrypt (f8Next id ivAccent S J) (f8Next id ivAccent S J)).map (fun S =>
    (xorOctets input S.toOctets, S))

/-- The loop of `f8_encrypt` over `n` whole blocks, and the rest after it. -/
def f8LoopBy (ivAccent : Block) : ℕ → Block → BitVec 32 → Octets → Outcome Octets
  | 0, S, J, data =>
      if data = [] then .returned [] else (processBlockBy encrypt ivAccent S J data).map Prod.fst
  | n + 1, S, J, data =>
      (processBlockBy encrypt ivAccent S J (data.take 16)).bind (fun r =>
        (f8LoopBy ivAccent n r.2 (J + 1) (data.drop 16)).map (r.1 ++ ·))

/-- `f8_encrypt`, with the `encrypt` of the second object. -/
def f8EncryptBy (f8CipherEncrypt : Block → Block → Outcome Block) (ivAccent : Block)
    (input output : Octets) (iv : Block) : Outcome Octets :=
  if isNull then .returned output
  else
    (f8CipherEncrypt iv ivAccent).bind (fun ivAccent =>
      f8LoopBy encrypt ivAccent (input.length / 16) (fun _ => 0) 0 input)

variable {encrypt}

/-- A block call that does not go wrong makes no key stream that does. -/
theorem getCtrCipherStreamBy_ne_undefined (henc : ∀ i o, encrypt i o ≠ .undefined) (temp : Block)
    (output : Octets) (iv : Block) : getCtrCipherStreamBy encrypt temp output iv ≠ .undefined := by
  apply Outcome.bind_ne_undefined
  · apply countUpOutcome_ne_undefined
    exact fun ctr s => Outcome.map_ne_undefined _ (henc _ _)
  · intro r
    split_ifs
    · exact Outcome.map_ne_undefined _ (henc _ _)
    · exact Outcome.returned_ne_undefined _

/-- A block call that goes wrong makes no key stream, unless none is asked for. -/
theorem getCtrCipherStreamBy_undefined (henc : ∀ i o, encrypt i o = .undefined) (temp : Block)
    {output : Octets} (hout : output ≠ []) (iv : Block) :
    getCtrCipherStreamBy encrypt temp output iv = .undefined := by
  have hpos : 0 < output.length := List.length_pos_iff.mpr hout
  rw [getCtrCipherStreamBy, show 2 ^ 16 = (2 ^ 16 - 1) + 1 from rfl, countUpOutcome]
  by_cases hl : (0 : BitVec 16).toNat < output.length / 16
  · rw [if_pos hl, cipherStreamRound, henc]
    rfl
  · have hrest : 0 < output.length % 16 := by
      change ¬ 0 < output.length / 16 at hl
      omega
    rw [if_neg hl, Outcome.bind_returned, if_pos hrest, henc]
    rfl

/-- No octets are asked for, and none are put out. -/
theorem getCtrCipherStreamBy_nil (encrypt : Block → Block → Outcome Block) (temp iv : Block) :
    getCtrCipherStreamBy encrypt temp [] iv = .returned [] := rfl

/-- The F8 loop is defined if the block cipher is. -/
theorem f8LoopBy_ne_undefined (henc : ∀ i o, encrypt i o ≠ .undefined) (ivAccent : Block) (n : ℕ) :
    ∀ S J data, f8LoopBy encrypt ivAccent n S J data ≠ .undefined := by
  induction n with
  | zero =>
      intro S J data
      rw [f8LoopBy]
      split_ifs
      · exact Outcome.returned_ne_undefined _
      · exact Outcome.map_ne_undefined _ (Outcome.map_ne_undefined _ (henc _ _))
  | succ n ih =>
      intro S J data
      exact Outcome.bind_ne_undefined (Outcome.map_ne_undefined _ (henc _ _))
        (fun r => Outcome.map_ne_undefined _ (ih _ _ _))

end Routines

/-! ## The builds -/

/-- What the builds do differently: the test for a key, `encrypt` and `setNewKey`. -/
structure Build (κ : Type) where
  isNull : κ → Bool
  encrypt : κ → Block → Block → Outcome Block
  setNewKey : κ → Octets → Outcome (Bool × κ)

/-- The build over libgcrypt. -/
def gcryptBuild (P : Primitives) : Build SrtpSymCrypto where
  isNull := fun c => c.key.isNone
  encrypt := fun c input output => .returned (c.encrypt P input output)
  setNewKey := fun c k => .returned (c.setNewKey k)

/-- The member `key` of the build over OpenSSL. -/
inductive KeyPointer : Type where
  | null
  | live (k : Octets)
  | dangling
  deriving DecidableEq

/-- `SrtpSymCrypto` of the build over OpenSSL. -/
structure OpenSSLSymCrypto where
  algorithm : SrtpEncryption
  key : KeyPointer
  deriving DecidableEq

namespace OpenSSLSymCrypto

/-- `SrtpSymCrypto(int algo)` -/
def new (algo : SrtpEncryption) : OpenSSLSymCrypto := ⟨algo, .null⟩

/-- `delete[] (uint8_t*)key`, if there is a key: the pointer is not reset. -/
def released (c : OpenSSLSymCrypto) : OpenSSLSymCrypto :=
  if c.key = .null then c else { c with key := .dangling }

/-- `setNewKey` -/
def setNewKey (c : OpenSSLSymCrypto) (k : Octets) : Outcome (Bool × OpenSSLSymCrypto) :=
  -- released a second time
  if c.key = .dangling then .undefined
  else if ¬ (k.length = 16 ∨ k.length = 32) then .returned (false, c.released)
  else
    match c.algorithm with
    | .aesCM | .aesF8 | .twoCM | .twoF8 => .returned (true, { c with key := .live k })
    | .null => .returned (false, c.released)

/-- `encrypt(input, output)`: `AES_encrypt` and `Twofish_encrypt` read the key they are given. -/
def encrypt (P : Primitives) (c : OpenSSLSymCrypto) (input output : Block) : Outcome Block :=
  match c.algorithm with
  | .aesCM | .aesF8 =>
      match c.key with
      | .live k => .returned (P.aes k input)
      | _ => .undefined
  | .twoCM | .twoF8 =>
      match c.key with
      | .live k => .returned (P.twofish k input)
      | _ => .undefined
  | .null => .returned output

end OpenSSLSymCrypto

/-- The build over OpenSSL. -/
def opensslBuild (P : Primitives) : Build OpenSSLSymCrypto where
  isNull := fun c => c.key = .null
  encrypt := OpenSSLSymCrypto.encrypt P
  setNewKey := OpenSSLSymCrypto.setNewKey

/-! ## Calls -/

/-- The calls on the objects `ι`; keys have the documented lengths.  `buffer` is what the local
buffer of the routine holds before. -/
inductive CryptoCall (ι : Type) where
  | setNewKey (i : ι) (k : Octets) (h : k.length = 16 ∨ k.length = 24 ∨ k.length = 32)
  | getCtrCipherStream (i : ι) (buffer : Block) (output : Octets) (iv : Block)
  | ctrEncrypt (i : ι) (buffer : Block) (input output : Octets) (iv : Block)
  | f8Encrypt (i f8Cipher : ι) (buffer : Block) (input output : Octets) (iv : Block)

/-- What a call gives back. -/
inductive CryptoAnswer : Type where
  | flag (b : Bool)
  | octets (o : Octets)
  deriving DecidableEq

variable {ι : Type} [DecidableEq ι] {κ : Type}

/-- A call on the objects of a build. -/
def Build.call (B : Build κ) (s : ι → κ) : CryptoCall ι → Outcome (CryptoAnswer × (ι → κ))
  | .setNewKey i k _ =>
      (B.setNewKey (s i) k).map (fun r => (.flag r.1, Function.update s i r.2))
  | .getCtrCipherStream i buffer output iv =>
      (getCtrCipherStreamBy (B.encrypt (s i)) buffer output iv).map (fun o => (.octets o, s))
  | .ctrEncrypt i buffer input output iv =>
      (ctrEncryptBy (B.isNull (s i)) (B.encrypt (s i)) buffer input output iv).map
        (fun o => (.octets o, s))
  | .f8Encrypt i f8Cipher buffer input output iv =>
      (f8EncryptBy (B.isNull (s i)) (B.encrypt (s i)) (B.encrypt (s f8Cipher)) buffer input output
        iv).map (fun o => (.octets o, s))

/-! ## With a key, the routines are those of `SymCrypto` -/

/-- Two loops whose bodies keep their states related: the second runs as the first does. -/
theorem countUpOutcome_of_countUp {σ τ : Type*} {w l : ℕ} {body : BitVec w → σ → σ}
    {body' : BitVec w → τ → Outcome τ} (R : σ → τ → Prop)
    (hbody : ∀ ctr s t, R s t → ∃ t', body' ctr t = .returned t' ∧ R (body ctr s) t') (rounds : ℕ) :
    ∀ (ctr : BitVec w) (s : σ) (t : τ), R s t →
      (countUp l body rounds ctr s = none ∧ countUpOutcome l body' rounds ctr t = .neverReturns) ∨
      ∃ c s' t', countUp l body rounds ctr s = some (c, s') ∧
        countUpOutcome l body' rounds ctr t = .returned (c, t') ∧ R s' t' := by
  induction rounds with
  | zero =>
      intro ctr s t _
      exact Or.inl ⟨rfl, rfl⟩
  | succ rounds ih =>
      intro ctr s t hR
      rw [countUp, countUpOutcome]
      by_cases hl : ctr.toNat < l
      · obtain ⟨t', ht', hR'⟩ := hbody ctr s t hR
        rw [if_pos hl, if_pos hl, ht', Outcome.bind_returned]
        exact ih (ctr + 1) _ _ hR'
      · rw [if_neg hl, if_neg hl]
        exact Or.inr ⟨ctr, s, t, rfl, rfl, hR⟩

section Keyed

variable {P : Primitives} {c : SrtpSymCrypto} {k : Octets} (hk : c.key = some k)
  (halg : c.algorithm ≠ .null)

include hk

/-- With `libgcrypt` there is a cipher once there is a key. -/
theorem gcryptBuild_isNull : (gcryptBuild P).isNull c = false := by
  show c.key.isNone = false
  rw [hk]
  rfl

include halg

/-- The block call of the build over libgcrypt, with a key. -/
theorem gcryptBuild_encrypt (input output : Block) :
    (gcryptBuild P).encrypt c input output
      = .returned (SrtpSymCrypto.blockFn P c.algorithm k input) := by
  show Outcome.returned (c.encrypt P input output) = _
  rw [c.encrypt_keyed P hk halg]

/-- The `libgcrypt` build of `ctr_encrypt` is the one of the model. -/
theorem ctrEncryptBy_gcrypt (temp : Block) (input output : Octets) (iv : Block) :
    ctrEncryptBy ((gcryptBuild P).isNull c) ((gcryptBuild P).encrypt c) temp input output iv
      = .ofOption ((c.ctrEncrypt P input iv).map Prod.fst) := by
  have henc := gcryptBuild_encrypt (P := P) hk halg
  set E := SrtpSymCrypto.blockFn P c.algorithm k with hE
  -- the states agree in the output and in the data to come
  have hround : ∀ (ctr : BitVec 16) (s : Octets × List Block × Octets)
      (t : Octets × Block × Octets),
      (s.1 = t.1 ∧ s.2.2 = t.2.2) →
      ∃ t', ctrEncryptRound ((gcryptBuild P).encrypt c) iv ctr t = .returned t' ∧
        ((SrtpSymCrypto.ctrRound E iv ctr s).1 = t'.1 ∧
          (SrtpSymCrypto.ctrRound E iv ctr s).2.2 = t'.2.2) := by
    rintro ctr ⟨out, blocks, data⟩ ⟨out', temp, data'⟩ ⟨rfl, rfl⟩
    simp only [ctrEncryptRound, henc, Outcome.map_returned]
    exact ⟨_, rfl, rfl, rfl⟩
  rw [ctrEncryptBy, gcryptBuild_isNull hk, if_neg Bool.false_ne_true, SrtpSymCrypto.ctrEncrypt, hk]
  simp only [← hE]
  obtain ⟨hnone, hnever⟩ | ⟨ctr, s, t, hsome, hret, h1, h2⟩ := countUpOutcome_of_countUp
    (l := input.length / 16) _ hround (2 ^ 16) 0 ([], [], input) ([], temp, input) ⟨rfl, rfl⟩
  · rw [hnone, hnever]
    rfl
  · simp only [hsome, hret, Outcome.bind_returned, henc, Outcome.map_returned, ← h1, ← h2]
    split_ifs <;> rfl

/-- The `libgcrypt` build of `get_ctr_cipher_stream` is the one of the model. -/
theorem getCtrCipherStreamBy_gcrypt (temp : Block) (output : Octets) (iv : Block) :
    getCtrCipherStreamBy ((gcryptBuild P).encrypt c) temp output iv
      = .ofOption (c.getCtrCipherStream P output iv) := by
  have henc := gcryptBuild_encrypt (P := P) hk halg
  set E := SrtpSymCrypto.blockFn P c.algorithm k with hE
  have hround : ∀ (ctr : BitVec 16) (s : Octets) (t : Octets × Octets), s = t.1 →
      ∃ t', cipherStreamRound ((gcryptBuild P).encrypt c) iv ctr t = .returned t' ∧
        SrtpSymCrypto.streamRound E iv ctr s = t'.1 := by
    rintro ctr _ ⟨out, rest⟩ rfl
    simp only [cipherStreamRound, henc, Outcome.map_returned]
    exact ⟨_, rfl, rfl⟩
  rw [getCtrCipherStreamBy, SrtpSymCrypto.getCtrCipherStream, hk]
  simp only [← hE]
  obtain ⟨hnone, hnever⟩ | ⟨ctr, s, t, hsome, hret, h⟩ := countUpOutcome_of_countUp
    (l := output.length / 16) _ hround (2 ^ 16) 0 [] ([], output) rfl
  · rw [hnone, hnever]
    rfl
  · simp only [hsome, hret, Outcome.bind_returned, henc, Outcome.map_returned, ← h]
    split_ifs <;> rfl

/-- The `libgcrypt` build of the F8 loop is the one of the model. -/
theorem f8LoopBy_gcrypt (ivAccent : Block) (n : ℕ) :
    ∀ (S : Block) (J : BitVec 32) (data : Octets),
      f8LoopBy ((gcryptBuild P).encrypt c) ivAccent n S J data
        = .returned
          (SrtpSymCrypto.f8Loop (SrtpSymCrypto.blockFn P c.algorithm k) ivAccent n S J data) := by
  have hblock : ∀ S J input, processBlockBy ((gcryptBuild P).encrypt c) ivAccent S J input
      = .returned (SrtpSymCrypto.processBlock (SrtpSymCrypto.blockFn P c.algorithm k) ivAccent S J
          input) := by
    intro S J input
    rw [processBlockBy, gcryptBuild_encrypt hk halg]
    rfl
  induction n with
  | zero =>
      intro S J data
      rw [f8LoopBy, SrtpSymCrypto.f8Loop, hblock]
      split_ifs <;> rfl
  | succ n ih =>
      intro S J data
      rw [f8LoopBy, hblock, Outcome.bind_returned, ih]
      rfl

/-- The `libgcrypt` build of `f8_encrypt` is the one of the model. -/
theorem f8EncryptBy_gcrypt (f8Cipher : SrtpSymCrypto) (input output : Octets) (iv : Block) :
    f8EncryptBy ((gcryptBuild P).isNull c) ((gcryptBuild P).encrypt c)
        ((gcryptBuild P).encrypt f8Cipher) (fun _ => 0) input output iv
      = .returned (c.f8Encrypt P f8Cipher input iv) := by
  rw [f8EncryptBy, gcryptBuild_isNull hk, if_neg Bool.false_ne_true]
  show f8LoopBy _ (f8Cipher.encrypt P iv (fun _ => 0)) _ _ _ _ = _
  rw [f8LoopBy_gcrypt hk halg, SrtpSymCrypto.f8Encrypt, hk]

end Keyed

/-! ## Both builds given the same calls -/

/-- `AES_encrypt` and `AES_set_encrypt_key` are those of OpenSSL; Twofish is compiled into
both builds from the same file. -/
def opensslPrimitives (P : Primitives) (aes : Octets → Block → Block) : Primitives :=
  { P with aes := aes }

section Agreement

variable (P : Primitives) (aes : Octets → Block → Block)

/-- A call on the objects of both builds.  The run ends where one of them does not return. -/
def performBoth (s : (ι → SrtpSymCrypto) × (ι → OpenSSLSymCrypto)) (call : CryptoCall ι) :
    Option ((ι → SrtpSymCrypto) × (ι → OpenSSLSymCrypto)) :=
  match (gcryptBuild P).call s.1 call, (opensslBuild (opensslPrimitives P aes)).call s.2 call with
  | .returned g, .returned o => some (g.2, o.2)
  | _, _ => none

/-- The builds agree on a call: they give the same answer, and where they refuse a key both
have an object without a key then. -/
structure BuildsAgree (s : (ι → SrtpSymCrypto) × (ι → OpenSSLSymCrypto)) (call : CryptoCall ι) :
    Prop where
  answer : ((gcryptBuild P).call s.1 call).map Prod.fst
    = ((opensslBuild (opensslPrimitives P aes)).call s.2 call).map Prod.fst
  refused : ∀ i k h, call = .setNewKey i k h →
    ((gcryptBuild P).call s.1 call).map Prod.fst = .returned (.flag false) →
      ∀ t ∈ performBoth P aes s call,
        t.1 i = .new (s.1 i).algorithm ∧ t.2 i = .new (s.2 i).algorithm

/-- The calls that the builds agree on: keys of 16 or 32 octets, or a key that AES refuses
and no key to lose; no key stream from an object without a key, and no F8 mode with a second
object without a key. -/
def CallSupported (s : ι → SrtpSymCrypto) : CryptoCall ι → Prop
  | .setNewKey i k _ => (k.length = 16 ∨ k.length = 32) ∨
      (s i).key = none ∧ ((s i).algorithm = .aesCM ∨ (s i).algorithm = .aesF8)
  | .getCtrCipherStream i _ output _ => (s i).key ≠ none ∨ output = []
  | .ctrEncrypt _ _ _ _ _ => True
  | .f8Encrypt i f8Cipher _ _ _ _ => (s i).key = none ∨ (s f8Cipher).key ≠ none

/-- The object of the build over OpenSSL with the same key. -/
def OpenSSLSymCrypto.of (c : SrtpSymCrypto) : OpenSSLSymCrypto :=
  ⟨c.algorithm, c.key.elim .null .live⟩

/-- Invariant: the objects have the same keys, and AES has keys that it takes. -/
structure SameKeys (s : (ι → SrtpSymCrypto) × (ι → OpenSSLSymCrypto)) : Prop where
  algorithm : ∀ i, (s.1 i).algorithm ≠ .null
  openssl : ∀ i, s.2 i = .of (s.1 i)
  aes : ∀ i, (s.1 i).algorithm = .aesCM ∨ (s.1 i).algorithm = .aesF8 →
    ∀ k ∈ (s.1 i).key, k.length = 16 ∨ k.length = 32

omit [DecidableEq ι] in
/-- New objects have no key in either build. -/
theorem sameKeys_new {alg : ι → SrtpEncryption} (halg : ∀ i, alg i ≠ .null) :
    SameKeys (fun i => SrtpSymCrypto.new (alg i), fun i => OpenSSLSymCrypto.new (alg i)) where
  algorithm := halg
  openssl := fun _ => rfl
  aes := fun _ _ _ hk => absurd hk (Option.not_mem_none _)

variable {P aes}

/-! ### One object -/

/-- Both builds see in the same way whether there is a key. -/
theorem opensslBuild_isNull_of (P : Primitives) (c : SrtpSymCrypto) :
    (opensslBuild P).isNull (.of c) = (gcryptBuild P).isNull c := by
  show decide (c.key.elim KeyPointer.null .live = .null) = c.key.isNone
  cases c.key with
  | none => rfl
  | some k => rfl

/-- With a key both block calls are the block function. -/
theorem encrypt_of_keyed (haes : ∀ k, k.length = 16 ∨ k.length = 32 → aes k = P.aes k)
    {c : SrtpSymCrypto} {k : Octets} (hk : c.key = some k) (halg : c.algorithm ≠ .null)
    (hlen : c.algorithm = .aesCM ∨ c.algorithm = .aesF8 → k.length = 16 ∨ k.length = 32) :
    (opensslBuild (opensslPrimitives P aes)).encrypt (.of c) = (gcryptBuild P).encrypt c := by
  funext input output
  rw [gcryptBuild_encrypt hk halg]
  show OpenSSLSymCrypto.encrypt (opensslPrimitives P aes) ⟨c.algorithm, c.key.elim .null .live⟩
    input output = _
  rw [hk]
  revert halg hlen
  cases c.algorithm with
  | null => exact fun halg _ => absurd rfl halg
  | aesCM | aesF8 =>
      intro _ hlen
      show Outcome.returned (aes k input) = .returned (P.aes k input)
      rw [haes k (hlen (by decide))]
  | twoCM | twoF8 => exact fun _ _ => rfl

/-- Without a key the block call of the build over OpenSSL reads through a null pointer. -/
theorem encrypt_of_unkeyed (P : Primitives) {c : SrtpSymCrypto} (hk : c.key = none)
    (halg : c.algorithm ≠ .null) (input output : Block) :
    (opensslBuild P).encrypt (.of c) input output = .undefined := by
  show OpenSSLSymCrypto.encrypt P ⟨c.algorithm, c.key.elim .null .live⟩ input output = _
  rw [hk]
  revert halg
  cases c.algorithm with
  | null => exact fun halg => absurd rfl halg
  | aesCM | aesF8 | twoCM | twoF8 => exact fun _ => rfl

/-- `setNewKey` with a length that both builds take. -/
theorem setNewKey_of {c : SrtpSymCrypto} {k : Octets} (halg : c.algorithm ≠ .null)
    (hlen : k.length = 16 ∨ k.length = 32) :
    c.setNewKey k = (true, { c with key := some k }) ∧
      OpenSSLSymCrypto.setNewKey (.of c) k = .returned (true, .of { c with key := some k }) := by
  obtain ⟨algorithm, key⟩ := c
  have hdangling : (OpenSSLSymCrypto.of ⟨algorithm, key⟩).key ≠ .dangling := by
    cases key <;> simp [OpenSSLSymCrypto.of]
  rw [OpenSSLSymCrypto.setNewKey, if_neg hdangling, if_neg (not_not.mpr hlen),
    SrtpSymCrypto.setNewKey]
  cases algorithm with
  | null => exact absurd rfl halg
  | aesCM | aesF8 =>
      dsimp only
      rw [if_pos hlen]
      exact ⟨rfl, rfl⟩
  | twoCM | twoF8 => exact ⟨rfl, rfl⟩

/-- `setNewKey` with a length that OpenSSL refuses. -/
theorem setNewKey_of_refused {c : SrtpSymCrypto} {k : Octets}
    (hlen : ¬ (k.length = 16 ∨ k.length = 32)) :
    OpenSSLSymCrypto.setNewKey (.of c) k
      = .returned (false, ⟨c.algorithm, c.key.elim .null (fun _ => .dangling)⟩) := by
  obtain ⟨algorithm, key⟩ := c
  have hdangling : (OpenSSLSymCrypto.of ⟨algorithm, key⟩).key ≠ .dangling := by
    cases key <;> simp [OpenSSLSymCrypto.of]
  rw [OpenSSLSymCrypto.setNewKey, if_neg hdangling, if_pos hlen]
  cases key with
  | none => rfl
  | some k => rfl

/-- With such a length the build over libgcrypt takes the key for Twofish, and has none then
for AES. -/
theorem setNewKey_of_length {c : SrtpSymCrypto} {k : Octets} (halg : c.algorithm ≠ .null)
    (hlen : ¬ (k.length = 16 ∨ k.length = 32)) :
    (c.algorithm = .aesCM ∨ c.algorithm = .aesF8) ∧ c.setNewKey k = (false, .new c.algorithm) ∨
      ¬ (c.algorithm = .aesCM ∨ c.algorithm = .aesF8) ∧ (c.setNewKey k).1 = true := by
  obtain ⟨algorithm, key⟩ := c
  cases algorithm with
  | null => exact absurd rfl halg
  | aesCM | aesF8 =>
      left
      refine ⟨by simp, ?_⟩
      rw [SrtpSymCrypto.setNewKey]
      dsimp only
      rw [if_neg hlen]
      rfl
  | twoCM | twoF8 => exact Or.inr ⟨by simp, rfl⟩

/-! ### A call -/

variable (haes : ∀ k, k.length = 16 ∨ k.length = 32 → aes k = P.aes k)
  {s : (ι → SrtpSymCrypto) × (ι → OpenSSLSymCrypto)} (hs : SameKeys s)

/-- On calls that fill a buffer, the builds agree if the buffers do. -/
theorem buildsAgree_octets_iff {call : CryptoCall ι} {x y : Outcome Octets}
    (hcall : ∀ i k h, call ≠ .setNewKey i k h)
    (hx : (gcryptBuild P).call s.1 call = x.map (fun o => (.octets o, s.1)))
    (hy : (opensslBuild (opensslPrimitives P aes)).call s.2 call =
      y.map (fun o => (.octets o, s.2))) :
    BuildsAgree P aes s call ↔ x = y := by
  have hoctets : Function.Injective CryptoAnswer.octets := fun a b h => CryptoAnswer.octets.inj h
  constructor
  · intro h
    have hanswer := h.answer
    rw [hx, hy, Outcome.map_map, Outcome.map_map] at hanswer
    exact Outcome.map_injective hoctets hanswer
  · rintro rfl
    refine ⟨?_, fun i k h hc => absurd hc (hcall i k h)⟩
    rw [hx, hy, Outcome.map_map, Outcome.map_map]

/-- Such calls leave the objects alone. -/
theorem performBoth_octets {call : CryptoCall ι} {x y : Outcome Octets}
    (hx : (gcryptBuild P).call s.1 call = x.map (fun o => (.octets o, s.1)))
    (hy : (opensslBuild (opensslPrimitives P aes)).call s.2 call =
      y.map (fun o => (.octets o, s.2))) :
    ∀ t ∈ performBoth P aes s call, t = s := by
  intro t ht
  rw [performBoth, hx, hy] at ht
  cases x with
  | returned a =>
      cases y with
      | returned b =>
          cases ht
          rfl
      | neverReturns => cases ht
      | undefined => cases ht
  | neverReturns => cases ht
  | undefined => cases ht

include haes hs

omit [DecidableEq ι] in
/-- With a key, both builds encrypt a block in the same way. -/
theorem encrypt_of_key_ne_none {i : ι} (hk : (s.1 i).key ≠ none) :
    (opensslBuild (opensslPrimitives P aes)).encrypt (s.2 i) = (gcryptBuild P).encrypt (s.1 i) := by
  obtain ⟨k, hk⟩ := Option.ne_none_iff_exists'.mp hk
  rw [hs.openssl i]
  exact encrypt_of_keyed haes hk (hs.algorithm i) (fun h => hs.aes i h k hk)

/-- The builds agree on a key stream exactly if the object has a key or no octet is asked for. -/
theorem buildsAgree_getCtrCipherStream_iff (i : ι) (buffer : Block) (output : Octets) (iv : Block) :
    BuildsAgree P aes s (.getCtrCipherStream i buffer output iv) ↔
      CallSupported s.1 (.getCtrCipherStream i buffer output iv) := by
  rw [buildsAgree_octets_iff (by simp) rfl rfl]
  show _ ↔ (s.1 i).key ≠ none ∨ output = []
  constructor
  · intro h
    by_contra hnot
    rw [not_or, not_not] at hnot
    rw [hs.openssl i, getCtrCipherStreamBy_undefined
      (encrypt_of_unkeyed _ hnot.1 (hs.algorithm i)) buffer hnot.2] at h
    exact getCtrCipherStreamBy_ne_undefined (fun _ _ => Outcome.returned_ne_undefined _) _ _ _ h
  · rintro (hk | rfl)
    · rw [encrypt_of_key_ne_none haes hs hk]
    · rw [getCtrCipherStreamBy_nil, getCtrCipherStreamBy_nil]

/-- They agree on every call of `ctr_encrypt`, which looks for a key first. -/
theorem buildsAgree_ctrEncrypt (i : ι) (buffer : Block) (input output : Octets) (iv : Block) :
    BuildsAgree P aes s (.ctrEncrypt i buffer input output iv) := by
  rw [buildsAgree_octets_iff (by simp) rfl rfl]
  have hnull : (opensslBuild (opensslPrimitives P aes)).isNull (s.2 i)
      = (gcryptBuild P).isNull (s.1 i) := by
    rw [hs.openssl i]
    exact opensslBuild_isNull_of _ _
  rw [hnull]
  by_cases hk : (s.1 i).key = none
  · have hnone : (gcryptBuild P).isNull (s.1 i) = true := Option.isNone_iff_eq_none.mpr hk
    rw [ctrEncryptBy, ctrEncryptBy, if_pos hnone, if_pos hnone]
  · rw [encrypt_of_key_ne_none haes hs hk]

/-- They agree on `f8_encrypt` exactly if the object has no key or the second one has one. -/
theorem buildsAgree_f8Encrypt_iff (i f8Cipher : ι) (buffer : Block) (input output : Octets)
    (iv : Block) :
    BuildsAgree P aes s (.f8Encrypt i f8Cipher buffer input output iv) ↔
      CallSupported s.1 (.f8Encrypt i f8Cipher buffer input output iv) := by
  rw [buildsAgree_octets_iff (by simp) rfl rfl]
  show _ ↔ (s.1 i).key = none ∨ (s.1 f8Cipher).key ≠ none
  have hnull : (opensslBuild (opensslPrimitives P aes)).isNull (s.2 i)
      = (gcryptBuild P).isNull (s.1 i) := by
    rw [hs.openssl i]
    exact opensslBuild_isNull_of _ _
  rw [hnull, f8EncryptBy, f8EncryptBy]
  by_cases hk : (s.1 i).key = none
  · have hnone : (gcryptBuild P).isNull (s.1 i) = true := Option.isNone_iff_eq_none.mpr hk
    rw [if_pos hnone, if_pos hnone]
    exact ⟨fun _ => Or.inl hk, fun _ => rfl⟩
  · have hsome : ¬ (gcryptBuild P).isNull (s.1 i) = true :=
      fun h => hk (Option.isNone_iff_eq_none.mp h)
    rw [if_neg hsome, if_neg hsome, encrypt_of_key_ne_none haes hs hk, or_iff_right hk]
    constructor
    · intro h hf8
      rw [hs.openssl f8Cipher, encrypt_of_unkeyed _ hf8 (hs.algorithm f8Cipher),
        Outcome.bind_undefined] at h
      exact Outcome.bind_ne_undefined (Outcome.returned_ne_undefined _)
        (fun a => f8LoopBy_ne_undefined (fun _ _ => Outcome.returned_ne_undefined _) a _ _ _ _) h
    · intro hf8
      rw [encrypt_of_key_ne_none haes hs hf8]

omit haes in
/-- A key that OpenSSL refuses: what was released stays in the object. -/
theorem opensslBuild_call_refused {P : Primitives} (i : ι) {k : Octets}
    (h : k.length = 16 ∨ k.length = 24 ∨ k.length = 32) (hlen : ¬ (k.length = 16 ∨ k.length = 32)) :
    (opensslBuild P).call s.2 (.setNewKey i k h)
      = .returned (.flag false, Function.update s.2 i
          ⟨(s.1 i).algorithm, (s.1 i).key.elim .null (fun _ => .dangling)⟩) := by
  show Outcome.map _ (OpenSSLSymCrypto.setNewKey (s.2 i) k) = _
  rw [hs.openssl i, setNewKey_of_refused hlen, Outcome.map_returned]

omit haes in
/-- They agree on a new key exactly if OpenSSL takes its length, too, or there is no key to lose. -/
theorem buildsAgree_setNewKey_iff (i : ι) (k : Octets)
    (h : k.length = 16 ∨ k.length = 24 ∨ k.length = 32) :
    BuildsAgree P aes s (.setNewKey i k h) ↔ CallSupported s.1 (.setNewKey i k h) := by
  show _ ↔ (k.length = 16 ∨ k.length = 32) ∨
    (s.1 i).key = none ∧ ((s.1 i).algorithm = .aesCM ∨ (s.1 i).algorithm = .aesF8)
  by_cases hlen : k.length = 16 ∨ k.length = 32
  · obtain ⟨hg, ho⟩ := setNewKey_of (hs.algorithm i) hlen
    refine iff_of_true ⟨?_, ?_⟩ (Or.inl hlen)
    · show Outcome.returned (CryptoAnswer.flag ((s.1 i).setNewKey k).1)
        = (Outcome.map _ (OpenSSLSymCrypto.setNewKey (s.2 i) k)).map Prod.fst
      rw [hs.openssl i, hg, ho]
      rfl
    · intro i' k' h' hcall hfalse
      cases hcall
      exfalso
      have htrue : (CryptoAnswer.flag ((s.1 i).setNewKey k).1) = .flag false :=
        Outcome.returned.inj hfalse
      rw [hg] at htrue
      cases htrue
  · rw [or_iff_right hlen]
    have ho := opensslBuild_call_refused (P := opensslPrimitives P aes) hs i h hlen
    have hg : (gcryptBuild P).call s.1 (.setNewKey i k h)
        = .returned (.flag ((s.1 i).setNewKey k).1,
          Function.update s.1 i ((s.1 i).setNewKey k).2) :=
      rfl
    have hboth : performBoth P aes s (.setNewKey i k h)
        = some (Function.update s.1 i ((s.1 i).setNewKey k).2, Function.update s.2 i
            ⟨(s.1 i).algorithm, (s.1 i).key.elim .null (fun _ => .dangling)⟩) := by
      rw [performBoth, hg, ho]
    obtain ⟨haes, hset⟩ | ⟨htwo, hset⟩ := setNewKey_of_length (hs.algorithm i) hlen
    · -- both refuse: the old key must have been null
      rw [and_iff_left haes]
      constructor
      · intro hagree
        have hnew := (hagree.refused i k h rfl (by rw [hg, hset]; rfl) _ hboth).2
        dsimp only at hnew
        rw [Function.update_self] at hnew
        have hkey : (s.1 i).key.elim KeyPointer.null (fun _ => .dangling) = .null :=
          congrArg OpenSSLSymCrypto.key hnew
        cases hk : (s.1 i).key with
        | none => rfl
        | some k' =>
            rw [hk] at hkey
            cases hkey
      · intro hk
        refine ⟨by rw [hg, ho, hset]; rfl, ?_⟩
        intro i' k' h' hcall _ t ht
        cases hcall
        rw [hboth] at ht
        cases ht
        dsimp only
        rw [Function.update_self, Function.update_self, hset, hk, hs.openssl i]
        exact ⟨rfl, rfl⟩
    · -- libgcrypt takes the key, and OpenSSL refuses it
      refine iff_of_false ?_ (fun h => htwo h.2)
      intro hagree
      have hanswer := hagree.answer
      rw [hg, ho, hset] at hanswer
      cases hanswer

/-- **One call**: the builds agree on it exactly if it is supported. -/
theorem buildsAgree_iff (call : CryptoCall ι) :
    BuildsAgree P aes s call ↔ CallSupported s.1 call := by
  cases call with
  | setNewKey i k h => exact buildsAgree_setNewKey_iff hs i k h
  | getCtrCipherStream i buffer output iv =>
      exact buildsAgree_getCtrCipherStream_iff haes hs i buffer output iv
  | ctrEncrypt i buffer input output iv =>
      exact iff_of_true (buildsAgree_ctrEncrypt haes hs i buffer input output iv) trivial
  | f8Encrypt i f8Cipher buffer input output iv =>
      exact buildsAgree_f8Encrypt_iff haes hs i f8Cipher buffer input output iv

omit haes in
/-- An object of both builds is given the same key. -/
theorem SameKeys.update (i : ι) {c : SrtpSymCrypto} (halg : c.algorithm ≠ .null)
    (hlen : c.algorithm = .aesCM ∨ c.algorithm = .aesF8 →
      ∀ k ∈ c.key, k.length = 16 ∨ k.length = 32) :
    SameKeys (Function.update s.1 i c, Function.update s.2 i (.of c)) where
  algorithm := by
    intro j
    dsimp only
    rcases eq_or_ne j i with rfl | hj
    · rwa [Function.update_self]
    · rw [Function.update_of_ne hj]
      exact hs.algorithm j
  openssl := by
    intro j
    dsimp only
    rcases eq_or_ne j i with rfl | hj
    · rw [Function.update_self, Function.update_self]
    · rw [Function.update_of_ne hj, Function.update_of_ne hj]
      exact hs.openssl j
  aes := by
    intro j
    dsimp only
    rcases eq_or_ne j i with rfl | hj
    · rwa [Function.update_self]
    · rw [Function.update_of_ne hj]
      exact hs.aes j

omit haes in
/-- A supported call keeps the keys the same. -/
theorem sameKeys_performBoth {call : CryptoCall ι} (hcall : CallSupported s.1 call) :
    ∀ t ∈ performBoth P aes s call, SameKeys t := by
  cases call with
  | getCtrCipherStream i buffer output iv =>
      intro t ht
      rw [performBoth_octets rfl rfl t ht]
      exact hs
  | ctrEncrypt i buffer input output iv =>
      intro t ht
      rw [performBoth_octets rfl rfl t ht]
      exact hs
  | f8Encrypt i f8Cipher buffer input output iv =>
      intro t ht
      rw [performBoth_octets rfl rfl t ht]
      exact hs
  | setNewKey i k h =>
      intro t ht
      by_cases hlen : k.length = 16 ∨ k.length = 32
      · obtain ⟨hg, ho⟩ := setNewKey_of (hs.algorithm i) hlen
        have hcall : (opensslBuild (opensslPrimitives P aes)).call s.2 (.setNewKey i k h)
            = .returned (.flag true, Function.update s.2 i (.of { s.1 i with key := some k })) := by
          show Outcome.map _ (OpenSSLSymCrypto.setNewKey (s.2 i) k) = _
          rw [hs.openssl i, ho, Outcome.map_returned]
        have hboth : performBoth P aes s (.setNewKey i k h)
            = some (Function.update s.1 i ((s.1 i).setNewKey k).2,
                Function.update s.2 i (.of { s.1 i with key := some k })) := by
          rw [performBoth, hcall]
          rfl
        rw [hboth, hg] at ht
        cases ht
        exact hs.update i (hs.algorithm i) (fun _ _ hk => by
          rw [← Option.mem_some_iff.mp hk]
          exact hlen)
      · obtain ⟨hk, haes⟩ := hcall.resolve_left hlen
        have hboth : performBoth P aes s (.setNewKey i k h)
            = some (Function.update s.1 i ((s.1 i).setNewKey k).2, Function.update s.2 i
                ⟨(s.1 i).algorithm, (s.1 i).key.elim .null (fun _ => .dangling)⟩) := by
          rw [performBoth, opensslBuild_call_refused hs i h hlen]
          rfl
        obtain ⟨-, hset⟩ | ⟨htwo, -⟩ := setNewKey_of_length (hs.algorithm i) hlen
        · rw [hboth, hset, hk] at ht
          cases ht
          exact hs.update i (hs.algorithm i) (fun _ _ hk => absurd hk (Option.not_mem_none _))
        · exact absurd haes htwo

end Agreement

/-- **When the builds agree.**  Suppose that the AES block functions of OpenSSL and libgcrypt
are equal for keys of 16 and 32 octets.  Then for every family of objects, none of them with
the null cipher, the builds agree along a run of calls from the start exactly if every call
of it is supported. -/
theorem crypto_backends_agree_iff (P : Primitives) (aes : Octets → Block → Block)
    (haes : ∀ k, k.length = 16 ∨ k.length = 32 → aes k = P.aes k)
    (alg : ι → SrtpEncryption) (halg : ∀ i, alg i ≠ .null) (calls : List (CryptoCall ι)) :
    AlongRun (partialStep (performBoth P aes)) (fun s call => ∀ t ∈ s, BuildsAgree P aes t call)
        (some (fun i => .new (alg i), fun i => .new (alg i))) calls ↔
      AlongRun (partialStep (performBoth P aes)) (fun s call => ∀ t ∈ s, CallSupported t.1 call)
        (some (fun i => .new (alg i), fun i => .new (alg i))) calls := by
  have hiff : ∀ (s : Option ((ι → SrtpSymCrypto) × (ι → OpenSSLSymCrypto))) (call : CryptoCall ι),
      (∀ t ∈ s, SameKeys t) → True →
      ((∀ t ∈ s, BuildsAgree P aes t call) ↔ ∀ t ∈ s, CallSupported t.1 call) := by
    intro s call hs _
    constructor
    · exact fun h t ht => (buildsAgree_iff haes (hs t ht) call).mp (h t ht)
    · exact fun h t ht => (buildsAgree_iff haes (hs t ht) call).mpr (h t ht)
  have hkeep : ∀ (s : Option ((ι → SrtpSymCrypto) × (ι → OpenSSLSymCrypto))) (call : CryptoCall ι),
      (∀ t ∈ s, SameKeys t) → True → (∀ t ∈ s, CallSupported t.1 call) →
      ∀ t ∈ partialStep (performBoth P aes) s call, SameKeys t := by
    intro s call hs _ hsupp t ht
    obtain ⟨u, rfl, hu⟩ := Option.bind_eq_some_iff.mp ht
    exact sameKeys_performBoth (hs u rfl) (hsupp u rfl) t hu
  apply alongRun_iff_of_invariant hiff hkeep
  · rintro t ⟨⟩
    exact sameKeys_new halg
  · exact alongRun_of_forall_mem (fun _ _ => trivial)

/-- An AES object that is given a key, makes a key stream and encrypts with it. -/
theorem crypto_backends_agree_sample :
    AlongRun (partialStep (performBoth Primitives.additive Primitives.additive.aes))
      (fun s call => ∀ t ∈ s, BuildsAgree Primitives.additive Primitives.additive.aes t call)
      (some (fun _ : Unit => .new .aesCM, fun _ => .new .aesCM))
      [.setNewKey () (List.replicate 24 1) (by decide),
        .setNewKey () (List.replicate 16 1) (by decide),
        .ctrEncrypt () (fun _ => 0) [1, 2, 3] [1, 2, 3] (fun _ => 0)] := by
  apply (crypto_backends_agree_iff Primitives.additive Primitives.additive.aes (fun _ _ => rfl)
    (fun _ => .aesCM) (fun _ => by decide) _).mpr
  refine ⟨?_, ?_, ?_, trivial⟩
  · rintro t ⟨⟩
    exact Or.inr ⟨rfl, Or.inl rfl⟩
  · rintro t ⟨⟩
    exact Or.inl (Or.inl rfl)
  · exact fun _ _ => trivial

/-- A Twofish key of 24 octets is taken by one build and refused by the other.  For AES both
refuse it, and then encrypting the next packet is undefined in the build over OpenSSL, where
the other build leaves it as it is. -/
theorem crypto_backends_disagree :
    ¬ BuildsAgree Primitives.additive Primitives.additive.aes
        (fun _ : Unit => .new .twoCM, fun _ => .new .twoCM)
        (.setNewKey () (List.replicate 24 1) (by decide)) ∧
      ¬ AlongRun (partialStep (performBoth Primitives.additive Primitives.additive.aes))
        (fun s call => ∀ t ∈ s, ((gcryptBuild Primitives.additive).call t.1 call).map Prod.fst
          = ((opensslBuild (opensslPrimitives Primitives.additive Primitives.additive.aes)).call t.2
              call).map Prod.fst)
        (some (fun _ : Unit => .new .aesCM, fun _ => .new .aesCM))
        [.setNewKey () (List.replicate 16 1) (by decide),
          .setNewKey () (List.replicate 24 1) (by decide),
          .ctrEncrypt () (fun _ => 0) [1, 2, 3] [1, 2, 3] (fun _ => 0)] := by
  constructor
  · intro h
    have hanswer := h.answer
    have hflag : CryptoAnswer.flag true = .flag false := Outcome.returned.inj hanswer
    exact absurd hflag (by decide)
  · rintro ⟨-, -, h, -⟩
    have hanswer := h _ rfl
    have hund : Outcome.returned (CryptoAnswer.octets [1, 2, 3]) = .undefined := hanswer
    cases hund
