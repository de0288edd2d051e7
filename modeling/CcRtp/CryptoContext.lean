/-
# `CryptoContext`: index and replay state of an SRTP stream

Models `src/CryptoContext.cpp` and `src/ccrtp/CryptoContext.h`: the context itself, its
constructor, and the three functions that keep the receiver's packet index
(`guessIndex`, `checkReplay`, `update`).  Encryption and authentication of packets
are in `Srtp.lean`, key derivation is in `KeyDerivation.lean`.

A context stores the packet index split into the rollover counter `roc` and the
highest sequence number `s_l`; `CryptoContext.index` is their combination.  Shift
counts outside the range the language defines are left to the target (`ShiftUnit`);
`checkReplayShifts` and `updateShifts` list the counts a call uses.

The step lemmas the run theorems are built from:

* `guessIndex_near` : an index less than `2^15` away from the stored one is guessed
  right, and only `guessed_roc` is written;
* `checkReplay_near`, `update_near` with `advance_ahead` and `advance_not_ahead` : what
  the two callers then do.
-/
import CcRtp.SessionKeys
import CcRtp.ReplayWindow

/-- `REPLAY_WINDOW_SIZE` -/
abbrev replayWindowSize : ℤ := 64

/-- An SRTP cryptographic context.  `srtpAuthenticate` truncates a digest of 20
octets, so no tag is longer than that; without authentication there is no tag. -/
structure CryptoContext where
  ssrcCtx : BitVec 32
  roc : BitVec 32
  guessedRoc : BitVec 32
  sL : BitVec 16
  keyDerivRate : BitVec 64
  replayWindow : BitVec 64
  masterKey : Octets
  masterSalt : Octets
  kE : Octets
  kA : Octets
  kS : Octets
  ealg : SrtpEncryption
  aalg : SrtpAuthentication
  ekeyl : ℕ
  akeyl : ℕ
  skeyl : ℕ
  tagLength : ℕ
  seqNumSet : Bool
  macCtx : Option MacContext
  cipher : Option SrtpSymCrypto
  f8Cipher : Option SrtpSymCrypto
  tagLength_le : tagLength ≤ 20
  tagLength_null : aalg = .null → tagLength = 0
  deriving DecidableEq

/-- The cipher object a context is built with. -/
def newCipher : SrtpEncryption → Option SrtpSymCrypto
  | .null => none
  | .twoCM | .twoF8 => some (SrtpSymCrypto.new .twoCM)
  | .aesCM | .aesF8 => some (SrtpSymCrypto.new .aesCM)

/-- The cipher object for the F8 initial vector, in the F8 modes. -/
def newF8Cipher : SrtpEncryption → Option SrtpSymCrypto
  | .twoF8 => some (SrtpSymCrypto.new .twoF8)
  | .aesF8 => some (SrtpSymCrypto.new .aesF8)
  | _ => none

/-- Room for a session key, none without the algorithm that uses it. -/
def keyBuffer (used : Bool) (len : ℕ) : Octets := if used then List.replicate len 0 else []

/-- The tag length that a constructor stores: none without authentication, and as long as a
digest at most. -/
theorem storedTagLength_le (aalg : SrtpAuthentication) {tagLength : ℕ} (htag : tagLength ≤ 20) :
    (if aalg = .null then 0 else tagLength) ≤ 20 := by
  split_ifs
  · exact Nat.zero_le 20
  · exact htag

theorem storedTagLength_null (aalg : SrtpAuthentication) (tagLength : ℕ) (h : aalg = .null) :
    (if aalg = .null then 0 else tagLength) = 0 := if_pos h

/-- The tag of ten octets that the demonstration programs use. -/
theorem demoTagLength_le : 10 ≤ 20 := by decide

namespace CryptoContext

/-- The constructor of an active context. -/
def new (ssrc roc : BitVec 32) (keyDerivRate : BitVec 64) (ealg : SrtpEncryption)
    (aalg : SrtpAuthentication) (masterKey masterSalt : Octets) (ekeyl akeyl skeyl tagLength : ℕ)
    (htag : tagLength ≤ 20) : CryptoContext where
  ssrcCtx := ssrc
  roc := roc
  guessedRoc := 0
  sL := 0
  keyDerivRate := keyDerivRate
  replayWindow := 0
  masterKey := masterKey
  masterSalt := masterSalt
  kE := keyBuffer (ealg ≠ .null) ekeyl
  kA := keyBuffer (aalg ≠ .null) akeyl
  kS := keyBuffer (ealg ≠ .null) skeyl
  ealg := ealg
  aalg := aalg
  ekeyl := ekeyl
  akeyl := akeyl
  skeyl := skeyl
  tagLength := if aalg = .null then 0 else tagLength
  seqNumSet := false
  macCtx := none
  cipher := newCipher ealg
  f8Cipher := newF8Cipher ealg
  tagLength_le := storedTagLength_le aalg htag
  tagLength_null := storedTagLength_null aalg tagLength

/-- An AES counter-mode context with HMAC-SHA1 and a tag of ten octets, as the
demonstration programs set one up. -/
def aesCmSha1 (ssrc roc : BitVec 32) : CryptoContext :=
  CryptoContext.new ssrc roc 0 .aesCM .sha1Hmac (List.replicate 16 0) (List.replicate 14 0)
    16 20 14 10 demoTagLength_le

/-- The same with AES in F8 mode. -/
def aesF8Sha1 (ssrc roc : BitVec 32) : CryptoContext :=
  CryptoContext.new ssrc roc 0 .aesF8 .sha1Hmac (List.replicate 16 0) (List.replicate 14 0)
    16 20 14 10 demoTagLength_le

/-- `getTagLength` -/
def getTagLength (ctx : CryptoContext) : ℕ := ctx.tagLength

/-- `getMkiLength`: the constructors set the MKI length to zero and nothing else
writes it. -/
def getMkiLength (_ : CryptoContext) : ℕ := 0

/-- The part of the context that sender and receiver share. -/
def keys (ctx : CryptoContext) : SessionKeys where
  ealg := ctx.ealg
  aalg := ctx.aalg
  tagLength := ctx.tagLength
  kS := ctx.kS
  cipher := ctx.cipher
  f8Cipher := ctx.f8Cipher
  macCtx := ctx.macCtx
  tagLength_le := ctx.tagLength_le
  tagLength_null := ctx.tagLength_null

/-- The stored packet index `roc << 16 | s_l` as a number. -/
def index (ctx : CryptoContext) : ℕ := ctx.roc.toNat * 2 ^ 16 + ctx.sL.toNat

/-- The sequence number carried by the packet with index `i`. -/
def seqOf (i : ℕ) : BitVec 16 := BitVec.ofNat 16 i

/-! ## The functions of the source -/

/-- `(uint64)roc << 16 | seq` -/
def joinIndex (roc : BitVec 32) (seq : BitVec 16) : BitVec 64 :=
  roc.setWidth 64 <<< 16 ||| seq.setWidth 64

/-- The rollover counter `guessIndex` settles on, from the stored pair and the
sequence number received (the comparisons are between `int`s). -/
def guessRoc (roc : BitVec 32) (sL newSeqNb : BitVec 16) : BitVec 32 :=
  if sL.toNat < 32768 then
    -- more than half a period ahead: a late packet from before the wrap
    if (newSeqNb.toNat : ℤ) - sL.toNat > 32768 then roc - 1 else roc
  else
    -- more than half a period behind: the sequence number has wrapped
    if (sL.toNat : ℤ) - 32768 > newSeqNb.toNat then roc + 1 else roc

/-- The first use of the sequence number initialises `s_l`. -/
def initSeqNum (ctx : CryptoContext) (newSeqNb : BitVec 16) : CryptoContext :=
  if ctx.seqNumSet then ctx else { ctx with seqNumSet := true, sL := newSeqNb }

/-- The assignment to `guessed_roc`. -/
def setGuessedRoc (ctx : CryptoContext) (guessedRoc : BitVec 32) : CryptoContext :=
  { ctx with guessedRoc := guessedRoc }

/-- `guessIndex(new_seq_nb)` -/
def guessIndex (ctx : CryptoContext) (newSeqNb : BitVec 16) : BitVec 64 × CryptoContext :=
  let ctx := ctx.initSeqNum newSeqNb
  let guessedRoc := guessRoc ctx.roc ctx.sL newSeqNb
  (joinIndex guessedRoc newSeqNb, ctx.setGuessedRoc guessedRoc)

/-- `aalg == SrtpAuthenticationNull && ealg == SrtpEncryptionNull`: no security
policy. -/
def nullPolicy (ctx : CryptoContext) : Bool := ctx.aalg = .null ∧ ctx.ealg = .null

/-- The signed distance of the guessed index from the stored one, as both callers of
`guessIndex` compute it. -/
def guessDelta (ctx : CryptoContext) (newSeqNb : BitVec 16) : ℤ :=
  let (guessedIndex, ctx) := ctx.guessIndex newSeqNb
  (guessedIndex - joinIndex ctx.roc ctx.sL).toInt

variable (T : ShiftUnit)

/-- `checkReplay(new_seq_nb)` -/
def checkReplay (ctx : CryptoContext) (newSeqNb : BitVec 16) : Bool × CryptoContext :=
  if ctx.nullPolicy then (true, ctx)
  else
    let ctx := ctx.initSeqNum newSeqNb
    let delta := ctx.guessDelta newSeqNb
    let ctx := (ctx.guessIndex newSeqNb).2
    -- ahead of everything received, too old, or as the window says
    if delta > 0 then (true, ctx)
    else if -delta > replayWindowSize then (false, ctx)
    else if T.shr64 ctx.replayWindow (-delta) &&& 0x1 ≠ 0 then (false, ctx)
    else (true, ctx)

/-- The replay bitmask after `update`, at distance `delta` from the stored index.  In
the late branch the shifted `1` is an `int`, widened with its sign. -/
def shiftWindow (window : BitVec 64) (delta : ℤ) : BitVec 64 :=
  if delta > 0 then T.shl64 window delta ||| 1
  else window ||| (T.shl32 1 delta).signExtend 64

/-- The rollover counter and highest sequence number after `update`: two separate
assignments under two separate conditions. -/
def advance (roc guessedRoc : BitVec 32) (sL newSeqNb : BitVec 16) : BitVec 32 × BitVec 16 :=
  -- this test does not ask which period the packet belongs to
  let sL := if newSeqNb > sL then newSeqNb else sL
  if guessedRoc > roc then (guessedRoc, newSeqNb) else (roc, sL)

/-- `update(new_seq_nb)` -/
def update (ctx : CryptoContext) (newSeqNb : BitVec 16) : CryptoContext :=
  let delta := ctx.guessDelta newSeqNb
  let ctx := (ctx.guessIndex newSeqNb).2
  let (roc, sL) := advance ctx.roc ctx.guessedRoc ctx.sL newSeqNb
  { ctx with replayWindow := shiftWindow T ctx.replayWindow delta, roc := roc, sL := sL }

/-- The shift counts a call of `checkReplay` uses. -/
def checkReplayShifts (ctx : CryptoContext) (newSeqNb : BitVec 16) : List ℤ :=
  if ctx.nullPolicy then []
  else
    let delta := (ctx.initSeqNum newSeqNb).guessDelta newSeqNb
    if delta > 0 then []
    else if -delta > replayWindowSize then []
    else [-delta]

/-- The shift counts a call of `update` uses: one in either branch. -/
def updateShifts (ctx : CryptoContext) (newSeqNb : BitVec 16) : List ℤ :=
  [ctx.guessDelta newSeqNb]

/-! ## Indices as numbers -/

/-- The joined index is the number it denotes. -/
theorem toNat_joinIndex (roc : BitVec 32) (seq : BitVec 16) :
    (joinIndex roc seq).toNat = roc.toNat * 2 ^ 16 + seq.toNat := by
  have hroc := roc.isLt
  have hseq := seq.isLt
  rw [joinIndex, BitVec.toNat_or, BitVec.toNat_shiftLeft, BitVec.toNat_setWidth,
    BitVec.toNat_setWidth, Nat.shiftLeft_eq, Nat.mod_eq_of_lt (by omega : roc.toNat < 2 ^ 64),
    Nat.mod_eq_of_lt (by omega), Nat.mod_eq_of_lt (by omega), mul_comm,
    ← Nat.two_pow_add_eq_or_of_lt hseq]

/-- **The sender's rule for the rollover counter**: it is counted up behind sequence number
65535, so the index goes up by one modulo `2^48`. -/
theorem succ_roc_seq {roc : BitVec 32} {seq : BitVec 16} {i : ℕ}
    (h : roc.toNat * 2 ^ 16 + seq.toNat = i % 2 ^ 48) :
    (if seq = 0xFFFF then roc + 1 else roc).toNat * 2 ^ 16 + (seq + 1).toNat
      = (i + 1) % 2 ^ 48 := by
  have hone32 : (1 : BitVec 32).toNat = 1 := rfl
  have hone16 : (1 : BitVec 16).toNat = 1 := rfl
  have hroc := roc.isLt
  have hseq := seq.isLt
  by_cases hwrap : seq = 0xFFFF
  · have hmax : seq.toNat = 65535 := by rw [hwrap]; rfl
    have hnext : (i + 1) % 2 ^ 48 = (roc.toNat + 1) * 2 ^ 16 % (2 ^ 32 * 2 ^ 16) := by omega
    have hzero : (seq.toNat + 1) % 2 ^ 16 = 0 := by omega
    rw [if_pos hwrap, BitVec.toNat_add, BitVec.toNat_add, hone32, hone16, hnext, hzero,
      Nat.mul_mod_mul_right, Nat.add_zero]
  · have hne : seq.toNat ≠ 65535 := fun heq => hwrap (BitVec.eq_of_toNat_eq heq)
    rw [if_neg hwrap, BitVec.toNat_add, hone16]
    omega

/-- A 48-bit index is the joined form of its two halves. -/
theorem joinIndex_halves {i : ℕ} (hi : i < 2 ^ 48) :
    joinIndex (BitVec.ofNat 32 (i / 2 ^ 16)) (seqOf i) = BitVec.ofNat 64 i := by
  apply BitVec.eq_of_toNat_eq
  rw [toNat_joinIndex, seqOf, BitVec.toNat_ofNat, BitVec.toNat_ofNat, BitVec.toNat_ofNat]
  omega

@[simp] theorem toNat_seqOf (i : ℕ) : (seqOf i).toNat = i % 2 ^ 16 := by
  rw [seqOf, BitVec.toNat_ofNat]

/-- `guessed_roc` is scratch: nothing else depends on it. -/
@[simp] theorem setGuessedRoc_index (ctx : CryptoContext) (g : BitVec 32) :
    (ctx.setGuessedRoc g).index = ctx.index := rfl

@[simp] theorem setGuessedRoc_seqNumSet (ctx : CryptoContext) (g : BitVec 32) :
    (ctx.setGuessedRoc g).seqNumSet = ctx.seqNumSet := rfl

@[simp] theorem setGuessedRoc_replayWindow (ctx : CryptoContext) (g : BitVec 32) :
    (ctx.setGuessedRoc g).replayWindow = ctx.replayWindow := rfl

@[simp] theorem setGuessedRoc_nullPolicy (ctx : CryptoContext) (g : BitVec 32) :
    (ctx.setGuessedRoc g).nullPolicy = ctx.nullPolicy := rfl

@[simp] theorem setGuessedRoc_setGuessedRoc (ctx : CryptoContext) (g g' : BitVec 32) :
    (ctx.setGuessedRoc g).setGuessedRoc g' = ctx.setGuessedRoc g' := rfl

theorem initSeqNum_setGuessedRoc (ctx : CryptoContext) (g : BitVec 32) (newSeqNb : BitVec 16) :
    (ctx.setGuessedRoc g).initSeqNum newSeqNb = (ctx.initSeqNum newSeqNb).setGuessedRoc g := by
  unfold initSeqNum
  rw [setGuessedRoc_seqNumSet]
  split_ifs <;> rfl

@[simp] theorem guessIndex_setGuessedRoc (ctx : CryptoContext) (g : BitVec 32)
    (newSeqNb : BitVec 16) : (ctx.setGuessedRoc g).guessIndex newSeqNb =
      ctx.guessIndex newSeqNb := by
  rw [guessIndex, guessIndex, initSeqNum_setGuessedRoc]
  rfl

@[simp] theorem guessDelta_setGuessedRoc (ctx : CryptoContext) (g : BitVec 32)
    (newSeqNb : BitVec 16) : (ctx.setGuessedRoc g).guessDelta newSeqNb =
      ctx.guessDelta newSeqNb := by
  rw [guessDelta, guessDelta, guessIndex_setGuessedRoc]

/-- `update` overwrites `guessed_roc` before it reads it. -/
@[simp] theorem update_setGuessedRoc (ctx : CryptoContext) (g : BitVec 32)
    (newSeqNb : BitVec 16) : (ctx.setGuessedRoc g).update T newSeqNb = ctx.update T newSeqNb := by
  rw [update, update, guessDelta_setGuessedRoc, guessIndex_setGuessedRoc]

/-- `checkReplay` overwrites `guessed_roc` too, unless there is no security policy. -/
theorem checkReplay_setGuessedRoc (ctx : CryptoContext) (g : BitVec 32) (newSeqNb : BitVec 16)
    (hpol : ctx.nullPolicy = false) :
    (ctx.setGuessedRoc g).checkReplay T newSeqNb = ctx.checkReplay T newSeqNb := by
  have hne : ¬ ctx.nullPolicy = true := by rw [hpol]; decide
  rw [checkReplay, checkReplay, setGuessedRoc_nullPolicy, if_neg hne, if_neg hne,
    initSeqNum_setGuessedRoc]
  simp only [guessDelta_setGuessedRoc, guessIndex_setGuessedRoc]

@[simp] theorem initSeqNum_seqNumSet (ctx : CryptoContext) (newSeqNb : BitVec 16) :
    (ctx.initSeqNum newSeqNb).seqNumSet = true := by
  unfold initSeqNum
  split_ifs with hset
  · exact hset
  · rfl

@[simp] theorem guessIndex_seqNumSet (ctx : CryptoContext) (newSeqNb : BitVec 16) :
    (ctx.guessIndex newSeqNb).2.seqNumSet = true :=
  initSeqNum_seqNumSet ctx newSeqNb

/-- The session keys are never touched. -/
@[simp] theorem keys_setGuessedRoc (ctx : CryptoContext) (g : BitVec 32) :
    (ctx.setGuessedRoc g).keys = ctx.keys := rfl

@[simp] theorem keys_initSeqNum (ctx : CryptoContext) (newSeqNb : BitVec 16) :
    (ctx.initSeqNum newSeqNb).keys = ctx.keys := by
  unfold initSeqNum
  split_ifs <;> rfl

@[simp] theorem keys_guessIndex (ctx : CryptoContext) (newSeqNb : BitVec 16) :
    (ctx.guessIndex newSeqNb).2.keys = ctx.keys :=
  keys_initSeqNum ctx newSeqNb

@[simp] theorem keys_update (ctx : CryptoContext) (newSeqNb : BitVec 16) :
    (ctx.update T newSeqNb).keys = ctx.keys :=
  keys_guessIndex ctx newSeqNb

@[simp] theorem keys_checkReplay (ctx : CryptoContext) (newSeqNb : BitVec 16) :
    (ctx.checkReplay T newSeqNb).2.keys = ctx.keys := by
  unfold checkReplay
  simp only
  split_ifs <;> simp

/-- With a policy, every look at a packet sets the sequence number. -/
theorem checkReplay_seqNumSet (ctx : CryptoContext) (newSeqNb : BitVec 16)
    (hpol : ctx.nullPolicy = false) : (ctx.checkReplay T newSeqNb).2.seqNumSet = true := by
  rw [checkReplay, if_neg (by rw [hpol]; decide)]
  simp only
  split_ifs
  all_goals exact guessIndex_seqNumSet _ _

theorem index_lt (ctx : CryptoContext) : ctx.index < 2 ^ 48 := by
  have hroc := ctx.roc.isLt
  have hseq := ctx.sL.isLt
  rw [index]
  omega

theorem roc_eq_index_div (ctx : CryptoContext) : ctx.roc.toNat = ctx.index / 2 ^ 16 := by
  have hseq := ctx.sL.isLt
  rw [index]
  omega

theorem sL_eq_index_mod (ctx : CryptoContext) : ctx.sL.toNat = ctx.index % 2 ^ 16 := by
  have hseq := ctx.sL.isLt
  rw [index]
  omega

/-- The stored pair as the two halves of the stored index. -/
theorem joinIndex_stored (ctx : CryptoContext) :
    joinIndex ctx.roc ctx.sL = BitVec.ofNat 64 ctx.index := by
  apply BitVec.eq_of_toNat_eq
  have hlt := ctx.index_lt
  rw [toNat_joinIndex, BitVec.toNat_ofNat, Nat.mod_eq_of_lt (by omega), index]

/-! ## Guessing near the stored index -/

/-- **The guess is right near the stored index.**  A packet whose index is less than
`2^15` away from the stored one gets its own rollover counter. -/
theorem guessRoc_near (ctx : CryptoContext) {i : ℕ} (hi : i < 2 ^ 48)
    (hnear : ctx.index < i + 2 ^ 15 ∧ i < ctx.index + 2 ^ 15) :
    guessRoc ctx.roc ctx.sL (seqOf i) = BitVec.ofNat 32 (i / 2 ^ 16) := by
  have hroc := ctx.roc_eq_index_div
  have hsL := ctx.sL_eq_index_mod
  have hlt := ctx.index_lt
  have hone : (1 : BitVec 32).toNat = 1 := rfl
  apply BitVec.eq_of_toNat_eq
  rw [guessRoc, toNat_seqOf, hsL, BitVec.toNat_ofNat]
  split_ifs with h1 h2 h2
  · rw [BitVec.toNat_sub, hroc, hone]; omega
  · rw [hroc]; omega
  · rw [BitVec.toNat_add, hroc, hone]; omega
  · rw [hroc]; omega

/-- Once the sequence number is set, its initialisation does nothing. -/
theorem initSeqNum_of_set {ctx : CryptoContext} (hset : ctx.seqNumSet = true)
    (newSeqNb : BitVec 16) : ctx.initSeqNum newSeqNb = ctx := by
  rw [initSeqNum, if_pos hset]

/-- On a context that has seen a packet `guessIndex` writes `guessed_roc` alone. -/
theorem guessIndex_of_set {ctx : CryptoContext} (hset : ctx.seqNumSet = true)
    (newSeqNb : BitVec 16) :
    ctx.guessIndex newSeqNb = (joinIndex (guessRoc ctx.roc ctx.sL newSeqNb) newSeqNb,
      ctx.setGuessedRoc (guessRoc ctx.roc ctx.sL newSeqNb)) := by
  rw [guessIndex, initSeqNum_of_set hset]

/-- **`guessIndex` near the stored index** returns the index itself. -/
theorem guessIndex_near {ctx : CryptoContext} (hset : ctx.seqNumSet = true) {i : ℕ}
    (hi : i < 2 ^ 48) (hnear : ctx.index < i + 2 ^ 15 ∧ i < ctx.index + 2 ^ 15) :
    ctx.guessIndex (seqOf i)
      = (BitVec.ofNat 64 i, ctx.setGuessedRoc (BitVec.ofNat 32 (i / 2 ^ 16))) := by
  rw [guessIndex_of_set hset, guessRoc_near ctx hi hnear, joinIndex_halves hi]

/-- The distance the callers compute is the distance of the indices. -/
theorem guessDelta_near {ctx : CryptoContext} (hset : ctx.seqNumSet = true) {i : ℕ}
    (hi : i < 2 ^ 48) (hnear : ctx.index < i + 2 ^ 15 ∧ i < ctx.index + 2 ^ 15) :
    ctx.guessDelta (seqOf i) = (i : ℤ) - ctx.index := by
  have hlt := ctx.index_lt
  have hstored : joinIndex ctx.roc ctx.sL = BitVec.ofNat 64 ctx.index := joinIndex_stored ctx
  rw [guessDelta, guessIndex_near hset hi hnear]
  simp only [setGuessedRoc]
  rw [hstored, BitVec.toInt_eq_toNat_bmod, BitVec.toNat_sub, BitVec.toNat_ofNat,
    BitVec.toNat_ofNat, Nat.mod_eq_of_lt (by omega : i < 2 ^ 64),
    Nat.mod_eq_of_lt (by omega : ctx.index < 2 ^ 64), Int.bmod]
  split_ifs <;> omega

/-! ## The replay check and the update near the stored index -/

/-- **`checkReplay` near the stored index**: packets ahead pass, packets more than 64
behind do not, and in between the window decides. -/
theorem checkReplay_near {ctx : CryptoContext} (hpol : ctx.nullPolicy = false)
    (hset : ctx.seqNumSet = true) {i : ℕ} (hi : i < 2 ^ 48)
    (hnear : ctx.index < i + 2 ^ 15 ∧ i < ctx.index + 2 ^ 15) :
    ctx.checkReplay T (seqOf i)
      = (decide (ctx.index < i ∨ (ctx.index ≤ i + 64
            ∧ T.shr64 ctx.replayWindow ((ctx.index : ℤ) - i) &&& 0x1 = 0)),
          ctx.setGuessedRoc (BitVec.ofNat 32 (i / 2 ^ 16))) := by
  rw [checkReplay, if_neg (by simp [hpol]), initSeqNum_of_set hset]
  simp only
  rw [guessDelta_near hset hi hnear, guessIndex_near hset hi hnear,
    show -((i : ℤ) - ctx.index) = (ctx.index : ℤ) - i by ring, replayWindowSize]
  split_ifs with h1 h2 h3
  · rw [decide_eq_true (Or.inl (by omega))]
  · rw [decide_eq_false (by omega)]
  · rw [decide_eq_false]
    rintro (h | ⟨-, h⟩)
    · omega
    · exact h3 h
  · rw [decide_eq_true (Or.inr ⟨by omega, not_not.mp h3⟩)]

/-- The shift counts of that call. -/
theorem checkReplayShifts_near {ctx : CryptoContext} (hpol : ctx.nullPolicy = false)
    (hset : ctx.seqNumSet = true) {i : ℕ} (hi : i < 2 ^ 48)
    (hnear : ctx.index < i + 2 ^ 15 ∧ i < ctx.index + 2 ^ 15) :
    ctx.checkReplayShifts (seqOf i)
      = if i ≤ ctx.index ∧ ctx.index ≤ i + 64 then [(ctx.index : ℤ) - i] else [] := by
  rw [checkReplayShifts, if_neg (by simp [hpol]), initSeqNum_of_set hset]
  simp only
  rw [guessDelta_near hset hi hnear,
    show -((i : ℤ) - ctx.index) = (ctx.index : ℤ) - i by ring, replayWindowSize]
  split_ifs with h1 h2 h3 h3 h3 <;> first | rfl | omega

/-- Comparing rollover counters is comparing the high halves of the indices. -/
theorem ofNat_gt_roc_iff (ctx : CryptoContext) {i : ℕ} (hi : i < 2 ^ 48) :
    BitVec.ofNat 32 (i / 2 ^ 16) > ctx.roc ↔ ctx.index / 2 ^ 16 < i / 2 ^ 16 := by
  rw [gt_iff_lt, BitVec.lt_def, BitVec.toNat_ofNat, ctx.roc_eq_index_div]
  omega

/-- Comparing sequence numbers is comparing the low halves of the indices. -/
theorem seqOf_gt_sL_iff (ctx : CryptoContext) (i : ℕ) :
    seqOf i > ctx.sL ↔ ctx.index % 2 ^ 16 < i % 2 ^ 16 := by
  rw [gt_iff_lt, BitVec.lt_def, toNat_seqOf, ctx.sL_eq_index_mod]

/-- The pair moves to a packet ahead. -/
theorem advance_ahead (ctx : CryptoContext) {i : ℕ} (hi : i < 2 ^ 48)
    (hnear : i < ctx.index + 2 ^ 15) (hahead : ctx.index < i) :
    advance ctx.roc (BitVec.ofNat 32 (i / 2 ^ 16)) ctx.sL (seqOf i)
      = (BitVec.ofNat 32 (i / 2 ^ 16), seqOf i) := by
  have hgt := ofNat_gt_roc_iff ctx hi
  have hsgt := seqOf_gt_sL_iff ctx i
  by_cases hwrap : ctx.index / 2 ^ 16 < i / 2 ^ 16
  · -- a new rollover period: the last assignment sets both halves
    rw [advance, if_pos (hgt.mpr hwrap)]
  · have hsame : BitVec.ofNat 32 (i / 2 ^ 16) = ctx.roc := by
      apply BitVec.eq_of_toNat_eq
      rw [BitVec.toNat_ofNat, ctx.roc_eq_index_div]; omega
    rw [advance, if_pos (hsgt.mpr (by omega)), if_neg (fun h => hwrap (hgt.mp h)), hsame]

/-- A packet that is not ahead keeps `roc`, but replaces `s_l` when its sequence
number is the larger one. -/
theorem advance_not_ahead (ctx : CryptoContext) {i : ℕ} (hle : i ≤ ctx.index) :
    advance ctx.roc (BitVec.ofNat 32 (i / 2 ^ 16)) ctx.sL (seqOf i)
      = (ctx.roc, if seqOf i > ctx.sL then seqOf i else ctx.sL) := by
  have hlt := ctx.index_lt
  have hgt := ofNat_gt_roc_iff ctx (show i < 2 ^ 48 by omega)
  rw [advance, if_neg (fun h => by have := hgt.mp h; omega)]

/-- **`update` near the stored index.** -/
theorem update_near {ctx : CryptoContext} (hset : ctx.seqNumSet = true) {i : ℕ}
    (hi : i < 2 ^ 48) (hnear : ctx.index < i + 2 ^ 15 ∧ i < ctx.index + 2 ^ 15)
    {roc : BitVec 32} {sL : BitVec 16}
    (hadv : advance ctx.roc (BitVec.ofNat 32 (i / 2 ^ 16)) ctx.sL (seqOf i) = (roc, sL)) :
    ctx.update T (seqOf i) = { ctx with
      guessedRoc := BitVec.ofNat 32 (i / 2 ^ 16)
      replayWindow := shiftWindow T ctx.replayWindow ((i : ℤ) - ctx.index)
      roc := roc
      sL := sL } := by
  rw [update, guessDelta_near hset hi hnear, guessIndex_near hset hi hnear]
  simp only [setGuessedRoc]
  rw [hadv]

/-- Behind the stored index a larger sequence number means an earlier rollover
period. -/
theorem seqOf_gt_sL_iff_wrapped (ctx : CryptoContext) {i : ℕ} (hnear : ctx.index < i + 2 ^ 15)
    (hle : i ≤ ctx.index) : seqOf i > ctx.sL ↔ i / 2 ^ 16 < ctx.index / 2 ^ 16 := by
  rw [seqOf_gt_sL_iff]
  omega

/-- What the context looks like after `checkReplay`, once it has seen a packet: at most
`guessed_roc` has changed. -/
theorem checkReplay_snd_of_set {ctx : CryptoContext} (hset : ctx.seqNumSet = true)
    (newSeqNb : BitVec 16) : ∃ g, (ctx.checkReplay T newSeqNb).2 = ctx.setGuessedRoc g := by
  rw [checkReplay, initSeqNum_of_set hset]
  simp only
  rw [guessIndex_of_set hset]
  split_ifs
  · exact ⟨ctx.guessedRoc, rfl⟩
  all_goals exact ⟨_, rfl⟩

/-- A packet ahead becomes the stored index. -/
theorem index_update_ahead {ctx : CryptoContext} (hset : ctx.seqNumSet = true) {i : ℕ}
    (hi : i < 2 ^ 48) (hnear : i < ctx.index + 2 ^ 15) (hahead : ctx.index < i) :
    (ctx.update T (seqOf i)).index = i := by
  rw [update_near T hset hi (by omega) (advance_ahead ctx hi hnear hahead)]
  show (BitVec.ofNat 32 (i / 2 ^ 16)).toNat * 2 ^ 16 + (seqOf i).toNat = i
  rw [toNat_seqOf, BitVec.toNat_ofNat]
  omega

/-- **A packet that is not ahead** leaves the stored index alone exactly if it belongs to
the current rollover period: one from before a wrap has the larger sequence number. -/
theorem index_update_not_ahead {ctx : CryptoContext} (hset : ctx.seqNumSet = true) {i : ℕ}
    (hnear : ctx.index < i + 2 ^ 15) (hle : i ≤ ctx.index) :
    (ctx.update T (seqOf i)).index = ctx.index ↔ ctx.index / 2 ^ 16 ≤ i / 2 ^ 16 := by
  have hlt := ctx.index_lt
  have hgt := seqOf_gt_sL_iff_wrapped ctx hnear hle
  have hsL := seqOf_gt_sL_iff ctx i
  rw [update_near T hset (by omega) (by omega) (advance_not_ahead ctx hle)]
  show ctx.roc.toNat * 2 ^ 16 + (if seqOf i > ctx.sL then seqOf i else ctx.sL).toNat
    = ctx.index ↔ _
  have hroc := ctx.roc_eq_index_div
  have hmod := ctx.sL_eq_index_mod
  by_cases hwrap : i / 2 ^ 16 < ctx.index / 2 ^ 16
  · have hbig := hsL.mp (hgt.mpr hwrap)
    rw [if_pos (hgt.mpr hwrap), toNat_seqOf]
    omega
  · rw [if_neg (fun h => hwrap (hgt.mp h))]
    omega

@[simp] theorem update_seqNumSet (ctx : CryptoContext) (newSeqNb : BitVec 16) :
    (ctx.update T newSeqNb).seqNumSet = true :=
  initSeqNum_seqNumSet ctx newSeqNb

/-! ## The first packet -/

/-- A context that has not processed a packet yet. -/
structure Fresh (ctx : CryptoContext) : Prop where
  unset : ctx.seqNumSet = false
  window : ctx.replayWindow = 0

/-- What the constructor returns is fresh. -/
theorem new_fresh (ssrc roc : BitVec 32) (keyDerivRate : BitVec 64) (ealg : SrtpEncryption)
    (aalg : SrtpAuthentication) (masterKey masterSalt : Octets)
    (ekeyl akeyl skeyl tagLength : ℕ) (htag : tagLength ≤ 20) :
    (CryptoContext.new ssrc roc keyDerivRate ealg aalg masterKey masterSalt ekeyl akeyl skeyl
      tagLength htag).Fresh := ⟨rfl, rfl⟩

/-- A fresh context once it has looked at its first packet, with index `i`. -/
def firstSeen (ctx : CryptoContext) (i : ℕ) : CryptoContext :=
  { ctx with seqNumSet := true, sL := seqOf i, guessedRoc := BitVec.ofNat 32 (i / 2 ^ 16) }

section FirstPacket

variable {T} {ctx : CryptoContext} {i : ℕ}

theorem firstSeen_index (hroc : i / 2 ^ 16 = ctx.roc.toNat) : (ctx.firstSeen i).index = i := by
  show ctx.roc.toNat * 2 ^ 16 + (seqOf i).toNat = i
  rw [toNat_seqOf, ← hroc]
  omega

/-- The context with the sequence number set from the first packet. -/
theorem initSeqNum_fresh (hf : ctx.Fresh) (newSeqNb : BitVec 16) :
    ctx.initSeqNum newSeqNb = { ctx with seqNumSet := true, sL := newSeqNb } := by
  rw [initSeqNum, if_neg (by simp [hf.unset])]

/-- `guessIndex` on a fresh context returns the index with the context's own rollover
counter. -/
theorem guessIndex_first (hf : ctx.Fresh) (hi : i < 2 ^ 48) (hroc : i / 2 ^ 16 = ctx.roc.toNat) :
    ctx.guessIndex (seqOf i) = (BitVec.ofNat 64 i, ctx.firstSeen i) := by
  have hinit := initSeqNum_fresh hf (seqOf i)
  have hidx : (ctx.initSeqNum (seqOf i)).index = i := by rw [hinit]; exact firstSeen_index hroc
  have hset : (ctx.initSeqNum (seqOf i)).seqNumSet = true := by rw [hinit]
  have hguess := guessIndex_near hset hi (by rw [hidx]; omega)
  rw [guessIndex, initSeqNum_of_set hset] at hguess
  rw [guessIndex, hguess, hinit]
  rfl

/-- Looking at the packet again changes nothing. -/
theorem guessIndex_firstSeen (hi : i < 2 ^ 48) (hroc : i / 2 ^ 16 = ctx.roc.toNat) :
    (ctx.firstSeen i).guessIndex (seqOf i) = (BitVec.ofNat 64 i, ctx.firstSeen i) := by
  have hidx := firstSeen_index hroc
  rw [guessIndex_near rfl hi (by rw [hidx]; omega)]
  rfl

/-- `checkReplay` initialises the sequence number itself, so it may be read as if that
had been done before. -/
theorem checkReplay_initSeqNum (newSeqNb : BitVec 16) (hpol : ctx.nullPolicy = false)
    (hpol' : (ctx.initSeqNum newSeqNb).nullPolicy = false)
    (hset : (ctx.initSeqNum newSeqNb).seqNumSet = true) :
    ctx.checkReplay T newSeqNb = (ctx.initSeqNum newSeqNb).checkReplay T newSeqNb ∧
      ctx.checkReplayShifts newSeqNb = (ctx.initSeqNum newSeqNb).checkReplayShifts newSeqNb := by
  have hne : ¬ ctx.nullPolicy = true := by rw [hpol]; decide
  have hne' : ¬ (ctx.initSeqNum newSeqNb).nullPolicy = true := by rw [hpol']; decide
  unfold checkReplay checkReplayShifts
  rw [initSeqNum_of_set hset, if_neg hne, if_neg hne', if_neg hne, if_neg hne']
  exact ⟨rfl, rfl⟩

/-- **The first packet passes the replay check**, with the one shift count `0`. -/
theorem checkReplay_first (hpol : ctx.nullPolicy = false) (hf : ctx.Fresh) (hi : i < 2 ^ 48)
    (hroc : i / 2 ^ 16 = ctx.roc.toNat) :
    ctx.checkReplay T (seqOf i) = (true, ctx.firstSeen i) ∧
      ctx.checkReplayShifts (seqOf i) = [0] := by
  have hinit := initSeqNum_fresh hf (seqOf i)
  have hset : (ctx.initSeqNum (seqOf i)).seqNumSet = true := by rw [hinit]
  have hpol' : (ctx.initSeqNum (seqOf i)).nullPolicy = false := by rw [hinit]; exact hpol
  have hidx : (ctx.initSeqNum (seqOf i)).index = i := by rw [hinit]; exact firstSeen_index hroc
  have hwin : (ctx.initSeqNum (seqOf i)).replayWindow = 0 := by rw [hinit]; exact hf.window
  obtain ⟨hcheck, hshifts⟩ := checkReplay_initSeqNum (T := T) (seqOf i) hpol hpol' hset
  rw [hcheck, hshifts, checkReplay_near T hpol' hset hi (by omega),
    checkReplayShifts_near hpol' hset hi (by omega), hidx, if_pos (by omega), hwin, sub_self]
  have hzero : T.shr64 0 0 &&& 0x1 = 0 := by
    have h0 := T.shr64_of_lt 0 0 (by omega)
    rw [Nat.cast_zero] at h0
    rw [h0]
    decide
  rw [decide_eq_true (Or.inr ⟨by omega, hzero⟩), hinit]
  exact ⟨rfl, rfl⟩

/-- `update` with the first packet sets the low bit of the window. -/
theorem update_first (hf : ctx.Fresh) (hi : i < 2 ^ 48) (hroc : i / 2 ^ 16 = ctx.roc.toNat) :
    (ctx.firstSeen i).update T (seqOf i) = { ctx.firstSeen i with replayWindow := 1 } ∧
      (ctx.firstSeen i).updateShifts (seqOf i) = [0] := by
  have hidx := firstSeen_index hroc
  have hnear : (ctx.firstSeen i).index < i + 2 ^ 15 ∧ i < (ctx.firstSeen i).index + 2 ^ 15 := by
    omega
  have hone : shiftWindow T (ctx.firstSeen i).replayWindow ((i : ℤ) - (ctx.firstSeen i).index)
      = 1 := by
    rw [hidx, shiftWindow, if_neg (by omega),
      show (ctx.firstSeen i).replayWindow = 0 from hf.window,
      show (i : ℤ) - i = ((0 : ℕ) : ℤ) by omega, T.shl32_of_lt _ _ (by omega)]
    decide
  have hadv := advance_not_ahead (ctx.firstSeen i) (i := i) (by omega)
  have hsame : ¬ seqOf i > (ctx.firstSeen i).sL := by
    rw [seqOf_gt_sL_iff, hidx]
    exact lt_irrefl _
  rw [if_neg hsame] at hadv
  constructor
  · rw [update_near T rfl hi hnear hadv, hone]
    rfl
  · rw [updateShifts, guessDelta_near rfl hi hnear, hidx, sub_self]

end FirstPacket

/-! ## The next packet in order -/

/-- The packet with index `i` is the first one, or lies less than `2^15` ahead of the
stored index. -/
def Awaits (ctx : CryptoContext) (i : ℕ) : Prop :=
  i < 2 ^ 48 ∧ ((ctx.Fresh ∧ i / 2 ^ 16 = ctx.roc.toNat) ∨
    (ctx.seqNumSet = true ∧ ctx.index < i ∧ i < ctx.index + 2 ^ 15))

/-- **A packet in order** passes the replay check, gets its own index, and becomes the
stored index; up to `update` the rollover counter is the old one. -/
theorem Awaits.accept {T} {ctx : CryptoContext} {i : ℕ} (h : ctx.Awaits i) :
    (ctx.checkReplay T (seqOf i)).1 = true ∧
      ∃ ctx₁, (ctx.checkReplay T (seqOf i)).2.guessIndex (seqOf i) = (BitVec.ofNat 64 i, ctx₁) ∧
        ctx₁.roc = ctx.roc ∧ (ctx₁.update T (seqOf i)).index = i := by
  obtain ⟨hi, ⟨hf, hroc⟩ | ⟨hset, hahead, hnear⟩⟩ := h
  · have hidx : ((ctx.firstSeen i).update T (seqOf i)).index = i := by
      rw [(update_first hf hi hroc).1]
      exact firstSeen_index hroc
    by_cases hpol : ctx.nullPolicy = true
    · rw [checkReplay, if_pos hpol]
      exact ⟨rfl, ctx.firstSeen i, guessIndex_first hf hi hroc, rfl, hidx⟩
    · rw [(checkReplay_first (Bool.eq_false_iff.mpr hpol) hf hi hroc).1]
      exact ⟨rfl, ctx.firstSeen i, guessIndex_firstSeen hi hroc, rfl, hidx⟩
  · obtain ⟨g, hg⟩ := checkReplay_snd_of_set T hset (seqOf i)
    constructor
    · by_cases hpol : ctx.nullPolicy = true
      · rw [checkReplay, if_pos hpol]
      · rw [checkReplay_near T (Bool.eq_false_iff.mpr hpol) hset hi (by omega)]
        exact decide_eq_true (Or.inl hahead)
    · rw [hg, guessIndex_setGuessedRoc, guessIndex_near hset hi (by omega)]
      refine ⟨_, rfl, rfl, ?_⟩
      rw [update_setGuessedRoc]
      exact index_update_ahead T hset hi hnear hahead

end CryptoContext
