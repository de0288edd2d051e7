/-
# `CryptoContextCtrl`: the SRTCP context and its replay check

Models `src/CryptoContextCtrl.cpp` and `src/ccrtp/CryptoContextCtrl.h`: the context, its
constructor, and `checkReplay` and `update` on the explicit 31-bit SRTCP index.
Protection of packets is in `Srtcp.lean`, key derivation in `KeyDerivation.lean`.

Both differences of `s_l` and the index are taken in `uint32` and only then widened to
`int64`, so neither is ever negative: `checkReplay` turns down an index only if it is
the one stored last, and `update` stores every index, also a lower one.

* `checkReplay_eq_true_iff` : what the replay check comes to;
* `srtcp_replay_exact` : replay protection over whole runs holds exactly if the indices
  are presented in non-decreasing order.
-/
import CcRtp.CryptoContext
import CcRtp.AlongRun

/-- An SRTCP cryptographic context. -/
structure CryptoContextCtrl where
  ssrcCtx : BitVec 32
  sL : BitVec 32
  replayWindow : BitVec 64
  masterKey : Octets
  masterSalt : Octets
  kE : Octets
  kA : Octets
  kS : Octets
  ealg : SrtpEncryption
  aalg : SrtpAuthentication
  ekeyl : ℕ
  akeyl : ℕ
  skeyl : ℕ
  tagLength : ℕ
  macCtx : Option MacContext
  cipher : Option SrtpSymCrypto
  f8Cipher : Option SrtpSymCrypto
  tagLength_le : tagLength ≤ 20
  tagLength_null : aalg = .null → tagLength = 0

namespace CryptoContextCtrl

/-- The constructor of an active context.  It does not set `s_l`, which starts with
whatever the memory held. -/
def new (ssrc sL : BitVec 32) (ealg : SrtpEncryption) (aalg : SrtpAuthentication)
    (masterKey masterSalt : Octets) (ekeyl akeyl skeyl tagLength : ℕ)
    (htag : tagLength ≤ 20) : CryptoContextCtrl where
  ssrcCtx := ssrc
  sL := sL
  replayWindow := 0
  masterKey := masterKey
  masterSalt := masterSalt
  kE := keyBuffer (ealg ≠ .null) ekeyl
  kA := keyBuffer (aalg ≠ .null) akeyl
  kS := keyBuffer (ealg ≠ .null) skeyl
  ealg := ealg
  aalg := aalg
  ekeyl := ekeyl
  akeyl := akeyl
  skeyl := skeyl
  tagLength := if aalg = .null then 0 else tagLength
  macCtx := none
  cipher := newCipher ealg
  f8Cipher := newF8Cipher ealg
  tagLength_le := storedTagLength_le aalg htag
  tagLength_null := storedTagLength_null aalg tagLength

/-- `getTagLength` -/
def getTagLength (ctx : CryptoContextCtrl) : ℕ := ctx.tagLength

/-- `getMkiLength`: set to zero by the constructors and written nowhere else. -/
def getMkiLength (_ : CryptoContextCtrl) : ℕ := 0

/-- `aalg == SrtpAuthenticationNull && ealg == SrtpEncryptionNull` -/
def nullPolicy (ctx : CryptoContextCtrl) : Bool := ctx.aalg = .null ∧ ctx.ealg = .null

/-- What the context shares with the one of its peer. -/
def keys (ctx : CryptoContextCtrl) : SessionKeys where
  ealg := ctx.ealg
  aalg := ctx.aalg
  tagLength := ctx.tagLength
  kS := ctx.kS
  cipher := ctx.cipher
  f8Cipher := ctx.f8Cipher
  macCtx := ctx.macCtx
  tagLength_le := ctx.tagLength_le
  tagLength_null := ctx.tagLength_null

variable (T : ShiftUnit)

/-- `checkReplay(index)` -/
def checkReplay (ctx : CryptoContextCtrl) (index : BitVec 32) : Bool :=
  if ctx.nullPolicy then true
  else
    let delta : ℤ := (ctx.sL - index).toNat
    if delta > 0 then true
    else if -delta > replayWindowSize then false
    else if T.shr64 ctx.replayWindow (-delta) &&& 0x1 ≠ 0 then false
    else true

/-- `update(index)` -/
def update (ctx : CryptoContextCtrl) (index : BitVec 32) : CryptoContextCtrl :=
  let delta : ℤ := (index - ctx.sL).toNat
  { ctx with
    replayWindow := CryptoContext.shiftWindow T ctx.replayWindow delta
    sL := index }

/-! ## What the two functions come to -/

variable {T}

/-- **`checkReplay` only compares with the last index.** -/
theorem checkReplay_eq_true_iff {ctx : CryptoContextCtrl} (hpol : ctx.nullPolicy = false)
    (index : BitVec 32) :
    ctx.checkReplay T index = true ↔ index ≠ ctx.sL ∨ ctx.replayWindow.getLsbD 0 = false := by
  have hzero : (ctx.sL - index).toNat = 0 ↔ index = ctx.sL := by
    rw [← BitVec.toNat_inj, BitVec.toNat_sub]
    have h1 := index.isLt
    have h2 := ctx.sL.isLt
    omega
  have hshift : T.shr64 ctx.replayWindow 0 &&& 0x1 = 0 ↔ ctx.replayWindow.getLsbD 0 = false := by
    have h := T.shr64_of_lt ctx.replayWindow 0 (by omega)
    rw [Nat.cast_zero] at h
    rw [h]
    exact bit_clear_iff (by omega) ctx.replayWindow 0
  rw [checkReplay, if_neg (by rw [hpol]; decide)]
  by_cases heq : index = ctx.sL
  · have hd := hzero.mpr heq
    simp only [hd, Nat.cast_zero, neg_zero, replayWindowSize]
    rw [if_neg (by omega), if_neg (by omega)]
    simp only [heq, ne_eq, not_true_eq_false, false_or]
    by_cases hbit : ctx.replayWindow.getLsbD 0 = false
    · rw [if_neg (not_not.mpr (hshift.mpr hbit))]
      exact ⟨fun _ => hbit, fun _ => rfl⟩
    · rw [if_pos (fun h => hbit (hshift.mp h))]
      exact ⟨fun h => absurd h (by decide), fun h => absurd h hbit⟩
  · have hd : (ctx.sL - index).toNat ≠ 0 := fun h => heq (hzero.mp h)
    simp only
    rw [if_pos (by omega)]
    exact ⟨fun _ => Or.inl heq, fun _ => rfl⟩

/-- After `update` the low bit of the window is set. -/
theorem update_window_low (ctx : CryptoContextCtrl) (index : BitVec 32) :
    (ctx.update T index).replayWindow.getLsbD 0 = true := by
  show (CryptoContext.shiftWindow T ctx.replayWindow _).getLsbD 0 = true
  rw [CryptoContext.shiftWindow]
  split_ifs with hpos
  · rw [BitVec.getLsbD_or, (getLsbD_one_iff (by omega)).mpr rfl, Bool.or_true]
  · have hd : ((index - ctx.sL).toNat : ℤ) = ((0 : ℕ) : ℤ) := by omega
    rw [hd, T.shl32_of_lt _ 0 (by omega), BitVec.getLsbD_or]
    have hone : (((1 : BitVec 32) <<< 0).signExtend 64).getLsbD 0 = true := by decide
    rw [hone, Bool.or_true]

@[simp] theorem update_sL (ctx : CryptoContextCtrl) (index : BitVec 32) :
    (ctx.update T index).sL = index := rfl

@[simp] theorem keys_update (ctx : CryptoContextCtrl) (index : BitVec 32) :
    (ctx.update T index).keys = ctx.keys := rfl

@[simp] theorem update_nullPolicy (ctx : CryptoContextCtrl) (index : BitVec 32) :
    (ctx.update T index).nullPolicy = ctx.nullPolicy := rfl

end CryptoContextCtrl

/-! ## Runs of presented indices -/

/-- A receiver of authentic SRTCP packets: its context, and as history the indices
accepted so far. -/
structure ControlReceiver where
  ctx : CryptoContextCtrl
  accepted : List ℕ

namespace ControlReceiver

variable (T : ShiftUnit)

/-- The answer of `checkReplay` to the index. -/
def accepts (r : ControlReceiver) (i : ℕ) : Bool := r.ctx.checkReplay T (BitVec.ofNat 32 i)

/-- One authentic packet: `checkReplay`, and `update` if it accepts. -/
def present (r : ControlReceiver) (i : ℕ) : ControlReceiver :=
  if r.accepts T i then ⟨r.ctx.update T (BitVec.ofNat 32 i), i :: r.accepted⟩ else r

/-- **The property of one packet**: it is accepted exactly if its index lies above the
highest accepted one, or at most 63 below it and was not accepted before; and afterwards
`s_l` is the highest accepted index. -/
def ReplayProtected (r : ControlReceiver) (i : ℕ) : Prop :=
  (r.accepts T i = true ↔ Acceptable 64 r.accepted i) ∧
    (r.present T i).accepted.max? = some (r.present T i).ctx.sL.toNat

instance (r : ControlReceiver) (i : ℕ) : Decidable (r.ReplayProtected T i) :=
  inferInstanceAs (Decidable (_ ∧ _))

/-- No accepted index is above this one. -/
def InOrder (r : ControlReceiver) (i : ℕ) : Prop := ∀ a ∈ r.accepted, a ≤ i

/-- **The invariant**: nothing was accepted yet and the window is empty, or `s_l` is the
highest accepted index and the low bit of the window is set. -/
structure Synced (r : ControlReceiver) : Prop where
  policy : r.ctx.nullPolicy = false
  state : (r.accepted = [] ∧ r.ctx.replayWindow = 0) ∨
    (r.accepted.max? = some r.ctx.sL.toNat ∧ r.ctx.replayWindow.getLsbD 0 = true)
  nodup : r.accepted.Nodup

namespace Synced

variable {T} {r : ControlReceiver} {i : ℕ}

/-- In step with the packets, the check accepts every index but the highest one. -/
theorem accepts_iff (hs : r.Synced) (hi : i < 2 ^ 31) :
    r.accepts T i = true ↔ r.accepted.max? ≠ some i := by
  have hsL := r.ctx.sL.isLt
  rw [accepts, CryptoContextCtrl.checkReplay_eq_true_iff hs.policy, Ne, ← BitVec.toNat_inj,
    BitVec.toNat_ofNat, Nat.mod_eq_of_lt (by omega)]
  rcases hs.state with ⟨hnil, hwin⟩ | ⟨hmax, hlow⟩
  · rw [hnil, hwin]
    simp
  · rw [hmax, hlow, Ne, Option.some_inj]
    constructor
    · rintro (hne | hlow)
      · exact fun h => hne h.symm
      · cases hlow
    · intro hne
      exact Or.inl (fun h => hne h.symm)

/-- **Exactness of one step**: the packet is handled as it should be exactly if it comes
in order. -/
theorem replayProtected_iff (hs : r.Synced) (hi : i < 2 ^ 31) :
    r.ReplayProtected T i ↔ r.InOrder i := by
  have hacc := hs.accepts_iff (T := T) hi
  have hnat : (BitVec.ofNat 32 i).toNat = i := by rw [BitVec.toNat_ofNat]; omega
  rw [ReplayProtected, present]
  cases hm : r.accepted.max? with
  | none =>
      have hnil : r.accepted = [] := List.max?_eq_none_iff.mp hm
      have hok : r.accepts T i = true := hacc.mpr (by rw [hm]; simp)
      rw [if_pos hok, hok, InOrder, hnil, CryptoContextCtrl.update_sL, hnat]
      simp [Acceptable]
  | some h =>
      obtain ⟨hmem, hle⟩ := List.max?_eq_some_iff.mp hm
      have hbound : r.InOrder i ↔ h ≤ i :=
        ⟨fun H => H h hmem, fun H a ha => le_trans (hle a ha) H⟩
      have hsL : r.ctx.sL.toNat = h := by
        rcases hs.state with ⟨hnil, -⟩ | ⟨hmax, -⟩
        · rw [hnil] at hm
          cases hm
        · rw [hmax, Option.some_inj] at hm
          exact hm
      rw [hm, Ne, Option.some_inj] at hacc
      rw [acceptable_iff_of_max hmem hle, hbound]
      by_cases heq : h = i
      · -- a repetition of the highest index is turned down
        have hno : ¬ r.accepts T i = true := fun hok => hacc.mp hok heq
        rw [if_neg hno, hm, hsL]
        subst heq
        simp only [hno, Bool.false_eq_true, false_iff, lt_self_iff_false, false_or, not_and,
          le_refl, iff_true]
        exact ⟨fun hnew => absurd hmem hnew, trivial⟩
      · -- any other index is accepted and stored
        have hok : r.accepts T i = true := hacc.mpr heq
        rw [if_pos hok, hok, CryptoContextCtrl.update_sL, hnat, List.max?_cons, hm]
        simp only [true_iff, Option.elim_some, Option.some_inj]
        constructor
        · rintro ⟨-, hmax⟩
          omega
        · intro hle'
          exact ⟨Or.inl (by omega), by omega⟩

/-- A packet in order keeps the invariant. -/
theorem present (hs : r.Synced) (hi : i < 2 ^ 31) (hin : r.InOrder i) :
    (r.present T i).Synced := by
  have hprot := ((hs.replayProtected_iff (T := T) hi).mpr hin)
  obtain ⟨hiff, hmax⟩ := hprot
  by_cases hok : r.accepts T i = true
  · rw [ControlReceiver.present, if_pos hok] at hmax ⊢
    refine ⟨hs.policy, Or.inr ⟨hmax, CryptoContextCtrl.update_window_low _ _⟩, ?_⟩
    exact List.nodup_cons.mpr ⟨(hiff.mp hok).notMem, hs.nodup⟩
  · rw [ControlReceiver.present, if_neg hok]
    exact hs

/-- After a packet in order its index is among the accepted ones. -/
theorem mem_present (hs : r.Synced) (hi : i < 2 ^ 31) (a : ℕ) :
    a ∈ (r.present T i).accepted ↔ a = i ∨ a ∈ r.accepted := by
  by_cases hok : r.accepts T i = true
  · rw [ControlReceiver.present, if_pos hok, List.mem_cons]
  · have hmax : r.accepted.max? = some i := by
      by_contra hne
      exact hok ((hs.accepts_iff hi).mpr hne)
    have hmem := (List.max?_eq_some_iff.mp hmax).1
    rw [ControlReceiver.present, if_neg hok]
    constructor
    · exact Or.inr
    · rintro (rfl | h)
      · exact hmem
      · exact h

/-- Along a run, "in order" says that the presented indices never go down. -/
theorem alongRun_inOrder_iff (l : List ℕ) :
    ∀ {r : ControlReceiver}, r.Synced → (∀ i ∈ l, i < 2 ^ 31) →
      (AlongRun (ControlReceiver.present T) InOrder r l ↔
        (∀ a ∈ r.accepted, ∀ i ∈ l, a ≤ i) ∧ l.Pairwise (· ≤ ·)) := by
  induction l with
  | nil =>
      intro r _ _
      simp [AlongRun]
  | cons i l ih =>
      intro r hs hlt
      have hi := hlt i List.mem_cons_self
      rw [AlongRun, List.pairwise_cons]
      constructor
      · rintro ⟨hin, hrun⟩
        obtain ⟨hall, hpw⟩ := (ih (hs.present hi hin)
          (fun j hj => hlt j (List.mem_cons_of_mem i hj))).mp hrun
        refine ⟨fun a ha j hj => ?_, fun j hj => ?_, hpw⟩
        · rcases List.mem_cons.mp hj with rfl | hj
          · exact hin a ha
          · exact hall a ((hs.mem_present hi a).mpr (Or.inr ha)) j hj
        · exact hall i ((hs.mem_present hi i).mpr (Or.inl rfl)) j hj
      · rintro ⟨hall, hi', hpw⟩
        have hin : r.InOrder i := fun a ha => hall a ha i List.mem_cons_self
        refine ⟨hin, (ih (hs.present hi hin)
          (fun j hj => hlt j (List.mem_cons_of_mem i hj))).mpr ⟨fun a ha j hj => ?_, hpw⟩⟩
        rcases (hs.mem_present hi a).mp ha with rfl | ha
        · exact hi' j hj
        · exact hall a ha j (List.mem_cons_of_mem i hj)

end Synced

end ControlReceiver

/-- **SRTCP replay protection over whole runs.**  Whatever `s_l` holds at first: every
presented packet is handled as replay protection asks for, with `s_l` the highest
accepted index throughout, exactly if the indices are presented in non-decreasing order;
and then no index is accepted twice. -/
theorem srtcp_replay_exact (T : ShiftUnit) {ctx : CryptoContextCtrl}
    (hpol : ctx.nullPolicy = false) (hwin : ctx.replayWindow = 0) (l : List ℕ)
    (hlt : ∀ i ∈ l, i < 2 ^ 31) :
    (AlongRun (ControlReceiver.present T) (ControlReceiver.ReplayProtected T) ⟨ctx, []⟩ l ↔
        l.Pairwise (· ≤ ·)) ∧
      (l.Pairwise (· ≤ ·) → (l.foldl (ControlReceiver.present T) ⟨ctx, []⟩).accepted.Nodup) := by
  have hinit : (⟨ctx, []⟩ : ControlReceiver).Synced := ⟨hpol, Or.inl ⟨rfl, hwin⟩, List.nodup_nil⟩
  have hpre : AlongRun (ControlReceiver.present T) (fun _ i => i < 2 ^ 31) ⟨ctx, []⟩ l :=
    alongRun_of_forall_mem hlt
  have hiff : ∀ (r : ControlReceiver) (i : ℕ), r.Synced → i < 2 ^ 31 →
      (r.ReplayProtected T i ↔ r.InOrder i) := fun r i hs hi => hs.replayProtected_iff hi
  have hkeep : ∀ (r : ControlReceiver) (i : ℕ), r.Synced → i < 2 ^ 31 → r.InOrder i →
      (r.present T i).Synced := fun r i hs hi hin => hs.present hi hin
  have horder : AlongRun (ControlReceiver.present T) ControlReceiver.InOrder ⟨ctx, []⟩ l ↔
      l.Pairwise (· ≤ ·) := by
    rw [ControlReceiver.Synced.alongRun_inOrder_iff l hinit hlt]
    simp
  constructor
  · rw [alongRun_iff_of_invariant hiff hkeep hinit hpre, horder]
  · intro hpw
    have hrun := hpre.and (horder.mpr hpw)
    exact (foldl_of_invariant (fun r i hs hq => hkeep r i hs hq.1 hq.2) hinit hrun).nodup

/-- An SRTCP context with AES in counter mode and HMAC-SHA1; `s_l` starts with `sL`. -/
def CryptoContextCtrl.aesCmSha1 (ssrc sL : BitVec 32) : CryptoContextCtrl :=
  CryptoContextCtrl.new ssrc sL .aesCM .sha1Hmac (List.replicate 16 0) (List.replicate 14 0)
    16 20 14 10 demoTagLength_le

/-- The theorem at a run with a repetition and a gap. -/
theorem srtcp_replay_exact_inOrder :
    AlongRun (ControlReceiver.present .x86) (ControlReceiver.ReplayProtected .x86)
      ⟨.aesCmSha1 0x1122 77, []⟩ [3, 4, 4, 200] :=
  (srtcp_replay_exact .x86 (by decide) rfl _ (by decide)).1.mpr (by decide)

/-- **A late packet replaces `s_l` and opens the window.**  Of the indices 5, 6, 5 all
three are accepted, and `s_l` ends up below the highest one. -/
theorem srtcp_index_accepted_twice :
    (CryptoContextCtrl.aesCmSha1 0x1122 0).nullPolicy = false ∧
      ([5, 6, 5].foldl (ControlReceiver.present .x86) ⟨.aesCmSha1 0x1122 0, []⟩).accepted
        = [5, 6, 5] ∧
      ([5, 6, 5].foldl (ControlReceiver.present .x86) ⟨.aesCmSha1 0x1122 0, []⟩).ctx.sL = 5 ∧
      ¬ AlongRun (ControlReceiver.present .x86) (ControlReceiver.ReplayProtected .x86)
        ⟨.aesCmSha1 0x1122 0, []⟩ [5, 6, 5] := by
  refine ⟨by decide, by decide, by decide, by decide⟩
