/-
# What SRTCP reception reads

`QueueRTCPManager::unprotect` (`src/control.cpp`) takes the length of index and tag from the
length of a datagram, as a `uint32`, and does not ask first whether the datagram is that long.
The places that it reads, and those that `srtcpAuthenticate` and `srtcpEncrypt` read for it
(`src/CryptoContextCtrl.cpp`), are listed here along the same branches.

* `unprotect_of_not_accepts`, `unprotect_of_accepts` : the return value;
* `unprotect_safe_iff` : for which datagrams it all stays inside, and short ones are rejected.
-/
import CcRtp.RtcpReception
import CcRtp.Srtcp

/-- The octets of the memory at `pkt` from an offset on. -/
structure Span where
  offset : ℕ
  count : ℕ
  deriving DecidableEq

/-- The octets belong to the datagram. -/
def Span.Inside (a : Span) (len : ℕ) : Prop := ∀ i, a.offset ≤ i → i < a.offset + a.count → i < len

theorem Span.inside_of_le {a : Span} {len : ℕ} (h : a.offset + a.count ≤ len) : a.Inside len :=
  fun _ _ hi => hi.trans_le h

/-- The last octet of a span that is not empty. -/
theorem Span.Inside.last {a : Span} {len : ℕ} (h : a.Inside len) (hcount : 0 < a.count) :
    a.offset + a.count ≤ len := by
  have hlast := h (a.offset + a.count - 1) (by omega) (by omega)
  omega

namespace QueueRTCPManager

variable (T : ShiftUnit) (P : Primitives) (pkt : Octets) (len : ℕ) (pcc : CryptoContextCtrl)

/-! ## The variables of `unprotect` -/

/-- `payloadLen`, a `uint32`. -/
def payloadLen : BitVec 32 :=
  BitVec.ofNat 32 len - BitVec.ofNat 32 (pcc.getTagLength + pcc.getMkiLength + 4)

/-- `encIndex`, read behind the payload. -/
def encIndex : BitVec 32 :=
  BitVec.ofNat 32 (ofBigEndian (slice pkt (payloadLen len pcc).toNat 4))

/-- `remoteIndex` -/
def remoteIndex : BitVec 32 := encIndex pkt len pcc &&& ~~~0x80000000

/-- The E flag is set. -/
def Encrypted : Prop := encIndex pkt len pcc &&& 0x80000000 ≠ 0

/-- The replay check passes, and the tag is the one that is computed. -/
def Accepts : Prop :=
  pcc.checkReplay T (remoteIndex pkt len pcc) = true ∧
    pcc.srtcpAuthenticate P pkt (payloadLen len pcc).toNat (encIndex pkt len pcc)
      (List.replicate pcc.getTagLength 0) =
        some (slice pkt (len - pcc.getTagLength) pcc.getTagLength)

instance : Decidable (Encrypted pkt len pcc) := inferInstanceAs (Decidable (_ ≠ _))

instance : Decidable (Accepts T P pkt len pcc) := inferInstanceAs (Decidable (_ ∧ _))

/-! ## The accesses -/

/-- `srtcpAuthenticate(pkt, payloadLen, ..)` -/
def authenticateAccesses : List Span :=
  if pcc.aalg = .null then [] else [⟨0, (payloadLen len pcc).toNat⟩]

/-- `srtcpEncrypt(pkt + 8, payloadLen - 8, ..)`: F8 mode takes eight octets for the initial
vector, whatever the length is. -/
def encryptAccesses : List Span :=
  if pcc.ealg = .null then []
  else (if pcc.keys.F8Mode then [⟨8, 8⟩] else []) ++
    [⟨8, (payloadLen len pcc - 8).toNat⟩]

/-- The octets that `unprotect` reads or transforms: the SSRC, the index, what is authenticated,
the tag, and what is decrypted. -/
def unprotectAccesses : List Span :=
  [⟨4, 4⟩, ⟨(payloadLen len pcc).toNat, 4⟩] ++
    if pcc.checkReplay T (remoteIndex pkt len pcc) = true then
      authenticateAccesses len pcc ++ [⟨sizeSub len pcc.getTagLength, pcc.getTagLength⟩] ++
        if Accepts T P pkt len pcc ∧ Encrypted pkt len pcc then encryptAccesses len pcc else []
    else []

/-- **A datagram is dealt with safely**: a short one is rejected, no octet outside is read or
transformed, and neither `payloadLen` nor `payloadLen - 8` wraps where it is computed. -/
structure SafelyUnprotected : Prop where
  rejected : len < 8 + 4 + pcc.getTagLength →
    ∃ r, unprotect T P pkt len pcc = some r ∧ r.1 < 0
  inside : ∀ a ∈ unprotectAccesses T P pkt len pcc, a.Inside len
  payload : (payloadLen len pcc).toNat + (pcc.getTagLength + pcc.getMkiLength + 4) = len
  decrypted : Accepts T P pkt len pcc → Encrypted pkt len pcc →
    (payloadLen len pcc - 8).toNat + 8 = (payloadLen len pcc).toNat

variable {T P pkt len pcc}

/-! ## The return value -/

/-- What is not accepted is rejected, and leaves no trace. -/
theorem unprotect_of_not_accepts (hkeyed : pcc.keys.Keyed) (h : ¬ Accepts T P pkt len pcc) :
    ∃ code, unprotect T P pkt len pcc = some (code, pkt, pcc) ∧ code < 0 := by
  obtain ⟨mac, hmac⟩ : ∃ mac, pcc.srtcpAuthenticate P pkt (payloadLen len pcc).toNat
      (encIndex pkt len pcc) (List.replicate pcc.getTagLength 0) = some mac :=
    ⟨_, SessionKeys.authenticate_eq hkeyed _ List.length_replicate⟩
  unfold unprotect
  dsimp only
  by_cases hreplay : pcc.checkReplay T (remoteIndex pkt len pcc) = false
  · exact ⟨-2, if_pos hreplay, by decide⟩
  · have htag : slice pkt (len - pcc.getTagLength) pcc.getTagLength ≠ mac := by
      rintro rfl
      exact h ⟨Bool.not_eq_false _ ▸ hreplay, hmac⟩
    refine ⟨-1, ?_, by decide⟩
    refine (if_neg hreplay).trans ?_
    unfold payloadLen encIndex payloadLen at hmac
    rw [hmac]
    exact if_pos htag

/-- What is accepted returns the length of the payload. -/
theorem unprotect_of_accepts (h : Accepts T P pkt len pcc) {r : ℤ × Octets × CryptoContextCtrl}
    (hr : unprotect T P pkt len pcc = some r) : r.1 = (payloadLen len pcc).toInt := by
  obtain ⟨hreplay, hmac⟩ := h
  unfold unprotect at hr
  dsimp only at hr
  unfold remoteIndex encIndex payloadLen at hreplay
  unfold encIndex payloadLen at hmac
  rw [hreplay, if_neg (by decide), hmac] at hr
  dsimp only at hr
  rw [if_neg (not_not.mpr rfl)] at hr
  obtain ⟨out, -, rfl⟩ := Option.map_eq_some_iff.mp hr
  rfl

/-! ## The lengths -/

/-- `payloadLen` does not wrap if there is room for index and tag. -/
theorem payloadLen_of_le (hmax : len < 2 ^ 16) (h : 4 + pcc.getTagLength ≤ len) :
    (payloadLen len pcc).toNat + (4 + pcc.getTagLength) = len := by
  unfold payloadLen CryptoContextCtrl.getMkiLength
  rw [BitVec.toNat_sub, BitVec.toNat_ofNat, BitVec.toNat_ofNat]
  omega

/-- The octets to be decrypted are the payload behind its first eight. -/
theorem rear_of_le (h : 8 ≤ (payloadLen len pcc).toNat) :
    (payloadLen len pcc - 8).toNat + 8 = (payloadLen len pcc).toNat := by
  have height : (8 : BitVec 32).toNat = 8 := rfl
  have hlt := (payloadLen len pcc).isLt
  rw [BitVec.toNat_sub, height]
  omega

/-! ## The datagrams -/

/-- The accesses, branch by branch. -/
theorem mem_unprotectAccesses {a : Span} :
    a ∈ unprotectAccesses T P pkt len pcc ↔
      a = ⟨4, 4⟩ ∨ a = ⟨(payloadLen len pcc).toNat, 4⟩ ∨
        (pcc.checkReplay T (remoteIndex pkt len pcc) = true ∧
          (a ∈ authenticateAccesses len pcc ∨
            a = ⟨sizeSub len pcc.getTagLength, pcc.getTagLength⟩ ∨
            (Accepts T P pkt len pcc ∧ Encrypted pkt len pcc ∧ a ∈ encryptAccesses len pcc))) := by
  unfold unprotectAccesses
  split_ifs with hreplay haccepts
  · simp [hreplay, haccepts]
  · simp only [List.mem_append, List.mem_cons, List.not_mem_nil, or_false, hreplay, true_and]
    tauto
  · simp [hreplay]

/-- What is authenticated and decrypted lies in the payload. -/
theorem inside_of_accepts (hlen : 12 + pcc.getTagLength ≤ len) (hmax : len < 2 ^ 16)
    (hf8 : pcc.keys.F8Mode → 16 ≤ len) {a : Span} (ha : a ∈ encryptAccesses len pcc) :
      a.Inside len := by
  have hpayload := payloadLen_of_le hmax (show 4 + pcc.getTagLength ≤ len by omega)
  have hrear := rear_of_le (show 8 ≤ (payloadLen len pcc).toNat by omega)
  apply Span.inside_of_le
  unfold encryptAccesses at ha
  split_ifs at ha with hnull hmode
  · cases ha
  · simp only [List.cons_append, List.nil_append, List.mem_cons, List.not_mem_nil, or_false] at ha
    rcases ha with rfl | rfl
    · exact hf8 hmode
    · dsimp only
      omega
  · simp only [List.nil_append, List.mem_singleton] at ha
    subst ha
    dsimp only
    omega

/-- **Safety of `unprotect`**: the datagram has a header, and room for index and tag; and one
that is accepted has eight octets before the index, and sixteen in all if eight of them are
taken for an F8 initial vector. -/
theorem unprotect_safe_iff (hkeyed : pcc.keys.Keyed) (hmax : len < 2 ^ 16) :
    SafelyUnprotected T P pkt len pcc ↔
      8 ≤ len ∧ 4 + pcc.getTagLength ≤ len ∧
        (Accepts T P pkt len pcc → 12 + pcc.getTagLength ≤ len ∧
          ¬ (pcc.keys.F8Mode ∧ Encrypted pkt len pcc ∧ len < 16)) := by
  constructor
  · intro h
    have hssrc := (h.inside ⟨4, 4⟩ (mem_unprotectAccesses.mpr (Or.inl rfl))).last (by decide)
    have hpayload := h.payload
    unfold CryptoContextCtrl.getMkiLength at hpayload
    refine ⟨hssrc, by omega, ?_⟩
    intro haccepts
    constructor
    · by_contra hshort
      obtain ⟨r, hr, hneg⟩ := h.rejected (by omega)
      rw [unprotect_of_accepts haccepts hr, BitVec.toInt_eq_toNat_of_lt (by omega)] at hneg
      omega
    · rintro ⟨hf8, henc, hshort⟩
      have hiv : (⟨8, 8⟩ : Span) ∈ encryptAccesses len pcc := by
        have hnull : pcc.ealg ≠ .null := hf8.ealg_ne_null
        unfold encryptAccesses
        rw [if_neg hnull, if_pos hf8]
        exact List.mem_cons_self
      have hlast := (h.inside ⟨8, 8⟩ (mem_unprotectAccesses.mpr (Or.inr (Or.inr ⟨haccepts.1,
        Or.inr (Or.inr ⟨haccepts, henc, hiv⟩)⟩)))).last (by decide)
      dsimp only at hlast
      omega
  · rintro ⟨height, hroom, hlong⟩
    have hpayload := payloadLen_of_le hmax hroom
    refine ⟨?_, ?_, ?_, ?_⟩
    · intro hshort
      have hrejected : ¬ Accepts T P pkt len pcc := fun haccepts => by
        have := (hlong haccepts).1
        omega
      obtain ⟨code, hcode, hneg⟩ := unprotect_of_not_accepts hkeyed hrejected
      exact ⟨_, hcode, hneg⟩
    · intro a ha
      rcases mem_unprotectAccesses.mp ha with rfl | rfl | ⟨-, ha | rfl | ⟨haccepts, henc, ha⟩⟩
      · exact Span.inside_of_le height
      · exact Span.inside_of_le (show (payloadLen len pcc).toNat + 4 ≤ len by omega)
      · unfold authenticateAccesses at ha
        split_ifs at ha
        · cases ha
        · rw [List.mem_singleton] at ha
          subst ha
          exact Span.inside_of_le (show 0 + (payloadLen len pcc).toNat ≤ len by omega)
      · apply Span.inside_of_le
        unfold sizeSub
        dsimp only
        omega
      · obtain ⟨hlength, hiv⟩ := hlong haccepts
        refine inside_of_accepts hlength hmax (fun hf8 => ?_) ha
        by_contra hshort
        exact hiv ⟨hf8, henc, by omega⟩
    · unfold CryptoContextCtrl.getMkiLength
      omega
    · intro haccepts _
      have hlength := (hlong haccepts).1
      exact rear_of_le (by omega)

/-- A datagram of 22 zeros. -/
theorem unprotect_safe_iff_zeros :
    SafelyUnprotected .x86 .additive (List.replicate 22 0) 22
      (CryptoContextCtrl.aesCmSha1 0x1122 0).keyed :=
  (unprotect_safe_iff (by decide) (by decide)).mpr
    ⟨by decide, by decide, fun _ => ⟨by decide, fun h => absurd h.1 (by decide)⟩⟩

/-- A context without encryption and authentication. -/
def plainContext : CryptoContextCtrl :=
  CryptoContextCtrl.new 0x1122 0 .null .null [] [] 0 0 0 0 (by decide)

/-- **Short datagrams.**  In an empty one the index is looked for 14 octets before the end of the
`uint32` range; one of eight octets is accepted when there is no tag. -/
theorem short_datagrams_unsafe :
    (⟨4294967282, 4⟩ ∈ unprotectAccesses .x86 .additive [] 0
        (CryptoContextCtrl.aesCmSha1 0x1122 0).keyed ∧
      ¬ SafelyUnprotected .x86 .additive [] 0 (CryptoContextCtrl.aesCmSha1 0x1122 0).keyed) ∧
    (unprotect .x86 .additive (List.replicate 8 0) 8 plainContext).map (fun r => r.1) = some 4 := by
  refine ⟨⟨?_, ?_⟩, by decide⟩
  · rw [mem_unprotectAccesses]
    exact Or.inr (Or.inl (by decide))
  · intro h
    exact absurd h.payload (by decide)

end QueueRTCPManager
