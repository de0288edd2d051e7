/-
# Segmentation

What `putData` (`src/outqueue.cpp`) makes of data of any length with any maximum segment size.
The packets carry consecutive pieces of the data, unless a piece is too large for the 32 bits of
the sizes of a packet, or for the block counter of counter mode, or the crypto context in use is
not complete.

* `Sends.mono` : if a piece can be sent, so can a shorter one;
* `protect_isSome_iff`, `sizes_of_liesInMemory` : when one packet can be protected, and made;
* `immediateLoop_segments` : the loop over the segments;
* `SendingQueue.segmentation_iff` : when `putData` segments the data.
-/
import CcRtp.SendingQueue
import CcRtp.ImmediateSending

open CryptoContext

/-! ## Pieces that can be sent -/

/-- The keys transform `n` octets and make a tag: the objects they need are there, and counter mode
has at most `2^16` blocks to go. -/
def SessionKeys.Transforms (K : SessionKeys) (n : ℕ) : Prop :=
  K.Keyed ∧ (K.CounterMode → (∃ c, K.cipher = some c ∧ c.key.isSome = true) → n < 2 ^ 20)

/-- A segment of `n` octets makes a packet whose sizes fit 32 bits, and the context can protect
it. -/
def PacketShape.Sends (s : PacketShape) (pcc : Option CryptoContext) (n : ℕ) : Prop :=
  12 + 4 * s.csrcCount + s.encryptedOctets n + RTPPacket.srtpOctets pcc < 2 ^ 32 ∧
    ∀ cc, pcc = some cc → cc.keys.Transforms (s.encryptedOctets n)

/-- With padding, packets are filled up to whole multiples. -/
theorem RTPPacket.add_paddingOctets_mono (paddinglen : UInt8) {a b : ℕ} (h : a ≤ b) :
    a + RTPPacket.paddingOctets paddinglen a ≤ b + RTPPacket.paddingOctets paddinglen b := by
  unfold RTPPacket.paddingOctets
  split_ifs with hzero
  · exact h
  · have hpos : 0 < paddinglen.toNat :=
      Nat.pos_of_ne_zero (fun h0 => hzero (UInt8.toNat_inj.mp h0))
    have hfill : ∀ n, n + (paddinglen.toNat - n % paddinglen.toNat)
        = paddinglen.toNat * (n / paddinglen.toNat + 1) := by
      intro n
      have hdiv := Nat.div_add_mod n paddinglen.toNat
      have hmod := Nat.mod_lt n hpos
      rw [Nat.mul_add]
      omega
    rw [hfill, hfill]
    exact Nat.mul_le_mul_left _ (Nat.add_le_add_right (Nat.div_le_div_right h) 1)

namespace PacketShape

variable {s : PacketShape} {pcc : Option CryptoContext} {m n : ℕ}

theorem encryptedOctets_mono (s : PacketShape) (h : m ≤ n) :
    s.encryptedOctets m ≤ s.encryptedOctets n := by
  have hmono := RTPPacket.add_paddingOctets_mono s.paddinglen
    (Nat.add_le_add_left h (12 + 4 * s.csrcCount))
  unfold encryptedOctets
  omega

/-- **Less can be sent, too.** -/
theorem Sends.mono (h : s.Sends pcc n) (hle : m ≤ n) : s.Sends pcc m := by
  have hmono := s.encryptedOctets_mono hle
  refine ⟨by have hsizes := h.1; omega, fun cc hcc => ?_⟩
  obtain ⟨hkeyed, hcounter⟩ := h.2 cc hcc
  exact ⟨hkeyed, fun hcm hkey => Nat.lt_of_le_of_lt hmono (hcounter hcm hkey)⟩

/-- The rollover counter does not matter. -/
theorem sends_setRoc (roc : BitVec 32) :
    s.Sends (pcc.map (fun cc => cc.setRoc roc)) n ↔ s.Sends pcc n := by
  cases pcc with
  | none => rfl
  | some cc =>
      refine and_congr Iff.rfl ⟨fun h cc' hcc => ?_, fun h cc' hcc => ?_⟩
      · cases hcc
        exact h (cc.setRoc roc) rfl
      · cases hcc
        exact h cc rfl

end PacketShape

/-! ## When a packet can be protected -/

namespace SessionKeys

variable {P : Primitives} {K : SessionKeys}

theorem transform_isSome_iff (cmIv f8Iv : Block) (data : Octets) :
    (K.transform P cmIv f8Iv data).isSome = true ↔
      (K.ealg ≠ .null → K.cipher.isSome = true) ∧ (K.F8Mode → K.f8Cipher.isSome = true) ∧
        (K.CounterMode → (∃ c, K.cipher = some c ∧ c.key.isSome = true) →
          data.length < 2 ^ 20) := by
  by_cases hnull : K.ealg = .null
  · have hcm : ¬ K.CounterMode := fun h => h.ealg_ne_null hnull
    have hf8 : ¬ K.F8Mode := fun h => h.ealg_ne_null hnull
    unfold transform
    rw [hnull]
    exact iff_of_true rfl ⟨fun h => absurd rfl h, fun h => absurd h hf8, fun h => absurd h hcm⟩
  · cases hc : K.cipher with
    | none =>
        refine iff_of_false ?_ fun h => by cases h.1 hnull
        by_cases hcm : K.CounterMode
        · rw [transform_counterMode P hcm, hc]
          exact Bool.false_ne_true
        · have hf8 : K.F8Mode := by
            unfold CounterMode F8Mode at *
            revert hnull hcm
            cases K.ealg <;> decide
          rw [transform_f8Mode P hf8, hc]
          exact Bool.false_ne_true
    | some c =>
        by_cases hcm : K.CounterMode
        · have hf8 : ¬ K.F8Mode := fun h => h.not_counterMode hcm
          rw [transform_counterMode P hcm, hc, Option.bind_some]
          cases hk : c.key with
          | none =>
              rw [SrtpSymCrypto.ctrEncrypt, hk]
              refine iff_of_true rfl ⟨fun _ => rfl, fun h => absurd h hf8, ?_⟩
              rintro - ⟨c', hc', hkey⟩
              cases hc'
              rw [hk] at hkey
              cases hkey
          | some k =>
              rcases Nat.lt_or_ge data.length (2 ^ 20) with hlt | hge
              · rw [c.ctrEncrypt_eq_some P hk data cmIv hlt]
                exact iff_of_true rfl ⟨fun _ => rfl, fun h => absurd h hf8, fun _ _ => hlt⟩
              · rw [c.ctrEncrypt_eq_none P hk data cmIv hge]
                refine iff_of_false Bool.false_ne_true fun h => ?_
                have hlt := h.2.2 hcm ⟨c, rfl, by rw [hk]; rfl⟩
                omega
        · have hf8 : K.F8Mode := by
            unfold CounterMode F8Mode at *
            revert hnull hcm
            cases K.ealg <;> decide
          rw [transform_f8Mode P hf8, hc, Option.bind_some, Option.isSome_map]
          exact ⟨fun h => ⟨fun _ => rfl, fun _ => h, fun h' => absurd h' hcm⟩, fun h => h.2.1 hf8⟩

theorem authenticate_isSome_iff (msg old : Octets) :
    (K.authenticate P msg old).isSome = true ↔ (K.aalg ≠ .null → K.macCtx.isSome = true) := by
  unfold authenticate
  split_ifs with haalg
  · exact iff_of_true rfl fun h => absurd haalg h
  · rw [Option.isSome_map]
    exact ⟨fun h _ => h, fun h => h haalg⟩

/-- What is transformed keeps its length. -/
theorem length_of_transform {cmIv f8Iv : Block} {data out : Octets} {blocks : List Block}
    (h : K.transform P cmIv f8Iv data = some (out, blocks)) : out.length = data.length := by
  obtain ⟨hcipher, hf8Cipher, hlen⟩ :=
    (transform_isSome_iff (P := P) cmIv f8Iv data).mp (Option.isSome_iff_exists.mpr ⟨_, h⟩)
  by_cases hunkeyed : K.CounterMode ∧ ¬ ∃ c, K.cipher = some c ∧ c.key.isSome = true
  · -- without a key the data are left as they are
    obtain ⟨hcm, hkey⟩ := hunkeyed
    rw [transform_counterMode P hcm] at h
    obtain ⟨c, hc, hout⟩ := Option.bind_eq_some_iff.mp h
    cases hk : c.key with
    | some k => exact absurd ⟨c, hc, by rw [hk]; rfl⟩ hkey
    | none =>
        rw [SrtpSymCrypto.ctrEncrypt, hk] at hout
        cases hout
        rfl
  · have hshort : K.CounterMode → data.length < 2 ^ 20 := fun hcm =>
      hlen hcm (not_not.mp fun hkey => hunkeyed ⟨hcm, hkey⟩)
    have hkeyed : ({ K with aalg := .null, tagLength := 0, tagLength_le := Nat.zero_le 20
                            tagLength_null := fun _ => rfl } : SessionKeys).Keyed :=
      ⟨hcipher, hf8Cipher, fun h => absurd rfl h⟩
    obtain ⟨out', blocks', hout, hlength, -⟩ :=
      transform_transform (P := P) hkeyed cmIv f8Iv hshort
    have heq := h.symm.trans hout
    cases heq
    exact hlength

/-- A tag fills the room that is made for it. -/
theorem length_of_authenticate {msg old tag : Octets} (hold : old.length = K.tagLength)
    (h : K.authenticate P msg old = some tag) : tag.length = K.tagLength := by
  have hle := K.tagLength_le
  unfold authenticate at h
  split_ifs at h with haalg
  · cases h
    exact hold
  · obtain ⟨m, -, rfl⟩ := Option.map_eq_some_iff.mp h
    rw [List.length_take, List.length_ofFn]
    omega

end SessionKeys

namespace OutgoingRTPPkt

variable {P : Primitives} {p p' : OutgoingRTPPkt} {cc cc' : CryptoContext} {ssrc : BitVec 32}
  {blocks : List Block}

/-- The octets that `protect` encrypts. -/
theorem protect_isSome_iff :
    (p.protect P ssrc cc).isSome = true ↔
      cc.keys.Transforms (slice p.buffer p.hdrSize.toNat p.encryptedSize.toNat).length := by
  set data := slice p.buffer p.hdrSize.toNat p.encryptedSize.toNat with hdata
  set index := joinIndex cc.roc p.cachedSeqNum with hindex
  have henc : cc.srtpEncrypt P p index ssrc
      = (cc.keys.transform P (cmIv cc.kS ssrc index)
          (f8Iv p.buffer cc.roc) data).map
          (fun r => (p.setbuffer r.1 p.hdrSize.toNat, r.2)) := rfl
  have hcipher := cc.keys.transform_isSome_iff (P := P) (cmIv cc.kS ssrc index)
    (f8Iv p.buffer cc.roc) data
  rw [protect, ← hindex, henc]
  cases htrans : cc.keys.transform P (cmIv cc.kS ssrc index)
      (f8Iv p.buffer cc.roc) data with
  | none =>
      rw [htrans] at hcipher
      refine iff_of_false Bool.false_ne_true fun h => ?_
      cases hcipher.mpr ⟨h.1.cipher, h.1.f8Cipher, h.2⟩
  | some r =>
      rw [htrans] at hcipher
      obtain ⟨h₁, h₂, h₃⟩ := hcipher.mp rfl
      rw [Option.map_some, Option.bind_some, Option.isSome_map]
      refine (cc.keys.authenticate_isSome_iff _ _).trans ?_
      exact ⟨fun h => ⟨⟨h₁, h₂, h⟩, h₃⟩, fun h => h.1.mac⟩

/-- What `protect` leaves of a packet. -/
structure Protected (p p' : OutgoingRTPPkt) : Prop where
  total : p'.total = p.total
  srtpLength : p'.srtpLength = p.srtpLength
  seqNum : p'.cachedSeqNum = p.cachedSeqNum
  timestamp : p'.cachedTimestamp = p.cachedTimestamp
  longer : p.buffer.length ≤ p'.buffer.length

theorem protected_protect (h : p.protect P ssrc cc = some (p', cc', blocks)) :
    Protected p p' ∧ ∃ roc, cc' = cc.setRoc roc := by
  rw [protect] at h
  obtain ⟨⟨p₁, blocks₁⟩, h₁, h₂⟩ := Option.bind_eq_some_iff.mp h
  obtain ⟨⟨out, blocks₂⟩, -, heq⟩ := Option.map_eq_some_iff.mp h₁
  obtain ⟨tag, -, hres⟩ := Option.map_eq_some_iff.mp h₂
  cases heq
  cases hres
  refine ⟨⟨rfl, rfl, rfl, rfl, ?_⟩, ?_⟩
  · exact (length_le_writeAt _ _).trans (length_le_writeAt _ _)
  · split_ifs
    · exact ⟨_, rfl⟩
    · exact ⟨cc.roc, rfl⟩

/-- Payload, padding and tag are written inside the memory, behind the header. -/
theorem buffer_protect (h : p.protect P ssrc cc = some (p', cc', blocks))
    (hhdr : 12 ≤ p.hdrSize.toNat)
    (hdata : p.hdrSize.toNat + (slice p.buffer p.hdrSize.toNat p.encryptedSize.toNat).length
      = p.srtpDataOffset.toNat)
    (hroom : p.srtpDataOffset.toNat + cc.tagLength = p.buffer.length) :
    p'.buffer.length = p.buffer.length ∧ p'.buffer.take 12 = p.buffer.take 12 := by
  rw [protect] at h
  obtain ⟨⟨p₁, blocks₁⟩, h₁, h₂⟩ := Option.bind_eq_some_iff.mp h
  obtain ⟨⟨out, blocks₂⟩, htrans, heq⟩ := Option.map_eq_some_iff.mp h₁
  obtain ⟨tag, htag, hres⟩ := Option.map_eq_some_iff.mp h₂
  obtain ⟨rfl, -⟩ := Prod.mk.inj heq
  obtain ⟨rfl, -⟩ := Prod.mk.inj hres
  have hout : out.length = (slice p.buffer p.hdrSize.toNat p.encryptedSize.toNat).length :=
    SessionKeys.length_of_transform htrans
  have hlen₁ : (writeAt p.buffer p.hdrSize.toNat out).length = p.buffer.length :=
    length_writeAt (by omega)
  have hold : (slice (writeAt p.buffer p.hdrSize.toNat out) p.srtpDataOffset.toNat
      cc.getTagLength).length = cc.keys.tagLength := by
    have hkeys : cc.keys.tagLength = cc.tagLength := rfl
    have hget : cc.getTagLength = cc.tagLength := rfl
    rw [slice, List.length_take, List.length_drop, hlen₁, hkeys, hget]
    omega
  have htaglen : tag.length = cc.tagLength := SessionKeys.length_of_authenticate hold htag
  constructor
  · calc (writeAt (writeAt p.buffer p.hdrSize.toNat out) p.srtpDataOffset.toNat tag).length
        = (writeAt p.buffer p.hdrSize.toNat out).length := length_writeAt (by omega)
      _ = p.buffer.length := hlen₁
  · calc (writeAt (writeAt p.buffer p.hdrSize.toNat out) p.srtpDataOffset.toNat tag).take 12
        = (writeAt p.buffer p.hdrSize.toNat out).take 12 := take_writeAt (by omega) (by omega) tag
      _ = p.buffer.take 12 := take_writeAt hhdr (by omega) out

end OutgoingRTPPkt

/-! ## The packet of a segment -/

/-- Nothing has been written behind the memory of a packet, which was asked for with the size of
the packet and of its SRTP trailer. -/
def RTPPacket.LiesInMemory (p : RTPPacket) : Prop :=
  p.buffer.length = (p.total + p.srtpLength).toNat

/-- A packet begins with a fixed header. -/
structure HasHeader (pt : BitVec 7) (mark : Bool) (seq : BitVec 16) (pts ssrc : BitVec 32)
    (p : OutgoingRTPPkt) : Prop where
  octets : ∃ o, p.buffer.take 12
    = OutgoingRTPPkt.fixedHeader o (OutgoingRTPPkt.secondOctet pt mark) seq pts ssrc
  seqNum : p.cachedSeqNum = seq
  timestamp : p.cachedTimestamp = pts

/-- The marker bit is read back. -/
theorem HasHeader.isMarked {pt : BitVec 7} {mark : Bool} {seq : BitVec 16} {pts ssrc : BitVec 32}
    {p : OutgoingRTPPkt} (h : HasHeader pt mark seq pts ssrc p) : p.isMarked = mark := by
  obtain ⟨o, ho⟩ := h.octets
  have hsecond : p.buffer.getD 1 0 = OutgoingRTPPkt.secondOctet pt mark := by
    rw [List.getD_eq_getElem?_getD, ← List.getElem?_take_of_lt (show 1 < 12 by omega), ho]
    rfl
  rw [RTPPacket.isMarked, RTPPacket.headerField, hsecond, OutgoingRTPPkt.secondOctet,
    bitField_setBitField _ _ _ (by omega)]
  cases mark <;> rfl

namespace OutgoingDataQueue

variable {P : Primitives} {q q' : OutgoingDataQueue} {pcc : Option CryptoContext}
  {cc : CryptoContext} {stamp : BitVec 32} {segment : Octets} {first : Bool} {p : OutgoingRTPPkt}

/-- The header of the packet of a segment. -/
def HasHeaderOf (q : OutgoingDataQueue) (stamp : BitVec 32) (first : Bool) (p : OutgoingRTPPkt) :
    Prop :=
  HasHeader q.payloadType (first && q.marked) q.sendSeq (stamp + q.initialTimestamp) q.localSSRC p

/-- Sizes and content of the packet of a segment. -/
structure MadeFrom (q : OutgoingDataQueue) (pcc : Option CryptoContext) (segment : Octets)
    (p : OutgoingRTPPkt) : Prop where
  payload : p.payload = segment
  hdrSize : p.hdrSize.toNat = 12 + 4 * q.csrcs.length
  total : p.total.toNat = 12 + 4 * q.csrcs.length + q.shape.encryptedOctets segment.length
  srtpLength : p.srtpLength.toNat = RTPPacket.srtpOctets pcc
  memory : p.LiesInMemory

/-- **The packet of a segment** whose sizes fit. -/
theorem buildPacket_of_sizes (hsizes : 12 + 4 * q.csrcs.length
      + q.shape.encryptedOctets segment.length + RTPPacket.srtpOctets pcc < 2 ^ 32)
    (stamp : BitVec 32) (first : Bool) :
    q.HasHeaderOf stamp first (q.buildPacket pcc stamp segment first) ∧
      q.MadeFrom pcc segment (q.buildPacket pcc stamp segment first) ∧
      (∀ cc, pcc = some cc → (q.buildPacket pcc stamp segment first).srtpDataOffset
        = (q.buildPacket pcc stamp segment first).total) := by
  have hshape : q.shape.encryptedOctets segment.length = segment.length
      + RTPPacket.paddingOctets q.paddinglen (12 + 4 * q.csrcs.length + segment.length) := rfl
  rw [q.buildPacket_eq pcc stamp segment first hsizes]
  rw [hshape] at hsizes
  have hbuild := OutgoingRTPPkt.withCsrcs_eq q.csrcs segment q.paddinglen pcc rfl rfl
    (show 12 + 4 * q.csrcs.length + segment.length + RTPPacket.paddingOctets q.paddinglen
      (12 + 4 * q.csrcs.length + segment.length) + _ < _ by omega)
  rw [OutgoingRTPPkt.fillHeader_eq _ (by rw [hbuild]), hbuild]
  refine ⟨⟨⟨_, rfl⟩, rfl, rfl⟩, ⟨?_, ?_, ?_, ?_, ?_⟩, ?_⟩
  · rw [RTPPacket.payload]
    dsimp only
    simp only [List.append_assoc]
    rw [← List.append_assoc, ← List.append_assoc]
    refine slice_append_mid _ _ _ ?_ ?_
    · rw [BitVec.toNat_ofNat, List.length_append, OutgoingRTPPkt.length_fixedHeader,
        OutgoingRTPPkt.length_csrcOctets]
      omega
    · rw [BitVec.toNat_ofNat]
      omega
  · rw [BitVec.toNat_ofNat]
    omega
  · rw [BitVec.toNat_ofNat, hshape]
    omega
  · rw [BitVec.toNat_ofNat]
    omega
  · rw [RTPPacket.LiesInMemory]
    dsimp only
    rw [← BitVec.ofNat_add, BitVec.toNat_ofNat]
    simp only [List.length_append, OutgoingRTPPkt.length_fixedHeader,
      OutgoingRTPPkt.length_csrcOctets, RTPPacket.length_padding, List.length_replicate]
    omega
  · rintro cc rfl
    rfl

/-- The constructor fixes the sizes of the packet. -/
theorem new_sizes (hdrlen plen : ℕ) (paddinglen : UInt8) (pcc : Option CryptoContext) :
    (RTPPacket.new hdrlen plen paddinglen pcc).total = BitVec.ofNat 32 (hdrlen + plen)
        + BitVec.ofNat 32 (RTPPacket.paddingOctets paddinglen
          (BitVec.ofNat 32 (hdrlen + plen)).toNat) ∧
      (RTPPacket.new hdrlen plen paddinglen pcc).srtpLength
        = BitVec.ofNat 32 (RTPPacket.srtpOctets pcc) := by
  unfold RTPPacket.new
  by_cases hpad : RTPPacket.paddingOctets paddinglen (BitVec.ofNat 32 (hdrlen + plen)).toNat ≠ 0
  · simp only [if_pos hpad]
    exact ⟨rfl, rfl⟩
  · simp only [if_neg hpad]
    exact ⟨rfl, rfl⟩

/-- Filling in the header does not make a packet shorter. -/
theorem length_le_fillHeader (p : OutgoingRTPPkt) (pt : BitVec 7) (seq : BitVec 16)
    (pts ssrc : BitVec 32) (mark : Bool) :
    p.buffer.length ≤ (p.fillHeader pt seq pts ssrc mark).buffer.length := by
  have hset : ∀ (p : RTPPacket) (i lo : ℕ) {w : ℕ} (v : BitVec w),
      (p.setHeaderField i lo v).buffer.length = p.buffer.length := fun _ _ _ _ _ => List.length_set
  rw [OutgoingRTPPkt.fillHeader, OutgoingRTPPkt.setMarker, hset]
  calc p.buffer.length = (p.setPayloadType pt).buffer.length := (hset p 1 0 pt).symm
    _ ≤ ((p.setPayloadType pt).setSeqNum seq).buffer.length := length_le_writeAt _ _
    _ ≤ (((p.setPayloadType pt).setSeqNum seq).setTimestamp pts).buffer.length :=
        length_le_writeAt _ _
    _ ≤ _ := length_le_writeAt _ _

/-- Data written last. -/
theorem setbuffer_sizes (p : OutgoingRTPPkt) (data : Octets) (pos : ℕ) (pt : BitVec 7)
    (seq : BitVec 16) (pts ssrc : BitVec 32) (mark : Bool) :
    let p' := OutgoingRTPPkt.fillHeader (p.setbuffer data pos) pt seq pts ssrc mark
    data.length ≤ p'.buffer.length ∧ p'.total = p.total ∧ p'.srtpLength = p.srtpLength := by
  have hlen : data.length ≤ (p.setbuffer data pos).buffer.length := length_src_le_writeAt _ _ _
  exact ⟨hlen.trans (length_le_fillHeader _ _ _ _ _ _), rfl, rfl⟩

/-- The packet of any segment, also of one that cannot be sent. -/
theorem buildPacket_sizes (q : OutgoingDataQueue) (pcc : Option CryptoContext) (stamp : BitVec 32)
    (segment : Octets) (first : Bool) :
    segment.length ≤ (q.buildPacket pcc stamp segment first).buffer.length ∧
      (q.buildPacket pcc stamp segment first).total
        = BitVec.ofNat 32 (12 + 4 * q.csrcs.length + segment.length)
          + BitVec.ofNat 32 (RTPPacket.paddingOctets q.paddinglen
            (BitVec.ofNat 32 (12 + 4 * q.csrcs.length + segment.length)).toNat) ∧
      (q.buildPacket pcc stamp segment first).srtpLength
        = BitVec.ofNat 32 (RTPPacket.srtpOctets pcc) := by
  unfold buildPacket
  split_ifs with hcc
  · obtain ⟨hnew, hnew'⟩ := new_sizes (12 + 4 * q.csrcs.length) segment.length q.paddinglen pcc
    obtain ⟨hlen, htotal, hsrtp⟩ := setbuffer_sizes
      (OutgoingRTPPkt.setCSRCArray (RTPPacket.new (12 + 4 * q.csrcs.length) segment.length
        q.paddinglen pcc) q.csrcs) segment (12 + q.csrcs.length * 4) q.payloadType q.sendSeq
      (stamp + q.initialTimestamp) q.localSSRC (first && q.marked)
    exact ⟨hlen, htotal.trans hnew, hsrtp.trans hnew'⟩
  · have hnil : q.csrcs.length = 0 := by rw [csrcs, if_neg hcc]; rfl
    obtain ⟨hnew, hnew'⟩ := new_sizes 12 segment.length q.paddinglen pcc
    obtain ⟨hlen, htotal, hsrtp⟩ := setbuffer_sizes
      (RTPPacket.new 12 segment.length q.paddinglen pcc) segment 12 q.payloadType q.sendSeq
      (stamp + q.initialTimestamp) q.localSSRC (first && q.marked)
    rw [hnil]
    exact ⟨hlen, htotal.trans hnew, hsrtp.trans hnew'⟩

/-- **A packet of the same sizes lies in its memory only if the sizes fit 32 bits.** -/
theorem sizes_of_liesInMemory (q : OutgoingDataQueue) (pcc : Option CryptoContext)
    (stamp : BitVec 32) (segment : Octets) (first : Bool)
    (htotal : p.total = (q.buildPacket pcc stamp segment first).total)
    (hsrtp : p.srtpLength = (q.buildPacket pcc stamp segment first).srtpLength)
    (hlonger : (q.buildPacket pcc stamp segment first).buffer.length ≤ p.buffer.length)
    (h : p.LiesInMemory) :
    12 + 4 * q.csrcs.length + q.shape.encryptedOctets segment.length
      + RTPPacket.srtpOctets pcc < 2 ^ 32 := by
  obtain ⟨hlen, htotal', hsrtp'⟩ := q.buildPacket_sizes pcc stamp segment first
  have h15 := q.length_csrcs_le
  have htag : RTPPacket.srtpOctets pcc ≤ 20 := by
    cases pcc with
    | none => exact Nat.zero_le 20
    | some cc => exact cc.tagLength_le
  have hpad : ∀ n, RTPPacket.paddingOctets q.paddinglen n ≤ 255 := by
    intro n
    by_cases hzero : q.paddinglen = 0
    · rw [RTPPacket.paddingOctets, if_pos hzero]
      exact Nat.zero_le 255
    · exact (RTPPacket.paddingOctets_bounds hzero n).2
  have hshape : q.shape.encryptedOctets segment.length = segment.length
      + RTPPacket.paddingOctets q.paddinglen (12 + 4 * q.csrcs.length + segment.length) := rfl
  rw [RTPPacket.LiesInMemory, htotal, hsrtp, htotal', hsrtp', BitVec.toNat_ofNat,
    ← BitVec.ofNat_add, ← BitVec.ofNat_add, BitVec.toNat_ofNat] at h
  rw [hshape]
  have hpad₁ := hpad ((12 + 4 * q.csrcs.length + segment.length) % 2 ^ 32)
  by_contra hlarge
  rcases Nat.lt_or_ge (12 + 4 * q.csrcs.length + segment.length) (2 ^ 32) with hlt | hge
  · rw [Nat.mod_eq_of_lt hlt] at h hpad₁
    omega
  · generalize RTPPacket.paddingOctets q.paddinglen
      ((12 + 4 * q.csrcs.length + segment.length) % 2 ^ 32) = k at h hpad₁
    omega

/-- What is encrypted of the packet lies in front of the room for the tag. -/
theorem length_encrypted (hsizes : 12 + 4 * q.csrcs.length
      + q.shape.encryptedOctets segment.length + RTPPacket.srtpOctets (some cc) < 2 ^ 32)
    {u : OutgoingRTPPkt} (hu : u = q.buildPacket (some cc) stamp segment first) :
    (slice u.buffer u.hdrSize.toNat u.encryptedSize.toNat).length
        = q.shape.encryptedOctets segment.length ∧
      u.buffer.length = 12 + 4 * q.csrcs.length
        + q.shape.encryptedOctets segment.length + cc.tagLength := by
  obtain ⟨-, ⟨-, hhdr, htotal, hsrtp, hmemory⟩, -⟩ := buildPacket_of_sizes hsizes stamp first
  have henc := q.toNat_encryptedSize_buildPacket (some cc) stamp segment first hsizes
  rw [← hu] at hhdr htotal hsrtp hmemory henc
  have hsum : u.buffer.length = 12 + 4 * q.csrcs.length
      + q.shape.encryptedOctets segment.length + cc.tagLength := by
    have htag : RTPPacket.srtpOctets (some cc) = cc.tagLength := rfl
    rw [RTPPacket.LiesInMemory, BitVec.toNat_add, htotal, hsrtp, Nat.mod_eq_of_lt hsizes] at hmemory
    rw [hmemory, htag]
  refine ⟨?_, hsum⟩
  rw [slice, List.length_take, List.length_drop, hhdr, henc, hsum]
  omega

/-- **A segment that can be sent is protected** in the room that is made for it. -/
theorem protect_of_sends (h : q.shape.Sends (some cc) segment.length) (stamp : BitVec 32)
    (first : Bool) (ssrc : BitVec 32) :
    ∃ p roc blocks, (q.buildPacket (some cc) stamp segment first).protect P ssrc cc
        = some (p, cc.setRoc roc, blocks) ∧ q.HasHeaderOf stamp first p ∧ p.LiesInMemory := by
  obtain ⟨⟨⟨o, hoctets⟩, hseq, hpts⟩, ⟨-, hhdr, htotal, -, hmemory⟩, hoffset⟩ :=
    buildPacket_of_sizes h.1 stamp first
  have hoffset := hoffset cc rfl
  obtain ⟨hdata, hsum⟩ :=
    length_encrypted h.1 (u := q.buildPacket (some cc) stamp segment first) rfl
  generalize q.buildPacket (some cc) stamp segment first = u at *
  have hsome : (u.protect P ssrc cc).isSome = true := by
    rw [OutgoingRTPPkt.protect_isSome_iff, hdata]
    exact h.2 cc rfl
  obtain ⟨⟨p, cc', blocks⟩, hprotect⟩ := Option.isSome_iff_exists.mp hsome
  obtain ⟨hprotected, roc, rfl⟩ := OutgoingRTPPkt.protected_protect hprotect
  obtain ⟨hlen, htake⟩ := OutgoingRTPPkt.buffer_protect hprotect (by omega)
    (by rw [hdata, hhdr, hoffset, htotal]) (by rw [hoffset, htotal, hsum])
  refine ⟨p, roc, blocks, hprotect, ⟨⟨o, htake.trans hoctets⟩, hprotected.seqNum.trans hseq,
    hprotected.timestamp.trans hpts⟩, ?_⟩
  rw [RTPPacket.LiesInMemory, hlen, hprotected.total, hprotected.srtpLength]
  exact hmemory

/-! ## One round -/

/-- The context for the packets of the queue. -/
def localContext (q : OutgoingDataQueue) : Option CryptoContext :=
  q.getOutQueueCryptoContext q.localSSRC

/-- A packet of the queue is what becomes of another one under the context of the queue, with some
rollover counter; without a context it is that one. -/
def ProtectedFrom (P : Primitives) (q : OutgoingDataQueue) (p u : OutgoingRTPPkt) : Prop :=
  match q.localContext with
  | none => p = u
  | some cc => ∃ roc, (u.protect P q.localSSRC (cc.setRoc roc)).map Prod.fst = some p

/-- What a round leaves alone; the rollover counter may change. -/
structure GoesOn (q q' : OutgoingDataQueue) : Prop where
  localSSRC : q'.localSSRC = q.localSSRC
  shape : q'.shape = q.shape
  payloadType : q'.payloadType = q.payloadType
  initialTimestamp : q'.initialTimestamp = q.initialTimestamp
  context : ∃ roc, q'.localContext = q.localContext.map (fun cc => cc.setRoc roc)

theorem GoesOn.refl (q : OutgoingDataQueue) : GoesOn q q := by
  refine ⟨rfl, rfl, rfl, rfl, ?_⟩
  cases hcc : q.localContext with
  | none => exact ⟨0, rfl⟩
  | some cc => exact ⟨cc.roc, rfl⟩

theorem GoesOn.trans {q₁ q₂ q₃ : OutgoingDataQueue} (h : GoesOn q₁ q₂) (h' : GoesOn q₂ q₃) :
    GoesOn q₁ q₃ := by
  obtain ⟨roc, hroc⟩ := h.context
  obtain ⟨roc', hroc'⟩ := h'.context
  refine ⟨h'.localSSRC.trans h.localSSRC, h'.shape.trans h.shape,
    h'.payloadType.trans h.payloadType, h'.initialTimestamp.trans h.initialTimestamp, roc', ?_⟩
  rw [hroc', hroc, Option.map_map]
  rfl

/-- What has been protected counts as protected later on. -/
theorem ProtectedFrom.goesOn {p u : OutgoingRTPPkt} (h : ProtectedFrom P q p u)
    (hq : GoesOn q q') : ProtectedFrom P q' p u := by
  obtain ⟨roc, hroc⟩ := hq.context
  rw [ProtectedFrom] at h ⊢
  rw [hroc, hq.localSSRC]
  cases hcc : q.localContext with
  | none =>
      rw [hcc] at h
      exact h
  | some cc =>
      rw [hcc] at h
      exact h

theorem GoesOn.sends {n : ℕ} (hq : GoesOn q q') (h : q.shape.Sends q.localContext n) :
    q'.shape.Sends q'.localContext n := by
  obtain ⟨roc, hroc⟩ := hq.context
  rw [hq.shape, hroc, PacketShape.sends_setRoc]
  exact h

/-- **A round with a segment that can be sent.** -/
theorem immediateSegment_spec (h : q.shape.Sends q.localContext segment.length) (stamp : BitVec 32)
    (first : Bool) :
    ∃ s q', q.immediateSegment P stamp segment first = some (s, q') ∧
      q.HasHeaderOf stamp first s.packet ∧ s.packet.LiesInMemory ∧
      (∃ u, ProtectedFrom P q' s.packet u ∧ u.payload = segment) ∧
      GoesOn q q' ∧ q'.sendSeq = q.sendSeq + 1 ∧ q'.marked = (q.marked && !first) := by
  have hmark : (if first && q.marked then false else q.marked) = (q.marked && !first) := by
    cases first <;> cases q.marked <;> rfl
  rw [immediateSegment]
  cases hcc : q.getOutQueueCryptoContext q.localSSRC with
  | none =>
      rw [localContext, hcc] at h
      rw [sendSegment]
      obtain ⟨hheader, hmade, -⟩ := buildPacket_of_sizes h.1 stamp first
      refine ⟨_, _, rfl, hheader, hmade.memory, ⟨_, ?_, hmade.payload⟩,
        ⟨rfl, rfl, rfl, rfl, 0, ?_⟩, rfl, hmark⟩
      · rw [ProtectedFrom]
        show match q.getOutQueueCryptoContext q.localSSRC with
          | none => _
          | some cc => _
        rw [hcc]
      · show q.getOutQueueCryptoContext q.localSSRC = _
        rw [localContext, hcc]
        rfl
  | some cc =>
      rw [localContext, hcc] at h
      obtain ⟨-, hmade, -⟩ := buildPacket_of_sizes h.1 stamp first
      obtain ⟨p, roc, blocks, hprotect, hheader, hmemory⟩ :=
        protect_of_sends (P := P) h stamp first q.localSSRC
      have hssrc : cc.ssrcCtx = q.localSSRC := ssrcCtx_of_getOutQueueCryptoContext hcc
      have hfound := getOutQueueCryptoContext_storeContext hcc
        (show (cc.setRoc roc).ssrcCtx = q.localSSRC from hssrc)
      rw [sendSegment]
      dsimp only
      rw [hprotect]
      refine ⟨_, _, rfl, hheader, hmemory, ⟨q.buildPacket (some cc) stamp segment first, ?_,
        hmade.payload⟩, ⟨rfl, rfl, rfl, rfl, roc, ?_⟩, rfl, hmark⟩
      · rw [ProtectedFrom]
        show match (q.storeContext (cc.setRoc roc)).getOutQueueCryptoContext q.localSSRC with
          | none => _
          | some cc => _
        rw [hfound]
        refine ⟨cc.roc, ?_⟩
        show ((q.buildPacket (some cc) stamp segment first).protect P q.localSSRC cc).map _ = _
        rw [hprotect]
        rfl
      · show (q.storeContext (cc.setRoc roc)).getOutQueueCryptoContext q.localSSRC = _
        rw [hfound, localContext, hcc]
        rfl

/-! ## The loop -/

/-- What a loop over the segments produces from `q`; only the first packet of all the data can be
marked. -/
structure SegmentsOf (P : Primitives) (q q' : OutgoingDataQueue) (stamp : BitVec 32) (first : Bool)
    (data : Octets) (ps : List OutgoingRTPPkt) : Prop where
  count : ps.length = (data.length + q.maxSendSegmentSize - 1) / q.maxSendSegmentSize
  header : ∀ k p, ps[k]? = some p → HasHeader q.payloadType (first && decide (k = 0) && q.marked)
    (q.sendSeq + BitVec.ofNat 16 k) (stamp + q.initialTimestamp) q.localSSRC p
  memory : ∀ p ∈ ps, p.LiesInMemory
  payloads : ∃ us, List.Forall₂ (ProtectedFrom P q') ps us ∧
    (∀ u ∈ us, 1 ≤ u.payload.length ∧ u.payload.length ≤ q.maxSendSegmentSize) ∧
    (us.map RTPPacket.payload).flatten = data
  marked : q'.marked = (q.marked && !(first && decide (data ≠ [])))

/-- No data, no packets. -/
theorem SegmentsOf.nil (hsize : 1 ≤ q.maxSendSegmentSize) :
    SegmentsOf P q q stamp first [] [] where
  count := by
    rw [List.length_nil, List.length_nil]
    exact (Nat.div_eq_of_lt (by omega)).symm
  header := nofun
  memory := nofun
  payloads := ⟨[], List.Forall₂.nil, nofun, rfl⟩
  marked := by
    rw [decide_eq_false (not_not.mpr rfl), Bool.and_false, Bool.not_false, Bool.and_true]

/-- The number of segments. -/
theorem segments_count {n m step : ℕ} (hm : 1 ≤ m) (hn : 0 < n) (hstep : step = min n m) :
    (n + m - 1) / m = (n - step + m - 1) / m + 1 := by
  rcases Nat.lt_or_ge m n with hlong | hshort
  · rw [hstep, Nat.min_eq_right hlong.le, ← Nat.add_div_right _ (show 0 < m by omega)]
    congr 1
    omega
  · rw [hstep, Nat.min_eq_left hshort, Nat.sub_self, Nat.div_eq_of_lt (show 0 + m - 1 < m by omega)]
    exact Nat.div_eq_of_lt_le (by omega) (by omega)

/-- **A segment in front of the others.** -/
theorem SegmentsOf.cons {q₁ : OutgoingDataQueue} {data : Octets} {ps : List OutgoingRTPPkt}
    {u : OutgoingRTPPkt} (hsize : 1 ≤ q.maxSendSegmentSize) (hdata : data ≠ [])
    (hheader : q.HasHeaderOf stamp first p) (hmemory : p.LiesInMemory)
    (hfrom : ProtectedFrom P q₁ p u) (hpayload : u.payload = data.take (q.step data))
    (hq : GoesOn q q₁) (hseq : q₁.sendSeq = q.sendSeq + 1)
    (hmark : q₁.marked = (q.marked && !first)) (hq' : GoesOn q₁ q')
    (h : SegmentsOf P q₁ q' stamp false (data.drop (q.step data)) ps) :
    SegmentsOf P q q' stamp first data (p :: ps) := by
  have hpos : 0 < data.length := List.length_pos_iff.mpr hdata
  have hstep : q.step data = min data.length q.maxSendSegmentSize := by
    unfold step
    split_ifs <;> omega
  have hmax : q₁.maxSendSegmentSize = q.maxSendSegmentSize :=
    congrArg PacketShape.maxSendSegmentSize hq.shape
  obtain ⟨us, hus, hlens, hflat⟩ := h.payloads
  refine ⟨?_, ?_, ?_, ⟨u :: us, ?_, ?_, ?_⟩, ?_⟩
  · have hcount := h.count
    rw [hmax, List.length_drop] at hcount
    rw [List.length_cons, hcount]
    exact (segments_count hsize hpos hstep).symm
  · intro k p' hk
    cases k with
    | zero =>
        cases hk
        have hzero : q.sendSeq + BitVec.ofNat 16 0 = q.sendSeq := BitVec.add_zero _
        rw [hzero, decide_eq_true rfl, Bool.and_true]
        exact hheader
    | succ k =>
        have hnext := h.header k p' hk
        rw [hq.payloadType, hseq, hq.initialTimestamp, hq.localSSRC] at hnext
        rw [decide_eq_false (Nat.succ_ne_zero k), Bool.and_false]
        have hsucc : q.sendSeq + BitVec.ofNat 16 (k + 1) = q.sendSeq + 1 + BitVec.ofNat 16 k := by
          rw [BitVec.add_assoc, Nat.add_comm k 1, BitVec.ofNat_add]
          rfl
        rw [hsucc]
        exact hnext
  · intro p' hp'
    rcases List.mem_cons.mp hp' with rfl | hp'
    · exact hmemory
    · exact h.memory p' hp'
  · exact List.Forall₂.cons (hfrom.goesOn hq') hus
  · intro u' hu'
    rcases List.mem_cons.mp hu' with rfl | hu'
    · rw [hpayload, List.length_take]
      omega
    · rw [← hmax]
      exact hlens u' hu'
  · rw [List.map_cons, List.flatten_cons, hflat, hpayload, List.take_append_drop]
  · rw [h.marked, hmark, decide_eq_true hdata, Bool.and_true, Bool.false_and, Bool.not_false,
      Bool.and_true]

/-- **The loop of `sendImmediate`**, as long as the longest segment can be sent. -/
theorem immediateLoop_segments (stamp : BitVec 32) (rounds : ℕ) :
    ∀ {data : Octets} {first : Bool} {q : OutgoingDataQueue} {n : ℕ}, data.length ≤ rounds →
      1 ≤ q.maxSendSegmentSize → min data.length q.maxSendSegmentSize ≤ n →
      q.shape.Sends q.localContext n →
      ∃ sent q', segmentLoop (fun q => q.immediateSegment P stamp) rounds data first q
          = some (sent, q') ∧
        SegmentsOf P q q' stamp first data (sent.map SentPacket.packet) ∧ GoesOn q q' := by
  induction rounds with
  | zero =>
      intro data first q n hle hsize _ _
      rw [List.eq_nil_of_length_eq_zero (Nat.le_zero.mp hle)]
      exact ⟨[], q, rfl, SegmentsOf.nil hsize, GoesOn.refl q⟩
  | succ rounds ih =>
      intro data first q n hle hsize hn hsends
      by_cases hdata : data = []
      · rw [hdata]
        exact ⟨[], q, rfl, SegmentsOf.nil hsize, GoesOn.refl q⟩
      · have hpos : 0 < data.length := List.length_pos_iff.mpr hdata
        have hstep : q.step data = min data.length q.maxSendSegmentSize := by
          unfold step
          split_ifs <;> omega
        have hsegment : (data.take (q.step data)).length ≤ n := by
          rw [List.length_take]
          omega
        obtain ⟨s, q₁, hround, hheader, hmemory, ⟨u, hfrom, hpayload⟩, hq, hseq, hmark⟩ :=
          immediateSegment_spec (P := P) (hsends.mono hsegment) stamp first
        have hmax : q₁.maxSendSegmentSize = q.maxSendSegmentSize :=
          congrArg PacketShape.maxSendSegmentSize hq.shape
        obtain ⟨sent, q', hloop, hsegments, hq'⟩ := @ih (data.drop (q.step data)) false q₁ n
          (by rw [List.length_drop]; omega) (by rw [hmax]; exact hsize)
          (by rw [List.length_drop, hmax]; omega) (hq.sends hsends)
        refine ⟨s :: sent, q', ?_, ?_, hq.trans hq'⟩
        · rw [segmentLoop_succ _ hdata, hround, Option.bind_some, hloop]
          rfl
        · exact SegmentsOf.cons hsize hdata hheader hmemory hfrom hpayload hq hseq hmark hq'
            hsegments

/-- **A segment that cannot be sent** is not, or spoils the memory. -/
theorem sends_of_immediateSegment {s : SentPacket}
    (h : q.immediateSegment P stamp segment first = some (s, q'))
    (hmemory : s.packet.LiesInMemory) : q.shape.Sends q.localContext segment.length := by
  rw [immediateSegment] at h
  rw [localContext]
  cases hcc : q.getOutQueueCryptoContext q.localSSRC with
  | none =>
      rw [hcc, sendSegment] at h
      obtain ⟨rfl, -⟩ := Prod.mk.inj (Option.some.inj h)
      refine ⟨q.sizes_of_liesInMemory none stamp segment first rfl rfl le_rfl hmemory,
        fun cc hcc => ?_⟩
      cases hcc
  | some cc =>
      rw [hcc, sendSegment] at h
      obtain ⟨⟨p, cc', blocks⟩, hprotect, heq⟩ := Option.map_eq_some_iff.mp h
      obtain ⟨rfl, -⟩ := Prod.mk.inj heq
      obtain ⟨hprotected, -⟩ := OutgoingRTPPkt.protected_protect hprotect
      have hsizes := q.sizes_of_liesInMemory (some cc) stamp segment first hprotected.total
        hprotected.srtpLength hprotected.longer hmemory
      refine ⟨hsizes, fun cc' hcc' => ?_⟩
      cases hcc'
      have hsome := Option.isSome_iff_exists.mpr ⟨_, hprotect⟩
      rw [OutgoingRTPPkt.protect_isSome_iff, (length_encrypted hsizes rfl).1] at hsome
      exact hsome

/-! ## `putData` -/

/-- The context that `putData` protects with, if any: the registered one, or one derived from the
template of SSRC 0; `none` if the derivation does not return. -/
def putContext (P : Primitives) (q : OutgoingDataQueue) : Option (Option CryptoContext) :=
  match q.localContext with
  | some cc => some (some cc)
  | none =>
      match q.getOutQueueCryptoContext 0 with
      | none => some none
      | some template =>
          ((template.newCryptoContextForSSRC q.localSSRC 0 0).deriveSrtpKeys P 0).map some

/-- Making the context changes nothing but the registry. -/
structure MakesContext (P : Primitives) (q q' : OutgoingDataQueue) : Prop where
  others : ∃ registry, q' = { q with cryptoContexts := registry }
  context : q.putContext P = some q'.localContext
  noTemplate : q'.NeedsNoTemplate

theorem makesContext_ensureContext (h : q.ensureContext P = some q') : MakesContext P q q' := by
  by_cases hneeds : q.NeedsNoTemplate
  · rw [ensureContext_of_needsNoTemplate hneeds] at h
    cases h
    refine ⟨⟨q.cryptoContexts, rfl⟩, ?_, hneeds⟩
    rw [putContext]
    cases hlocal : q.localContext with
    | some cc => rfl
    | none =>
        rcases hneeds with hsome | hnone
        · rw [localContext] at hlocal
          rw [hlocal] at hsome
          cases hsome
        · rw [hnone]
  · refine ⟨?_, ?_, (ensureContext_of_needsTemplate hneeds h).1⟩
    all_goals
      rw [NeedsNoTemplate, not_or, Option.not_isSome_iff_eq_none] at hneeds
      obtain ⟨hlocal, htemplate⟩ := hneeds
      obtain ⟨template, htemplate⟩ := Option.ne_none_iff_exists'.mp htemplate
      rw [ensureContext, hlocal, htemplate] at h
      obtain ⟨cc, hcc, rfl⟩ := Option.map_eq_some_iff.mp h
    · exact ⟨_, rfl⟩
    · have hssrc : cc.ssrcCtx = q.localSSRC := by
        obtain ⟨m, -, rfl⟩ := Option.map_eq_some_iff.mp hcc
        rfl
      have hnone : ∀ c ∈ q.cryptoContexts, ¬ decide (c.ssrcCtx = cc.ssrcCtx) = true := by
        intro c hc
        rw [hssrc]
        exact List.find?_eq_none.mp hlocal c hc
      have hfound : (q.setOutQueueCryptoContext cc).localContext = some cc := by
        rw [localContext, getOutQueueCryptoContext, setOutQueueCryptoContext,
          List.eraseP_of_forall_not hnone, List.find?_append]
        show (q.getOutQueueCryptoContext q.localSSRC).or _ = _
        rw [hlocal, Option.none_or, List.find?_cons, decide_eq_true hssrc]
      rw [putContext, localContext, hlocal, htemplate, hfound]
      dsimp only
      rw [hcc]
      rfl

/-- Where the derivation does not return, neither does the round. -/
theorem putContext_of_ensureContext (h : q.ensureContext P = none) : q.putContext P = none := by
  rw [ensureContext] at h
  rw [putContext, localContext]
  cases hlocal : q.getOutQueueCryptoContext q.localSSRC with
  | some cc =>
      rw [hlocal] at h
      cases h
  | none =>
      cases htemplate : q.getOutQueueCryptoContext 0 with
      | none =>
          rw [hlocal, htemplate] at h
          cases h
      | some template =>
          rw [hlocal, htemplate, Option.map_eq_none_iff] at h
          dsimp only
          rw [h]
          rfl

/-- **`putData` makes the context and then the packets.** -/
theorem putData_eq_sendImmediate (stamp : BitVec 32) {data : Octets} (hdata : data ≠ []) :
    q.putData P stamp data = (q.ensureContext P).bind (fun q =>
      (q.sendImmediate P stamp data).map (fun r =>
        (r.1, r.2.withQueue (q.sendQueue ++ r.1.map SentPacket.packet)))) := by
  by_cases hneeds : q.NeedsNoTemplate
  · rw [ensureContext_of_needsNoTemplate hneeds, Option.bind_some,
      putData_of_needsNoTemplate hneeds]
  · rw [putData_of_needsTemplate hneeds stamp hdata]
    cases hensure : q.ensureContext P with
    | none => rfl
    | some q₁ =>
        rw [Option.bind_some, Option.bind_some,
          putData_of_needsNoTemplate (makesContext_ensureContext hensure).noTemplate]

/-- **What `putData` should make of the data.**  `ps` are the packets, `q` and `q'` the queue before
and after. -/
structure Segmented (P : Primitives) (q q' : OutgoingDataQueue) (stamp : BitVec 32)
    (data : Octets) (ps : List OutgoingRTPPkt) : Prop where
  count : ps.length = (data.length + q.maxSendSegmentSize - 1) / q.maxSendSegmentSize
  payloads : ∃ us, List.Forall₂ (ProtectedFrom P q') ps us ∧
    (∀ u ∈ us, 1 ≤ u.payload.length ∧ u.payload.length ≤ q.maxSendSegmentSize) ∧
    (us.map RTPPacket.payload).flatten = data
  seqNum : ∀ k p, ps[k]? = some p → p.cachedSeqNum = q.sendSeq + BitVec.ofNat 16 k
  timestamp : ∀ p ∈ ps, p.cachedTimestamp = stamp + q.initialTimestamp
  marker : ∀ k p, ps[k]? = some p → (p.isMarked = true ↔ k = 0 ∧ q.marked = true)
  header : ∀ p ∈ ps, ∃ mark, HasHeader q.payloadType mark p.cachedSeqNum p.cachedTimestamp
    q.localSSRC p
  memory : ∀ p ∈ ps, p.LiesInMemory
  unmarked : q'.marked = false

theorem SegmentsOf.segmented {data : Octets} {ps : List OutgoingRTPPkt} (hdata : data ≠ [])
    (h : SegmentsOf P q q' stamp true data ps) : Segmented P q q' stamp data ps where
  count := h.count
  payloads := h.payloads
  seqNum := fun k p hk => (h.header k p hk).seqNum
  timestamp := by
    intro p hp
    obtain ⟨k, hk⟩ := List.mem_iff_getElem?.mp hp
    exact (h.header k p hk).timestamp
  marker := by
    intro k p hk
    rw [(h.header k p hk).isMarked, Bool.true_and, Bool.and_eq_true, decide_eq_true_iff]
  header := by
    intro p hp
    obtain ⟨k, hk⟩ := List.mem_iff_getElem?.mp hp
    have hheader := h.header k p hk
    rw [hheader.seqNum, hheader.timestamp]
    exact ⟨_, hheader⟩
  memory := h.memory
  unmarked := by
    rw [h.marked, decide_eq_true hdata]
    exact Bool.and_false _

/-- **When `putData` segments the data.** -/
theorem putData_segmented_iff (hsize : 1 ≤ q.maxSendSegmentSize) (stamp : BitVec 32)
    {data : Octets} (hdata : data ≠ []) :
    (∃ sent q', q.putData P stamp data = some (sent, q') ∧
        Segmented P q q' stamp data (sent.map SentPacket.packet)) ↔
      ∃ pcc, q.putContext P = some pcc ∧
        q.shape.Sends pcc (min data.length q.maxSendSegmentSize) := by
  have hpos : 0 < data.length := List.length_pos_iff.mpr hdata
  rw [putData_eq_sendImmediate stamp hdata]
  cases hensure : q.ensureContext P with
  | none =>
      rw [putContext_of_ensureContext hensure]
      exact iff_of_false (by rintro ⟨_, _, h, -⟩; cases h) (by rintro ⟨_, h, -⟩; cases h)
  | some q₁ =>
      obtain ⟨⟨registry, hothers⟩, hcontext, -⟩ := makesContext_ensureContext hensure
      rw [Option.bind_some, hcontext]
      constructor
      · rintro ⟨sent, q', hput, hsegmented⟩
        refine ⟨_, rfl, ?_⟩
        obtain ⟨⟨sent', q₂⟩, hloop, heq⟩ := Option.map_eq_some_iff.mp hput
        obtain ⟨rfl, -⟩ := Prod.mk.inj heq
        -- the first segment is the longest one
        obtain ⟨rounds, hrounds⟩ := Nat.exists_eq_succ_of_ne_zero (Nat.ne_of_gt hpos)
        rw [sendImmediate, hrounds, segmentLoop_succ _ hdata] at hloop
        obtain ⟨⟨s, q₃⟩, hround, hrest⟩ := Option.bind_eq_some_iff.mp hloop
        obtain ⟨r, -, heq⟩ := Option.map_eq_some_iff.mp hrest
        obtain ⟨rfl, -⟩ := Prod.mk.inj heq
        have hsends := sends_of_immediateSegment hround
          (hsegmented.memory s.packet List.mem_cons_self)
        have hstep : q₁.step data = min data.length q.maxSendSegmentSize := by
          rw [hothers]
          show (if data.length > q.maxSendSegmentSize then q.maxSendSegmentSize
            else data.length) = _
          split_ifs <;> omega
        have hshape : q₁.shape = q.shape := by rw [hothers]; rfl
        rw [hshape, hstep, List.length_take, Nat.min_eq_left (Nat.min_le_left _ _)] at hsends
        exact hsends
      · rintro ⟨pcc, heq, hsends⟩
        cases heq
        have hmax : q₁.maxSendSegmentSize = q.maxSendSegmentSize := by rw [hothers]
        have hshape : q₁.shape = q.shape := by rw [hothers]; rfl
        obtain ⟨sent, q₂, hloop, hsegments, -⟩ := @immediateLoop_segments P stamp data.length data
          true q₁ _ le_rfl (hmax.symm ▸ hsize) (by rw [hmax]) (hshape.symm ▸ hsends)
        have hsegmented := hsegments.segmented hdata
        rw [hothers] at hsegmented
        rw [sendImmediate, hloop]
        refine ⟨_, _, rfl, ?_⟩
        exact ⟨hsegmented.count, hsegmented.payloads, hsegmented.seqNum, hsegmented.timestamp,
          hsegmented.marker, hsegmented.header, hsegmented.memory, hsegmented.unmarked⟩

end OutgoingDataQueue

namespace SendingQueue

open OutgoingDataQueue

variable {q : SendingQueue} {l : List ℕ} {c : List OutgoingRTPPkt}

/-- **When `putData` segments the data**: for every queue, stamp, data and maximum segment size it
ends with the packets of the data behind those that were waiting, exactly if there is a context or
none is wanted, the longest segment makes a packet whose sizes fit 32 bits, and the context can
protect it. -/
theorem segmentation_iff (P : Primitives) (h : q.Lists l c)
    (hsize : 1 ≤ q.info.maxSendSegmentSize) (stamp : BitVec 32) {data : Octets}
    (hdata : data ≠ []) :
    (∃ ps q', q.putData P stamp data = some (ps, q') ∧ (∃ l', q'.Lists l' (c ++ ps)) ∧
        Segmented P q.info q'.info stamp data ps) ↔
      ∃ pcc, q.info.putContext P = some pcc ∧
        q.info.shape.Sends pcc (min data.length q.info.maxSendSegmentSize) := by
  have hput := h.putData_eq (P := P) stamp data
  have hiff := putData_segmented_iff (P := P) (q := q.asList c) hsize stamp hdata
  refine Iff.trans ⟨?_, ?_⟩ hiff
  · rintro ⟨ps, q', hq', -, hs⟩
    rw [hq', Option.map_some, Option.map_eq_some_iff] at hput
    obtain ⟨⟨sent, info⟩, hsent, heq⟩ := hput
    obtain ⟨rfl, rfl⟩ := Prod.mk.inj heq
    exact ⟨sent, _, hsent, hs.count, hs.payloads, hs.seqNum, hs.timestamp, hs.marker, hs.header,
      hs.memory, hs.unmarked⟩
  · rintro ⟨sent, info, hsent, hs⟩
    rw [hsent, Option.map_some, eq_comm, Option.map_eq_some_iff] at hput
    obtain ⟨⟨ps, q'⟩, hq', heq⟩ := hput
    obtain ⟨rfl, rfl⟩ := Prod.mk.inj heq
    exact ⟨_, q', hq', (Lists.putLoop stamp data.length h).2 _ _ hq', hs.count, hs.payloads,
      hs.seqNum, hs.timestamp, hs.marker, hs.header, hs.memory, hs.unmarked⟩

/-- The theorem for five octets in segments of two, without a context. -/
theorem segmentation_iff_plain :
    (∃ ps q', (new ⟨7, 65535, fun _ => 0, 0, 0, true, 0, 160, 2, [], []⟩ 8000 ⟨0, 0⟩).putData
          .additive 320 [1, 2, 3, 4, 5] = some (ps, q') ∧ (∃ l', q'.Lists l' ([] ++ ps)) ∧
        Segmented .additive ⟨7, 65535, fun _ => 0, 0, 0, true, 0, 160, 2, [], []⟩ q'.info 320
          [1, 2, 3, 4, 5] ps) ↔
      ∃ pcc, putContext .additive ⟨7, 65535, fun _ => 0, 0, 0, true, 0, 160, 2, [], []⟩
          = some pcc ∧
        (shape ⟨7, 65535, fun _ => 0, 0, 0, true, 0, 160, 2, [], []⟩).Sends pcc (min 5 2) :=
  segmentation_iff .additive
    (lists_new ⟨7, 65535, fun _ => 0, 0, 0, true, 0, 160, 2, [], []⟩ 8000 ⟨0, 0⟩) (by decide) 320
    (by decide)

/-- A queue that protects with AES in counter mode, with segments of up to `2^20` octets. -/
def longSegments : OutgoingDataQueue :=
  { withContext (CryptoContext.aesCmSha1 0x1122 0).keyed with maxSendSegmentSize := 2 ^ 20 }

/-- **Data of `2^20` octets in one segment are not sent**: the block counter wraps, and `putData`
does not return. -/
theorem long_segment_not_sent :
    ¬ ∃ ps q', (new longSegments 8000 ⟨0, 0⟩).putData .additive 160 (List.replicate (2 ^ 20) 0)
        = some (ps, q') ∧ (∃ l', q'.Lists l' ([] ++ ps)) ∧
      Segmented .additive longSegments q'.info 160 (List.replicate (2 ^ 20) 0) ps := by
  rintro ⟨ps, q', hput, -, hs⟩
  have hagree := (lists_new longSegments 8000 ⟨0, 0⟩).putData_eq (P := .additive) 160
    (List.replicate (2 ^ 20) 0)
  rw [hput, Option.map_some, Option.map_eq_some_iff] at hagree
  obtain ⟨⟨sent, info⟩, hsent, heq⟩ := hagree
  obtain ⟨rfl, rfl⟩ := Prod.mk.inj heq
  have hne : List.replicate (2 ^ 20) (0 : UInt8) ≠ [] :=
    fun hnil => absurd (congrArg List.length hnil) (by rw [List.length_replicate]; decide)
  obtain ⟨pcc, hpcc, -, hsends⟩ := (putData_segmented_iff (P := .additive) (q := longSegments)
    (Nat.one_le_two_pow) 160 hne).mp ⟨sent, _, hsent, hs.count, hs.payloads,
      hs.seqNum, hs.timestamp, hs.marker, hs.header, hs.memory, hs.unmarked⟩
  cases hpcc
  obtain ⟨-, hshort⟩ := hsends _ rfl
  have hlt := hshort (Or.inl rfl) ⟨_, rfl, rfl⟩
  have hlen : min (List.replicate (2 ^ 20) (0 : UInt8)).length longSegments.maxSendSegmentSize
      = 2 ^ 20 := by
    rw [List.length_replicate]
    exact Nat.min_self _
  rw [hlen] at hlt
  exact absurd hlt (not_lt.mpr (Nat.le_add_right _ _))

end SendingQueue
