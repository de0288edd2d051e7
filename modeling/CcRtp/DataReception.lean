/-
# The sizes of a received packet

The part of `IncomingDataQueue::takeInDataPacket` (`src/incqueue.cpp`) that makes a packet
of a datagram: the padding bit is cleared, the packet is constructed, `unprotect` takes the
SRTP trailer off, and `reComputePayLength` (`src/rtppkt.cpp`) sets the padding bit again.

The datagram stands at the front of a larger memory.  What lies behind it is arbitrary, and
nothing keeps the functions from reading it.

* `sizes_receivedPacket` : the sizes of the packet that comes out;
* `padded_payload_never_restored` : the payload of a padded packet never comes out;
* `accepted_sizes_iff` : when the sizes of an accepted packet are right.
-/
import CcRtp.RtpCodec
import CcRtp.IncomingContexts

open RTPPacket CryptoContext

/-! ## The functions of the source -/

namespace RTPPacket

/-- `reComputePayLength(padding)` -/
def reComputePayLength (p : RTPPacket) (padding : Bool) : RTPPacket :=
  if padding then
    let p := p.setHeaderField 0 5 (1 : BitVec 1)
    -- counted from the beginning of the packet, not of the payload
    let len := 0#32 - BitVec.ofNat 32 (p.buffer.getD (p.payloadSize - 1).toNat 0).toNat
    { p with payloadSize := p.payloadSize - len }
  else p

end RTPPacket

namespace IncomingRTPPkt

variable (T : ShiftUnit) (P : Primitives)

/-- The packet after the call of `unprotect`, if there is a context for it.  A packet that
is refused is dropped: `onSRTPPacketError` returns `false`. -/
def afterUnprotect (p : IncomingRTPPkt) : Option CryptoContext → Option IncomingRTPPkt
  | none => some p
  | some ctx => (p.unprotect T P ctx).bind (fun r => if r.1 < 0 then none else some r.2.1)

end IncomingRTPPkt

namespace IncomingDataQueue

variable (T : ShiftUnit) (P : Primitives)

/-- The padding bit as it was received. -/
def padSet (memory : Octets) : Bool := headerField memory 0 5 1 = 1

/-- The packet that the constructor makes of a datagram of `len` octets. -/
def parsedPacket (memory : Octets) (len : ℕ) : IncomingRTPPkt :=
  IncomingRTPPkt.ofMemory (clearPaddingBit memory) len

/-- The context for a packet, as `takeInDataPacket` finds or makes it. -/
def contextOf (q : IncomingDataQueue) (packet : IncomingRTPPkt) : Option (Option CryptoContext) :=
  (q.contextFor P packet.cachedSSRC).map (fun r => r.1.map Tracked.obj)

/-- The packet that `takeInDataPacket` makes of a datagram of `len` octets and hands to
`onRTPPacketRecv`; `none` if it drops it before. -/
def receivedPacket (q : IncomingDataQueue) (memory : Octets) (len : ℕ) : Option IncomingRTPPkt :=
  -- `rtn` is an `int32`
  if 2 ^ 31 ≤ len ∨ len > q.maxRecvPacketSize then none
  else
    let packet := parsedPacket memory len
    if packet.headerValid then
      (q.contextOf P packet).bind (fun pcc => (packet.afterUnprotect T P pcc).map (fun p =>
        { p with toRTPPacket := p.toRTPPacket.reComputePayLength (padSet memory) }))
    else none

end IncomingDataQueue

/-! ## What the functions leave alone -/

namespace RTPPacket

/-- **The header size of a received packet** has no bound but that of its fields: it covers
the CSRC list and the head of the extension, whatever the size of the datagram. -/
theorem parsedHdrSize_bounds (block : Octets) :
    12 + 4 * (headerField block 0 0 4).toNat + (if headerField block 0 4 1 = 1 then 4 else 0)
        ≤ (parsedHdrSize block).toNat ∧
      (parsedHdrSize block).toNat < 2 ^ 19 := by
  have hcc := (headerField block 0 0 4).isLt
  have hword : ∀ pos, ofBigEndian (slice block pos 2) < 2 ^ 16 := by
    intro pos
    have hlen : (slice block pos 2).length ≤ 2 := by
      rw [slice, List.length_take]
      omega
    calc ofBigEndian (slice block pos 2) < 256 ^ (slice block pos 2).length := ofBigEndian_lt _
      _ ≤ 256 ^ 2 := Nat.pow_le_pow_right (by decide) hlen
  have hsize : (12#32 + ((headerField block 0 0 4).setWidth 32 <<< 2)).toNat
      = 12 + 4 * (headerField block 0 0 4).toNat := by
    simp only [BitVec.toNat_add, BitVec.toNat_shiftLeft, BitVec.toNat_setWidth, BitVec.toNat_ofNat,
      Nat.shiftLeft_eq]
    omega
  rw [parsedHdrSize]
  split_ifs
  · have hext := hword (12 + 4 * (headerField block 0 0 4).toNat + 2)
    rw [BitVec.toNat_add, hsize]
    simp only [BitVec.toNat_add, BitVec.toNat_mul, BitVec.toNat_ofNat]
    omega
  · rw [hsize]
    omega

end RTPPacket

/-- **The packet that `srtpEncrypt` leaves behind** differs in its memory alone, and there
only behind the header. -/
theorem CryptoContext.srtpEncrypt_cases {P : Primitives} {ctx : CryptoContext}
    {rtp rtp' : RTPPacket}
    {index : BitVec 64} {ssrc : BitVec 32} {blocks : List Block}
    (h : ctx.srtpEncrypt P rtp index ssrc = some (rtp', blocks)) :
    ∃ out, rtp' = rtp.setbuffer out rtp.hdrSize.toNat := by
  obtain ⟨r, -, hr⟩ := Option.map_eq_some_iff.mp h
  cases hr
  exact ⟨r.1, rfl⟩

namespace IncomingRTPPkt

variable {T : ShiftUnit} {P : Primitives} {ctx ctx' : CryptoContext} {p p' : IncomingRTPPkt}
  {code : ℤ}

/-- **The packet that `unprotect` lets through.** -/
theorem unprotect_accepted (h : p.unprotect T P ctx = some (code, p', ctx')) (hcode : ¬ code < 0) :
    ∃ out, p' = { p.withoutTrailer (srtpTrailer ctx) with
      toRTPPacket := (p.withoutTrailer (srtpTrailer ctx)).setbuffer out p.hdrSize.toNat } := by
  rcases unprotect_cases h with ⟨-, rfl, -⟩ | ⟨-, hfresh⟩
  · exact absurd (by decide) hcode
  · unfold unprotectFresh at hfresh
    simp only at hfresh
    split at hfresh
    · cases hfresh
    · next mac hmac =>
        split_ifs at hfresh with htag
        · cases hfresh
          exact absurd (by decide) hcode
        · obtain ⟨⟨rtp, blocks⟩, hr, heq⟩ := Option.map_eq_some_iff.mp hfresh
          cases heq
          obtain ⟨out, rfl⟩ := srtpEncrypt_cases hr
          exact ⟨out, rfl⟩

/-- **What `unprotect` does to the sizes**, with and without a context. -/
theorem afterUnprotect_sizes {pcc : Option CryptoContext} {u : IncomingRTPPkt}
    (h : p.afterUnprotect T P pcc = some u) :
    u.hdrSize = p.hdrSize ∧ u.total = p.total - BitVec.ofNat 32 (srtpOctets pcc) ∧
      u.payloadSize = p.payloadSize - BitVec.ofNat 32 (srtpOctets pcc) ∧
      (0 < p.hdrSize.toNat → 0 < p.buffer.length →
        u.buffer.take 1 = p.buffer.take 1 ∧ 0 < u.buffer.length) := by
  cases pcc with
  | none =>
      cases h
      refine ⟨rfl, ?_, ?_, fun _ hpos => ⟨rfl, hpos⟩⟩
      · exact (BitVec.sub_zero _).symm
      · exact (BitVec.sub_zero _).symm
  | some ctx =>
      obtain ⟨⟨code, p', ctx'⟩, hr, hu⟩ := Option.bind_eq_some_iff.mp h
      split_ifs at hu with hcode
      cases hu
      obtain ⟨out, rfl⟩ := unprotect_accepted hr hcode
      refine ⟨rfl, rfl, rfl, fun hhdr hpos => ⟨?_, ?_⟩⟩
      · exact take_writeAt hhdr hpos out
      · exact hpos.trans_le (length_le_writeAt _ _)

end IncomingRTPPkt

/-! ## The packet that comes out -/

namespace IncomingDataQueue

variable {T : ShiftUnit} {P : Primitives} {q : IncomingDataQueue} {memory : Octets} {len : ℕ}
  {p : IncomingRTPPkt}

/-- Clearing the bit is an assignment to the padding field. -/
theorem clearPaddingBit_cons (o : UInt8) (rest : Octets) :
    clearPaddingBit (o :: rest) = setBitField o 5 (0 : BitVec 1) :: rest := by
  have hoctet : setBitField o 5 (0 : BitVec 1) = o &&& ~~~0x20 := by
    rw [← UInt8.toBitVec_inj, setBitField]
    simp
  rw [hoctet]
  rfl

/-- The padding bit is off. -/
theorem headerField_padding_clearPaddingBit (memory : Octets) :
    headerField (clearPaddingBit memory) 0 5 1 = 0 := by
  cases memory with
  | nil => rfl
  | cons o rest =>
      rw [clearPaddingBit_cons, headerField, List.getD_cons_zero]
      exact bitField_setBitField o 5 0 (by omega)

/-- The other fields of the first octet are as before. -/
theorem headerField_clearPaddingBit (memory : Octets) {lo w : ℕ} (h : lo + w ≤ 8)
    (hdisj : lo + w ≤ 5 ∨ 6 ≤ lo) :
    headerField (clearPaddingBit memory) 0 lo w = headerField memory 0 lo w := by
  cases memory with
  | nil => rfl
  | cons o rest =>
      rw [clearPaddingBit_cons, headerField, headerField, List.getD_cons_zero, List.getD_cons_zero]
      exact bitField_setBitField_of_disjoint o 5 0 h hdisj

/-- So are the octets behind it. -/
theorem slice_clearPaddingBit (memory : Octets) (pos n : ℕ) :
    slice (clearPaddingBit memory) (pos + 1) n = slice memory (pos + 1) n := by
  cases memory <;> rfl

/-- The header size does not depend on the padding bit. -/
theorem parsedHdrSize_clearPaddingBit (memory : Octets) :
    parsedHdrSize (clearPaddingBit memory) = parsedHdrSize memory := by
  rw [parsedHdrSize, parsedHdrSize, headerField_clearPaddingBit memory (by omega) (by omega),
    headerField_clearPaddingBit memory (by omega) (by omega), slice_clearPaddingBit]

/-- **The packet that the constructor makes**: with the padding bit off, all of the
datagram behind the header is payload. -/
theorem parsedPacket_sizes (memory : Octets) (len : ℕ) :
    (parsedPacket memory len).buffer = clearPaddingBit memory ∧
      (parsedPacket memory len).hdrSize = parsedHdrSize memory ∧
      (parsedPacket memory len).total = BitVec.ofNat 32 len ∧
      (parsedPacket memory len).payloadSize = BitVec.ofNat 32 len - parsedHdrSize memory := by
  have hpacket : (RTPPacket.ofMemory (clearPaddingBit memory) len).payloadSize
      = BitVec.ofNat 32 len - parsedHdrSize memory := by
    rw [RTPPacket.ofMemory]
    simp only [headerField_padding_clearPaddingBit, parsedHdrSize_clearPaddingBit]
    rw [if_neg (by decide)]
  have hhdr : (RTPPacket.ofMemory (clearPaddingBit memory) len).hdrSize = parsedHdrSize memory :=
    parsedHdrSize_clearPaddingBit memory
  rw [parsedPacket, IncomingRTPPkt.ofMemory]
  split_ifs
  · exact ⟨rfl, hhdr, rfl, hpacket⟩
  · exact ⟨rfl, hhdr, rfl, hpacket⟩

/-- A packet with a valid header has version 2. -/
theorem version_of_headerValid (h : (parsedPacket memory len).headerValid = true) :
    headerField memory 0 6 2 = ccrtpVersion := by
  rw [parsedPacket, IncomingRTPPkt.ofMemory] at h
  split_ifs at h with hbad
  have hversion : headerField (clearPaddingBit memory) 0 6 2 = ccrtpVersion := by
    by_contra hne
    exact hbad (Or.inl hne)
  rwa [headerField_clearPaddingBit memory (by omega) (by omega)] at hversion

/-- **The packets that are let through.** -/
theorem receivedPacket_cases (h : q.receivedPacket T P memory len = some p) :
    ∃ pcc u, len < 2 ^ 31 ∧ (parsedPacket memory len).headerValid = true ∧
      q.contextOf P (parsedPacket memory len) = some pcc ∧
      (parsedPacket memory len).afterUnprotect T P pcc = some u ∧
      p = { u with toRTPPacket := u.toRTPPacket.reComputePayLength (padSet memory) } := by
  rw [receivedPacket] at h
  split_ifs at h with hsize
  simp only at h
  split_ifs at h with hvalid
  obtain ⟨pcc, hpcc, hrest⟩ := Option.bind_eq_some_iff.mp h
  obtain ⟨u, hu, rfl⟩ := Option.map_eq_some_iff.mp hrest
  exact ⟨pcc, u, by omega, hvalid, hpcc, hu, rfl⟩

/-- The octet that `reComputePayLength` takes for the number of padding octets. -/
def paddingOctet (u : RTPPacket) : UInt8 :=
  (u.setHeaderField 0 5 (1 : BitVec 1)).buffer.getD (u.payloadSize - 1).toNat 0

/-- What `reComputePayLength` does to the sizes: the padding octet is added. -/
theorem reComputePayLength_sizes (u : RTPPacket) (padding : Bool) :
    (u.reComputePayLength padding).hdrSize = u.hdrSize ∧
      (u.reComputePayLength padding).total = u.total ∧
      (u.reComputePayLength padding).payloadSize = u.payloadSize
        + (if padding then BitVec.ofNat 32 (paddingOctet u).toNat else 0) := by
  cases padding with
  | false => exact ⟨rfl, rfl, (BitVec.add_zero _).symm⟩
  | true =>
      refine ⟨rfl, rfl, ?_⟩
      show u.payloadSize - (0#32 - BitVec.ofNat 32 (paddingOctet u).toNat) = _
      rw [if_pos rfl, BitVec.sub_eq_add_neg, BitVec.zero_sub, BitVec.neg_neg]

/-- **The sizes of the packet that comes out**, with the SRTP trailer off and the padding
octet added. -/
theorem sizes_receivedPacket (h : q.receivedPacket T P memory len = some p) :
    ∃ pcc u, (parsedPacket memory len).headerValid = true ∧
      q.contextOf P (parsedPacket memory len) = some pcc ∧
      (parsedPacket memory len).afterUnprotect T P pcc = some u ∧
      p.toRTPPacket = u.toRTPPacket.reComputePayLength (padSet memory) ∧
      len < 2 ^ 31 ∧ p.hdrSize = parsedHdrSize memory ∧
      p.total = BitVec.ofNat 32 len - BitVec.ofNat 32 (srtpOctets pcc) ∧
      u.payloadSize = BitVec.ofNat 32 len - parsedHdrSize memory
        - BitVec.ofNat 32 (srtpOctets pcc) ∧
      p.payloadSize = u.payloadSize
        + (if padSet memory then BitVec.ofNat 32 (paddingOctet u.toRTPPacket).toNat else 0) := by
  obtain ⟨pcc, u, hlen, hvalid, hpcc, hu, rfl⟩ := receivedPacket_cases h
  obtain ⟨-, hhdr, htotal, hpayload⟩ := parsedPacket_sizes memory len
  obtain ⟨huhdr, hutotal, hupayload, -⟩ := IncomingRTPPkt.afterUnprotect_sizes hu
  obtain ⟨hphdr, hptotal, hppayload⟩ := reComputePayLength_sizes u.toRTPPacket (padSet memory)
  refine ⟨pcc, u, hvalid, hpcc, hu, rfl, hlen, ?_, ?_, ?_, hppayload⟩
  · rw [hphdr, huhdr, hhdr]
  · rw [hptotal, hutotal, htotal]
  · rw [hupayload, hpayload]

end IncomingDataQueue

/-! ## Padded packets -/

namespace OutgoingRTPPkt

/-- The octets that are sent for a packet; `none` if `protect` does not return. -/
def sentDatagram (P : Primitives) (p : OutgoingRTPPkt) (ssrc : BitVec 32) :
    Option CryptoContext → Option Octets
  | none => some p.rawPacketSrtp
  | some ctx => (p.protect P ssrc ctx).map (fun r => r.1.rawPacketSrtp)

/-- **What is sent has the size of the packet and its fixed header**, protected or not. -/
theorem sentDatagram_front {P : Primitives} {p : OutgoingRTPPkt} {ssrc : BitVec 32}
    {pcc : Option CryptoContext} {datagram : Octets}
    (hroom : (p.total + p.srtpLength).toNat ≤ p.buffer.length)
    (hsize : 12 ≤ (p.total + p.srtpLength).toNat) (hhdr : 12 ≤ p.hdrSize.toNat)
    (hoff : pcc.isSome = true → 12 ≤ p.srtpDataOffset.toNat)
    (h : p.sentDatagram P ssrc pcc = some datagram) :
    datagram.length = (p.total + p.srtpLength).toNat ∧ datagram.take 12 = p.buffer.take 12 := by
  have hfront : ∀ b : Octets, p.buffer.length ≤ b.length → b.take 12 = p.buffer.take 12 →
      (b.take (p.total + p.srtpLength).toNat).length = (p.total + p.srtpLength).toNat ∧
        (b.take (p.total + p.srtpLength).toNat).take 12 = p.buffer.take 12 := by
    intro b hlen htake
    rw [List.length_take, List.take_take, Nat.min_eq_left hsize]
    exact ⟨by omega, htake⟩
  cases pcc with
  | none =>
      cases h
      exact hfront p.buffer le_rfl rfl
  | some ctx =>
      obtain ⟨r, hr, rfl⟩ := Option.map_eq_some_iff.mp h
      obtain ⟨⟨p₁, blocks⟩, henc, hauth⟩ := Option.bind_eq_some_iff.mp hr
      obtain ⟨tag, -, rfl⟩ := Option.map_eq_some_iff.mp hauth
      obtain ⟨out, rfl⟩ := srtpEncrypt_cases henc
      have hlen₁ := length_le_writeAt (b := p.buffer) p.hdrSize.toNat out
      have hlen₂ := length_le_writeAt (b := writeAt p.buffer p.hdrSize.toNat out)
        p.srtpDataOffset.toNat tag
      refine hfront (writeAt (writeAt p.buffer p.hdrSize.toNat out) p.srtpDataOffset.toNat tag)
        (hlen₁.trans hlen₂) ?_
      rw [take_writeAt (hoff rfl) (by omega), take_writeAt hhdr (by omega)]

end OutgoingRTPPkt

namespace IncomingDataQueue

open OutgoingRTPPkt

/-- Sender and receiver share an SRTP context for an SSRC, or neither has one. -/
def SharesContext (P : Primitives) (q : IncomingDataQueue) (pcc : Option CryptoContext)
    (ssrc : BitVec 32) : Prop :=
  ∃ t q', q.contextFor P ssrc = some (t, q') ∧
    t.map (fun t => t.obj.keys) = pcc.map CryptoContext.keys

/-- The fields that a datagram with a given fixed header starts with. -/
theorem parsedPacket_fixedHeader {o0 o1 : UInt8} {seq : BitVec 16} {pts ssrc : BitVec 32}
    {memory : Octets} (hfront : memory.take 12 = fixedHeader o0 o1 seq pts ssrc) {len : ℕ}
    (hvalid : (parsedPacket memory len).headerValid = true) :
    (∀ lo w, headerField memory 0 lo w = bitField o0 lo w) ∧
      (parsedPacket memory len).cachedSSRC = ssrc := by
  have hmemory : memory = fixedHeader o0 o1 seq pts ssrc ++ memory.drop 12 := by
    rw [← hfront, List.take_append_drop]
  have hssrc : slice (clearPaddingBit memory) 8 4 = bigEndian 4 ssrc.toNat := by
    rw [slice_clearPaddingBit memory 7 4, hmemory]
    rfl
  refine ⟨fun lo w => by rw [hmemory]; rfl, ?_⟩
  rw [parsedPacket, IncomingRTPPkt.ofMemory] at hvalid ⊢
  split_ifs at hvalid ⊢ with hbad
  show BitVec.ofNat 32 (ofBigEndian (slice (clearPaddingBit memory) 8 4)) = ssrc
  rw [hssrc, ofBigEndian_bigEndian _ _ ssrc.isLt, BitVec.ofNat_toNat, BitVec.setWidth_eq]

/-- The trailers of a shared context have one size. -/
theorem srtpOctets_of_keys {pcc pcc' : Option CryptoContext}
    (h : pcc'.map CryptoContext.keys = pcc.map CryptoContext.keys) :
    srtpOctets pcc' = srtpOctets pcc := by
  cases pcc with
  | none =>
      cases pcc' with
      | none => rfl
      | some ctx' => cases h
  | some ctx =>
      cases pcc' with
      | none => cases h
      | some ctx' =>
          rw [Option.map_some, Option.map_some, Option.some_inj] at h
          exact congrArg SessionKeys.tagLength h

/-- The header size that is read off the fixed header, without an extension. -/
theorem parsedHdrSize_of_cc {memory : Octets} {k : ℕ}
    (hcc : headerField memory 0 0 4 = BitVec.ofNat 4 k) (hext : headerField memory 0 4 1 = 0) :
    (parsedHdrSize memory).toNat = 12 + 4 * (k % 16) := by
  rw [parsedHdrSize, hcc, hext, if_neg (by decide)]
  simp only [BitVec.toNat_add, BitVec.toNat_shiftLeft, BitVec.toNat_setWidth, BitVec.toNat_ofNat,
    Nat.shiftLeft_eq]
  omega

end IncomingDataQueue

open OutgoingRTPPkt IncomingDataQueue in
/-- **The payload of a padded packet never comes out.**  For every list of contributing
sources, every payload and every padding modulus other than zero, whichever constructor
builds the packet, with and without a shared SRTP context: what is sent for it is not
accepted, or the packet that reaches the queue has another payload size.  The padding octets
count as payload, and the octet that should be subtracted is added. -/
theorem padded_payload_never_restored (T : ShiftUnit) (P : Primitives) (q : IncomingDataQueue)
    {csrcs : List (BitVec 32)} (hcsrcs : csrcs.length < 2 ^ 16) {data : Octets}
    {paddinglen : UInt8} (hpad : paddinglen ≠ 0) {pcc : Option CryptoContext} {p : OutgoingRTPPkt}
    (hp : Builds csrcs data paddinglen pcc [] p) {n : ℕ}
    (hn : n = 12 + 4 * csrcs.length + data.length)
    (hlt : n + paddingOctets paddinglen n + srtpOctets pcc < 2 ^ 32) (pt : BitVec 7)
    (seq : BitVec 16) (pts ssrc : BitVec 32) (mark : Bool) (hshared : q.SharesContext P pcc ssrc)
    (rest : Octets) :
    ¬ ∃ datagram r, (p.fillHeader pt seq pts ssrc mark).sentDatagram P ssrc pcc = some datagram ∧
      q.receivedPacket T P (datagram ++ rest) datagram.length = some r ∧
      r.payloadSize.toNat = data.length ∧ r.payload = data := by
  rintro ⟨datagram, r, hsent, hr, hsize, -⟩
  obtain ⟨hk1, hk255⟩ := paddingOctets_bounds hpad n
  set k := paddingOctets paddinglen n with hk
  have hn' : n = 12 + 4 * csrcs.length + ([] : Octets).length + data.length := by
    rw [hn, List.length_nil, Nat.add_zero]
  rw [hp.eq_withExtension hn' hlt, withExtension_eq csrcs [] data paddinglen pcc hn' hk hlt,
    fillHeader_eq _ rfl] at hsent
  -- the length of the datagram and its first twelve octets
  have hsum : (BitVec.ofNat 32 (n + k) + BitVec.ofNat 32 (srtpOctets pcc)).toNat
      = n + k + srtpOctets pcc := by
    rw [← BitVec.ofNat_add, BitVec.toNat_ofNat, Nat.mod_eq_of_lt hlt]
  obtain ⟨hlen, hfront⟩ := sentDatagram_front
    (by
      show (BitVec.ofNat 32 (n + k) + BitVec.ofNat 32 (srtpOctets pcc)).toNat ≤ _
      rw [hsum]
      simp only [List.length_append, length_fixedHeader, length_csrcOctets, length_padding,
        List.length_replicate, List.length_nil]
      omega)
    (by
      show 12 ≤ (BitVec.ofNat 32 (n + k) + BitVec.ofNat 32 (srtpOctets pcc)).toNat
      rw [hsum]
      omega)
    (by
      show 12 ≤ (BitVec.ofNat 32 (12 + 4 * csrcs.length + 0)).toNat
      rw [BitVec.toNat_ofNat]
      omega)
    (by
      intro hsome
      show 12 ≤ (if pcc.isSome then BitVec.ofNat 32 (n + k) else 0).toNat
      rw [if_pos hsome, BitVec.toNat_ofNat]
      omega)
    hsent
  have hlen' : datagram.length = n + k + srtpOctets pcc := hlen.trans hsum
  have hmemory : (datagram ++ rest).take 12 = fixedHeader (headerOctet (paddinglen ≠ 0)
      (BitVec.ofNat 4 csrcs.length) false) (secondOctet pt mark) seq pts ssrc := by
    rw [List.take_append_of_le_length (by omega), hfront]
    exact List.take_left' (length_fixedHeader ..)
  obtain ⟨pcc', u, hvalid, hpcc, hu, -, -, hhdr, htotal, hupayload, hpayload⟩ :=
    sizes_receivedPacket hr
  obtain ⟨hfields, hcached⟩ := parsedPacket_fixedHeader hmemory hvalid
  -- the trailer that the receiver takes off is the one that the sender put on
  have htrailer : srtpOctets pcc' = srtpOctets pcc := by
    obtain ⟨t, q', ht, hkeys⟩ := hshared
    rw [contextOf, hcached, ht, Option.map_some, Option.some_inj] at hpcc
    refine srtpOctets_of_keys ?_
    rw [← hpcc, ← hkeys, Option.map_map]
    rfl
  have hhdrSize : (parsedHdrSize (datagram ++ rest)).toNat = 12 + 4 * (csrcs.length % 16) :=
    parsedHdrSize_of_cc ((hfields 0 4).trans (bitField_headerOctet_cc ..))
      ((hfields 4 1).trans (bitField_headerOctet_extension ..))
  have hpadSet : padSet (datagram ++ rest) = true := by
    have hbit := (hfields 5 1).trans (bitField_headerOctet_padding (paddinglen ≠ 0) false
      (BitVec.ofNat 4 csrcs.length))
    rw [padSet, hbit, decide_eq_true hpad]
    rfl
  have hoctet := (paddingOctet u.toRTPPacket).toNat_lt
  rw [hpayload, hpadSet, if_pos rfl, hupayload, htrailer, hlen', BitVec.toNat_add, BitVec.toNat_sub,
    BitVec.toNat_sub, hhdrSize] at hsize
  simp only [BitVec.toNat_ofNat] at hsize
  omega

open OutgoingRTPPkt in
/-- The theorem at a payload of three octets, padded to a multiple of eight and protected. -/
theorem padded_payload_never_restored_sample :
    ¬ ∃ datagram r,
      ((withCsrcs [5] [1, 2, 3] 8 (some (aesCmSha1 0x1122 0).keyed)).fillHeader 96 7 160
        0x1122 false).sentDatagram .additive 0x1122 (some (aesCmSha1 0x1122 0).keyed)
          = some datagram ∧
      IncomingDataQueue.receivedPacket .x86 .additive ⟨65534, [⟨(aesCmSha1 0x1122 0).keyed, true⟩]⟩
        (datagram ++ []) datagram.length = some r ∧
      r.payloadSize.toNat = 3 ∧ r.payload = [1, 2, 3] :=
  padded_payload_never_restored .x86 .additive _ (by decide) (by decide) .withCsrcs rfl (by decide)
    96 7 160 0x1122 false ⟨_, _, rfl, rfl⟩ []

open OutgoingRTPPkt in
/-- **A padded packet of three octets.**  Without SRTP it is accepted, with eleven octets of
payload: the three, the padding octet, and seven more for the sequence number, which stands
where the padding octet is looked for.  With SRTP it is dropped: the tag covers the padding
bit, and the receiver has cleared it. -/
theorem padded_packet_not_restored :
    (((plain [1, 2, 3] 4 none).fillHeader 0 7 0 0x1122 false).sentDatagram .additive 0x1122
        none).map (fun d =>
          (IncomingDataQueue.receivedPacket .x86 .additive ⟨65534, []⟩ d d.length).map (fun r =>
            (r.payloadSize.toNat, r.payload)))
      = some (some (11, [1, 2, 3, 1])) ∧
    (((plain [1, 2, 3] 4 (some (aesCmSha1 0x1122 0).keyed)).fillHeader 0 7 0 0x1122
        false).sentDatagram .additive 0x1122 (some (aesCmSha1 0x1122 0).keyed)).map (fun d =>
          (IncomingDataQueue.receivedPacket .x86 .additive
            ⟨65534, [⟨(aesCmSha1 0x1122 0).keyed, true⟩]⟩ d d.length).map (fun r => r.payload))
      = some none := by
  decide

/-! ## The sizes of accepted packets -/

/-- The sizes of a packet that was made of `n` octets: the header lies inside the packet, the
packet inside the datagram, and header, payload and padding make up the packet. -/
structure RTPPacket.ConsistentSizes (p : RTPPacket) (n : ℕ) : Prop where
  fixedHeader_le : sizeOfFixedHeader ≤ p.hdrSize.toNat
  hdrSize_le : p.hdrSize.toNat ≤ p.total.toNat
  total_le : p.total.toNat ≤ n
  addsUp : p.AddsUp

namespace IncomingDataQueue

open IncomingRTPPkt

/-- The regions of memory that are read for a datagram that is let through, each with its
offset and its number of octets. -/
def regionsRead (memory : Octets) (len : ℕ) (pcc : Option CryptoContext) : List (ℕ × ℕ) :=
  let p := parsedPacket memory len
  -- the fixed header, and the head of the extension
  let parsing := (0, sizeOfFixedHeader) ::
    if p.isExtended then [(sizeOfFixedHeader + 4 * p.getCSRCsCount.toNat, 4)] else []
  -- what is authenticated, the tag, and what is decrypted
  let unprotecting := pcc.elim [] (fun ctx =>
    let u := p.withoutTrailer (srtpTrailer ctx)
    [(0, u.total.toNat), ((u.total + BitVec.ofNat 32 ctx.getMkiLength).toNat, ctx.getTagLength),
      (u.hdrSize.toNat, u.payloadSize.toNat)])
  -- the octet that `reComputePayLength` reads
  let padding := if padSet memory then
    [((p.payloadSize - BitVec.ofNat 32 (srtpOctets pcc) - 1).toNat, 1)] else []
  parsing ++ unprotecting ++ padding

/-- The header that a datagram declares and the SRTP trailer fit into it; and if its padding
bit is set, there is something between them, and the last octet of that and the octet that
`reComputePayLength` reads are both zero after decryption. -/
def SizesFit (T : ShiftUnit) (P : Primitives) (memory : Octets) (len : ℕ)
    (pcc : Option CryptoContext) : Prop :=
  (parsedHdrSize memory).toNat + srtpOctets pcc ≤ len ∧
    (padSet memory = true → (parsedHdrSize memory).toNat + srtpOctets pcc < len ∧
      ∀ u, (parsedPacket memory len).afterUnprotect T P pcc = some u →
        u.buffer.getD (len - (parsedHdrSize memory).toNat - srtpOctets pcc - 1) 0 = 0 ∧
          u.buffer.getD (len - srtpOctets pcc - 1) 0 = 0)

variable {T : ShiftUnit} {P : Primitives} {q : IncomingDataQueue} {memory : Octets} {len : ℕ}
  {p u : IncomingRTPPkt} {pcc : Option CryptoContext}

/-- The first octet survives `unprotect`. -/
theorem first_afterUnprotect (hvalid : (parsedPacket memory len).headerValid = true)
    (hu : (parsedPacket memory len).afterUnprotect T P pcc = some u) :
    ∃ o rest, u.buffer = o :: rest ∧ bitField o 6 2 = ccrtpVersion ∧ bitField o 5 1 = 0 := by
  obtain ⟨hbuffer, hhdr, -, -⟩ := parsedPacket_sizes memory len
  have hversion := version_of_headerValid hvalid
  have hbound := (parsedHdrSize_bounds memory).1
  cases memory with
  | nil => exact absurd hversion (by decide)
  | cons o rest =>
      rw [clearPaddingBit_cons] at hbuffer
      obtain ⟨hfirst, hpos⟩ := (afterUnprotect_sizes hu).2.2.2 (by rw [hhdr]; omega)
        (by rw [hbuffer]; exact Nat.succ_pos _)
      obtain ⟨o', rest', ho'⟩ := List.exists_cons_of_length_pos hpos
      rw [ho', hbuffer, List.take_succ_cons, List.take_succ_cons, List.take_zero, List.take_zero,
        List.cons.injEq] at hfirst
      refine ⟨o', rest', ho', ?_, ?_⟩
      · rw [hfirst.1, bitField_setBitField_of_disjoint _ _ _ (by omega) (by omega)]
        exact hversion
      · rw [hfirst.1, bitField_setBitField _ _ _ (by omega)]

/-- Setting the padding bit makes no octet zero or other than zero. -/
theorem getD_setPadding_eq_zero {u : RTPPacket} {o : UInt8} {rest : Octets}
    (hu : u.buffer = o :: rest) (hversion : bitField o 6 2 = ccrtpVersion) (i : ℕ) :
    (u.setHeaderField 0 5 (1 : BitVec 1)).buffer.getD i 0 = 0 ↔ u.buffer.getD i 0 = 0 := by
  have hne : ∀ x : UInt8, bitField x 6 2 = ccrtpVersion → x ≠ 0 := by
    rintro x hx rfl
    exact absurd hx (by decide)
  rw [setHeaderField]
  dsimp only
  rw [hu, List.set_cons_zero]
  cases i with
  | zero =>
      rw [List.getD_cons_zero, List.getD_cons_zero]
      refine iff_of_false (hne _ ?_) (hne o hversion)
      rw [bitField_setBitField_of_disjoint _ _ _ (by omega) (by omega)]
      exact hversion
  | succ i => rw [List.getD_cons_succ, List.getD_cons_succ]

/-- The padding of the packet that comes out: the last octet, if the padding bit was set. -/
theorem paddingSize_reComputePayLength {u : RTPPacket} {o : UInt8} {rest : Octets}
    (hu : u.buffer = o :: rest) (hclear : bitField o 5 1 = 0) (padding : Bool) :
    (u.reComputePayLength padding).paddingSize = if padding then
      ((u.setHeaderField 0 5 (1 : BitVec 1)).buffer.getD (u.total - 1).toNat 0).toNat else 0 := by
  cases padding with
  | false =>
      have hpadded : u.isPadded = false := by
        rw [isPadded, headerField, hu, List.getD_cons_zero, hclear]
        decide
      show u.paddingSize = 0
      rw [paddingSize, hpadded]
      rfl
  | true =>
      have hpadded : (u.reComputePayLength true).isPadded = true := by
        show (decide (bitField ((u.buffer.set 0 _).getD 0 0) 5 1 = 1)) = true
        rw [hu, List.set_cons_zero, List.getD_cons_zero, List.getD_cons_zero,
          bitField_setBitField _ _ _ (by omega)]
        decide
      rw [paddingSize, hpadded, if_pos rfl, if_pos rfl]
      rfl

/-- Where header and trailer fit, nothing behind the datagram is read. -/
theorem forall_mem_regionsRead (h : (parsedHdrSize memory).toNat + srtpOctets pcc ≤ len)
    (hlen : len < 2 ^ 31)
    (hpad : padSet memory = true → (parsedHdrSize memory).toNat + srtpOctets pcc < len) :
    ∀ r ∈ regionsRead memory len pcc, r.1 + r.2 ≤ len := by
  obtain ⟨hbuffer, hhdr, htotal, hpayload⟩ := parsedPacket_sizes memory len
  obtain ⟨hbound, -⟩ := parsedHdrSize_bounds memory
  intro r hr
  rw [regionsRead, List.mem_append, List.mem_append] at hr
  rcases hr with (hr | hr) | hr
  · rcases List.mem_cons.mp hr with rfl | hr
    · show 0 + 12 ≤ len
      omega
    · split_ifs at hr with hext
      · rw [List.mem_singleton] at hr
        subst hr
        have hcc : (parsedPacket memory len).getCSRCsCount = headerField memory 0 0 4 := by
          rw [getCSRCsCount, hbuffer, headerField_clearPaddingBit memory (by omega) (by omega)]
        have hx : headerField memory 0 4 1 = 1 := by
          rw [isExtended, hbuffer, headerField_clearPaddingBit memory (by omega) (by omega)] at hext
          exact of_decide_eq_true hext
        rw [if_pos hx] at hbound
        rw [hcc]
        show 12 + 4 * _ + 4 ≤ len
        omega
      · cases hr
  · cases pcc with
    | none => cases hr
    | some ctx =>
        have htag := ctx.tagLength_le
        have ht : srtpOctets (some ctx) = ctx.tagLength := rfl
        have htrailer : srtpTrailer ctx = BitVec.ofNat 32 ctx.tagLength := rfl
        simp only [Option.elim_some, List.mem_cons, List.not_mem_nil, or_false, withoutTrailer,
          hhdr, htotal, hpayload, htrailer, getMkiLength, getTagLength] at hr
        rw [ht] at h
        rcases hr with rfl | rfl | rfl
        · simp only [BitVec.toNat_sub, BitVec.toNat_ofNat]
          omega
        · simp only [BitVec.toNat_sub, BitVec.toNat_add, BitVec.toNat_ofNat]
          omega
        · simp only [BitVec.toNat_sub, BitVec.toNat_ofNat]
          omega
  · split_ifs at hr with hset
    · rw [List.mem_singleton] at hr
      subst hr
      have hroom := hpad hset
      have hone : (1 : BitVec 32).toNat = 1 := rfl
      rw [hpayload, BitVec.toNat_sub, hone]
      simp only [BitVec.toNat_sub, BitVec.toNat_ofNat]
      omega
    · cases hr

/-- The sizes as numbers, where header and trailer fit. -/
theorem toNat_sizes_of_fit {h t : ℕ} {hdr : BitVec 32} (hhdr : hdr.toNat = h) (hfit : h + t ≤ len)
    (hlen : len < 2 ^ 31) :
    (BitVec.ofNat 32 len - BitVec.ofNat 32 t).toNat = len - t ∧
      (BitVec.ofNat 32 len - hdr - BitVec.ofNat 32 t).toNat = len - h - t := by
  simp only [BitVec.toNat_sub, BitVec.toNat_ofNat, hhdr]
  omega

/-- The predecessor of a number that is not zero. -/
theorem toNat_sub_one {x : BitVec 32} {n : ℕ} (hx : x.toNat = n) (hn : 0 < n) :
    (x - 1).toNat = n - 1 := by
  have hone : (1 : BitVec 32).toNat = 1 := rfl
  have hlt := x.isLt
  rw [BitVec.toNat_sub, hone, hx]
  omega

/-- The region of the octet that `reComputePayLength` reads. -/
theorem mem_regionsRead_padding (hset : padSet memory = true) :
    ((BitVec.ofNat 32 len - parsedHdrSize memory - BitVec.ofNat 32 (srtpOctets pcc) - 1).toNat, 1)
      ∈ regionsRead memory len pcc := by
  rw [← (parsedPacket_sizes memory len).2.2.2, regionsRead, List.mem_append, if_pos hset]
  exact Or.inr (List.mem_singleton_self _)

end IncomingDataQueue

open IncomingDataQueue in
/-- **When the sizes of an accepted packet are right.**  For every datagram, whatever lies
behind it in memory, with and without an SRTP context: if the packet is let through, its sizes
are consistent, and all that was read for it lies inside the datagram, exactly if the header
that it declares and the SRTP trailer fit into the datagram and, should the padding bit be set,
the octet taken for the number of padding octets and the last octet are zero. -/
theorem accepted_sizes_iff (T : ShiftUnit) (P : Primitives) {q : IncomingDataQueue}
    {datagram rest : Octets} {p : IncomingRTPPkt}
    (h : q.receivedPacket T P (datagram ++ rest) datagram.length = some p)
    {pcc : Option CryptoContext}
    (hpcc : q.contextOf P (parsedPacket (datagram ++ rest) datagram.length) = some pcc) :
    (p.ConsistentSizes datagram.length ∧
        ∀ r ∈ regionsRead (datagram ++ rest) datagram.length pcc, r.1 + r.2 ≤ datagram.length) ↔
      SizesFit T P (datagram ++ rest) datagram.length pcc := by
  set memory := datagram ++ rest
  set len := datagram.length
  obtain ⟨pcc', u, hvalid, hpcc', hu, hpu, hlen, hhdr, htotal, hupayload, hpayload⟩ :=
    sizes_receivedPacket h
  obtain rfl : pcc = pcc' := Option.some_inj.mp (hpcc.symm.trans hpcc')
  obtain ⟨o, tail, hbuffer, hversion, hclear⟩ := first_afterUnprotect hvalid hu
  obtain ⟨hbound, hbound'⟩ := parsedHdrSize_bounds memory
  have hpadding := paddingSize_reComputePayLength hbuffer hclear (padSet memory)
  have hzero := getD_setPadding_eq_zero hbuffer hversion
  have htrailer : srtpOctets pcc ≤ 20 := by
    cases pcc with
    | none => exact Nat.zero_le _
    | some ctx => exact ctx.tagLength_le
  set hsz := (parsedHdrSize memory).toNat with hhsz
  have hutotal : u.total = p.total := by
    rw [hpu]
    exact (reComputePayLength_sizes u.toRTPPacket _).2.1.symm
  -- the sizes of the packet, once header and trailer fit
  have hsizes : hsz + srtpOctets pcc ≤ len → p.total.toNat = len - srtpOctets pcc ∧
      u.payloadSize.toNat = len - hsz - srtpOctets pcc := by
    intro hfit
    rw [htotal, hupayload]
    exact toNat_sizes_of_fit hhsz.symm hfit hlen
  constructor
  · rintro ⟨⟨-, hhdr_le, htotal_le, hadds⟩, hreads⟩
    have hfit : hsz + srtpOctets pcc ≤ len := by
      rw [hhdr, htotal, BitVec.toNat_sub, BitVec.toNat_ofNat, BitVec.toNat_ofNat] at hhdr_le
      rw [htotal, BitVec.toNat_sub, BitVec.toNat_ofNat, BitVec.toNat_ofNat] at htotal_le
      omega
    obtain ⟨htot, hupay⟩ := hsizes hfit
    refine ⟨hfit, fun hset => ?_⟩
    have hroom : hsz + srtpOctets pcc < len := by
      have hread := hreads _ (mem_regionsRead_padding hset)
      rw [← hupayload, BitVec.toNat_sub, hupay] at hread
      have hone : (1 : BitVec 32).toNat = 1 := rfl
      rw [hone] at hread
      omega
    refine ⟨hroom, fun u' hu' => ?_⟩
    obtain rfl : u = u' := Option.some_inj.mp (hu.symm.trans hu')
    have hoctet := (paddingOctet u.toRTPPacket).toNat_lt
    rw [AddsUp, hhdr, htot, hpayload, hpu, hpadding, hset, if_pos rfl, if_pos rfl, BitVec.toNat_add,
      hupay, BitVec.toNat_ofNat, hutotal, toNat_sub_one htot (by omega)] at hadds
    constructor
    · rw [← hzero, ← toNat_sub_one hupay (by omega)]
      refine UInt8.toNat_inj.mp ?_
      show (paddingOctet u.toRTPPacket).toNat = 0
      omega
    · rw [← hzero]
      refine UInt8.toNat_inj.mp ?_
      show _ = 0
      omega
  · rintro ⟨hfit, hset⟩
    obtain ⟨htot, hupay⟩ := hsizes hfit
    refine ⟨⟨?_, ?_, ?_, ?_⟩, forall_mem_regionsRead hfit hlen (fun hs => (hset hs).1)⟩
    · rw [hhdr]
      show 12 ≤ hsz
      omega
    · rw [hhdr, htot]
      omega
    · rw [htot]
      exact Nat.sub_le _ _
    · rw [AddsUp, hhdr, htot, hpayload, hpu, hpadding]
      cases hs : padSet memory with
      | false =>
          rw [if_neg (by decide), if_neg (by decide), add_zero u.payloadSize, hupay]
          omega
      | true =>
          obtain ⟨hroom, hzeros⟩ := hset hs
          obtain ⟨hfirst, hlast⟩ := hzeros u hu
          have hfirst' : paddingOctet u.toRTPPacket = 0 := by
            rw [paddingOctet, toNat_sub_one hupay (by omega), hzero]
            exact hfirst
          rw [if_pos rfl, if_pos rfl, hfirst', hutotal, toNat_sub_one htot (by omega),
            (hzero _).mpr hlast, UInt8.toNat_zero, BitVec.add_zero, hupay]
          omega

/-- A datagram of fourteen octets, two of them payload. -/
def shortDatagram : Octets := [0x80, 0, 0, 7, 0, 0, 0, 0, 0, 0, 0x11, 0x22, 1, 2]

open IncomingDataQueue in
/-- The theorem at a datagram with two octets of payload. -/
theorem accepted_sizes_iff_short :
    ∃ p, receivedPacket .x86 .additive ⟨65534, []⟩ (shortDatagram ++ []) shortDatagram.length
        = some p ∧
      ((p.ConsistentSizes shortDatagram.length ∧
          ∀ r ∈ regionsRead (shortDatagram ++ []) shortDatagram.length none,
            r.1 + r.2 ≤ shortDatagram.length) ↔
        SizesFit .x86 .additive (shortDatagram ++ []) shortDatagram.length none) := by
  have haccepted : (receivedPacket .x86 .additive ⟨65534, []⟩ (shortDatagram ++ [])
      shortDatagram.length).isSome = true := by
    decide
  have hcontext : contextOf .additive ⟨65534, []⟩
      (parsedPacket (shortDatagram ++ []) shortDatagram.length) = some none := rfl
  obtain ⟨p, hp⟩ := Option.isSome_iff_exists.mp haccepted
  exact ⟨p, hp, accepted_sizes_iff .x86 .additive hp hcontext⟩

/-- A datagram that ends with the fixed header but announces fifteen contributing sources. -/
def truncatedDatagram : Octets := [0x8F, 0, 0, 7, 0, 0, 0, 0, 0, 0, 0x11, 0x22]

/-- **A truncated datagram is accepted**, as a packet of twelve octets with a header of 72
octets and a payload of `2 ^ 32 - 60`. -/
theorem truncated_datagram_accepted :
    (IncomingDataQueue.receivedPacket .x86 .additive ⟨65534, []⟩ truncatedDatagram
        truncatedDatagram.length).map (fun p =>
          (p.hdrSize.toNat, p.payloadSize.toNat, p.total.toNat)) = some (72, 2 ^ 32 - 60, 12) ∧
      ¬ ∀ p, IncomingDataQueue.receivedPacket .x86 .additive ⟨65534, []⟩ truncatedDatagram
        truncatedDatagram.length = some p → p.ConsistentSizes truncatedDatagram.length := by
  have hsizes : (IncomingDataQueue.receivedPacket .x86 .additive ⟨65534, []⟩ truncatedDatagram
        truncatedDatagram.length).map (fun p =>
          (p.hdrSize.toNat, p.payloadSize.toNat, p.total.toNat)) = some (72, 2 ^ 32 - 60, 12) := by
    decide
  refine ⟨hsizes, fun hall => ?_⟩
  obtain ⟨p, hp, heq⟩ := Option.map_eq_some_iff.mp hsizes
  have hle := (hall p hp).hdrSize_le
  simp only [Prod.mk.injEq] at heq
  omega
