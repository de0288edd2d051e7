/-
# SRTP streams end to end

A sender protects packets with consecutive sequence numbers; a receiver with the same
session keys gets some of them, in order.  The sender counts the rollover counter up
behind sequence number 65535, the receiver guesses it from what it got last.

`Sealed` describes the datagram of one packet under one index: header, transformed payload,
and the tag of both with the rollover counter.

* `Sender.send_eq`, `Sender.sendAll_eq` : the sender emits the sealed packets of its
  successive indices;
* `receive_sealed` : a receiver that awaits the index accepts the sealed packet, and
  restores the payload if the key stream does not depend on the rollover counter or the
  *stored* one is already that of the packet;
* `receiveAll_sealed` : from it, by induction, what whole deliveries give.
-/
import CcRtp.AlongRun
import CcRtp.Srtp

/-! ## Sealing and opening one packet -/

namespace CryptoContext

variable {P : Primitives} {ctx : CryptoContext}

@[simp] theorem keys_setRoc (ctx : CryptoContext) (roc : BitVec 32) :
    (ctx.setRoc roc).keys = ctx.keys := rfl

/-- Of the packet itself only the first twelve octets matter for the transform. -/
theorem cipherPayload_header (ctx : CryptoContext) {hdr : Octets} (hhdr : 12 ≤ hdr.length)
    (rest data : Octets) (index : BitVec 64) (ssrc : BitVec 32) :
    ctx.cipherPayload P (hdr ++ rest) data index ssrc =
      ctx.cipherPayload P hdr data index ssrc := by
  have hslice : slice (hdr ++ rest) 0 12 = slice hdr 0 12 := by
    rw [slice, slice, List.drop_zero, List.drop_zero, List.take_append_of_le_length hhdr]
  unfold cipherPayload f8Iv
  rw [hslice]

/-- **`srtpEncrypt` on an unpadded packet** transforms the payload and nothing else. -/
theorem srtpEncrypt_unpadded {rtp : RTPPacket} {hdr data rest out : Octets}
    {index : BitVec 64} {ssrc : BitVec 32} {blocks : List Block}
    (hbuf : rtp.buffer = hdr ++ data ++ rest) (hhdr : rtp.hdrSize.toNat = hdr.length)
    (hsize : rtp.payloadSize.toNat = data.length) (hpad : rtp.isPadded = false)
    (hout : ctx.cipherPayload P rtp.buffer data index ssrc = some (out, blocks))
    (hlen : out.length = data.length) :
    ctx.srtpEncrypt P rtp index ssrc
      = some ({ rtp with buffer := hdr ++ out ++ rest }, blocks) := by
  have hdata : slice rtp.buffer rtp.hdrSize.toNat (rtp.payloadSize + 0).toNat = data := by
    rw [add_zero, hbuf]
    exact slice_append_mid hdr data rest hhdr hsize
  unfold srtpEncrypt
  rw [hpad]
  simp only [Bool.false_eq_true, if_false]
  rw [hdata, hout, Option.map_some, RTPPacket.setbuffer, hbuf,
    writeAt_append_mid hdr data out rest hhdr hlen]

end CryptoContext

open CryptoContext

/-- **`protect` on an unpadded packet** with room for the tag: the payload is transformed
and the tag of the result is put behind it. -/
theorem OutgoingRTPPkt.protect_unpadded {P : Primitives} {ctx : CryptoContext}
    (hkeyed : ctx.keys.Keyed) {p : OutgoingRTPPkt} {hdr data out : Octets} {ssrc : BitVec 32}
    {blocks : List Block}
    (hbuf : p.buffer = hdr ++ data ++ List.replicate ctx.tagLength 0)
    (hhdr : p.hdrSize.toNat = hdr.length) (hsize : p.payloadSize.toNat = data.length)
    (htotal : p.total.toNat = hdr.length + data.length) (hoff : p.srtpDataOffset = p.total)
    (hpad : p.isPadded = false)
    (hout : ctx.cipherPayload P p.buffer data (joinIndex ctx.roc p.cachedSeqNum) ssrc
      = some (out, blocks))
    (hlen : out.length = data.length) :
    p.protect P ssrc ctx
      = some ({ p with buffer := hdr ++ out
                  ++ ctx.keys.macTag P (hdr ++ out ++ bigEndian 4 ctx.roc.toNat) },
          if p.cachedSeqNum = 0xFFFF then ctx.setRoc (ctx.roc + 1) else ctx, blocks) := by
  have henc := srtpEncrypt_unpadded hbuf hhdr hsize hpad hout hlen
  have hlen' : (hdr ++ out).length = p.total.toNat := by
    rw [List.length_append, htotal, hlen]
  have hold : (slice (hdr ++ out ++ List.replicate ctx.tagLength 0) p.total.toNat
      ctx.tagLength).length = ctx.tagLength := by
    rw [slice_append_right (hdr ++ out) _ hlen'.symm (List.length_replicate).symm,
      List.length_replicate]
  have hraw : (hdr ++ out ++ List.replicate ctx.tagLength 0).take p.total.toNat = hdr ++ out := by
    rw [← hlen', List.take_left]
  have hauth : ctx.srtpAuthenticate P
      { p with buffer := hdr ++ out ++ List.replicate ctx.tagLength 0 }
      ctx.roc (slice (hdr ++ out ++ List.replicate ctx.tagLength 0) p.total.toNat ctx.tagLength)
      = some (ctx.keys.macTag P (hdr ++ out ++ bigEndian 4 ctx.roc.toNat)) := by
    rw [srtpAuthenticate, RTPPacket.rawPacket, hraw]
    exact SessionKeys.authenticate_eq hkeyed _ hold
  rw [OutgoingRTPPkt.protect, henc, Option.bind_some]
  simp only [hoff, getTagLength] at hauth ⊢
  rw [hauth, Option.map_some, RTPPacket.setbuffer,
    writeAt_append_right (hdr ++ out) _ _ hlen'.symm
      (by rw [SessionKeys.length_macTag hkeyed, List.length_replicate]; rfl)]

/-- The header of a packet without padding and extension. -/
def rtpHeader (csrcs : List (BitVec 32)) (pt : BitVec 7) (mark : Bool) (seq : BitVec 16)
    (pts ssrc : BitVec 32) : Octets :=
  OutgoingRTPPkt.fixedHeader (OutgoingRTPPkt.firstOctet false (BitVec.ofNat 4 csrcs.length))
    (OutgoingRTPPkt.secondOctet pt mark) seq pts ssrc ++ OutgoingRTPPkt.csrcOctets csrcs

@[simp] theorem length_rtpHeader (csrcs : List (BitVec 32)) (pt : BitVec 7) (mark : Bool)
    (seq : BitVec 16) (pts ssrc : BitVec 32) :
    (rtpHeader csrcs pt mark seq pts ssrc).length = 12 + 4 * csrcs.length := by
  rw [rtpHeader, List.length_append, OutgoingRTPPkt.length_fixedHeader,
    OutgoingRTPPkt.length_csrcOctets]

/-- A packet with such a header is not padded. -/
theorem isPadded_rtpHeader {p : RTPPacket} {csrcs : List (BitVec 32)} {pt : BitVec 7} {mark : Bool}
    {seq : BitVec 16} {pts ssrc : BitVec 32} {rest : Octets}
    (hp : p.buffer = rtpHeader csrcs pt mark seq pts ssrc ++ rest) : p.isPadded = false := by
  have hbit := OutgoingRTPPkt.bitField_firstOctet_padding false (BitVec.ofNat 4 csrcs.length)
  have hfield : RTPPacket.headerField p.buffer 0 5 1 = BitVec.ofBool false := by
    rw [hp]
    exact hbit
  rw [RTPPacket.isPadded, hfield]
  decide

/-- A received packet with such a header, once the trailer is taken off its sizes. -/
theorem withoutTrailer_ofBlock {csrcs : List (BitVec 32)} (hcsrcs : csrcs.length ≤ 15)
    {pt : BitVec 7} (hpt : IncomingRTPPkt.invalidPayloadType pt = false) (mark : Bool)
    (seq : BitVec 16) (pts ssrc : BitVec 32) (data tag : Octets) :
    (IncomingRTPPkt.ofBlock (rtpHeader csrcs pt mark seq pts ssrc ++ data ++ tag)).withoutTrailer
        (BitVec.ofNat 32 tag.length) =
      { buffer := rtpHeader csrcs pt mark seq pts ssrc ++ data ++ tag
        total := BitVec.ofNat 32 (12 + 4 * csrcs.length + data.length)
        payloadSize := BitVec.ofNat 32 data.length
        hdrSize := BitVec.ofNat 32 (12 + 4 * csrcs.length)
        srtpDataOffset := 0
        srtpLength := 0
        cachedSeqNum := seq
        cachedTimestamp := pts
        headerValid := true
        cachedSSRC := ssrc } := by
  have hsub : ∀ a : ℕ, BitVec.ofNat 32 (a + tag.length) - BitVec.ofNat 32 tag.length
      = BitVec.ofNat 32 a := by
    intro a
    rw [BitVec.ofNat_add, BitVec.add_sub_cancel]
  have hparse := IncomingRTPPkt.ofBlock_eq hcsrcs hpt mark seq pts ssrc (data ++ tag)
  rw [← List.append_assoc, ← List.append_assoc, ← rtpHeader] at hparse
  rw [hparse, IncomingRTPPkt.withoutTrailer, List.length_append]
  simp only [← Nat.add_assoc, hsub]

/-- **`unprotect` on a sealed packet**: if the replay check passes and the tag was made
with the guessed rollover counter, the packet is accepted and its payload is the
transformed one. -/
theorem IncomingRTPPkt.unprotect_sealed {T : ShiftUnit} {P : Primitives} {ctx ctx₁ : CryptoContext}
    (hkeyed : ctx.keys.Keyed) {csrcs : List (BitVec 32)} (hcsrcs : csrcs.length ≤ 15)
    {pt : BitVec 7}
    (hpt : IncomingRTPPkt.invalidPayloadType pt = false) {mark : Bool} {seq : BitVec 16}
    {pts ssrc : BitVec 32} {hdr enc tag out : Octets} {index : BitVec 64} {blocks : List Block}
    (hhdr : hdr = rtpHeader csrcs pt mark seq pts ssrc)
    (hcheck : (ctx.checkReplay T seq).1 = true)
    (hguess : (ctx.checkReplay T seq).2.guessIndex seq = (index, ctx₁))
    (htag : tag = ctx.keys.macTag P (hdr ++ enc ++ bigEndian 4 ((index >>> 16).setWidth 32).toNat))
    (hout : ctx₁.cipherPayload P (hdr ++ enc ++ tag) enc index ssrc = some (out, blocks))
    (hlen : out.length = enc.length) (hlt : enc.length + 92 < 2 ^ 32) :
    ∃ p', IncomingRTPPkt.unprotect T P (IncomingRTPPkt.ofBlock (hdr ++ enc ++ tag)) ctx
        = some (1, p', ctx₁.update T seq) ∧ p'.payload = out := by
  have hkeys : ctx₁.keys = ctx.keys := by
    have hk := congrArg (fun r => r.2.keys) hguess
    simp only [keys_guessIndex, keys_checkReplay] at hk
    exact hk.symm
  have htaglen : tag.length = ctx.tagLength := by
    rw [htag]
    exact SessionKeys.length_macTag hkeyed _
  have hhlen : hdr.length = 12 + 4 * csrcs.length := by rw [hhdr, length_rtpHeader]
  set p := IncomingRTPPkt.ofBlock (hdr ++ enc ++ tag) with hp
  set q := p.withoutTrailer (IncomingRTPPkt.srtpTrailer ctx) with hq
  -- the packet as it is parsed, and without its trailer
  have hparse := withoutTrailer_ofBlock hcsrcs hpt mark seq pts ssrc enc tag
  rw [← hhdr, ← hp, show BitVec.ofNat 32 tag.length = IncomingRTPPkt.srtpTrailer ctx by
    rw [htaglen]; rfl, ← hq] at hparse
  have hqbuf : q.buffer = hdr ++ enc ++ tag := by rw [hparse]
  have hqseq : q.cachedSeqNum = seq := by rw [hparse]
  have hqssrc : q.cachedSSRC = ssrc := by rw [hparse]
  have hqtotal : q.total.toNat = (hdr ++ enc).length := by
    rw [hparse, BitVec.toNat_ofNat, List.length_append]
    omega
  have hqhdr : q.hdrSize.toNat = hdr.length := by
    rw [hparse, BitVec.toNat_ofNat]
    omega
  have hqsize : q.payloadSize.toNat = enc.length := by
    rw [hparse, BitVec.toNat_ofNat]
    omega
  have hqpad : q.isPadded = false := isPadded_rtpHeader (by rw [hqbuf, hhdr, List.append_assoc])
  have hreceived : p.receivedTag ctx = tag := by
    rw [IncomingRTPPkt.receivedTag, show p.buffer = hdr ++ enc ++ tag from hqbuf]
    refine slice_append_right (hdr ++ enc) tag ?_ htaglen.symm
    rw [← hqtotal, show BitVec.ofNat 32 ctx.getMkiLength = 0#32 from rfl, BitVec.add_zero]
    rfl
  have hmac : ctx₁.srtpAuthenticate P q.toRTPPacket ((index >>> 16).setWidth 32)
      (List.replicate ctx₁.getTagLength 0) = some tag := by
    have hroom : ctx₁.getTagLength = ctx.keys.tagLength := congrArg SessionKeys.tagLength hkeys
    rw [srtpAuthenticate, hkeys, SessionKeys.authenticate_eq hkeyed _
      (by rw [List.length_replicate, hroom]), htag, RTPPacket.rawPacket, hqbuf, hqtotal,
      List.take_left]
  have hdec := srtpEncrypt_unpadded hqbuf hqhdr hqsize hqpad (by rw [hqbuf]; exact hout) hlen
  have hpseq : p.cachedSeqNum = seq := hqseq
  refine ⟨{ q with buffer := hdr ++ out ++ tag }, ?_, ?_⟩
  · rw [← hqseq] at hguess
    rw [← hqssrc] at hdec
    rw [← hpseq] at hcheck
    rw [IncomingRTPPkt.unprotect_of_check hcheck, ← hq, hreceived, ← hqseq]
    exact IncomingRTPPkt.unprotectFresh_of_mac hguess hmac hdec
  · show slice (hdr ++ out ++ tag) q.hdrSize.toNat q.payloadSize.toNat = out
    rw [hqhdr, hqsize]
    exact slice_append_mid hdr out tag rfl hlen.symm

/-! ## Senders and receivers -/

/-- What the application supplies for one packet without padding. -/
structure RtpData where
  csrcs : List (BitVec 32)
  payloadType : BitVec 7
  marker : Bool
  timestamp : BitVec 32
  payload : Octets
  csrcs_le : csrcs.length ≤ 15
  payloadType_valid : IncomingRTPPkt.invalidPayloadType payloadType = false

namespace RtpData

/-- The finished packet, before it is protected. -/
def build (d : RtpData) (ctx : CryptoContext) (seq : BitVec 16) (ssrc : BitVec 32) :
    OutgoingRTPPkt :=
  OutgoingRTPPkt.fillHeader (OutgoingRTPPkt.withCsrcs d.csrcs d.payload 0 (some ctx))
    d.payloadType seq d.timestamp ssrc d.marker

/-- The header of the packet. -/
def header (d : RtpData) (seq : BitVec 16) (ssrc : BitVec 32) : Octets :=
  rtpHeader d.csrcs d.payloadType d.marker seq d.timestamp ssrc

/-- The packet's sizes fit their fields, and in counter mode the payload is below
`2^20` octets. -/
def Fits (d : RtpData) (K : SessionKeys) : Prop :=
  d.payload.length + 92 < 2 ^ 32 ∧ (K.CounterMode → d.payload.length < 2 ^ 20)

/-- The memory of the finished packet: header, payload and room for the tag. -/
theorem build_eq (d : RtpData) (ctx : CryptoContext) (seq : BitVec 16) (ssrc : BitVec 32)
    (hlt : d.payload.length + 92 < 2 ^ 32) :
    d.build ctx seq ssrc =
      { buffer := d.header seq ssrc ++ d.payload ++ List.replicate ctx.tagLength 0
        total := BitVec.ofNat 32 (12 + 4 * d.csrcs.length + d.payload.length)
        payloadSize := BitVec.ofNat 32 d.payload.length
        hdrSize := BitVec.ofNat 32 (12 + 4 * d.csrcs.length)
        srtpDataOffset := BitVec.ofNat 32 (12 + 4 * d.csrcs.length + d.payload.length)
        srtpLength := BitVec.ofNat 32 ctx.tagLength
        cachedSeqNum := seq
        cachedTimestamp := d.timestamp } := by
  have hle := ctx.tagLength_le
  have h15 := d.csrcs_le
  have hroom : RTPPacket.srtpOctets (some ctx) = ctx.tagLength := rfl
  have hnew := OutgoingRTPPkt.withCsrcs_eq d.csrcs d.payload 0 (some ctx) rfl rfl
    (by rw [hroom, RTPPacket.paddingOctets, if_pos rfl]; omega)
  rw [build, OutgoingRTPPkt.fillHeader_eq _ (by rw [hnew]), hnew]
  simp only [header, rtpHeader, hroom, RTPPacket.paddingOctets, RTPPacket.padding, if_true,
    Nat.add_zero, List.append_nil, List.append_assoc, Option.isSome_some, ne_eq,
    not_true_eq_false, decide_false]

/-- **Protecting a finished packet**: the datagram is header, transformed payload, and the
tag of both with the rollover counter. -/
theorem protect_build {P : Primitives} {ctx : CryptoContext} (hkeyed : ctx.keys.Keyed)
    (d : RtpData) (seq : BitVec 16) (ssrc : BitVec 32) (hlt : d.payload.length + 92 < 2 ^ 32)
    {out : Octets} {blocks : List Block}
    (hout : ctx.cipherPayload P (d.header seq ssrc) d.payload (joinIndex ctx.roc seq) ssrc
      = some (out, blocks)) (hlen : out.length = d.payload.length) :
    ((d.build ctx seq ssrc).protect P ssrc ctx).map (fun r => (r.1.rawPacketSrtp, r.2.1))
      = some (d.header seq ssrc ++ out
            ++ ctx.keys.macTag P (d.header seq ssrc ++ out ++ bigEndian 4 ctx.roc.toNat),
          if seq = 0xFFFF then ctx.setRoc (ctx.roc + 1) else ctx) := by
  have hle := ctx.tagLength_le
  have h15 := d.csrcs_le
  have hhdr : (d.header seq ssrc).length = 12 + 4 * d.csrcs.length := length_rtpHeader _ _ _ _ _ _
  have hb := d.build_eq ctx seq ssrc hlt
  have hbuf : (d.build ctx seq ssrc).buffer
      = d.header seq ssrc ++ d.payload ++ List.replicate ctx.tagLength 0 := by rw [hb]
  have hseq : (d.build ctx seq ssrc).cachedSeqNum = seq := by rw [hb]
  have hhdrSize : (d.build ctx seq ssrc).hdrSize.toNat = (d.header seq ssrc).length := by
    rw [hb, BitVec.toNat_ofNat, hhdr]
    omega
  have hsize : (d.build ctx seq ssrc).payloadSize.toNat = d.payload.length := by
    rw [hb, BitVec.toNat_ofNat]
    omega
  have htotal : (d.build ctx seq ssrc).total.toNat
      = (d.header seq ssrc).length + d.payload.length := by
    rw [hb, BitVec.toNat_ofNat, hhdr]
    omega
  have hoff : (d.build ctx seq ssrc).srtpDataOffset = (d.build ctx seq ssrc).total := by rw [hb]
  have hpad : (d.build ctx seq ssrc).isPadded = false :=
    isPadded_rtpHeader (by rw [hbuf, List.append_assoc]; rfl)
  have henc : ctx.cipherPayload P (d.build ctx seq ssrc).buffer d.payload
      (joinIndex ctx.roc (d.build ctx seq ssrc).cachedSeqNum) ssrc = some (out, blocks) := by
    rw [hbuf, hseq, List.append_assoc, cipherPayload_header ctx (by omega)]
    exact hout
  have hprot := OutgoingRTPPkt.protect_unpadded hkeyed hbuf hhdrSize hsize htotal hoff hpad henc
    hlen
  rw [hprot, Option.map_some]
  simp only [hb, RTPPacket.rawPacketSrtp]
  have htag : (ctx.keys.macTag P (d.header seq ssrc ++ out ++ bigEndian 4 ctx.roc.toNat)).length
      = ctx.tagLength := SessionKeys.length_macTag hkeyed _
  rw [List.take_of_length_le]
  rw [List.length_append, List.length_append, htag, hhdr, hlen, ← BitVec.ofNat_add,
    BitVec.toNat_ofNat]
  omega

end RtpData

/-- A sender: its context and its next sequence number. -/
structure Sender where
  ctx : CryptoContext
  seq : BitVec 16

namespace Sender

variable (P : Primitives) (ssrc : BitVec 32)

/-- The index under which the sender protects its next packet. -/
def index (s : Sender) : ℕ := s.ctx.roc.toNat * 2 ^ 16 + s.seq.toNat

/-- Protecting the next packet: its datagram. -/
def send (s : Sender) (d : RtpData) : Option (Octets × Sender) :=
  ((d.build s.ctx s.seq ssrc).protect P ssrc s.ctx).map (fun r =>
    (r.1.rawPacketSrtp, ⟨r.2.1, s.seq + 1⟩))

/-- Protecting one packet after the other: the datagrams, each with the index under which
it was protected. -/
def sendAll : Sender → List RtpData → Option (List (Octets × ℕ))
  | _, [] => some []
  | s, d :: l =>
      match s.send P ssrc d with
      | none => none
      | some (b, s') => (sendAll s' l).map ((b, s.index) :: ·)

end Sender

/-- `b` is the datagram of `d` under the index `i` and the session keys `K`: header,
transformed payload, and the tag of both with the rollover counter. -/
def Sealed (P : Primitives) (K : SessionKeys) (ssrc : BitVec 32) (i : ℕ) (d : RtpData)
    (b : Octets) : Prop :=
  ∃ out blocks, K.transform P (cmIv K.kS ssrc (BitVec.ofNat 64 i))
      (f8Iv (d.header (seqOf i) ssrc) (BitVec.ofNat 32 (i / 2 ^ 16))) d.payload
        = some (out, blocks) ∧
    out.length = d.payload.length ∧
    b = d.header (seqOf i) ssrc ++ out
      ++ K.macTag P (d.header (seqOf i) ssrc ++ out ++ bigEndian 4 (i / 2 ^ 16))

namespace Sender

variable {P : Primitives} {ssrc : BitVec 32}

theorem index_lt (s : Sender) : s.index < 2 ^ 48 := by
  have hroc := s.ctx.roc.isLt
  have hseq := s.seq.isLt
  rw [index]
  omega

/-- Behind a packet the index of the sender has gone up by one. -/
theorem index_next (s : Sender) :
    index ⟨if s.seq = 0xFFFF then s.ctx.setRoc (s.ctx.roc + 1) else s.ctx, s.seq + 1⟩
      = (s.index + 1) % 2 ^ 48 := by
  have hroc : (if s.seq = 0xFFFF then s.ctx.setRoc (s.ctx.roc + 1) else s.ctx).roc
      = if s.seq = 0xFFFF then s.ctx.roc + 1 else s.ctx.roc := by
    split_ifs <;> rfl
  rw [index, hroc]
  exact succ_roc_seq (Nat.mod_eq_of_lt s.index_lt).symm

/-- **One packet sent.** -/
theorem send_eq {s : Sender} (hkeyed : s.ctx.keys.Keyed) {d : RtpData}
    (hd : d.Fits s.ctx.keys) :
    ∃ b s', s.send P ssrc d = some (b, s') ∧ Sealed P s.ctx.keys ssrc s.index d b ∧
      s'.ctx.keys = s.ctx.keys ∧ s'.index = (s.index + 1) % 2 ^ 48 := by
  have hroclt := s.ctx.roc.isLt
  have hseqlt := s.seq.isLt
  have hdiv : s.index / 2 ^ 16 = s.ctx.roc.toNat := by rw [index]; omega
  have hroc : BitVec.ofNat 32 (s.index / 2 ^ 16) = s.ctx.roc := by
    rw [hdiv, BitVec.ofNat_toNat, BitVec.setWidth_eq]
  have hseq : seqOf s.index = s.seq := by
    apply BitVec.eq_of_toNat_eq
    rw [toNat_seqOf, index]
    omega
  have hidx : BitVec.ofNat 64 s.index = joinIndex s.ctx.roc s.seq := by
    apply BitVec.eq_of_toNat_eq
    rw [toNat_joinIndex, BitVec.toNat_ofNat, index]
    omega
  obtain ⟨out, blocks, hout, hlen, -⟩ := SessionKeys.transform_transform (P := P) hkeyed
    (cmIv s.ctx.kS ssrc (joinIndex s.ctx.roc s.seq)) (f8Iv (d.header s.seq ssrc) s.ctx.roc) hd.2
  have hprot := d.protect_build hkeyed s.seq ssrc hd.1 hout hlen
  refine ⟨d.header s.seq ssrc ++ out
      ++ s.ctx.keys.macTag P (d.header s.seq ssrc ++ out ++ bigEndian 4 s.ctx.roc.toNat),
    ⟨_, s.seq + 1⟩, ?_, ⟨out, blocks, ?_, hlen, ?_⟩, ?_, s.index_next⟩
  · rw [Option.map_eq_some_iff] at hprot
    obtain ⟨r, hr, heq⟩ := hprot
    rw [send, hr, Option.map_some, ← (Prod.mk.inj heq).1, ← (Prod.mk.inj heq).2]
  · rw [hroc, hseq, hidx]
    exact hout
  · rw [hseq, hdiv]
  · split_ifs <;> rfl

/-- **A whole list sent**: the datagrams are the sealed packets of successive indices. -/
theorem sendAll_eq (P : Primitives) (ssrc : BitVec 32) {s : Sender} (hkeyed : s.ctx.keys.Keyed)
    (l : List RtpData) (hfits : ∀ d ∈ l, d.Fits s.ctx.keys) (hlt : s.index + l.length ≤ 2 ^ 48) :
    ∃ sent, s.sendAll P ssrc l = some sent ∧ sent.length = l.length ∧
      ∀ k d, l[k]? = some d → ∃ b, sent[k]? = some (b, s.index + k) ∧
        Sealed P s.ctx.keys ssrc (s.index + k) d b := by
  set K := s.ctx.keys with hK
  have hcons : ∀ (i : ℕ) (s : Sender) (d : RtpData) (l : List RtpData),
      (s.ctx.keys = K ∧ s.index = i % 2 ^ 48) → d.Fits K →
      ∃ out, ∃ s' : Sender, s.sendAll P ssrc (d :: l) = (s'.sendAll P ssrc l).map (out :: ·) ∧
        (∃ b, out = (b, i % 2 ^ 48) ∧ Sealed P K ssrc (i % 2 ^ 48) d b) ∧
        (s'.ctx.keys = K ∧ s'.index = (i + 1) % 2 ^ 48) := by
    rintro i s d l ⟨hkeys, hi⟩ hd
    rw [← hkeys] at hd hkeyed
    obtain ⟨b, s', hsend, hsealed, hkeys', hnext⟩ := send_eq (P := P) hkeyed hd
    rw [hkeys] at hsealed hkeys'
    refine ⟨(b, s.index), s', ?_, ⟨b, by rw [hi], hi ▸ hsealed⟩, hkeys', ?_⟩
    · rw [sendAll, hsend]
    · rw [hnext, hi, Nat.mod_add_mod]
  have hstart : s.ctx.keys = K ∧ s.index = s.index % 2 ^ 48 :=
    ⟨hK.symm, (Nat.mod_eq_of_lt s.index_lt).symm⟩
  obtain ⟨sent, hsent, hlen, hall⟩ := exists_outputs (sendAll P ssrc) (fun _ => rfl) hcons l hfits
    hstart
  refine ⟨sent, hsent, hlen, fun k d hk => ?_⟩
  obtain ⟨out, hout, b, rfl, hb⟩ := hall k d hk
  -- the run ends before the index wraps
  have hpos : k < l.length := (List.getElem?_eq_some_iff.mp hk).1
  rw [Nat.mod_eq_of_lt (show s.index + k < 2 ^ 48 by omega)] at hout hb
  exact ⟨b, hout, hb⟩

end Sender

/-! ## Delivery -/

/-- Receiving one datagram after the other: the return values of `unprotect`, the
payloads, and the index stored afterwards. -/
def receiveAll (T : ShiftUnit) (P : Primitives) :
    CryptoContext → List Octets → Option (List (ℤ × Octets × ℕ))
  | _, [] => some []
  | ctx, b :: l =>
      match (IncomingRTPPkt.ofBlock b).unprotect T P ctx with
      | none => none
      | some (code, p, ctx') => (receiveAll T P ctx' l).map ((code, p.payload, ctx'.index) :: ·)

/-- The receiver's key stream for the packet is the sender's: the mode does not use the
rollover counter, or the stored one is that of the packet, or there is nothing to
decrypt. -/
def CryptoContext.Restores (ctx : CryptoContext) (i : ℕ) (payload : Octets) : Prop :=
  ctx.keys.CounterMode ∨ ctx.roc.toNat = i / 2 ^ 16 ∨ payload = []

/-- **One datagram received.**  A receiver with the sender's keys that awaits the index
accepts the packet, moves to its index, and restores the payload if its key stream is
the right one. -/
theorem receive_sealed {T : ShiftUnit} {P : Primitives} {K : SessionKeys} (hkeyed : K.Keyed)
    {ssrc : BitVec 32} {rctx : CryptoContext} (hkeys : rctx.keys = K) {i : ℕ} {d : RtpData}
    {b : Octets} (hfits : d.Fits K) (hb : Sealed P K ssrc i d b) (hi : rctx.Awaits i) :
    ∃ p rctx', (IncomingRTPPkt.ofBlock b).unprotect T P rctx = some (1, p, rctx') ∧
      rctx'.keys = K ∧ rctx'.seqNumSet = true ∧ rctx'.index = i ∧
      (rctx.Restores i d.payload → p.payload = d.payload) := by
  obtain ⟨enc, blocks, henc, hlen, rfl⟩ := hb
  obtain ⟨hcheck, ctx₁, hguess, hroc, hidx⟩ := hi.accept (T := T)
  set roc := BitVec.ofNat 32 (i / 2 ^ 16) with hrocdef
  set hdr := d.header (seqOf i) ssrc with hhdr
  have hkeys₁ : ctx₁.keys = K := by
    have hk := congrArg (fun r => r.2.keys) hguess
    simp only [keys_guessIndex, keys_checkReplay] at hk
    exact hk.symm.trans hkeys
  have hhigh : ((BitVec.ofNat 64 i >>> 16).setWidth 32).toNat = i / 2 ^ 16 := by
    have hlt := hi.1
    rw [BitVec.toNat_setWidth, BitVec.toNat_ushiftRight, BitVec.toNat_ofNat,
      Nat.shiftRight_eq_div_pow]
    omega
  have hhdrlen : 12 ≤ hdr.length := by
    rw [hhdr, RtpData.header, length_rtpHeader]
    omega
  -- what the receiver's key stream makes of the payload
  have hshort : K.CounterMode → enc.length < 2 ^ 20 := by
    rw [hlen]
    exact hfits.2
  obtain ⟨out, blocks', hout, houtlen, -⟩ := SessionKeys.transform_transform (P := P) hkeyed
    (cmIv K.kS ssrc (BitVec.ofNat 64 i)) (f8Iv hdr ctx₁.roc) hshort
  have hcipher : ctx₁.cipherPayload P hdr enc (BitVec.ofNat 64 i) ssrc = some (out, blocks') := by
    subst hkeys₁
    exact hout
  obtain ⟨p, hp, hpay⟩ := IncomingRTPPkt.unprotect_sealed (T := T) (P := P) (hkeys ▸ hkeyed)
    d.csrcs_le d.payloadType_valid hhdr hcheck hguess (by rw [hhigh, hkeys])
    (by rw [List.append_assoc, cipherPayload_header ctx₁ hhdrlen]; exact hcipher) houtlen
    (by rw [hlen]; exact hfits.1)
  refine ⟨p, ctx₁.update T (seqOf i), hp, (keys_update T _ _).trans hkeys₁,
    update_seqNumSet T _ _, hidx, fun hrest => ?_⟩
  rw [hpay]
  -- the sender's transform, applied twice
  obtain ⟨enc', blocks₂, henc', -, hdec⟩ := SessionKeys.transform_transform (P := P) hkeyed
    (cmIv K.kS ssrc (BitVec.ofNat 64 i)) (f8Iv hdr roc) hfits.2
  rw [henc'] at henc
  obtain ⟨rfl, rfl⟩ := Prod.mk.inj (Option.some_inj.mp henc)
  rcases hrest with hcm | hsame | hnil
  · rw [hkeys] at hcm
    rw [SessionKeys.transform_counterMode P hcm] at hdec hout
    rw [hout] at hdec
    exact (Prod.mk.inj (Option.some_inj.mp hdec)).1
  · have hrocs : roc = ctx₁.roc := by
      rw [hroc, hrocdef, ← hsame, BitVec.ofNat_toNat, BitVec.setWidth_eq]
    rw [hrocs, hout] at hdec
    exact (Prod.mk.inj (Option.some_inj.mp hdec)).1
  · rw [hnil] at hlen ⊢
    exact List.eq_nil_of_length_eq_zero (houtlen.trans hlen)

/-- The position `b` may be delivered behind `a`: it comes less than `2^15` packets later, and
its key stream does not depend on the rollover counter, is of the same period, or is not
used. -/
def MayFollow (K : SessionKeys) (l : List RtpData) (i₀ a b : ℕ) : Prop :=
  (a < b ∧ b < a + 2 ^ 15) ∧ (K.CounterMode ∨ (i₀ + a) / 2 ^ 16 = (i₀ + b) / 2 ^ 16 ∨
    (l.map RtpData.payload).getD b [] = [])

/-- **A delivery.**  For positions `ks` of the sealed list that follow one another, with the
receiver ready for the first of them: every datagram is accepted, restored and becomes the
stored index. -/
theorem receiveAll_sealed {T : ShiftUnit} {P : Primitives} {K : SessionKeys} (hkeyed : K.Keyed)
    {ssrc : BitVec 32} {l : List RtpData} {sent : List (Octets × ℕ)} {i₀ : ℕ}
    (hsent : ∀ k d, l[k]? = some d →
      ∃ b, sent[k]? = some (b, i₀ + k) ∧ Sealed P K ssrc (i₀ + k) d b)
    (hfits : ∀ d ∈ l, d.Fits K) (hlt : i₀ + l.length ≤ 2 ^ 48) (ks : List ℕ)
    (hks : ∀ k ∈ ks, k < l.length) (hchain : ks.IsChain (MayFollow K l i₀)) {rctx : CryptoContext}
    (hfirst : ∀ k ∈ ks.head?, rctx.keys = K ∧ rctx.Awaits (i₀ + k) ∧
      rctx.Restores (i₀ + k) ((l.map RtpData.payload).getD k [])) :
    receiveAll T P rctx (ks.map (fun k => (sent.getD k ([], 0)).1))
      = some (ks.map (fun k =>
          (1, (l.map RtpData.payload).getD k [], (sent.getD k ([], 0)).2))) := by
  refine run_map_eq (receiveAll T P)
    (fun ctx k => ctx.keys = K ∧ ctx.Awaits (i₀ + k) ∧
      ctx.Restores (i₀ + k) ((l.map RtpData.payload).getD k []))
    (fun _ => rfl) ?_ ks hks hchain hfirst
  rintro ctx k rest ⟨hkeys, hawaits, hrestores⟩ hk
  have hget : l[k]? = some l[k] := List.getElem?_eq_getElem hk
  have hpayload : (l.map RtpData.payload).getD k [] = l[k].payload := by
    rw [List.getD_eq_getElem?_getD, List.getElem?_map, hget]
    rfl
  obtain ⟨b, hb, hsealed⟩ := hsent k l[k] hget
  have hbget : sent.getD k ([], 0) = (b, i₀ + k) := by
    rw [List.getD_eq_getElem?_getD, hb]
    rfl
  obtain ⟨p, ctx', hrecv, hkeys', hset', hidx', hpay⟩ := receive_sealed (T := T) hkeyed hkeys
    (hfits _ (List.getElem_mem hk)) hsealed hawaits
  rw [← hpayload] at hpay
  refine ⟨ctx', ?_, ?_⟩
  · rw [receiveAll, hbget, hrecv]
    simp only
    rw [hpay hrestores, hidx']
  · -- the next packet is within reach of this one, and meets the receiver's new counter
    rintro j ⟨⟨hgt, hnear⟩, hstream⟩ hj
    refine ⟨hkeys', ⟨by omega, Or.inr ⟨hset', by omega, by omega⟩⟩, ?_⟩
    rcases hstream with hcm | hperiod | hnil
    · exact Or.inl (by rw [hkeys']; exact hcm)
    · refine Or.inr (Or.inl ?_)
      rw [ctx'.roc_eq_index_div, hidx', hperiod]
    · exact Or.inr (Or.inr hnil)

/-- A fresh receiver with the right rollover counter awaits the first packet, and has
the right key stream for it. -/
theorem awaits_restores_first {rctx : CryptoContext} (hf : rctx.Fresh) {i : ℕ} (hi : i < 2 ^ 48)
    (hroc : i / 2 ^ 16 = rctx.roc.toNat) (payload : Octets) :
    rctx.Awaits i ∧ rctx.Restores i payload :=
  ⟨⟨hi, Or.inl ⟨hf, hroc⟩⟩, Or.inr (Or.inl hroc.symm)⟩

/-- **Counter-mode agreement under loss.**  Sender and receiver share their session keys
in a counter mode.  The sender protects a list of packets with payloads below `2^20`
octets; the receiver, fresh and with the rollover counter of the first packet it gets,
is handed some of them, in order and less than `2^15` apart.  Then every packet is
accepted, its payload is the original one, and the receiver's index is afterwards the
one under which the sender protected the packet. -/
theorem cm_stream_agreement (T : ShiftUnit) (P : Primitives) (ssrc : BitVec 32) {s : Sender}
    {rctx : CryptoContext} (hmode : s.ctx.keys.CounterMode) (hkeyed : s.ctx.keys.Keyed)
    (hkeys : s.ctx.keys = rctx.keys) (hf : rctx.Fresh) (l : List RtpData)
    (hpay : ∀ d ∈ l, d.payload.length < 2 ^ 20) (hlt : s.index + l.length ≤ 2 ^ 48)
    (ks : List ℕ) (hks : ∀ k ∈ ks, k < l.length)
    (hchain : ks.IsChain (fun a b => a < b ∧ b < a + 2 ^ 15))
    (hroc : ∀ k ∈ ks.head?, (s.index + k) / 2 ^ 16 = rctx.roc.toNat) :
    ∃ sent, s.sendAll P ssrc l = some sent ∧ sent.length = l.length ∧
      receiveAll T P rctx (ks.map (fun k => (sent.getD k ([], 0)).1))
        = some (ks.map (fun k =>
            (1, (l.map RtpData.payload).getD k [], (sent.getD k ([], 0)).2))) := by
  have hfits : ∀ d ∈ l, d.Fits s.ctx.keys := by
    intro d hd
    have hlt := hpay d hd
    exact ⟨by omega, fun _ => hlt⟩
  obtain ⟨sent, hsent, hlen, hall⟩ := Sender.sendAll_eq P ssrc hkeyed l hfits hlt
  refine ⟨sent, hsent, hlen, ?_⟩
  have hfollows : ks.IsChain (MayFollow s.ctx.keys l s.index) :=
    hchain.imp (fun a b hab => ⟨hab, Or.inl hmode⟩)
  refine receiveAll_sealed hkeyed hall hfits hlt ks hks hfollows (fun k hk => ?_)
  have hklt := hks k (List.mem_of_mem_head? hk)
  exact ⟨hkeys.symm, awaits_restores_first hf (by omega) (hroc k hk) _⟩

/-- A packet for concrete runs, with the given payload. -/
def RtpData.sample (payload : Octets) : RtpData where
  csrcs := [0xAABBCCDD]
  payloadType := 96
  marker := false
  timestamp := 160
  payload := payload
  csrcs_le := by decide
  payloadType_valid := by decide

/-- The theorem at a run over a sequence-number wrap with one packet lost. -/
theorem cm_stream_agreement_wrap :
    ∃ sent, Sender.sendAll .additive 0x1122 ⟨(aesCmSha1 0x1122 0).keyed, 65534⟩
        [.sample [1, 2, 3], .sample [], .sample [4], .sample [5, 6]] = some sent ∧
      sent.length = 4 ∧
      receiveAll .x86 .additive (aesCmSha1 0x1122 0).keyed
          ([0, 2, 3].map (fun k => (sent.getD k ([], 0)).1))
        = some ([0, 2, 3].map (fun k =>
            (1, ([[1, 2, 3], [], [4], [5, 6]] : List Octets).getD k [],
              (sent.getD k ([], 0)).2))) :=
  cm_stream_agreement .x86 .additive 0x1122 (Or.inl rfl) (by decide) rfl ⟨rfl, rfl⟩
    _ (by decide) (by decide) [0, 2, 3] (by decide) (by decide) (by decide)

/-- With `2^20` octets or more of payload a keyed counter-mode sender never returns. -/
theorem Sender.send_eq_none {P : Primitives} {ssrc : BitVec 32} {s : Sender}
    (hmode : s.ctx.keys.CounterMode) {c : SrtpSymCrypto} (hc : s.ctx.keys.cipher = some c)
    {k : Octets} (hk : c.key = some k) {d : RtpData} (hlong : 2 ^ 20 ≤ d.payload.length)
    (hlt : d.payload.length + 92 < 2 ^ 32) : s.send P ssrc d = none := by
  have hb := d.build_eq s.ctx s.seq ssrc hlt
  have h15 := d.csrcs_le
  have hpad : (d.build s.ctx s.seq ssrc).isPadded = false :=
    isPadded_rtpHeader (by rw [hb, List.append_assoc]; rfl)
  have hdata : slice (d.build s.ctx s.seq ssrc).buffer (d.build s.ctx s.seq ssrc).hdrSize.toNat
      ((d.build s.ctx s.seq ssrc).payloadSize + 0).toNat = d.payload := by
    rw [add_zero, hb]
    refine slice_append_mid _ _ _ ?_ ?_
    · rw [BitVec.toNat_ofNat, RtpData.header, length_rtpHeader]
      omega
    · rw [BitVec.toNat_ofNat]
      omega
  have hcipher : ∀ raw index, s.ctx.cipherPayload P raw d.payload index ssrc = none := by
    intro raw index
    exact SessionKeys.transform_eq_none P hmode hc hk _ _ hlong
  rw [send, OutgoingRTPPkt.protect, srtpEncrypt, hpad]
  simp only [Bool.false_eq_true, if_false]
  rw [hdata, hcipher]
  rfl

/-- **A payload of `2^20` octets is never sent**: the block counter of `ctr_encrypt` wraps
before it reaches the number of blocks, and `protect` does not return. -/
theorem cm_long_payload_never_sent :
    (aesCmSha1 0x1122 0).keyed.keys.CounterMode ∧ (aesCmSha1 0x1122 0).keyed.keys.Keyed ∧
      (aesCmSha1 0x1122 0).keyed.Fresh ∧
      Sender.sendAll .additive 0x1122 ⟨(aesCmSha1 0x1122 0).keyed, 0⟩
        [.sample (List.replicate (2 ^ 20) 0)] = none := by
  refine ⟨Or.inl rfl, by decide, ⟨rfl, rfl⟩, ?_⟩
  have hlen : (RtpData.sample (List.replicate (2 ^ 20) 0)).payload.length = 2 ^ 20 :=
    List.length_replicate
  rw [Sender.sendAll,
    Sender.send_eq_none (Or.inl rfl) rfl rfl (by rw [hlen]) (by rw [hlen]; decide)]
