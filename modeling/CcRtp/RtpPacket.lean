/-
# `RTPPacket`: the packet in memory

Models the packet classes of `src/rtppkt.cpp` and `src/ccrtp/rtppkt.h`: `RTPPacket`
with its two constructors, `OutgoingRTPPkt` with its three constructors and header
setters, and the parsing constructor of `IncomingRTPPkt`.

Sizes and offsets are `uint32`, so they are `BitVec 32` here and wrap as they do
there.  Memory fresh from `new` is taken to be zero: the constructors and the setters
the queues call write every octet of it, apart from the room for the authentication
tag, which `protect` fills.

* `OutgoingRTPPkt.withCsrcs_eq`, `OutgoingRTPPkt.fillHeader_eq` : the octets of a
  finished packet;
* `IncomingRTPPkt.ofBlock_eq` : parsing such octets gives the fields back.
-/
import CcRtp.CryptoContext

/-- `CCRTP_VERSION` -/
abbrev ccrtpVersion : BitVec 2 := 2

/-- `sizeof(RTPFixedHeader)` -/
abbrev sizeOfFixedHeader : ℕ := 12

/-- An RTP packet: its memory, and the sizes and header fields kept beside it. -/
structure RTPPacket where
  buffer : Octets
  total : BitVec 32
  payloadSize : BitVec 32
  hdrSize : BitVec 32
  srtpDataOffset : BitVec 32
  srtpLength : BitVec 32
  cachedSeqNum : BitVec 16
  cachedTimestamp : BitVec 32
  deriving DecidableEq, Repr

namespace RTPPacket

/-! ## The fixed header -/

/-- A bit field of octet `i` of the header. -/
def headerField (buffer : Octets) (i lo w : ℕ) : BitVec w := bitField (buffer.getD i 0) lo w

/-- Assignment to a bit field of octet `i` of the header. -/
def setHeaderField (p : RTPPacket) (i lo : ℕ) {w : ℕ} (v : BitVec w) : RTPPacket :=
  { p with buffer := p.buffer.set i (setBitField (p.buffer.getD i 0) lo v) }

/-- `getProtocolVersion` -/
def getProtocolVersion (p : RTPPacket) : BitVec 2 := headerField p.buffer 0 6 2

/-- `isPadded` -/
def isPadded (p : RTPPacket) : Bool := headerField p.buffer 0 5 1 = 1

/-- `isExtended` -/
def isExtended (p : RTPPacket) : Bool := headerField p.buffer 0 4 1 = 1

/-- `getCSRCsCount` -/
def getCSRCsCount (p : RTPPacket) : BitVec 4 := headerField p.buffer 0 0 4

/-- `isMarked` -/
def isMarked (p : RTPPacket) : Bool := headerField p.buffer 1 7 1 = 1

/-- `getPayloadType` -/
def getPayloadType (p : RTPPacket) : BitVec 7 := headerField p.buffer 1 0 7

/-- `getPaddingSize`: the last octet of the packet. -/
def getPaddingSize (p : RTPPacket) : UInt8 := p.buffer.getD (p.total - 1).toNat 0

/-- The `getPayloadSize()` octets at `getPayload()`. -/
def payload (p : RTPPacket) : Octets := slice p.buffer p.hdrSize.toNat p.payloadSize.toNat

/-- The `getRawPacketSize()` octets at `getRawPacket()`. -/
def rawPacket (p : RTPPacket) : Octets := p.buffer.take p.total.toNat

/-- The `getRawPacketSizeSrtp()` octets at `getRawPacket()`, which is what is sent. -/
def rawPacketSrtp (p : RTPPacket) : Octets := p.buffer.take (p.total + p.srtpLength).toNat

/-! ## Constructors of `RTPPacket` -/

/-- The header size of a received packet, from its CSRC count and header extension. -/
def parsedHdrSize (block : Octets) : BitVec 32 :=
  let hdrSize := 12#32 + ((headerField block 0 0 4).setWidth 32 <<< 2)
  if headerField block 0 4 1 = 1 then
    -- the extension's own header and its length in words
    hdrSize + (4#32 + BitVec.ofNat 32 (ofBigEndian (slice block (hdrSize.toNat + 2) 2)) * 4#32)
  else hdrSize

/-- `RTPPacket(block, len)`, the constructor for received packets, for a block that is the
front of the memory; the memory is used in place. -/
def ofMemory (memory : Octets) (len : ℕ) : RTPPacket where
  buffer := memory
  total := BitVec.ofNat 32 len
  payloadSize :=
    -- the last octet counts the padding; nothing compares it with the length
    let len' := if headerField memory 0 5 1 = 1 then
        BitVec.ofNat 32 len - BitVec.ofNat 32 (memory.getD (len - 1) 0).toNat
      else BitVec.ofNat 32 len
    len' - parsedHdrSize memory
  hdrSize := parsedHdrSize memory
  srtpDataOffset := 0
  srtpLength := 0
  cachedSeqNum := 0
  cachedTimestamp := 0

/-- The constructor for a block with nothing behind it. -/
def ofBlock (block : Octets) : RTPPacket := ofMemory block block.length

/-- `setbuffer(src, len, pos)` -/
def setbuffer (p : RTPPacket) (src : Octets) (pos : ℕ) : RTPPacket :=
  { p with buffer := writeAt p.buffer pos src }

/-- The number of padding octets: a multiple of `paddinglen` is reached by 1 to
`paddinglen` octets. -/
def paddingOctets (paddinglen : UInt8) (total : ℕ) : ℕ :=
  if paddinglen = 0 then 0 else paddinglen.toNat - total % paddinglen.toNat

/-- The padding: zeros, and its own length in the last octet. -/
def padTail (padding : ℕ) : Octets := List.replicate (padding - 1) 0 ++ [UInt8.ofNat padding]

/-- The octets added behind the packet for SRTP. -/
def srtpOctets (pcc : Option CryptoContext) : ℕ :=
  pcc.elim 0 (fun ctx => ctx.getTagLength + ctx.getMkiLength)

/-- `RTPPacket(hdrlen, plen, paddinglen, pcc)`, the constructor for packets to be
sent. -/
def new (hdrlen plen : ℕ) (paddinglen : UInt8) (pcc : Option CryptoContext) : RTPPacket :=
  let total := BitVec.ofNat 32 (hdrlen + plen)
  let padding := paddingOctets paddinglen total.toNat
  let total := total + BitVec.ofNat 32 padding
  let srtpLength := BitVec.ofNat 32 (srtpOctets pcc)
  let p : RTPPacket :=
    { buffer := List.replicate (total + srtpLength).toNat 0
      total := total
      payloadSize := BitVec.ofNat 32 plen
      hdrSize := BitVec.ofNat 32 hdrlen
      srtpDataOffset := if pcc.isSome then total else 0
      srtpLength := srtpLength
      cachedSeqNum := 0
      cachedTimestamp := 0 }
  let p := p.setHeaderField 0 6 ccrtpVersion
  -- the padding stands at the end of the packet, before the room for the tag
  if padding ≠ 0 then
    (p.setbuffer (padTail padding) (p.total.toNat - padding)).setHeaderField 0 5 (1 : BitVec 1)
  else p.setHeaderField 0 5 (0 : BitVec 1)

/-- `setExtension` -/
def setExtension (p : RTPPacket) (e : Bool) : RTPPacket :=
  p.setHeaderField 0 4 (BitVec.ofBool e)

end RTPPacket

/-! ## Packets to be sent -/

/-- `OutgoingRTPPkt` adds no data to `RTPPacket`. -/
abbrev OutgoingRTPPkt := RTPPacket

namespace OutgoingRTPPkt

open RTPPacket

/-- The contributing sources in network order. -/
def csrcOctets (csrcs : List (BitVec 32)) : Octets := csrcs.flatMap (fun c => bigEndian 4 c.toNat)

/-- `setCSRCArray(csrcs, numcsrc)` -/
def setCSRCArray (p : OutgoingRTPPkt) (csrcs : List (BitVec 32)) : OutgoingRTPPkt :=
  (p.setbuffer (csrcOctets csrcs) sizeOfFixedHeader).setHeaderField 0 0
    (BitVec.ofNat 4 csrcs.length)

/-- The constructor with contributing sources and a header extension. -/
def withExtension (csrcs : List (BitVec 32)) (hdrext data : Octets) (paddinglen : UInt8)
    (pcc : Option CryptoContext) : OutgoingRTPPkt :=
  let p := RTPPacket.new (sizeOfFixedHeader + 4 * csrcs.length + hdrext.length) data.length
    paddinglen pcc
  let p := setCSRCArray p csrcs
  let pointer := sizeOfFixedHeader + csrcs.length * 4
  let p := (p.setbuffer hdrext pointer).setExtension (hdrext.length > 0)
  p.setbuffer data (pointer + hdrext.length)

/-- The constructor with contributing sources. -/
def withCsrcs (csrcs : List (BitVec 32)) (data : Octets) (paddinglen : UInt8)
    (pcc : Option CryptoContext) : OutgoingRTPPkt :=
  let p := RTPPacket.new (sizeOfFixedHeader + 4 * csrcs.length) data.length paddinglen pcc
  let p := setCSRCArray p csrcs
  p.setbuffer data (sizeOfFixedHeader + csrcs.length * 4)

/-- The constructor without contributing sources. -/
def plain (data : Octets) (paddinglen : UInt8) (pcc : Option CryptoContext) : OutgoingRTPPkt :=
  (RTPPacket.new sizeOfFixedHeader data.length paddinglen pcc).setbuffer data sizeOfFixedHeader

/-- `setPayloadType` -/
def setPayloadType (p : OutgoingRTPPkt) (pt : BitVec 7) : OutgoingRTPPkt :=
  p.setHeaderField 1 0 pt

/-- `setMarker` -/
def setMarker (p : OutgoingRTPPkt) (mark : Bool) : OutgoingRTPPkt :=
  p.setHeaderField 1 7 (BitVec.ofBool mark)

/-- `setSeqNum` -/
def setSeqNum (p : OutgoingRTPPkt) (seq : BitVec 16) : OutgoingRTPPkt :=
  { p.setbuffer (bigEndian 2 seq.toNat) 2 with cachedSeqNum := seq }

/-- `setTimestamp` -/
def setTimestamp (p : OutgoingRTPPkt) (pts : BitVec 32) : OutgoingRTPPkt :=
  { p.setbuffer (bigEndian 4 pts.toNat) 4 with cachedTimestamp := pts }

/-- `setSSRC`, and `setSSRCNetwork` of the same identifier in network order. -/
def setSSRC (p : OutgoingRTPPkt) (ssrc : BitVec 32) : OutgoingRTPPkt :=
  p.setbuffer (bigEndian 4 ssrc.toNat) 8

/-- The header setters in the order in which both send functions of the queue call
them. -/
def fillHeader (p : OutgoingRTPPkt) (pt : BitVec 7) (seq : BitVec 16) (pts ssrc : BitVec 32)
    (mark : Bool) : OutgoingRTPPkt :=
  ((((p.setPayloadType pt).setSeqNum seq).setTimestamp pts).setSSRC ssrc).setMarker mark

end OutgoingRTPPkt

/-! ## Received packets -/

/-- A received packet, with the result of the header check and the cached SSRC. -/
structure IncomingRTPPkt extends RTPPacket where
  headerValid : Bool
  cachedSSRC : BitVec 32
  deriving DecidableEq, Repr

namespace IncomingRTPPkt

open RTPPacket

/-- `RTP_INVALID_PT_MASK` and `RTP_INVALID_PT_VALUE`: the payload types 72 and 73 would
be sender and receiver reports. -/
def invalidPayloadType (pt : BitVec 7) : Bool := pt &&& 0x7e#7 = 0x48#7

/-- `IncomingRTPPkt(block, len)` for a block that is the front of the memory; the cached
fields of a packet with an invalid header are not set. -/
def ofMemory (memory : Octets) (len : ℕ) : IncomingRTPPkt :=
  let p := RTPPacket.ofMemory memory len
  if p.getProtocolVersion ≠ ccrtpVersion ∨ invalidPayloadType p.getPayloadType then
    { p with headerValid := false, cachedSSRC := 0 }
  else
    { p with
      cachedTimestamp := BitVec.ofNat 32 (ofBigEndian (slice memory 4 4))
      cachedSeqNum := BitVec.ofNat 16 (ofBigEndian (slice memory 2 2))
      cachedSSRC := BitVec.ofNat 32 (ofBigEndian (slice memory 8 4))
      headerValid := true }

/-- The constructor for a block with nothing behind it. -/
def ofBlock (block : Octets) : IncomingRTPPkt := ofMemory block block.length

end IncomingRTPPkt

/-! ## The octets of a packet to be sent -/

namespace RTPPacket

/-- The padding of a packet of `n` octets. -/
def padding (paddinglen : UInt8) (n : ℕ) : Octets :=
  if paddinglen = 0 then [] else padTail (paddingOctets paddinglen n)

/-- The count of padding octets fits in the last one. -/
theorem paddingOctets_bounds {paddinglen : UInt8} (h : paddinglen ≠ 0) (n : ℕ) :
    0 < paddingOctets paddinglen n ∧ paddingOctets paddinglen n ≤ 255 := by
  have hpos : 0 < paddinglen.toNat := by
    rcases Nat.eq_zero_or_pos paddinglen.toNat with h0 | h0
    · exact absurd (UInt8.toNat_inj.mp (by simpa using h0)) h
    · exact h0
  have hlt := paddinglen.toNat_lt
  have hmod := Nat.mod_lt n hpos
  rw [paddingOctets, if_neg h]
  omega

/-- As many octets as the last one says. -/
@[simp] theorem length_padding (paddinglen : UInt8) (n : ℕ) :
    (padding paddinglen n).length = paddingOctets paddinglen n := by
  unfold padding
  split_ifs with h
  · rw [paddingOctets, if_pos h]
    rfl
  · have := paddingOctets_bounds h n
    simp only [padTail, List.length_append, List.length_replicate, List.length_singleton]
    omega

/-- The last octet of a padded packet tells the number of padding octets. -/
theorem toNat_getPaddingSize {p : RTPPacket} (front rest : Octets) {k : ℕ} (hpos : 0 < k)
    (hle : k ≤ 255) (hbuf : p.buffer = front ++ padTail k ++ rest)
    (htotal : p.total.toNat = front.length + k) : p.getPaddingSize.toNat = k := by
  have hone : (1 : BitVec 32).toNat = 1 := rfl
  have hlast : (p.total - 1).toNat = (front ++ List.replicate (k - 1) 0).length := by
    have hlt := p.total.isLt
    rw [BitVec.toNat_sub, htotal, hone, List.length_append, List.length_replicate]
    omega
  have hsplit : p.buffer = front ++ List.replicate (k - 1) 0 ++ UInt8.ofNat k :: rest := by
    rw [hbuf, padTail]
    simp only [List.append_assoc, List.cons_append, List.nil_append]
  rw [getPaddingSize, hsplit, hlast, List.getD_append_right _ _ _ _ le_rfl, Nat.sub_self,
    List.getD_cons_zero, UInt8.toNat_ofNat']
  omega

/-- The first octet of a packet to be sent, before the CSRC count is set. -/
def startOctet (padded : Bool) : UInt8 :=
  setBitField (setBitField 0 6 ccrtpVersion) 5 (BitVec.ofBool padded)

/-- **The memory of a packet to be sent**, after the constructor: the version and the
padding flag, zeros, the padding, and the room for the tag. -/
theorem new_eq (hdrlen plen : ℕ) (paddinglen : UInt8) (pcc : Option CryptoContext)
    (hpos : 0 < hdrlen)
    (hlt : hdrlen + plen + paddingOctets paddinglen (hdrlen + plen) + srtpOctets pcc < 2 ^ 32) :
    RTPPacket.new hdrlen plen paddinglen pcc =
      { buffer := startOctet (paddinglen ≠ 0) :: List.replicate (hdrlen + plen - 1) 0
          ++ padding paddinglen (hdrlen + plen) ++ List.replicate (srtpOctets pcc) 0
        total := BitVec.ofNat 32 (hdrlen + plen + paddingOctets paddinglen (hdrlen + plen))
        payloadSize := BitVec.ofNat 32 plen
        hdrSize := BitVec.ofNat 32 hdrlen
        srtpDataOffset := if pcc.isSome then
          BitVec.ofNat 32 (hdrlen + plen + paddingOctets paddinglen (hdrlen + plen)) else 0
        srtpLength := BitVec.ofNat 32 (srtpOctets pcc)
        cachedSeqNum := 0
        cachedTimestamp := 0 } := by
  have hn : (BitVec.ofNat 32 (hdrlen + plen)).toNat = hdrlen + plen := by
    rw [BitVec.toNat_ofNat]; omega
  rw [RTPPacket.new]
  simp only [hn, ← BitVec.ofNat_add]
  set k := paddingOctets paddinglen (hdrlen + plen) with hk
  set t := srtpOctets pcc with ht
  have hsize : (BitVec.ofNat 32 (hdrlen + plen + k + t)).toNat = hdrlen + plen + k + t := by
    rw [BitVec.toNat_ofNat]; omega
  have htotal : (BitVec.ofNat 32 (hdrlen + plen + k)).toNat = hdrlen + plen + k := by
    rw [BitVec.toNat_ofNat]; omega
  have hbuf : List.replicate (hdrlen + plen + k + t) (0 : UInt8)
      = 0 :: List.replicate (hdrlen + plen - 1) 0 ++ List.replicate k 0
        ++ List.replicate t 0 := by
    rw [List.replicate_add, List.replicate_add,
      show hdrlen + plen = (hdrlen + plen - 1) + 1 by omega, List.replicate_succ]
    rfl
  simp only [setHeaderField, hsize, hbuf]
  by_cases hz : paddinglen = 0
  · have hk0 : k = 0 := by rw [hk, paddingOctets, if_pos hz]
    rw [if_neg (by omega)]
    simp only [hk0, padding, hz]
    rfl
  · obtain ⟨hk1, hk255⟩ := paddingOctets_bounds hz (hdrlen + plen)
    have hpad : padding paddinglen (hdrlen + plen) = padTail k := by rw [padding, if_neg hz]
    have hlen : (padTail k).length = (List.replicate k (0 : UInt8)).length := by
      rw [← hpad, length_padding, List.length_replicate]
    rw [if_pos (by omega), hpad]
    simp only [setbuffer, htotal, List.cons_append, List.set_cons_zero, List.getD_cons_zero]
    have hwrite : writeAt (setBitField 0 6 ccrtpVersion :: (List.replicate (hdrlen + plen - 1) 0
          ++ List.replicate k 0 ++ List.replicate t 0)) (hdrlen + plen + k - k) (padTail k)
        = setBitField 0 6 ccrtpVersion :: (List.replicate (hdrlen + plen - 1) 0 ++ padTail k
          ++ List.replicate t 0) :=
      writeAt_eq (setBitField 0 6 ccrtpVersion :: List.replicate (hdrlen + plen - 1) 0)
        (List.replicate k 0) (padTail k) (List.replicate t 0) rfl
        (by rw [List.length_cons, List.length_replicate]; omega) hlen
    rw [hwrite]
    simp only [ne_eq, hz, not_false_eq_true, decide_true, List.set_cons_zero,
      List.getD_cons_zero]
    rfl

end RTPPacket

namespace OutgoingRTPPkt

open RTPPacket

/-- The twelve octets of the fixed header. -/
def fixedHeader (o0 o1 : UInt8) (seq : BitVec 16) (pts ssrc : BitVec 32) : Octets :=
  o0 :: o1 :: (bigEndian 2 seq.toNat ++ bigEndian 4 pts.toNat ++ bigEndian 4 ssrc.toNat)

/-- The fixed part of a header. -/
@[simp] theorem length_fixedHeader (o0 o1 : UInt8) (seq : BitVec 16) (pts ssrc : BitVec 32) :
    (fixedHeader o0 o1 seq pts ssrc).length = 12 := by
  simp [fixedHeader]

/-- The first octet of the header: version, padding flag, CSRC count. -/
def firstOctet (padded : Bool) (cc : BitVec 4) : UInt8 := setBitField (startOctet padded) 0 cc

/-- The second octet of the header: payload type and marker. -/
def secondOctet (pt : BitVec 7) (mark : Bool) : UInt8 :=
  setBitField (setBitField 0 0 pt) 7 (BitVec.ofBool mark)

/-- The version is read back. -/
theorem bitField_firstOctet_version (padded : Bool) (cc : BitVec 4) :
    bitField (firstOctet padded cc) 6 2 = ccrtpVersion := by
  rw [firstOctet, bitField_setBitField_of_disjoint _ _ _ (by omega) (by omega), startOctet,
    bitField_setBitField_of_disjoint _ _ _ (by omega) (by omega),
    bitField_setBitField _ _ _ (by omega)]

/-- The padding bit is read back. -/
theorem bitField_firstOctet_padding (padded : Bool) (cc : BitVec 4) :
    bitField (firstOctet padded cc) 5 1 = BitVec.ofBool padded := by
  rw [firstOctet, bitField_setBitField_of_disjoint _ _ _ (by omega) (by omega), startOctet,
    bitField_setBitField _ _ _ (by omega)]

/-- The extension bit is not set. -/
theorem bitField_firstOctet_extension (padded : Bool) (cc : BitVec 4) :
    bitField (firstOctet padded cc) 4 1 = 0 := by
  rw [firstOctet, bitField_setBitField_of_disjoint _ _ _ (by omega) (by omega), startOctet,
    bitField_setBitField_of_disjoint _ _ _ (by omega) (by omega),
    bitField_setBitField_of_disjoint _ _ _ (by omega) (by omega)]
  decide

/-- The count of contributing sources is read back. -/
theorem bitField_firstOctet_cc (padded : Bool) (cc : BitVec 4) :
    bitField (firstOctet padded cc) 0 4 = cc := by
  rw [firstOctet, bitField_setBitField _ _ _ (by omega)]

/-- The payload type is read back, with and without marker. -/
theorem bitField_secondOctet_payload (pt : BitVec 7) (mark : Bool) :
    bitField (secondOctet pt mark) 0 7 = pt := by
  rw [secondOctet, bitField_setBitField_of_disjoint _ _ _ (by omega) (by omega),
    bitField_setBitField _ _ _ (by omega)]

/-- Four octets for each contributing source. -/
@[simp] theorem length_csrcOctets (csrcs : List (BitVec 32)) :
    (csrcOctets csrcs).length = 4 * csrcs.length := by
  induction csrcs with
  | nil => rfl
  | cons c csrcs ih =>
      rw [csrcOctets, List.flatMap_cons, List.length_append, length_bigEndian]
      rw [csrcOctets] at ih
      rw [ih, List.length_cons]
      ring

/-- **The memory of a packet with contributing sources**, before its header is filled
in. -/
theorem withCsrcs_eq (csrcs : List (BitVec 32)) (data : Octets) (paddinglen : UInt8)
    (pcc : Option CryptoContext) {n k : ℕ} (hn : n = 12 + 4 * csrcs.length + data.length)
    (hk : k = paddingOctets paddinglen n) (hlt : n + k + srtpOctets pcc < 2 ^ 32) :
    withCsrcs csrcs data paddinglen pcc =
      { buffer := fixedHeader (firstOctet (paddinglen ≠ 0) (BitVec.ofNat 4 csrcs.length)) 0 0 0 0
          ++ (csrcOctets csrcs ++ data ++ padding paddinglen n
            ++ List.replicate (srtpOctets pcc) 0)
        total := BitVec.ofNat 32 (n + k)
        payloadSize := BitVec.ofNat 32 data.length
        hdrSize := BitVec.ofNat 32 (12 + 4 * csrcs.length)
        srtpDataOffset := if pcc.isSome then BitVec.ofNat 32 (n + k) else 0
        srtpLength := BitVec.ofNat 32 (srtpOctets pcc)
        cachedSeqNum := 0
        cachedTimestamp := 0 } := by
  subst hk hn
  rw [withCsrcs, new_eq _ _ _ _ (by omega) hlt]
  set n := 12 + 4 * csrcs.length + data.length with hn
  set o0 := startOctet (paddinglen ≠ 0) with ho0
  set tail := padding paddinglen n ++ List.replicate (srtpOctets pcc) 0 with htail
  have hzeros : List.replicate (n - 1) (0 : UInt8)
      = List.replicate 11 0 ++ List.replicate (4 * csrcs.length) 0
        ++ List.replicate data.length 0 := by
    rw [← List.replicate_add, ← List.replicate_add]
    congr 1
    omega
  have hcsrc : writeAt (o0 :: List.replicate (n - 1) 0 ++ padding paddinglen n
        ++ List.replicate (srtpOctets pcc) 0) 12 (csrcOctets csrcs)
      = o0 :: List.replicate 11 0 ++ csrcOctets csrcs
        ++ (List.replicate data.length 0 ++ tail) := by
    have hbuf : o0 :: List.replicate (n - 1) 0 ++ padding paddinglen n
          ++ List.replicate (srtpOctets pcc) 0
        = o0 :: List.replicate 11 0 ++ (List.replicate (4 * csrcs.length) 0
          ++ (List.replicate data.length 0 ++ tail)) := by
      rw [hzeros, htail]
      simp only [List.cons_append, List.append_assoc]
    rw [hbuf]
    exact writeAt_zeros _ _ _ rfl (length_csrcOctets csrcs).symm
  have hdata : ∀ o : UInt8, writeAt (o :: List.replicate 11 0 ++ csrcOctets csrcs
        ++ (List.replicate data.length 0 ++ tail)) (12 + csrcs.length * 4) data
      = o :: List.replicate 11 0 ++ csrcOctets csrcs ++ data ++ tail := by
    intro o
    refine writeAt_zeros _ data tail ?_ rfl
    rw [List.length_append, List.length_cons, List.length_replicate, length_csrcOctets]
    omega
  simp only [setCSRCArray, setbuffer, setHeaderField, hcsrc, sizeOfFixedHeader]
  simp only [List.cons_append, List.set_cons_zero, List.getD_cons_zero] at hdata ⊢
  rw [hdata]
  simp only [htail, List.append_assoc]
  rfl

/-- Without contributing sources the two constructors agree. -/
theorem plain_eq (data : Octets) (paddinglen : UInt8) (pcc : Option CryptoContext) {n k : ℕ}
    (hn : n = 12 + data.length) (hk : k = paddingOctets paddinglen n)
    (hlt : n + k + srtpOctets pcc < 2 ^ 32) :
    plain data paddinglen pcc = withCsrcs [] data paddinglen pcc := by
  subst hk hn
  have hcc : ∀ padded, setBitField (startOctet padded) 0 (BitVec.ofNat 4 0) =
      startOctet padded := by
    decide
  have hempty : ∀ b : Octets, writeAt b 12 [] = b := by
    intro b
    rw [writeAt, List.append_nil, List.length_nil, Nat.add_zero, List.take_append_drop]
  rw [plain, withCsrcs]
  simp only [List.length_nil, Nat.mul_zero, Nat.zero_mul, Nat.add_zero, sizeOfFixedHeader]
  rw [new_eq 12 _ _ _ (by omega) hlt]
  simp only [setCSRCArray, setbuffer, setHeaderField, csrcOctets, List.flatMap_nil,
    sizeOfFixedHeader, hempty, List.length_nil, List.cons_append, List.set_cons_zero,
    List.getD_cons_zero, hcc]

/-- **Filling in the header** writes the twelve octets of the fixed header and nothing
else. -/
theorem fillHeader_eq (p : OutgoingRTPPkt) {o0 : UInt8} {rest : Octets}
    (hp : p.buffer = fixedHeader o0 0 0 0 0 ++ rest) (pt : BitVec 7) (seq : BitVec 16)
    (pts ssrc : BitVec 32) (mark : Bool) :
    fillHeader p pt seq pts ssrc mark = { p with
      buffer := fixedHeader o0 (secondOctet pt mark) seq pts ssrc ++ rest
      cachedSeqNum := seq
      cachedTimestamp := pts } := by
  cases p
  simp only at hp
  subst hp
  rfl

end OutgoingRTPPkt

namespace IncomingRTPPkt

open RTPPacket OutgoingRTPPkt

/-- **Parsing an unpadded packet**: the header check passes and every field is read
back. -/
theorem ofBlock_eq {csrcs : List (BitVec 32)} (hcsrcs : csrcs.length ≤ 15) {pt : BitVec 7}
    (hpt : invalidPayloadType pt = false) (mark : Bool) (seq : BitVec 16) (pts ssrc : BitVec 32)
    (body : Octets) :
    ofBlock (fixedHeader (firstOctet false (BitVec.ofNat 4 csrcs.length)) (secondOctet pt mark)
        seq pts ssrc ++ (csrcOctets csrcs ++ body)) =
      { buffer := fixedHeader (firstOctet false (BitVec.ofNat 4 csrcs.length))
          (secondOctet pt mark) seq pts ssrc ++ (csrcOctets csrcs ++ body)
        total := BitVec.ofNat 32 (12 + 4 * csrcs.length + body.length)
        payloadSize := BitVec.ofNat 32 body.length
        hdrSize := BitVec.ofNat 32 (12 + 4 * csrcs.length)
        srtpDataOffset := 0
        srtpLength := 0
        cachedSeqNum := seq
        cachedTimestamp := pts
        headerValid := true
        cachedSSRC := ssrc } := by
  set o0 := firstOctet false (BitVec.ofNat 4 csrcs.length) with ho0
  set block := fixedHeader o0 (secondOctet pt mark) seq pts ssrc ++ (csrcOctets csrcs ++ body)
    with hblock
  have hlen : block.length = 12 + 4 * csrcs.length + body.length := by
    rw [hblock, List.length_append, List.length_append, length_fixedHeader, length_csrcOctets]
    omega
  have hfirst : ∀ lo w, headerField block 0 lo w = bitField o0 lo w := fun _ _ => rfl
  have hsecond : headerField block 1 0 7 = pt := bitField_secondOctet_payload pt mark
  have hseq : slice block 2 2 = bigEndian 2 seq.toNat := rfl
  have hpts : slice block 4 4 = bigEndian 4 pts.toNat := rfl
  have hssrc : slice block 8 4 = bigEndian 4 ssrc.toNat := rfl
  have hhdr : parsedHdrSize block = BitVec.ofNat 32 (12 + 4 * csrcs.length) := by
    rw [parsedHdrSize, hfirst, hfirst, ho0, bitField_firstOctet_extension,
      bitField_firstOctet_cc, if_neg (by decide)]
    apply BitVec.eq_of_toNat_eq
    simp only [BitVec.toNat_add, BitVec.toNat_shiftLeft, BitVec.toNat_setWidth,
      BitVec.toNat_ofNat, Nat.shiftLeft_eq]
    omega
  have hvalid : ¬ ((RTPPacket.ofBlock block).getProtocolVersion ≠ ccrtpVersion ∨
      invalidPayloadType (RTPPacket.ofBlock block).getPayloadType = true) := by
    have hv : (RTPPacket.ofBlock block).getProtocolVersion = ccrtpVersion := by
      show headerField block 0 6 2 = _
      rw [hfirst, ho0, bitField_firstOctet_version]
    have hp : (RTPPacket.ofBlock block).getPayloadType = pt := hsecond
    rw [hv, hp, hpt]
    decide
  rw [ofBlock, ofMemory, ← RTPPacket.ofBlock, if_neg hvalid]
  simp only [RTPPacket.ofBlock, RTPPacket.ofMemory, hseq, hpts, hssrc, hhdr, hlen, hfirst, ho0,
    bitField_firstOctet_padding]
  rw [if_neg (by decide), ofBigEndian_bigEndian _ _ seq.isLt, ofBigEndian_bigEndian _ _ pts.isLt,
    ofBigEndian_bigEndian _ _ ssrc.isLt]
  simp only [BitVec.ofNat_toNat, BitVec.setWidth_eq]
  congr 2
  apply BitVec.eq_of_toNat_eq
  simp only [BitVec.toNat_sub, BitVec.toNat_ofNat]
  omega

end IncomingRTPPkt
