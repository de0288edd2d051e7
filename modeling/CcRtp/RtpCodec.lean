/-
# Building and parsing RTP packets

The three constructors of `OutgoingRTPPkt` and the constructor of `IncomingRTPPkt`
(`src/rtppkt.cpp`), with contributing sources, header extension and padding, and what the
accessors of `src/ccrtp/rtppkt.h` read.

* `OutgoingRTPPkt.withExtension_eq` : the octets of a packet with a header extension;
* `IncomingRTPPkt.holds_ofBlock` : parsing such octets;
* `rtp_codec_round_trip` : what is parsed is what was built.
-/
import CcRtp.RtpPacket

/-! ## The accessors -/

namespace RTPPacket

/-- `getCSRCs`: the identifiers as they are in the packet. -/
def getCSRCs (p : RTPPacket) : Octets :=
  slice p.buffer sizeOfFixedHeader (4 * p.getCSRCsCount.toNat)

/-- The offset of `getHeaderExt`; whether there is an extension is not checked. -/
def headerExtOffset (p : RTPPacket) : ℕ := sizeOfFixedHeader + 4 * p.getCSRCsCount.toNat

/-- `getHdrExtUndefined` -/
def getHdrExtUndefined (p : RTPPacket) : Octets :=
  if p.isExtended then slice p.buffer p.headerExtOffset 2 else [0, 0]

/-- `getHdrExtSize` -/
def getHdrExtSize (p : RTPPacket) : ℕ :=
  if p.isExtended then 4 * ofBigEndian (slice p.buffer (p.headerExtOffset + 2) 2) else 0

/-- The `getHdrExtSize()` octets at `getHdrExtContent()`. -/
def hdrExtContent (p : RTPPacket) : Octets :=
  if p.isExtended then slice p.buffer (p.headerExtOffset + 4) p.getHdrExtSize else []

/-- The padding octets of a packet. -/
def paddingSize (p : RTPPacket) : ℕ := if p.isPadded then p.getPaddingSize.toNat else 0

/-- Header, payload and padding make up the packet. -/
def AddsUp (p : RTPPacket) : Prop :=
  p.hdrSize.toNat + p.payloadSize.toNat + p.paddingSize = p.total.toNat

instance (p : RTPPacket) : Decidable p.AddsUp := inferInstanceAs (Decidable (_ = _))

end RTPPacket

open RTPPacket

/-- A header extension block: there is none, or its own length word matches its size. -/
def WellFormedExtension (hdrext : Octets) : Prop :=
  hdrext = [] ∨ hdrext.length = 4 + 4 * ofBigEndian (slice hdrext 2 2)

/-! ## The octets of a packet -/

namespace OutgoingRTPPkt

/-- The packets that the constructors build. -/
inductive Builds (csrcs : List (BitVec 32)) (data : Octets) (paddinglen : UInt8)
    (pcc : Option CryptoContext) : Octets → OutgoingRTPPkt → Prop
  | withExtension (hdrext : Octets) :
      Builds csrcs data paddinglen pcc hdrext (withExtension csrcs hdrext data paddinglen pcc)
  | withCsrcs : Builds csrcs data paddinglen pcc [] (withCsrcs csrcs data paddinglen pcc)
  | plain (h : csrcs = []) : Builds csrcs data paddinglen pcc [] (plain data paddinglen pcc)

/-- The first octet of the header: version, padding flag, CSRC count and extension flag. -/
def headerOctet (padded : Bool) (cc : BitVec 4) (extended : Bool) : UInt8 :=
  setBitField (firstOctet padded cc) 4 (BitVec.ofBool extended)

section FirstOctet

variable (padded extended : Bool) (cc : BitVec 4)

theorem bitField_headerOctet_version :
    bitField (headerOctet padded cc extended) 6 2 = ccrtpVersion := by
  rw [headerOctet, bitField_setBitField_of_disjoint _ _ _ (by omega) (by omega),
    bitField_firstOctet_version]

theorem bitField_headerOctet_padding :
    bitField (headerOctet padded cc extended) 5 1 = BitVec.ofBool padded := by
  rw [headerOctet, bitField_setBitField_of_disjoint _ _ _ (by omega) (by omega),
    bitField_firstOctet_padding]

theorem bitField_headerOctet_extension :
    bitField (headerOctet padded cc extended) 4 1 = BitVec.ofBool extended := by
  rw [headerOctet, bitField_setBitField _ _ _ (by omega)]

theorem bitField_headerOctet_cc : bitField (headerOctet padded cc extended) 0 4 = cc := by
  rw [headerOctet, bitField_setBitField_of_disjoint _ _ _ (by omega) (by omega),
    bitField_firstOctet_cc]

end FirstOctet

/-- **The memory of a packet with a header extension**, before its header is filled in. -/
theorem withExtension_eq (csrcs : List (BitVec 32)) (hdrext data : Octets) (paddinglen : UInt8)
    (pcc : Option CryptoContext) {n k : ℕ}
    (hn : n = 12 + 4 * csrcs.length + hdrext.length + data.length)
    (hk : k = paddingOctets paddinglen n) (hlt : n + k + srtpOctets pcc < 2 ^ 32) :
    withExtension csrcs hdrext data paddinglen pcc =
      { buffer := fixedHeader (headerOctet (paddinglen ≠ 0) (BitVec.ofNat 4 csrcs.length)
            (hdrext.length > 0)) 0 0 0 0
          ++ (csrcOctets csrcs ++ hdrext ++ data ++ padding paddinglen n
            ++ List.replicate (srtpOctets pcc) 0)
        total := BitVec.ofNat 32 (n + k)
        payloadSize := BitVec.ofNat 32 data.length
        hdrSize := BitVec.ofNat 32 (12 + 4 * csrcs.length + hdrext.length)
        srtpDataOffset := if pcc.isSome then BitVec.ofNat 32 (n + k) else 0
        srtpLength := BitVec.ofNat 32 (srtpOctets pcc)
        cachedSeqNum := 0
        cachedTimestamp := 0 } := by
  subst hk hn
  rw [withExtension, new_eq _ _ _ _ (by omega) hlt]
  set n := 12 + 4 * csrcs.length + hdrext.length + data.length with hn
  set o0 := startOctet (paddinglen ≠ 0) with ho0
  set tail := padding paddinglen n ++ List.replicate (srtpOctets pcc) 0 with htail
  have hzeros : List.replicate (n - 1) (0 : UInt8)
      = List.replicate 11 0 ++ List.replicate (4 * csrcs.length) 0
        ++ List.replicate hdrext.length 0 ++ List.replicate data.length 0 := by
    rw [← List.replicate_add, ← List.replicate_add, ← List.replicate_add]
    congr 1
    omega
  have hcsrc : writeAt (o0 :: List.replicate (n - 1) 0 ++ padding paddinglen n
        ++ List.replicate (srtpOctets pcc) 0) 12 (csrcOctets csrcs)
      = o0 :: List.replicate 11 0 ++ csrcOctets csrcs
        ++ (List.replicate hdrext.length 0 ++ (List.replicate data.length 0 ++ tail)) := by
    have hbuf : o0 :: List.replicate (n - 1) 0 ++ padding paddinglen n
          ++ List.replicate (srtpOctets pcc) 0
        = o0 :: List.replicate 11 0 ++ (List.replicate (4 * csrcs.length) 0
          ++ (List.replicate hdrext.length 0 ++ (List.replicate data.length 0 ++ tail))) := by
      rw [hzeros, htail]
      simp only [List.cons_append, List.append_assoc]
    rw [hbuf]
    exact writeAt_zeros _ _ _ rfl (length_csrcOctets csrcs).symm
  have hpos : ∀ o : UInt8, 12 + csrcs.length * 4
      = (o :: List.replicate 11 0 ++ csrcOctets csrcs).length := by
    intro o
    rw [List.length_append, List.length_cons, List.length_replicate, length_csrcOctets]
    omega
  have hext : ∀ o : UInt8, writeAt (o :: List.replicate 11 0 ++ csrcOctets csrcs
        ++ (List.replicate hdrext.length 0 ++ (List.replicate data.length 0 ++ tail)))
        (12 + csrcs.length * 4) hdrext
      = o :: List.replicate 11 0 ++ csrcOctets csrcs ++ hdrext
        ++ (List.replicate data.length 0 ++ tail) :=
    fun o => writeAt_zeros _ hdrext _ (hpos o) rfl
  have hdata : ∀ o : UInt8, writeAt (o :: List.replicate 11 0 ++ csrcOctets csrcs ++ hdrext
        ++ (List.replicate data.length 0 ++ tail)) (12 + csrcs.length * 4 + hdrext.length) data
      = o :: List.replicate 11 0 ++ csrcOctets csrcs ++ hdrext ++ data ++ tail := by
    intro o
    refine writeAt_zeros _ data tail ?_ rfl
    rw [List.length_append, ← hpos]
  simp only [setCSRCArray, setExtension, setbuffer, setHeaderField, hcsrc, sizeOfFixedHeader]
  simp only [List.cons_append, List.set_cons_zero, List.getD_cons_zero] at hext hdata ⊢
  rw [hext]
  simp only [List.set_cons_zero, List.getD_cons_zero]
  rw [hdata]
  simp only [htail, List.append_assoc]
  rfl

/-- Without an extension it is the constructor with contributing sources. -/
theorem withExtension_nil (csrcs : List (BitVec 32)) (data : Octets) (paddinglen : UInt8)
    (pcc : Option CryptoContext) {n : ℕ} (hn : n = 12 + 4 * csrcs.length + data.length)
    (hlt : n + paddingOctets paddinglen n + srtpOctets pcc < 2 ^ 32) :
    withExtension csrcs [] data paddinglen pcc = withCsrcs csrcs data paddinglen pcc := by
  have hoctet : headerOctet (paddinglen ≠ 0) (BitVec.ofNat 4 csrcs.length) false
      = firstOctet (paddinglen ≠ 0) (BitVec.ofNat 4 csrcs.length) := by
    have hall : ∀ (padded : Bool) (cc : BitVec 4),
        headerOctet padded cc false = firstOctet padded cc := by decide
    exact hall _ _
  rw [withExtension_eq csrcs [] data paddinglen pcc hn rfl hlt,
    withCsrcs_eq csrcs data paddinglen pcc hn rfl hlt, List.append_nil, List.length_nil,
    Nat.add_zero]
  rw [← hoctet]
  rfl

/-- **All constructors build one kind of packet.** -/
theorem Builds.eq_withExtension {csrcs : List (BitVec 32)} {hdrext data : Octets}
    {paddinglen : UInt8} {pcc : Option CryptoContext} {p : OutgoingRTPPkt}
    (h : Builds csrcs data paddinglen pcc hdrext p) {n : ℕ}
    (hn : n = 12 + 4 * csrcs.length + hdrext.length + data.length)
    (hlt : n + paddingOctets paddinglen n + srtpOctets pcc < 2 ^ 32) :
    p = OutgoingRTPPkt.withExtension csrcs hdrext data paddinglen pcc := by
  cases h with
  | withExtension hdrext => rfl
  | withCsrcs => exact (withExtension_nil csrcs data paddinglen pcc hn hlt).symm
  | plain h =>
      subst h
      rw [withExtension_nil [] data paddinglen pcc hn hlt]
      exact plain_eq data paddinglen pcc hn rfl hlt

end OutgoingRTPPkt

/-! ## Parsing -/

namespace IncomingRTPPkt

open OutgoingRTPPkt

/-- What a packet was built from is read back. -/
structure Holds (r : IncomingRTPPkt) (csrcs : List (BitVec 32)) (hdrext data : Octets)
    (pt : BitVec 7) (seq : BitVec 16) (pts ssrc : BitVec 32) (mark : Bool) : Prop where
  headerValid : r.headerValid = true
  payload : r.payload = data
  payloadSize : r.payloadSize.toNat = data.length
  csrcsCount : r.getCSRCsCount.toNat = csrcs.length
  csrcs : r.getCSRCs = csrcOctets csrcs
  extended : r.isExtended = decide (hdrext ≠ [])
  hdrExtUndefined : hdrext ≠ [] → r.getHdrExtUndefined = hdrext.take 2
  hdrExtSize : r.getHdrExtSize = hdrext.length - 4
  hdrExtContent : r.hdrExtContent = hdrext.drop 4
  seqNum : r.cachedSeqNum = seq
  timestamp : r.cachedTimestamp = pts
  ssrc : r.cachedSSRC = ssrc
  payloadType : r.getPayloadType = pt
  marked : r.isMarked = mark

theorem bitField_secondOctet_marker (pt : BitVec 7) (mark : Bool) :
    bitField (secondOctet pt mark) 7 1 = BitVec.ofBool mark := by
  rw [secondOctet, bitField_setBitField _ _ _ (by omega)]

/-- The part of a slice that lies in the middle. -/
theorem slice_append_inner (p m s : Octets) {i len : ℕ} (h : i + len ≤ m.length) :
    slice (p ++ (m ++ s)) (p.length + i) len = slice m i len := by
  rw [slice, slice, List.drop_append, List.drop_of_length_le (Nat.le_add_right _ _),
    List.nil_append, Nat.add_sub_cancel_left, List.drop_append_of_le_length (by omega),
    List.take_append_of_le_length]
  rw [List.length_drop]
  omega

section Parsing

variable {csrcs : List (BitVec 32)} {hdrext data pad : Octets} {padded : Bool} {pt : BitVec 7}
  {seq : BitVec 16} {pts ssrc : BitVec 32} {mark : Bool} {block : Octets}

/-- The bit fields of the first octet. -/
theorem headerField_first
    (hblock : block = fixedHeader (headerOctet padded (BitVec.ofNat 4 csrcs.length)
        (hdrext.length > 0)) (secondOctet pt mark) seq pts ssrc
      ++ (csrcOctets csrcs ++ (hdrext ++ (data ++ pad))))
    (lo w : ℕ) : headerField block 0 lo w
      = bitField (headerOctet padded (BitVec.ofNat 4 csrcs.length) (hdrext.length > 0)) lo w := by
  rw [hblock]
  rfl

/-- The bit fields of the second octet. -/
theorem headerField_second
    (hblock : block = fixedHeader (headerOctet padded (BitVec.ofNat 4 csrcs.length)
        (hdrext.length > 0)) (secondOctet pt mark) seq pts ssrc
      ++ (csrcOctets csrcs ++ (hdrext ++ (data ++ pad))))
    (lo w : ℕ) : headerField block 1 lo w = bitField (secondOctet pt mark) lo w := by
  rw [hblock]
  rfl

/-- The extension stands behind the contributing sources. -/
theorem slice_hdrext
    (hblock : block = fixedHeader (headerOctet padded (BitVec.ofNat 4 csrcs.length)
        (hdrext.length > 0)) (secondOctet pt mark) seq pts ssrc
      ++ (csrcOctets csrcs ++ (hdrext ++ (data ++ pad))))
    {i len : ℕ} (hle : i + len ≤ hdrext.length) :
    slice block (12 + 4 * csrcs.length + i) len = slice hdrext i len := by
  have hmid := slice_append_inner (fixedHeader (headerOctet padded (BitVec.ofNat 4 csrcs.length)
    (hdrext.length > 0)) (secondOctet pt mark) seq pts ssrc ++ csrcOctets csrcs) hdrext
    (data ++ pad) hle
  rwa [List.length_append, length_fixedHeader, length_csrcOctets, List.append_assoc, ← hblock]
    at hmid

/-- **The header size** of a packet with contributing sources and header extension. -/
theorem parsedHdrSize_eq (hcsrcs : csrcs.length ≤ 15) (hext : WellFormedExtension hdrext)
    (hblock : block = fixedHeader (headerOctet padded (BitVec.ofNat 4 csrcs.length)
        (hdrext.length > 0)) (secondOctet pt mark) seq pts ssrc
      ++ (csrcOctets csrcs ++ (hdrext ++ (data ++ pad)))) :
    parsedHdrSize block = BitVec.ofNat 32 (12 + 4 * csrcs.length + hdrext.length) := by
  have hfirst := headerField_first hblock
  have hfixed : (12#32 + (BitVec.ofNat 4 csrcs.length).setWidth 32 <<< 2).toNat
      = 12 + 4 * csrcs.length := by
    simp only [BitVec.toNat_add, BitVec.toNat_shiftLeft, BitVec.toNat_setWidth,
      BitVec.toNat_ofNat, Nat.shiftLeft_eq]
    omega
  rw [parsedHdrSize, hfirst, hfirst, bitField_headerOctet_cc, bitField_headerOctet_extension]
  rcases hext with rfl | hlen
  · rw [if_neg (by decide)]
    apply BitVec.eq_of_toNat_eq
    rw [hfixed, BitVec.toNat_ofNat, List.length_nil]
    omega
  · have hword : slice block (12 + 4 * csrcs.length + 2) 2 = slice hdrext 2 2 :=
      slice_hdrext hblock (by omega)
    have hpos : decide (hdrext.length > 0) = true := decide_eq_true (by omega)
    rw [hpos, if_pos (by decide), hfixed, hword]
    apply BitVec.eq_of_toNat_eq
    rw [BitVec.toNat_add, hfixed]
    simp only [BitVec.toNat_add, BitVec.toNat_mul, BitVec.toNat_ofNat]
    omega

/-- The padding of a packet, if it has the flag. -/
def IsPadding (padded : Bool) (pad : Octets) : Prop :=
  if padded then ∃ k, 0 < k ∧ k ≤ 255 ∧ pad = padTail k else pad = []

/-- The last octet of a padded packet. -/
theorem toNat_last {front : Octets} {k : ℕ} (hpos : 0 < k) (hle : k ≤ 255) :
    ((front ++ padTail k).getD ((front ++ padTail k).length - 1) 0).toNat = k := by
  have hlen : (front ++ padTail k).length - 1 = (front ++ List.replicate (k - 1) 0).length := by
    simp only [padTail, List.length_append, List.length_replicate, List.length_singleton]
    omega
  rw [hlen, padTail, ← List.append_assoc, List.getD_append_right _ _ _ _ le_rfl, Nat.sub_self,
    List.getD_cons_zero, UInt8.toNat_ofNat']
  omega

theorem length_padTail {k : ℕ} (hpos : 0 < k) : (padTail k).length = k := by
  rw [padTail, List.length_append, List.length_replicate, List.length_singleton]
  omega

/-- **The sizes** of a packet that has just been parsed. -/
theorem sizes_ofBlock (hcsrcs : csrcs.length ≤ 15) (hext : WellFormedExtension hdrext)
    (hpad : IsPadding padded pad)
    (hblock : block = fixedHeader (headerOctet padded (BitVec.ofNat 4 csrcs.length)
        (hdrext.length > 0)) (secondOctet pt mark) seq pts ssrc
      ++ (csrcOctets csrcs ++ (hdrext ++ (data ++ pad)))) (hlt : block.length < 2 ^ 32) :
    (RTPPacket.ofBlock block).hdrSize.toNat = 12 + 4 * csrcs.length + hdrext.length ∧
      (RTPPacket.ofBlock block).payloadSize.toNat = data.length ∧
      (RTPPacket.ofBlock block).paddingSize = pad.length ∧
      (RTPPacket.ofBlock block).total.toNat = block.length := by
  have hlen : block.length = 12 + 4 * csrcs.length + hdrext.length + data.length + pad.length := by
    rw [hblock]
    simp only [List.length_append, length_fixedHeader, length_csrcOctets]
    omega
  have htotal : (RTPPacket.ofBlock block).total.toNat = block.length := Nat.mod_eq_of_lt hlt
  have hhdr := parsedHdrSize_eq hcsrcs hext hblock
  have hflag : headerField block 0 5 1 = BitVec.ofBool padded :=
    (headerField_first hblock 5 1).trans (bitField_headerOctet_padding padded _ _)
  have hsize : (RTPPacket.ofBlock block).hdrSize.toNat
      = 12 + 4 * csrcs.length + hdrext.length := by
    show (parsedHdrSize block).toNat = _
    rw [hhdr, BitVec.toNat_ofNat]
    omega
  refine ⟨hsize, ?_, ?_, htotal⟩
  · show ((if headerField block 0 5 1 = 1 then BitVec.ofNat 32 block.length
        - BitVec.ofNat 32 (block.getD (block.length - 1) 0).toNat else BitVec.ofNat 32 block.length)
      - parsedHdrSize block).toNat = data.length
    rw [hflag, hhdr]
    cases padded with
    | false =>
        have hnil : pad = [] := hpad
        rw [if_neg (by decide), BitVec.toNat_sub, BitVec.toNat_ofNat, BitVec.toNat_ofNat]
        rw [hnil, List.length_nil] at hlen
        omega
    | true =>
        obtain ⟨k, hpos, hle, rfl⟩ := hpad
        have hlast : (block.getD (block.length - 1) 0).toNat = k := by
          rw [hblock, ← List.append_assoc, ← List.append_assoc, ← List.append_assoc]
          exact toNat_last hpos hle
        rw [length_padTail hpos] at hlen
        rw [if_pos (by decide), hlast, BitVec.toNat_sub, BitVec.toNat_sub, BitVec.toNat_ofNat,
          BitVec.toNat_ofNat, BitVec.toNat_ofNat]
        omega
  · rw [paddingSize, isPadded]
    show (if decide (headerField block 0 5 1 = 1) = true then _ else 0) = _
    rw [hflag]
    cases padded with
    | false =>
        have hnil : pad = [] := hpad
        rw [hnil]
        rfl
    | true =>
        obtain ⟨k, hpos, hle, rfl⟩ := hpad
        rw [if_pos (by decide), length_padTail hpos]
        refine toNat_getPaddingSize (fixedHeader (headerOctet true (BitVec.ofNat 4 csrcs.length)
          (hdrext.length > 0)) (secondOctet pt mark) seq pts ssrc
          ++ (csrcOctets csrcs ++ (hdrext ++ data))) [] hpos hle ?_ ?_
        · rw [List.append_nil]
          show block = _
          rw [hblock]
          simp only [List.append_assoc]
        · rw [htotal, hlen, length_padTail hpos]
          simp only [List.length_append, length_fixedHeader, length_csrcOctets]
          omega

/-- The number of contributing sources that is read. -/
theorem csrcCount_ofBlock (hcsrcs : csrcs.length ≤ 15)
    (hblock : block = fixedHeader (headerOctet padded (BitVec.ofNat 4 csrcs.length)
        (hdrext.length > 0)) (secondOctet pt mark) seq pts ssrc
      ++ (csrcOctets csrcs ++ (hdrext ++ (data ++ pad)))) :
    (headerField block 0 0 4).toNat = csrcs.length := by
  rw [headerField_first hblock, bitField_headerOctet_cc, BitVec.toNat_ofNat]
  omega

/-- The extension flag that is read. -/
theorem isExtended_ofBlock
    (hblock : block = fixedHeader (headerOctet padded (BitVec.ofNat 4 csrcs.length)
        (hdrext.length > 0)) (secondOctet pt mark) seq pts ssrc
      ++ (csrcOctets csrcs ++ (hdrext ++ (data ++ pad)))) :
    (RTPPacket.ofBlock block).isExtended = decide (hdrext ≠ []) := by
  have hflag : headerField block 0 4 1 = BitVec.ofBool (decide (hdrext.length > 0)) :=
    (headerField_first hblock 4 1).trans (bitField_headerOctet_extension padded _ _)
  show decide (headerField block 0 4 1 = 1) = _
  rw [hflag]
  cases hdrext with
  | nil => rfl
  | cons x hdrext => rfl

/-- The size of the extension that is read. -/
theorem getHdrExtSize_ofBlock (hcsrcs : csrcs.length ≤ 15) (hext : WellFormedExtension hdrext)
    (hblock : block = fixedHeader (headerOctet padded (BitVec.ofNat 4 csrcs.length)
        (hdrext.length > 0)) (secondOctet pt mark) seq pts ssrc
      ++ (csrcOctets csrcs ++ (hdrext ++ (data ++ pad)))) :
    (RTPPacket.ofBlock block).getHdrExtSize = hdrext.length - 4 := by
  rw [getHdrExtSize, isExtended_ofBlock hblock]
  show (if _ then 4 * ofBigEndian (slice block (12 + 4 * (headerField block 0 0 4).toNat + 2) 2)
    else 0) = _
  rw [csrcCount_ofBlock hcsrcs hblock]
  rcases hext with rfl | hlen
  · rfl
  · rw [if_pos (decide_eq_true (List.ne_nil_of_length_pos (by omega))),
      slice_hdrext hblock (by omega)]
    omega

/-- **What the constructor reads** of a packet with a valid payload type. -/
theorem ofBlock_of_valid (hpt : invalidPayloadType pt = false)
    (hblock : block = fixedHeader (headerOctet padded (BitVec.ofNat 4 csrcs.length)
        (hdrext.length > 0)) (secondOctet pt mark) seq pts ssrc
      ++ (csrcOctets csrcs ++ (hdrext ++ (data ++ pad)))) :
    ofBlock block = { RTPPacket.ofBlock block with
      cachedTimestamp := pts, cachedSeqNum := seq, cachedSSRC := ssrc, headerValid := true } := by
  have hseq : slice block 2 2 = bigEndian 2 seq.toNat := by
    rw [hblock]
    rfl
  have hpts : slice block 4 4 = bigEndian 4 pts.toNat := by
    rw [hblock]
    rfl
  have hssrc : slice block 8 4 = bigEndian 4 ssrc.toNat := by
    rw [hblock]
    rfl
  have hvalid : ¬ ((RTPPacket.ofBlock block).getProtocolVersion ≠ ccrtpVersion ∨
      invalidPayloadType (RTPPacket.ofBlock block).getPayloadType = true) := by
    have hv : (RTPPacket.ofBlock block).getProtocolVersion = ccrtpVersion :=
      (headerField_first hblock 6 2).trans (bitField_headerOctet_version padded _ _)
    have hp : (RTPPacket.ofBlock block).getPayloadType = pt :=
      (headerField_second hblock 0 7).trans (bitField_secondOctet_payload pt mark)
    rw [hv, hp, hpt]
    decide
  rw [ofBlock, ofMemory, ← RTPPacket.ofBlock, if_neg hvalid, hseq, hpts, hssrc,
    ofBigEndian_bigEndian _ _ seq.isLt, ofBigEndian_bigEndian _ _ pts.isLt,
    ofBigEndian_bigEndian _ _ ssrc.isLt]
  simp only [BitVec.ofNat_toNat, BitVec.setWidth_eq]

/-- **Parsing reads back what the packet was built from.** -/
theorem holds_ofBlock (hcsrcs : csrcs.length ≤ 15) (hext : WellFormedExtension hdrext)
    (hpad : IsPadding padded pad) (hpt : invalidPayloadType pt = false)
    (hblock : block = fixedHeader (headerOctet padded (BitVec.ofNat 4 csrcs.length)
        (hdrext.length > 0)) (secondOctet pt mark) seq pts ssrc
      ++ (csrcOctets csrcs ++ (hdrext ++ (data ++ pad)))) (hlt : block.length < 2 ^ 32) :
    (ofBlock block).Holds csrcs hdrext data pt seq pts ssrc mark ∧
      (ofBlock block).toRTPPacket.AddsUp ∧ (ofBlock block).total.toNat = block.length := by
  obtain ⟨hhdr, hpayload, hpadding, htotal⟩ := sizes_ofBlock hcsrcs hext hpad hblock hlt
  have hcc := csrcCount_ofBlock hcsrcs hblock
  have hextended := isExtended_ofBlock hblock
  have hextSize := getHdrExtSize_ofBlock hcsrcs hext hblock
  have hcsrcs' : slice block 12 (4 * csrcs.length) = csrcOctets csrcs := by
    rw [hblock, ← List.append_assoc]
    exact slice_append_mid _ _ _ (length_fixedHeader ..).symm (length_csrcOctets csrcs).symm
  have hdata : slice block (12 + 4 * csrcs.length + hdrext.length) data.length = data := by
    rw [hblock, ← List.append_assoc, ← List.append_assoc, ← List.append_assoc]
    refine slice_append_mid _ _ _ ?_ rfl
    rw [List.length_append, List.length_append, length_fixedHeader, length_csrcOctets]
  rw [ofBlock_of_valid hpt hblock]
  refine ⟨⟨rfl, ?_, hpayload, hcc, ?_, hextended, ?_, hextSize, ?_, rfl, rfl, rfl, ?_, ?_⟩, ?_,
    htotal⟩
  · show slice block (RTPPacket.ofBlock block).hdrSize.toNat
      (RTPPacket.ofBlock block).payloadSize.toNat = data
    rw [hhdr, hpayload]
    exact hdata
  · show slice block 12 (4 * (headerField block 0 0 4).toNat) = _
    rw [hcc]
    exact hcsrcs'
  · intro hne
    show (if (RTPPacket.ofBlock block).isExtended then
      slice block (12 + 4 * (headerField block 0 0 4).toNat) 2 else [0, 0]) = _
    have hlen : 4 ≤ hdrext.length := by
      rcases hext with h | h
      · exact absurd h hne
      · omega
    rw [hextended, if_pos (decide_eq_true hne), hcc]
    exact slice_hdrext hblock (i := 0) (by omega)
  · show (if (RTPPacket.ofBlock block).isExtended then
      slice block (12 + 4 * (headerField block 0 0 4).toNat + 4)
        (RTPPacket.ofBlock block).getHdrExtSize else []) = _
    rw [hextended, hextSize, hcc]
    rcases hext with rfl | hlen
    · rfl
    · rw [if_pos (decide_eq_true (List.ne_nil_of_length_pos (by omega))),
        slice_hdrext hblock (by omega), slice, List.take_of_length_le (by rw [List.length_drop])]
  · exact (headerField_second hblock 0 7).trans (bitField_secondOctet_payload pt mark)
  · show decide (headerField block 1 7 1 = 1) = mark
    rw [headerField_second hblock, bitField_secondOctet_marker]
    cases mark <;> rfl
  · have hlen := congrArg List.length hblock
    simp only [List.length_append, length_fixedHeader, length_csrcOctets] at hlen
    show (RTPPacket.ofBlock block).hdrSize.toNat + (RTPPacket.ofBlock block).payloadSize.toNat
      + (RTPPacket.ofBlock block).paddingSize = (RTPPacket.ofBlock block).total.toNat
    rw [hhdr, hpayload, hpadding, htotal]
    omega

end Parsing

end IncomingRTPPkt

open OutgoingRTPPkt IncomingRTPPkt

/-- The payload types other than 72 and 73 pass the header check. -/
theorem invalidPayloadType_eq_false {pt : BitVec 7} (h : pt ≠ 72 ∧ pt ≠ 73) :
    invalidPayloadType pt = false := by
  have hall : ∀ pt : BitVec 7, pt ≠ 72 ∧ pt ≠ 73 → invalidPayloadType pt = false := by decide
  exact hall pt h

theorem isPadding_padding (paddinglen : UInt8) (n : ℕ) :
    IsPadding (paddinglen ≠ 0) (padding paddinglen n) := by
  rw [IsPadding, padding]
  by_cases h : paddinglen = 0
  · rw [if_neg (by rw [decide_eq_true_iff]; exact not_not.mpr h), if_pos h]
  · obtain ⟨hpos, hle⟩ := paddingOctets_bounds h n
    rw [if_pos (decide_eq_true h), if_neg h]
    exact ⟨_, hpos, hle, rfl⟩

/-- The padding reaches a multiple of the modulus. -/
theorem dvd_add_paddingOctets {paddinglen : UInt8} (h : paddinglen ≠ 0) (n : ℕ) :
    paddinglen.toNat ∣ n + paddingOctets paddinglen n := by
  have hpos : 0 < paddinglen.toNat := by
    rcases Nat.eq_zero_or_pos paddinglen.toNat with h0 | h0
    · exact absurd (UInt8.toNat_inj.mp h0) h
    · exact h0
  have hmod := Nat.mod_lt n hpos
  have hdiv := Nat.div_add_mod n paddinglen.toNat
  rw [paddingOctets, if_neg h]
  refine ⟨n / paddinglen.toNat + 1, ?_⟩
  rw [Nat.mul_add, Nat.mul_one]
  omega

/-- The octets of a finished packet. -/
theorem fillHeader_withExtension (csrcs : List (BitVec 32)) (hdrext data : Octets)
    (paddinglen : UInt8) {n : ℕ} (hn : n = 12 + 4 * csrcs.length + hdrext.length + data.length)
    (hlt : n + paddingOctets paddinglen n < 2 ^ 32) (pt : BitVec 7) (seq : BitVec 16)
    (pts ssrc : BitVec 32) (mark : Bool) :
    let p := (withExtension csrcs hdrext data paddinglen none).fillHeader pt seq pts ssrc mark
    p.rawPacket = fixedHeader (headerOctet (paddinglen ≠ 0) (BitVec.ofNat 4 csrcs.length)
        (hdrext.length > 0)) (secondOctet pt mark) seq pts ssrc
      ++ (csrcOctets csrcs ++ (hdrext ++ (data ++ padding paddinglen n))) ∧
      p.buffer = p.rawPacket ∧ p.total.toNat = n + paddingOctets paddinglen n ∧
      p.hdrSize.toNat = 12 + 4 * csrcs.length + hdrext.length ∧
      p.payloadSize.toNat = data.length := by
  rw [withExtension_eq csrcs hdrext data paddinglen none hn rfl hlt]
  rw [fillHeader_eq _ rfl]
  have htotal : (BitVec.ofNat 32 (n + paddingOctets paddinglen n)).toNat
      = n + paddingOctets paddinglen n := Nat.mod_eq_of_lt hlt
  have hbuffer : ∀ h : Octets, h ++ (csrcOctets csrcs ++ hdrext ++ data ++ padding paddinglen n
      ++ List.replicate (srtpOctets none) 0)
      = h ++ (csrcOctets csrcs ++ (hdrext ++ (data ++ padding paddinglen n))) := by
    intro h
    show h ++ (_ ++ []) = _
    rw [List.append_nil]
    simp only [List.append_assoc]
  have hall : ∀ h : Octets, h.length = 12 →
      (h ++ (csrcOctets csrcs ++ (hdrext ++ (data ++ padding paddinglen n)))).take
        (n + paddingOctets paddinglen n)
      = h ++ (csrcOctets csrcs ++ (hdrext ++ (data ++ padding paddinglen n))) := by
    intro h hh
    refine List.take_of_length_le ?_
    simp only [List.length_append, length_csrcOctets, length_padding]
    omega
  dsimp only [rawPacket]
  rw [hbuffer, htotal, hall _ (length_fixedHeader ..)]
  refine ⟨rfl, rfl, rfl, ?_, ?_⟩
  · rw [BitVec.toNat_ofNat]
    omega
  · rw [BitVec.toNat_ofNat]
    omega

/-- **RTP packets survive building and parsing.**  For at most fifteen contributing sources, a
header extension block that is empty or has a length word that matches its size, every payload,
padding modulus, payload type other than 72 and 73, sequence number, timestamp, SSRC and marker,
with a total size below `2 ^ 32`: whichever constructor builds the packet, parsing its octets
gives all of this back; header, payload and padding add up to the total size, which is a
multiple of the modulus. -/
theorem rtp_codec_round_trip {csrcs : List (BitVec 32)} (hcsrcs : csrcs.length ≤ 15)
    {hdrext data : Octets} (hext : WellFormedExtension hdrext) {paddinglen : UInt8} {pt : BitVec 7}
    (hpt : pt ≠ 72 ∧ pt ≠ 73) (seq : BitVec 16) (pts ssrc : BitVec 32) (mark : Bool)
    {p : OutgoingRTPPkt} (hp : Builds csrcs data paddinglen none hdrext p) {n : ℕ}
    (hn : n = 12 + 4 * csrcs.length + hdrext.length + data.length)
    (hlt : n + paddingOctets paddinglen n < 2 ^ 32) :
    (IncomingRTPPkt.ofBlock (p.fillHeader pt seq pts ssrc mark).rawPacket).Holds csrcs
      hdrext data pt
        seq pts ssrc mark ∧
      (IncomingRTPPkt.ofBlock (p.fillHeader pt seq pts ssrc mark).rawPacket).toRTPPacket.AddsUp ∧
      (IncomingRTPPkt.ofBlock (p.fillHeader pt seq pts ssrc mark).rawPacket).total
        = (p.fillHeader pt seq pts ssrc mark).total ∧
      (p.fillHeader pt seq pts ssrc mark).AddsUp ∧
      (p.fillHeader pt seq pts ssrc mark).total.toNat = n + paddingOctets paddinglen n ∧
      (paddinglen ≠ 0 → paddinglen.toNat ∣ (p.fillHeader pt seq pts ssrc mark).total.toNat) := by
  rw [hp.eq_withExtension hn hlt]
  obtain ⟨hraw, hbuffer, htotal, hhdr, hpayload⟩ := fillHeader_withExtension csrcs hdrext data
    paddinglen hn hlt pt seq pts ssrc mark
  set q := (withExtension csrcs hdrext data paddinglen none).fillHeader pt seq pts ssrc mark
  have hlen : q.rawPacket.length = n + paddingOctets paddinglen n := by
    rw [hraw]
    simp only [List.length_append, length_fixedHeader, length_csrcOctets, length_padding]
    omega
  have hlt' : q.rawPacket.length < 2 ^ 32 := hlen.symm ▸ hlt
  have hpad := isPadding_padding paddinglen n
  obtain ⟨hholds, hadds, hsame⟩ := holds_ofBlock hcsrcs hext hpad (invalidPayloadType_eq_false hpt)
    hraw hlt'
  obtain ⟨-, -, hpadding, -⟩ := sizes_ofBlock hcsrcs hext hpad hraw hlt'
  have htotals : (IncomingRTPPkt.ofBlock q.rawPacket).total = q.total := by
    apply BitVec.eq_of_toNat_eq
    rw [hsame, hlen, htotal]
  refine ⟨hholds, hadds, htotals, ?_, htotal, ?_⟩
  · have hsize : q.paddingSize = paddingOctets paddinglen n := by
      rw [← length_padding, ← hpadding]
      have htotals' : (RTPPacket.ofBlock q.rawPacket).total = q.total := by
        apply BitVec.eq_of_toNat_eq
        rw [htotal, ← hlen]
        exact Nat.mod_eq_of_lt hlt'
      rw [paddingSize, paddingSize, isPadded, isPadded, getPaddingSize, getPaddingSize, htotals',
        hbuffer]
      rfl
    rw [AddsUp, hhdr, hpayload, hsize, htotal, hn]
  · intro hne
    rw [htotal]
    exact dvd_add_paddingOctets hne n

/-- The theorem at a packet with two contributing sources, an extension of one word and
padding. -/
theorem rtp_codec_round_trip_sample :
    (IncomingRTPPkt.ofBlock ((withExtension [5, 6] [0xBE, 0xDE, 0, 1, 1, 2, 3, 4] [9, 8, 7] 8
        none).fillHeader 96 7 160 0x1122 true).rawPacket).Holds [5, 6]
      [0xBE, 0xDE, 0, 1, 1, 2, 3, 4] [9, 8, 7] 96 7 160 0x1122 true ∧
    8 ∣ ((withExtension [5, 6] [0xBE, 0xDE, 0, 1, 1, 2, 3, 4] [9, 8, 7] 8 none).fillHeader 96 7 160
      0x1122 true).total.toNat := by
  have hbuilds : Builds [5, 6] [9, 8, 7] 8 none [0xBE, 0xDE, 0, 1, 1, 2, 3, 4]
      (withExtension [5, 6] [0xBE, 0xDE, 0, 1, 1, 2, 3, 4] [9, 8, 7] 8 none) := .withExtension _
  obtain ⟨hholds, -, -, -, -, hdvd⟩ := rtp_codec_round_trip (by decide) (Or.inr (by decide))
    (show (96 : BitVec 7) ≠ 72 ∧ (96 : BitVec 7) ≠ 73 by decide) 7 160 0x1122 true hbuilds rfl
    (by decide)
  exact ⟨hholds, hdvd (by decide)⟩
