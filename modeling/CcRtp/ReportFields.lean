/-
# The fields of reports, from encoding to reading back

The sender info of an SR packet and the report blocks are written by `dispatchControlPacket` and
`packReportBlocks` (`src/control.cpp`), stored by `setSenderInfo` and `setReceiverInfo`
(`src/members.cpp`), and read through `RTCPSenderInfo` and `RTCPReceiverInfo`
(`src/ccrtp/rtcppkt.h`).  The constructors of these that take a pointer copy from the address of
the pointer, not from where it points.

* `yields_iff_eq` : the accessors tell all the octets of an info;
* `sameReport_dispatchControlPacket` : the sender info stays in the compound as it was written;
* `ofPointer_eq` : what the constructors copy;
* `report_fields_read_back_iff` : when the fields are read back as they were encoded.
-/
import CcRtp.RtcpBlocks
import CcRtp.RtcpSenderReports

/-! ## Words of an octet string -/

/-- `ntohl` of the word at an offset. -/
def networkWord (o : Octets) (pos : ℕ) : BitVec 32 := BitVec.ofNat 32 (ofBigEndian (slice o pos 4))

/-- **A word is read as it was written**, and only then. -/
theorem networkWord_eq_iff {o : Octets} {pos : ℕ} (h : pos + 4 ≤ o.length) (x : BitVec 32) :
    networkWord o pos = x ↔ slice o pos 4 = bigEndian 4 x.toNat := by
  have hlength := length_slice h
  have hlt := ofBigEndian_lt (slice o pos 4)
  rw [hlength] at hlt
  rw [← ofBigEndian_eq_iff hlength x.isLt, networkWord, ← BitVec.toNat_inj, BitVec.toNat_ofNat,
    Nat.mod_eq_of_lt (hlt.trans_eq (by norm_num))]

/-! ## Parts of a word -/

theorem toNat_third (x : BitVec 32) :
    ((x &&& 0xFF0000) >>> 16).toNat = x.toNat / 2 ^ 16 % 2 ^ 8 := by
  rw [BitVec.ushiftRight_and_distrib, BitVec.toNat_and, BitVec.toNat_ushiftRight,
    Nat.shiftRight_eq_div_pow]
  exact Nat.and_two_pow_sub_one_eq_mod (x.toNat / 2 ^ 16) 8

/-- A word is put together from its halves. -/
theorem halves_append (x : BitVec 32) :
    ((x &&& 0xFFFF0000) >>> 16).setWidth 16 ++ (x &&& 0xFFFF).setWidth 16 = x := by
  have hhigh := toNat_high x
  have hlow := toNat_low x
  refine BitVec.eq_of_toNat_eq ?_
  rw [BitVec.toNat_append, BitVec.toNat_setWidth, BitVec.toNat_setWidth, hhigh, hlow,
    Nat.shiftLeft_eq, ← Nat.shiftLeft_eq, ← Nat.shiftLeft_add_eq_or_of_lt (Nat.mod_lt _ (by omega)),
    Nat.shiftLeft_eq]
  omega

/-! ## Sender info -/

/-- `RTCPSenderInfo`: the octets of a `SenderInfo`. -/
structure RTCPSenderInfo where
  senderInfo : Octets

namespace RTCPSenderInfo

def getNTPTimestampInt (i : RTCPSenderInfo) : BitVec 32 := networkWord i.senderInfo 0

def getNTPTimestampFrac (i : RTCPSenderInfo) : BitVec 32 := networkWord i.senderInfo 4

def getRTPTimestamp (i : RTCPSenderInfo) : BitVec 32 := networkWord i.senderInfo 8

def getPacketCount (i : RTCPSenderInfo) : BitVec 32 := networkWord i.senderInfo 12

def getOctetCount (i : RTCPSenderInfo) : BitVec 32 := networkWord i.senderInfo 16

/-- The accessors give what was encoded. -/
structure Yields (i : RTCPSenderInfo) (s : ControlSender) (stamps : Stamps) : Prop where
  ntpMSW : i.getNTPTimestampInt = stamps.ntpMSW
  ntpLSW : i.getNTPTimestampFrac = stamps.ntpLSW
  rtpTimestamp : i.getRTPTimestamp = stamps.rtpTimestamp
  packetCount : i.getPacketCount = s.sendPacketCount
  octetCount : i.getOctetCount = s.sendOctetCount

/-- **The accessors tell all octets of the info.** -/
theorem yields_iff_eq {i : RTCPSenderInfo} (h : i.senderInfo.length = 20) (s : ControlSender)
    (stamps : Stamps) : i.Yields s stamps ↔ i.senderInfo = s.senderInfo stamps := by
  obtain ⟨o⟩ := i
  replace h : o.length = 20 := h
  have hwords : o = slice o 0 4 ++ slice o 4 4 ++ slice o 8 4 ++ slice o 12 4 ++ slice o 16 4 := by
    rw [slice_append_slice o 0, slice_append_slice o 0, slice_append_slice o 0,
      slice_append_slice o 0, slice, List.drop_zero, List.take_of_length_le h.le]
  have hlength : ∀ p (x : BitVec 32), p + 4 ≤ 20 →
      (slice o p 4).length = (bigEndian 4 x.toNat).length := by
    intro p x hp
    rw [length_slice (h ▸ hp), length_bigEndian]
  have hyields : Yields ⟨o⟩ s stamps ↔ slice o 0 4 = bigEndian 4 stamps.ntpMSW.toNat ∧
      slice o 4 4 = bigEndian 4 stamps.ntpLSW.toNat ∧
      slice o 8 4 = bigEndian 4 stamps.rtpTimestamp.toNat ∧
      slice o 12 4 = bigEndian 4 s.sendPacketCount.toNat ∧
      slice o 16 4 = bigEndian 4 s.sendOctetCount.toNat := by
    rw [← networkWord_eq_iff (by omega), ← networkWord_eq_iff (by omega),
      ← networkWord_eq_iff (by omega), ← networkWord_eq_iff (by omega),
      ← networkWord_eq_iff (by omega)]
    exact ⟨fun h => ⟨h.1, h.2, h.3, h.4, h.5⟩, fun h => ⟨h.1, h.2.1, h.2.2.1, h.2.2.2.1, h.2.2.2.2⟩⟩
  rw [hyields]
  show _ ↔ o = s.senderInfo stamps
  nth_rewrite 6 [hwords]
  rw [ControlSender.senderInfo,
    List.append_eq_append_iff_of_size_eq_right (hlength 16 _ (by omega)),
    List.append_eq_append_iff_of_size_eq_right (hlength 12 _ (by omega)),
    List.append_eq_append_iff_of_size_eq_right (hlength 8 _ (by omega)),
    List.append_eq_append_iff_of_size_eq_right (hlength 4 _ (by omega)), and_assoc, and_assoc,
    and_assoc]

end RTCPSenderInfo

/-! ## Report blocks -/

/-- `RTCPReceiverInfo`: the octets of a `ReceiverInfo`. -/
structure RTCPReceiverInfo where
  receiverInfo : Octets

/-- The `rinfo` of a report block. -/
def ReportedSource.rinfo (r : ReportedSource) (now : Timeval) : Octets :=
  [r.fractionLost] ++ bigEndian 1 ((r.cumulativePacketLost &&& 0xFF0000) >>> 16).toNat
    ++ bigEndian 2 (r.cumulativePacketLost &&& 0xFFFF).toNat
    ++ bigEndian 4 r.extendedMaxSeqNum.toNat ++ bigEndian 4 r.jitter.toNat
    ++ bigEndian 4 r.lsr.toNat ++ bigEndian 4 (r.dlsr now).toNat

/-- A block is the SSRC and the `rinfo`. -/
theorem ReportedSource.block_eq (r : ReportedSource) (now : Timeval) :
    r.block now = bigEndian 4 r.id.toNat ++ r.rinfo now := by
  simp only [ReportedSource.block, ReportedSource.rinfo, List.append_assoc]

namespace RTCPReceiverInfo

def getFractionLost (i : RTCPReceiverInfo) : UInt8 := i.receiverInfo.getD 0 0

/-- The two lower octets, and the one above. -/
def getCumulativePacketLost (i : RTCPReceiverInfo) : BitVec 32 :=
  BitVec.ofNat 32 (ofBigEndian (slice i.receiverInfo 2 2))
    + BitVec.ofNat 32 (i.receiverInfo.getD 1 0).toNat <<< 16

def getExtendedSeqNum (i : RTCPReceiverInfo) : BitVec 32 := networkWord i.receiverInfo 4

def getJitter (i : RTCPReceiverInfo) : BitVec 32 := networkWord i.receiverInfo 8

def getLastSRNTPTimestampInt (i : RTCPReceiverInfo) : BitVec 16 :=
  ((networkWord i.receiverInfo 12 &&& 0xFFFF0000) >>> 16).setWidth 16

def getLastSRNTPTimestampFrac (i : RTCPReceiverInfo) : BitVec 16 :=
  (networkWord i.receiverInfo 12 &&& 0xFFFF).setWidth 16

def getDelayLastSR (i : RTCPReceiverInfo) : BitVec 32 := networkWord i.receiverInfo 16

/-- The accessors give what was encoded, of the cumulative loss the lower 24 bits. -/
structure Yields (i : RTCPReceiverInfo) (r : ReportedSource) (now : Timeval) : Prop where
  fractionLost : i.getFractionLost = r.fractionLost
  cumulative : i.getCumulativePacketLost.toNat = r.cumulativePacketLost.toNat % 2 ^ 24
  extendedSeqNum : i.getExtendedSeqNum = r.extendedMaxSeqNum
  jitter : i.getJitter = r.jitter
  lsr : i.getLastSRNTPTimestampInt ++ i.getLastSRNTPTimestampFrac = r.lsr
  dlsr : i.getDelayLastSR = r.dlsr now

/-- The cumulative loss, as a number. -/
theorem toNat_getCumulativePacketLost {o : Octets} (h : o.length = 20) :
    (getCumulativePacketLost ⟨o⟩).toNat
      = ofBigEndian (slice o 1 1) * 2 ^ 16 + ofBigEndian (slice o 2 2) := by
  have hhigh : ofBigEndian (slice o 1 1) = (o.getD 1 0).toNat := by
    obtain ⟨a, b, o, rfl⟩ : ∃ a b o', o = a :: b :: o' := by
      match o, h with
      | a :: b :: o, _ => exact ⟨a, b, o, rfl⟩
    exact Nat.zero_add _
  have hoctet := (o.getD 1 0).toNat_lt
  have hlow := ofBigEndian_lt (slice o 2 2)
  rw [length_slice (by omega)] at hlow
  rw [getCumulativePacketLost, BitVec.toNat_add, BitVec.toNat_shiftLeft, BitVec.toNat_ofNat,
    BitVec.toNat_ofNat, Nat.shiftLeft_eq, hhigh]
  dsimp only
  omega

/-- **The accessors tell all octets of the info.** -/
theorem yields_iff_eq {i : RTCPReceiverInfo} (h : i.receiverInfo.length = 20) (r : ReportedSource)
    (now : Timeval) : i.Yields r now ↔ i.receiverInfo = r.rinfo now := by
  obtain ⟨o⟩ := i
  replace h : o.length = 20 := h
  have hparts : o = slice o 0 1 ++ slice o 1 1 ++ slice o 2 2 ++ slice o 4 4 ++ slice o 8 4
      ++ slice o 12 4 ++ slice o 16 4 := by
    rw [slice_append_slice o 0, slice_append_slice o 0, slice_append_slice o 0,
      slice_append_slice o 0, slice_append_slice o 0, slice_append_slice o 0, slice, List.drop_zero,
      List.take_of_length_le h.le]
  have hlength : ∀ p n y, p + n ≤ 20 → (slice o p n).length = (bigEndian n y).length := by
    intro p n y hp
    rw [length_slice (h ▸ hp), length_bigEndian]
  have hfraction : getFractionLost ⟨o⟩ = r.fractionLost ↔ slice o 0 1 = [r.fractionLost] := by
    obtain ⟨a, o, rfl⟩ := List.exists_cons_of_length_pos (show 0 < o.length by omega)
    rw [slice, List.drop_zero, List.take_succ_cons, List.take_zero, List.cons.injEq,
      and_iff_left rfl]
    rfl
  have hcumulative : (getCumulativePacketLost ⟨o⟩).toNat = r.cumulativePacketLost.toNat % 2 ^ 24 ↔
      slice o 1 1 = bigEndian 1 ((r.cumulativePacketLost &&& 0xFF0000) >>> 16).toNat ∧
        slice o 2 2 = bigEndian 2 (r.cumulativePacketLost &&& 0xFFFF).toNat := by
    have hhigh := toNat_third r.cumulativePacketLost
    have hlow := toNat_low r.cumulativePacketLost
    have ha := ofBigEndian_lt (slice o 1 1)
    have hb := ofBigEndian_lt (slice o 2 2)
    rw [length_slice (by omega)] at ha hb
    rw [toNat_getCumulativePacketLost h, ← ofBigEndian_eq_iff (length_slice (by omega)) (by omega),
      ← ofBigEndian_eq_iff (length_slice (by omega)) (by omega), hhigh, hlow]
    omega
  have hlsr : getLastSRNTPTimestampInt ⟨o⟩ ++ getLastSRNTPTimestampFrac ⟨o⟩ = networkWord o 12 :=
    halves_append _
  have hyields : Yields ⟨o⟩ r now ↔
      ((((((slice o 0 1 = [r.fractionLost] ∧
        slice o 1 1 = bigEndian 1 ((r.cumulativePacketLost &&& 0xFF0000) >>> 16).toNat) ∧
        slice o 2 2 = bigEndian 2 (r.cumulativePacketLost &&& 0xFFFF).toNat) ∧
        slice o 4 4 = bigEndian 4 r.extendedMaxSeqNum.toNat) ∧
        slice o 8 4 = bigEndian 4 r.jitter.toNat) ∧
        slice o 12 4 = bigEndian 4 r.lsr.toNat) ∧
        slice o 16 4 = bigEndian 4 (r.dlsr now).toNat) := by
    rw [← networkWord_eq_iff (by omega), ← networkWord_eq_iff (by omega),
      ← networkWord_eq_iff (by omega), ← networkWord_eq_iff (by omega),
      and_assoc (b := _ = bigEndian 1 _), ← hcumulative, ← hfraction, ← hlsr]
    exact ⟨fun h => ⟨⟨⟨⟨⟨h.1, h.2⟩, h.3⟩, h.4⟩, h.5⟩, h.6⟩,
      fun h => ⟨h.1.1.1.1.1, h.1.1.1.1.2, h.1.1.1.2, h.1.1.2, h.1.2, h.2⟩⟩
  rw [hyields]
  show _ ↔ o = r.rinfo now
  nth_rewrite 8 [hparts]
  rw [ReportedSource.rinfo, List.append_eq_append_iff_of_size_eq_right (hlength 16 4 _ (by omega)),
    List.append_eq_append_iff_of_size_eq_right (hlength 12 4 _ (by omega)),
    List.append_eq_append_iff_of_size_eq_right (hlength 8 4 _ (by omega)),
    List.append_eq_append_iff_of_size_eq_right (hlength 4 4 _ (by omega)),
    List.append_eq_append_iff_of_size_eq_right (hlength 2 2 _ (by omega)),
    List.append_eq_append_iff_of_size_eq_right (hlength 1 1 _ (by omega))]

end RTCPReceiverInfo

/-! ## The sender info in the compound -/

/-- The octets of a sender report before its blocks are the same, but for the block count and the
length, which are filled in later. -/
def SameReport (buf buf' : Memory) : Prop := ∀ i < 28, i = 1 ∨ 4 ≤ i → buf' i = buf i

namespace SameReport

variable {buf buf' buf'' : Memory}

theorem trans (h₁ : SameReport buf buf') (h₂ : SameReport buf' buf'') : SameReport buf buf'' :=
  fun i hi hfield => (h₂ i hi hfield).trans (h₁ i hi hfield)

theorem of_sameBelow {q : ℕ} (h : Memory.SameBelow q buf buf') (hq : 28 ≤ q) :
    SameReport buf buf' :=
  fun i hi _ => h i (Nat.lt_of_lt_of_le hi hq)

/-- The block count and the length of the first report, or of one behind it. -/
theorem of_filledIn (buf : Memory) {pkt : ℕ} (hpkt : pkt = 0 ∨ 28 ≤ pkt) (k : BitVec 5)
    (words : ℕ) :
    SameReport buf (RTCPPacket.setLength (RTCPPacket.setBlockCount buf pkt k) pkt words) := by
  intro i hi hfield
  rw [RTCPPacket.setLength, RTCPPacket.setBlockCount]
  rcases hpkt with rfl | hpkt
  · rcases hfield with rfl | hfield
    · rw [Memory.put_of_lt _ _ (by omega), Memory.put_of_ge _ _ (by rw [List.length_singleton])]
    · rw [Memory.put_of_ge _ _ (by rw [length_bigEndian]; omega),
        Memory.put_of_ge _ _ (by rw [List.length_singleton]; omega)]
  · rw [Memory.put_of_lt _ _ (by omega), Memory.put_of_lt _ _ (by omega)]

theorem octets (h : SameReport buf buf') {p n : ℕ} (hp : 4 ≤ p) (hn : p + n ≤ 28) :
    buf'.octets p n = buf.octets p n :=
  Memory.octets_congr (fun i hi => h (p + i) (by omega) (Or.inr (by omega)))

end SameReport

/-- What is written on is behind the sender report. -/
structure WritesBehind (buf : Memory) (d : ReportDraft) : Prop where
  same : SameReport buf d.buf
  pkt : d.pkt = 0 ∨ 28 ≤ d.pkt
  reports : 28 ≤ d.reports
  len : 28 ≤ d.len ∧ d.len < 2 ^ 16
  whole : d.len % 4 = 0

namespace ControlSender

open RTCPPacket

variable {s : ControlSender} {clock : ℕ → Timeval} {stamps : Stamps} {stale buf : Memory}
  {available : ℕ} {d : ReportDraft}

/-- The blocks of a report in a compound that has begun with a sender report. -/
theorem packReportBlocks_behind (h : WritesBehind buf d)
    (hroom : d.len = 28 ∨ d.len < available ∧ available < 2 ^ 16) (clock : ℕ → Timeval) :
    Memory.SameBelow 28 d.buf
        (packReportBlocks clock d.reports available d.sources 0 d.len d.buf).buf ∧
      ∃ k, (packReportBlocks clock d.reports available d.sources 0 d.len d.buf).blocks = k ∧
        (packReportBlocks clock d.reports available d.sources 0 d.len d.buf).len = d.len + 24 * k ∧
        k ≤ 31 ∧ (d.len = 28 ∨ k = 0 ∨ d.len + 24 * k < available) := by
  obtain ⟨hlow, hmax⟩ := h.len
  have hreports := h.reports
  rcases hroom with hfirst | ⟨hlt, havailable⟩
  · obtain ⟨k, hpacked⟩ := packed clock d.reports available d.sources 0 d.len d.buf (by omega)
    exact ⟨hpacked.below.mono (by omega), k, hpacked.blocks.trans (Nat.zero_add k), hpacked.length,
      hpacked.le_thirtyOne, Or.inl hfirst⟩
  · obtain ⟨hsame, k, hblocks, hcount, hend, hbound⟩ := packReportBlocks_spec clock
      (show 24 ≤ available ∧ available < 2 ^ 16 by omega) hreports d.sources 0 d.len d.buf
      (by omega) hmax
    exact ⟨hsame, k, hblocks.trans (Nat.zero_add k), hend, by omega, Or.inr hbound⟩

/-- **A round of the loop** writes behind the sender report. -/
theorem writesBehind_packReport (h : WritesBehind buf d)
    (hroom : d.len = 28 ∨ d.len < available ∧ available < 2 ^ 16) (clock : ℕ → Timeval) :
    WritesBehind buf (s.packReport clock available d) := by
  obtain ⟨hlow, hmax⟩ := h.len
  have hwhole := h.whole
  obtain ⟨hsame, k, hblocks, hend, hcount, hbound⟩ := packReportBlocks_behind h hroom clock
  set r := packReportBlocks clock d.reports available d.sources 0 d.len d.buf with hr
  have hfilled := (h.same.trans (.of_sameBelow hsame le_rfl)).trans
    (.of_filledIn r.buf h.pkt (BitVec.ofNat 5 r.blocks) ((r.len - d.prevlen) / 4 - 1))
  rw [packReport, ← hr]
  split_ifs with hanother
  · have hnext : r.len + 8 < 2 ^ 16 := by
      obtain ⟨hfull, hmore⟩ := hanother
      rw [sizeSub] at hmore
      omega
    have hmod : (r.len + 8) % 2 ^ 16 = r.len + 8 := Nat.mod_eq_of_lt hnext
    refine ⟨hfilled.trans (.of_sameBelow (sameBelow_setHeader _ le_rfl _ _) ?_),
      Or.inr ?_, ?_, ?_, ?_⟩
    · omega
    · show 28 ≤ r.len
      omega
    · show 28 ≤ r.len + 8
      omega
    · show 28 ≤ (r.len + 8) % 2 ^ 16 ∧ (r.len + 8) % 2 ^ 16 < 2 ^ 16
      omega
    · show (r.len + 8) % 2 ^ 16 % 4 = 0
      omega
  · refine ⟨hfilled, h.pkt, h.reports, ?_, ?_⟩
    · show 28 ≤ r.len ∧ r.len < 2 ^ 16
      omega
    · show r.len % 4 = 0
      omega

theorem length_senderInfo (s : ControlSender) (stamps : Stamps) :
    (s.senderInfo stamps).length = 20 := by
  simp only [senderInfo, List.length_append, length_bigEndian]

/-- **What a sender report begins with**: the header and the sender info. -/
theorem beginReports_of_sent (hsent : s.sent = true) (stamps : Stamps) (stale : Memory) :
    type (s.beginReports stamps stale).buf 0 = tSR ∧
      getSSRC (s.beginReports stamps stale).buf 0 = s.localSSRC ∧
      (s.beginReports stamps stale).buf.octets 8 20 = s.senderInfo stamps := by
  have hbuf : (s.beginReports stamps stale).buf
      = (setHeader stale 0 tSR s.localSSRC).put 8 (s.senderInfo stamps) := by
    rw [beginReports, if_pos hsent]
  have hbelow := Memory.sameBelow_put (setHeader stale 0 tSR s.localSSRC) (s.senderInfo stamps)
    (le_refl 8)
  rw [hbuf]
  refine ⟨?_, ?_, ?_⟩
  · exact (hbelow 1 (by omega)).trans (begun_setHeader stale 0 tSR s.localSSRC).type
  · have hread := Memory.octets_put_self (setType (setPadding (setVersion stale 0 2) 0 0) 0 tSR) 4
      (bigEndian 4 s.localSSRC.toNat)
    rw [length_bigEndian] at hread
    rw [getSSRC, hbelow.octets (by omega)]
    exact (congrArg (fun l => BitVec.ofNat 32 (ofBigEndian l)) hread).trans
      (by rw [ofBigEndian_bigEndian 4 _ s.localSSRC.isLt, BitVec.ofNat_toNat, BitVec.setWidth_eq])
  · have hread := Memory.octets_put_self (setHeader stale 0 tSR s.localSSRC) 8 (s.senderInfo stamps)
    rwa [length_senderInfo] at hread

/-- **The sender info stays in the compound as it was written**: with every path MTU the report
blocks and further reports stand behind it. -/
theorem sameReport_packReports (hsent : s.sent = true)
    (h : s.packReports clock stamps stale = some d) :
    WritesBehind (s.beginReports stamps stale).buf d := by
  obtain ⟨hlen, hreports, -, hpkt, -⟩ := s.beginReports_spec stamps stale
  rw [firstLength, if_pos hsent] at hlen hreports
  have hstart : WritesBehind (s.beginReports stamps stale).buf (s.beginReports stamps stale) := by
    refine ⟨fun _ _ _ => rfl, Or.inl hpkt, hreports.ge, ?_, ?_⟩
    · rw [hlen]
      omega
    · rw [hlen]
  refine (whileLoop_invariant (WritesBehind (s.beginReports stamps stale).buf)
    (fun d d' hd hcond hd' => ?_) (2 ^ 16)
    (writesBehind_packReport (s := s) hstart (Or.inl hlen) clock) h).1
  rw [Option.some_inj] at hd'
  subst hd'
  exact writesBehind_packReport hd (Or.inr ⟨(of_decide_eq_true hcond).1, BitVec.isLt _⟩) clock

/-- The source description does not come round to the start of the buffer. -/
def DescriptionFits (s : ControlSender) (c : Compound) : Prop :=
  (s.items QueueRTCPManager.sdesItemTypeCNAME).length ≤ 255 ∧ c.sdes + 526 < 2 ^ 16

instance (s : ControlSender) (c : Compound) : Decidable (s.DescriptionFits c) :=
  inferInstanceAs (Decidable (_ ∧ _))

/-- **The sender report in a compound.** -/
theorem sameReport_dispatchControlPacket {c : Compound} (hsent : s.sent = true)
    (h : s.dispatchControlPacket clock stamps stale = some c) (hfits : s.DescriptionFits c) :
    28 ≤ c.len ∧ type c.buf 0 = tSR ∧ getSSRC c.buf 0 = s.localSSRC ∧
      c.buf.octets 8 20 = s.senderInfo stamps := by
  obtain ⟨d, hd, hc⟩ := Option.map_eq_some_iff.mp h
  have hbehind := sameReport_packReports hsent hd
  obtain ⟨hlow, -⟩ := hbehind.len
  obtain ⟨htype, hssrc, hinfo⟩ := beginReports_of_sent hsent stamps stale
  have hsdes : c.sdes = d.len := by rw [← hc]
  rw [DescriptionFits, hsdes] at hfits
  obtain ⟨hsame, hdescribed, -⟩ := s.packSDES_spec ⟨d.buf, d.len⟩ hfits.1 hbehind.whole hfits.2
  generalize s.packSDES ⟨d.buf, d.len⟩ = e at hc hsame hdescribed
  subst hc
  have hreport := hbehind.same.trans (.of_sameBelow hsame hlow)
  have hlength : d.len + getLength e.buf d.len = e.len := hdescribed.length
  refine ⟨?_, ?_, ?_, ?_⟩
  · show 28 ≤ e.len
    omega
  · exact (hreport 1 (by omega) (Or.inl rfl)).trans htype
  · rw [← hssrc, getSSRC, getSSRC, hreport.octets (by omega) (by omega)]
  · exact (hreport.octets (by omega) (by omega)).trans hinfo

end ControlSender

/-! ## Storing an info, and reading it through a pointer -/

/-- How a pointer is kept in memory: as a number of octets. -/
structure PointerFormat where
  size : ℕ
  octets : ℕ → Octets
  length_octets : ∀ p, (octets p).length = size
  size_le : size ≤ 20

/-- The members of a link that point to what is stored of the last reports, with the memory that
they point into. -/
structure StoredInfos where
  memory : Memory
  senderInfo : Option ℕ
  receiverInfo : Option ℕ

namespace StoredInfos

/-- An info is copied to where the link points; if there is none yet, to `fresh`, which `new`
returns.  The memory afterwards, and where the info is. -/
def storeInfo (memory : Memory) (info : Option ℕ) (fresh : ℕ) (buf : Memory) (src : ℕ) :
    Memory × ℕ :=
  (memory.put (info.getD fresh) (buf.octets src 20), info.getD fresh)

/-- `setSenderInfo(si)` -/
def setSenderInfo (l : StoredInfos) (fresh : ℕ) (buf : Memory) (si : ℕ) : StoredInfos :=
  let r := storeInfo l.memory l.senderInfo fresh buf si
  { l with memory := r.1, senderInfo := some r.2 }

/-- `setReceiverInfo(ri)` -/
def setReceiverInfo (l : StoredInfos) (fresh : ℕ) (buf : Memory) (ri : ℕ) : StoredInfos :=
  let r := storeInfo l.memory l.receiverInfo fresh buf ri
  { l with memory := r.1, receiverInfo := some r.2 }

/-- The sender info of a source is what the link points to. -/
def HoldsSender (l : StoredInfos) (s : ControlSource) : Prop :=
  l.senderInfo.map (fun p => l.memory.octets p 20) = s.senderInfo

/-- What has been stored stands where the pointer points. -/
theorem octets_storeInfo (memory : Memory) (info : Option ℕ) (fresh : ℕ) (buf : Memory) (src : ℕ) :
    (storeInfo memory info fresh buf src).1.octets (storeInfo memory info fresh buf src).2 20
      = buf.octets src 20 := by
  have hread := Memory.octets_put_self memory (info.getD fresh) (buf.octets src 20)
  rwa [Memory.length_octets] at hread

theorem octets_setSenderInfo {l : StoredInfos} {fresh si p : ℕ} {buf : Memory}
    (h : (l.setSenderInfo fresh buf si).senderInfo = some p) :
    (l.setSenderInfo fresh buf si).memory.octets p 20 = buf.octets si 20 := by
  cases h
  exact octets_storeInfo _ _ _ _ _

theorem octets_setReceiverInfo {l : StoredInfos} {fresh ri p : ℕ} {buf : Memory}
    (h : (l.setReceiverInfo fresh buf ri).receiverInfo = some p) :
    (l.setReceiverInfo fresh buf ri).memory.octets p 20 = buf.octets ri 20 := by
  cases h
  exact octets_storeInfo _ _ _ _ _

/-- The link holds what it has stored. -/
theorem holdsSender_setSenderInfo {l : StoredInfos} {fresh si : ℕ} {buf : Memory}
    {s : ControlSource} (h : s.senderInfo = some (buf.octets si 20)) :
    (l.setSenderInfo fresh buf si).HoldsSender s := by
  rw [HoldsSender, h]
  exact congrArg some (octets_storeInfo l.memory l.senderInfo fresh buf si)

end StoredInfos

/-- What the constructors copy that take a pointer: `memcpy` begins at the parameter, which stands
at `frame`. -/
def copyFromParameter (f : PointerFormat) (memory : Memory) (frame p : ℕ) : Octets :=
  (memory.put frame (f.octets p)).octets frame 20

/-- `RTCPSenderInfo(void* si)` -/
def RTCPSenderInfo.ofPointer (f : PointerFormat) (memory : Memory) (frame si : ℕ) :
    RTCPSenderInfo :=
  ⟨copyFromParameter f memory frame si⟩

/-- `RTCPSenderInfo(RTCPCompoundHandler::SenderInfo& si)` -/
def RTCPSenderInfo.ofInfo (memory : Memory) (si : ℕ) : RTCPSenderInfo := ⟨memory.octets si 20⟩

/-- `RTCPReceiverInfo(void* ri)` -/
def RTCPReceiverInfo.ofPointer (f : PointerFormat) (memory : Memory) (frame ri : ℕ) :
    RTCPReceiverInfo :=
  ⟨copyFromParameter f memory frame ri⟩

/-- `RTCPReceiverInfo(RTCPCompoundHandler::ReceiverInfo& si)` -/
def RTCPReceiverInfo.ofInfo (memory : Memory) (ri : ℕ) : RTCPReceiverInfo := ⟨memory.octets ri 20⟩

/-- **What is copied**: the pointer itself, and the octets behind it. -/
theorem ofPointer_eq (f : PointerFormat) (memory : Memory) (frame p : ℕ) :
    copyFromParameter f memory frame p
      = f.octets p ++ memory.octets (frame + f.size) (20 - f.size) := by
  have hsize := f.size_le
  have hlength := f.length_octets p
  have hread := Memory.octets_put_self memory frame (f.octets p)
  rw [hlength] at hread
  rw [copyFromParameter, show 20 = f.size + (20 - f.size) by omega, Memory.octets_add, hread,
    Memory.octets_put_of_ge _ _ (by omega), Nat.add_sub_cancel_left]

theorem length_copyFromParameter (f : PointerFormat) (memory : Memory) (frame p : ℕ) :
    (copyFromParameter f memory frame p).length = 20 :=
  Memory.length_octets _ _ _

/-! ## The round trip -/

section RoundTrip

open RTCPPacket QueueRTCPManager

variable {s : ControlSender} {clock : ℕ → Timeval} {stamps : Stamps} {stale buf : Memory}
  {c : Compound}

/-- **A sender info is taken in as it was written**: behind the compound the link of another
source than the local one holds it. -/
theorem holdsSender_takeInControlPacket {m : QueueRTCPManager} {na : InetAddress} {tp : BitVec 16}
    {rounds : ℕ} {w : Walk} (hsent : s.sent = true)
    (hc : s.dispatchControlPacket clock stamps stale = some c) (hfits : s.DescriptionFits c)
    (hsame : Memory.SameBelow c.len c.buf buf)
    (haccept : RTCPCompoundHandler.checkCompoundRTCPHeader buf c.len = some true)
    (hw : m.takeInControlPacket rounds buf c.len na tp = some w)
    (hlocal : s.localSSRC ≠ m.localSSRC)
    (l : StoredInfos) (fresh : ℕ) :
    (l.setSenderInfo fresh buf 8).HoldsSender (w.manager.source s.localSSRC) := by
  obtain ⟨hlen, htype, hssrc, -⟩ := s.sameReport_dispatchControlPacket hsent hc hfits
  obtain ⟨w₀, -, -, hkept⟩ := m.sent_takeInControlPacket haccept hw
  have hsrc : getSSRC buf 0 = s.localSSRC := by
    rw [← hssrc, getSSRC, getSSRC, hsame.octets (by omega)]
  have hsr : type buf 0 = tSR := (hsame 1 (by omega)).trans htype
  have hx := hkept s.localSSRC
  rw [if_neg (fun hr => hlocal hr.1), if_pos hsrc.symm, if_pos hsr] at hx
  exact StoredInfos.holdsSender_setSenderInfo (Prod.mk.inj hx).1

/-- A sender info that is read from where the pointer points. -/
theorem yields_ofInfo_setSenderInfo (hsent : s.sent = true)
    (hc : s.dispatchControlPacket clock stamps stale = some c) (hfits : s.DescriptionFits c)
    (hsame : Memory.SameBelow c.len c.buf buf) {l : StoredInfos} {fresh si : ℕ}
    (hsi : (l.setSenderInfo fresh buf 8).senderInfo = some si) :
    (RTCPSenderInfo.ofInfo (l.setSenderInfo fresh buf 8).memory si).Yields s stamps := by
  obtain ⟨hlen, -, -, hinfo⟩ := s.sameReport_dispatchControlPacket hsent hc hfits
  have hlength : (RTCPSenderInfo.ofInfo (l.setSenderInfo fresh buf 8).memory si).senderInfo.length
      = 20 := Memory.length_octets _ _ _
  rw [RTCPSenderInfo.yields_iff_eq hlength, ← hinfo, RTCPSenderInfo.ofInfo,
    StoredInfos.octets_setSenderInfo hsi, hsame.octets (by omega)]

/-- **A sender info that is read through the pointer.** -/
theorem yields_ofPointer_iff (f : PointerFormat) (memory : Memory) (frame si : ℕ)
    (s : ControlSender) (stamps : Stamps) :
    (RTCPSenderInfo.ofPointer f memory frame si).Yields s stamps ↔
      f.octets si ++ memory.octets (frame + f.size) (20 - f.size) = s.senderInfo stamps := by
  have hlength : (RTCPSenderInfo.ofPointer f memory frame si).senderInfo.length = 20 :=
    length_copyFromParameter f memory frame si
  rw [RTCPSenderInfo.yields_iff_eq hlength, RTCPSenderInfo.ofPointer, ofPointer_eq]

theorem length_rinfo (r : ReportedSource) (now : Timeval) : (r.rinfo now).length = 20 := by
  simp only [ReportedSource.rinfo, List.length_append, length_bigEndian, List.length_singleton]

/-- A receiver info that is read from where the pointer points. -/
theorem receiverYields_ofInfo_setReceiverInfo {r : ReportedSource} {now : Timeval} {q : ℕ}
    (hblock : buf.octets q 24 = r.block now) {l : StoredInfos} {fresh ri : ℕ}
    (hri : (l.setReceiverInfo fresh buf (q + 4)).receiverInfo = some ri) :
    (RTCPReceiverInfo.ofInfo (l.setReceiverInfo fresh buf (q + 4)).memory ri).Yields r now := by
  have hrinfo : buf.octets (q + 4) 20 = r.rinfo now := by
    rw [show 24 = 4 + 20 from rfl, Memory.octets_add, r.block_eq] at hblock
    exact (List.append_inj' hblock (by rw [Memory.length_octets, length_rinfo])).2
  have hlength : (RTCPReceiverInfo.ofInfo
      (l.setReceiverInfo fresh buf (q + 4)).memory ri).receiverInfo.length = 20 :=
    Memory.length_octets _ _ _
  rw [RTCPReceiverInfo.yields_iff_eq hlength, RTCPReceiverInfo.ofInfo,
    StoredInfos.octets_setReceiverInfo hri, hrinfo]

/-- **A receiver info that is read through the pointer.** -/
theorem receiverYields_ofPointer_iff (f : PointerFormat) (memory : Memory) (frame ri : ℕ)
    (r : ReportedSource) (now : Timeval) :
    (RTCPReceiverInfo.ofPointer f memory frame ri).Yields r now ↔
      f.octets ri ++ memory.octets (frame + f.size) (20 - f.size) = r.rinfo now := by
  have hlength : (RTCPReceiverInfo.ofPointer f memory frame ri).receiverInfo.length = 20 :=
    length_copyFromParameter f memory frame ri
  rw [RTCPReceiverInfo.yields_iff_eq hlength, RTCPReceiverInfo.ofPointer, ofPointer_eq]

end RoundTrip

open RTCPPacket QueueRTCPManager in
/-- **Fields of reports, exactly.**  Whatever the clock and the counters tell, let a compound with
a sender report be taken in, and its sender info be stored.  Where the source description fits, the
link of the source holds what was encoded, and read from there the accessors tell it.  But they
tell it through the pointer, as `end2EndDelayed` reads it, if and only if the octets of the pointer
itself and those behind the parameter happen to be the ones that were encoded.  The same holds of
the receiver info of every report block. -/
theorem report_fields_read_back_iff (f : PointerFormat) (frame : ℕ) :
    (∀ (s : ControlSender) (clock : ℕ → Timeval) (stamps : Stamps) (stale : Memory) (c : Compound),
      s.sent = true → s.dispatchControlPacket clock stamps stale = some c →
      ∀ buf, Memory.SameBelow c.len c.buf buf →
      ∀ (m : QueueRTCPManager) (na : InetAddress) (tp : BitVec 16) (rounds : ℕ) (w : Walk),
        RTCPCompoundHandler.checkCompoundRTCPHeader buf c.len = some true →
        m.takeInControlPacket rounds buf c.len na tp = some w →
      ∀ (l : StoredInfos) (fresh si : ℕ), (l.setSenderInfo fresh buf 8).senderInfo = some si →
        (s.DescriptionFits c →
          (s.localSSRC ≠ m.localSSRC →
            (l.setSenderInfo fresh buf 8).HoldsSender (w.manager.source s.localSSRC)) ∧
          (RTCPSenderInfo.ofInfo (l.setSenderInfo fresh buf 8).memory si).Yields s stamps) ∧
        ((RTCPSenderInfo.ofPointer f (l.setSenderInfo fresh buf 8).memory frame si).Yields
            s stamps ↔
          f.octets si ++ (l.setSenderInfo fresh buf 8).memory.octets (frame + f.size) (20 - f.size)
            = s.senderInfo stamps)) ∧
    ∀ (r : ReportedSource) (now : Timeval) (buf : Memory) (q : ℕ), buf.octets q 24 = r.block now →
      ∀ (l : StoredInfos) (fresh ri : ℕ),
        (l.setReceiverInfo fresh buf (q + 4)).receiverInfo = some ri →
        (RTCPReceiverInfo.ofInfo (l.setReceiverInfo fresh buf (q + 4)).memory ri).Yields r now ∧
        ((RTCPReceiverInfo.ofPointer f (l.setReceiverInfo fresh buf (q + 4)).memory frame ri).Yields
            r now ↔
          f.octets ri ++ (l.setReceiverInfo fresh buf (q + 4)).memory.octets (frame + f.size)
            (20 - f.size) = r.rinfo now) := by
  constructor
  · intro s clock stamps stale c hsent hc buf hsame m na tp rounds w haccept hw l fresh si hsi
    refine ⟨fun hfits => ⟨fun hlocal => ?_, ?_⟩, yields_ofPointer_iff f _ frame si s stamps⟩
    · exact holdsSender_takeInControlPacket hsent hc hfits hsame haccept hw hlocal l fresh
    · exact yields_ofInfo_setSenderInfo hsent hc hfits hsame hsi
  · intro r now buf q hblock l fresh ri hri
    exact ⟨receiverYields_ofInfo_setReceiverInfo hblock hri,
      receiverYields_ofPointer_iff f _ frame ri r now⟩

/-- A pointer of 64 bits, the lowest octet first. -/
def pointer64 : PointerFormat where
  size := 8
  octets := fun p => (bigEndian 8 p).reverse
  length_octets := fun p => by rw [List.length_reverse, length_bigEndian]
  size_le := by omega

/-- A member that has sent three packets. -/
def talker : ControlSender :=
  { ControlSender.listener 1 with sendPacketCount := 3, sendOctetCount := 480 }

/-- A link for which nothing has been stored, and memory of zeros. -/
def nothingStored : StoredInfos := ⟨fun _ => 0, none, none⟩

open QueueRTCPManager in
/-- What the member sends at one second is accepted, and taken in. -/
theorem exists_taken_talker :
    ∃ c w, talker.dispatchControlPacket (fun _ => ⟨9, 0⟩) ⟨1, 0, 0⟩ (fun _ => 0) = some c ∧
      RTCPCompoundHandler.checkCompoundRTCPHeader c.buf c.len = some true ∧
      alone.takeInControlPacket 5 c.buf c.len 5 5005 = some w ∧
      c.buf.octets 8 20 = talker.senderInfo ⟨1, 0, 0⟩ := by
  have hrun : (talker.dispatchControlPacket (fun _ => ⟨9, 0⟩) ⟨1, 0, 0⟩ (fun _ => 0)).map (fun c =>
      (RTCPCompoundHandler.checkCompoundRTCPHeader c.buf c.len,
        (alone.takeInControlPacket 5 c.buf c.len 5 5005).isSome, c.buf.octets 8 20))
        = some (some true, true, talker.senderInfo ⟨1, 0, 0⟩) := by
    decide
  obtain ⟨c, hc, hvalues⟩ := Option.map_eq_some_iff.mp hrun
  simp only [Prod.mk.injEq] at hvalues
  obtain ⟨haccept, hsome, hinfo⟩ := hvalues
  obtain ⟨w, hw⟩ := Option.isSome_iff_exists.mp hsome
  exact ⟨c, w, hc, haccept, hw, hinfo⟩

open QueueRTCPManager in
/-- The theorem at this compound, with the sender info stored at 4096. -/
theorem report_fields_read_back_iff_talker :
    ∃ c, talker.dispatchControlPacket (fun _ => ⟨9, 0⟩) ⟨1, 0, 0⟩ (fun _ => 0) = some c ∧
      ((RTCPSenderInfo.ofPointer pointer64 (nothingStored.setSenderInfo 4096 c.buf 8).memory 0
          4096).Yields talker ⟨1, 0, 0⟩ ↔
        pointer64.octets 4096 ++ (nothingStored.setSenderInfo 4096 c.buf 8).memory.octets
          (0 + pointer64.size) (20 - pointer64.size) = talker.senderInfo ⟨1, 0, 0⟩) := by
  obtain ⟨c, w, hc, haccept, hw, -⟩ := exists_taken_talker
  exact ⟨c, hc, ((report_fields_read_back_iff pointer64 0).1 talker _ _ _ c (by decide) hc c.buf
    (.refl _ _) alone 5 5005 5 w haccept hw nothingStored 4096 4096 rfl).2⟩

open QueueRTCPManager in
/-- **The pointer is read in place of the sender info.**  The sender info is stored as it was
encoded, with an NTP timestamp of one second; the accessor tells 1048576 seconds. -/
theorem sender_info_of_pointer :
    ∃ c w, talker.dispatchControlPacket (fun _ => ⟨9, 0⟩) ⟨1, 0, 0⟩ (fun _ => 0) = some c ∧
      RTCPCompoundHandler.checkCompoundRTCPHeader c.buf c.len = some true ∧
      alone.takeInControlPacket 5 c.buf c.len 5 5005 = some w ∧
      (nothingStored.setSenderInfo 4096 c.buf 8).senderInfo = some 4096 ∧
      (nothingStored.setSenderInfo 4096 c.buf 8).memory.octets 4096 20
        = talker.senderInfo ⟨1, 0, 0⟩ ∧
      (RTCPSenderInfo.ofPointer pointer64 (nothingStored.setSenderInfo 4096 c.buf 8).memory 0
        4096).getNTPTimestampInt = 1048576 ∧
      ¬ (RTCPSenderInfo.ofPointer pointer64 (nothingStored.setSenderInfo 4096 c.buf 8).memory 0
        4096).Yields talker ⟨1, 0, 0⟩ := by
  obtain ⟨c, w, hc, haccept, hw, hinfo⟩ := exists_taken_talker
  have hpointer : (RTCPSenderInfo.ofPointer pointer64
      (nothingStored.setSenderInfo 4096 c.buf 8).memory 0 4096).getNTPTimestampInt = 1048576 := by
    have hfirst : pointer64.octets 4096 = [0, 16, 0, 0] ++ [0, 0, 0, 0] := by decide
    rw [RTCPSenderInfo.ofPointer, ofPointer_eq, RTCPSenderInfo.getNTPTimestampInt, networkWord,
      hfirst, List.append_assoc]
    exact (congrArg (fun l => BitVec.ofNat 32 (ofBigEndian l))
      (slice_append_left [0, 16, 0, 0] _ rfl)).trans (by decide)
  refine ⟨c, w, hc, haccept, hw, rfl, ?_, hpointer, fun h => ?_⟩
  · exact (StoredInfos.octets_setSenderInfo rfl).trans hinfo
  · exact absurd (hpointer.symm.trans h.ntpMSW) (by decide)
