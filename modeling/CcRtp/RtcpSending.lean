/-
# Sending of RTCP compound packets

Models `QueueRTCPManager::dispatchControlPacket` (`src/control.cpp`) up to the call of
`sendControlToDestinations`, with `packReportBlocks`, `packSDES` and `scheduleSDESItem`, and
`SyncSourceLink::computeStats` (`src/members.cpp`).

The compound is written into `rtcpSendBuffer`, a `Memory` with stale octets in it; that it is
as long as needed is not checked by the code and not asked here.  The values that come from
the clock or from floating point are parameters: `Stamps` for the sender info, and the time
at which a report block is written by the offset of the block.

* `laid_reports` : the reports fill the compound up to the source description;
* `Draft.Holds.push` : what is written at the end of the compound stays there.
-/
import CcRtp.RtcpReception
import CcRtp.SendingQueue

/-! ## Writing to memory -/

namespace Memory

variable {buf buf' buf'' : Memory} {p q n : ℕ}

/-- `memcpy(buffer + p, l)` -/
def put (buf : Memory) (p : ℕ) (l : Octets) : Memory :=
  fun i => if p ≤ i ∧ i < p + l.length then l.getD (i - p) 0 else buf i

/-- The two agree before an offset. -/
def SameBelow (q : ℕ) (buf buf' : Memory) : Prop := ∀ i < q, buf' i = buf i

theorem SameBelow.refl (q : ℕ) (buf : Memory) : SameBelow q buf buf := fun _ _ => rfl

/-- What two steps leave alone, both of them do. -/
theorem SameBelow.trans (h₁ : SameBelow q buf buf') (h₂ : SameBelow q buf' buf'') :
    SameBelow q buf buf'' := fun i hi => (h₂ i hi).trans (h₁ i hi)

/-- Less of the memory is the same, too. -/
theorem SameBelow.mono (h : SameBelow q buf buf') (hp : p ≤ q) : SameBelow p buf buf' :=
  fun i hi => h i (Nat.lt_of_lt_of_le hi hp)

/-- Octets in front of those that are written stay. -/
theorem put_of_lt (buf : Memory) (l : Octets) {i : ℕ} (h : i < p) : buf.put p l i = buf i :=
  if_neg (fun hi => absurd hi.1 (Nat.not_le_of_lt h))

/-- Octets behind those that are written stay. -/
theorem put_of_ge (buf : Memory) (l : Octets) {i : ℕ} (h : p + l.length ≤ i) :
    buf.put p l i = buf i :=
  if_neg (fun hi => absurd hi.2 (Nat.not_lt_of_le h))

/-- A write behind an offset. -/
theorem sameBelow_put (buf : Memory) (l : Octets) (h : q ≤ p) : SameBelow q buf (buf.put p l) :=
  fun _ hi => put_of_lt buf l (Nat.lt_of_lt_of_le hi h)

/-- The two agree from an offset on. -/
def SameFrom (q : ℕ) (buf buf' : Memory) : Prop := ∀ i, q ≤ i → buf' i = buf i

/-- What two steps leave alone from a place on, both of them do. -/
theorem SameFrom.trans (h₁ : SameFrom q buf buf') (h₂ : SameFrom q buf' buf'') :
    SameFrom q buf buf'' := fun i hi => (h₂ i hi).trans (h₁ i hi)

/-- Less of the memory is the same, too. -/
theorem SameFrom.mono (h : SameFrom q buf buf') (hq : q ≤ p) : SameFrom p buf buf' :=
  fun i hi => h i (hq.trans hi)

/-- A write before an offset. -/
theorem sameFrom_put (buf : Memory) (l : Octets) (h : p + l.length ≤ q) :
    SameFrom q buf (buf.put p l) :=
  fun _ hi => put_of_ge buf l (h.trans hi)

/-- Regions with the same octets. -/
theorem octets_congr (h : ∀ i < n, buf' (q + i) = buf (p + i)) :
    buf'.octets q n = buf.octets p n := by
  refine List.map_congr_left ?_
  intro i hi
  exact h i (List.mem_range.mp hi)

/-- Octets that lie below are read as before. -/
theorem SameBelow.octets (h : SameBelow q buf buf') (hp : p + n ≤ q) :
    buf'.octets p n = buf.octets p n :=
  octets_congr (fun i hi => h (p + i) (by omega))

/-- Reading back what was written. -/
theorem octets_put_self (buf : Memory) (p : ℕ) (l : Octets) :
    (buf.put p l).octets p l.length = l := by
  refine List.ext_getElem (length_octets _ _ _) ?_
  intro i hi hi'
  simp only [octets, List.getElem_map, List.getElem_range]
  rw [put, if_pos (by omega), Nat.add_sub_cancel_left, List.getD_eq_getElem _ _ hi']

/-- The octets behind a write. -/
theorem octets_put_of_ge (buf : Memory) (l : Octets) (h : p + l.length ≤ q) :
    (buf.put p l).octets q n = buf.octets q n :=
  octets_congr (fun i _ => put_of_ge buf l (by omega))

end Memory

/-! ## Writing the fields of a packet -/

namespace RTCPPacket

variable {buf buf' : Memory} {p q : ℕ} {t : UInt8}

def setVersion (buf : Memory) (p : ℕ) (v : BitVec 2) : Memory :=
  buf.put p [setBitField (buf p) 6 v]

def setPadding (buf : Memory) (p : ℕ) (v : BitVec 1) : Memory :=
  buf.put p [setBitField (buf p) 5 v]

def setBlockCount (buf : Memory) (p : ℕ) (v : BitVec 5) : Memory :=
  buf.put p [setBitField (buf p) 0 v]

def setType (buf : Memory) (p : ℕ) (t : UInt8) : Memory := buf.put (p + 1) [t]

/-- `fh.length`, in 32-bit words, less one. -/
def setLength (buf : Memory) (p words : ℕ) : Memory := buf.put (p + 2) (bigEndian 2 words)

def setSSRC (buf : Memory) (p : ℕ) (ssrc : BitVec 32) : Memory :=
  buf.put (p + 4) (bigEndian 4 ssrc.toNat)

/-- What the source sets when it begins a packet: `CCRTP_VERSION`, no padding, the type and
the local SSRC. -/
def setHeader (buf : Memory) (p : ℕ) (t : UInt8) (ssrc : BitVec 32) : Memory :=
  setSSRC (setType (setPadding (setVersion buf p 2) p 0) p t) p ssrc

/-- A packet of the type has been begun at the offset. -/
structure Begun (buf : Memory) (p : ℕ) (t : UInt8) : Prop where
  version : version buf p = 2
  padding : padding buf p = 0
  type : type buf p = t

/-- Only the first two octets of a header say how it begins. -/
theorem Begun.congr (h : Begun buf p t) (h0 : buf' p = buf p) (h1 : buf' (p + 1) = buf (p + 1)) :
    Begun buf' p t := by
  refine ⟨?_, ?_, ?_⟩
  · rw [RTCPPacket.version, h0]
    exact h.version
  · rw [RTCPPacket.padding, h0]
    exact h.padding
  · rw [RTCPPacket.type, h1]
    exact h.type

/-- An octet that has been written. -/
theorem put_singleton_self (buf : Memory) (p : ℕ) (b : UInt8) : buf.put p [b] p = b := by
  rw [Memory.put, if_pos ⟨le_rfl, Nat.lt_succ_self p⟩, Nat.sub_self]
  rfl

/-- Version and type are in place. -/
theorem begun_setHeader (buf : Memory) (p : ℕ) (t : UInt8) (ssrc : BitVec 32) :
    Begun (setHeader buf p t ssrc) p t := by
  have hfirst : setHeader buf p t ssrc p = setBitField (setBitField (buf p) 6 (2 : BitVec 2)) 5
      (0 : BitVec 1) := by
    rw [setHeader, setSSRC, Memory.put_of_lt _ _ (by omega), setType,
      Memory.put_of_lt _ _ (by omega), setPadding, put_singleton_self, setVersion,
      put_singleton_self]
  have htype : setHeader buf p t ssrc (p + 1) = t := by
    rw [setHeader, setSSRC, Memory.put_of_lt _ _ (by omega), setType, put_singleton_self]
  refine ⟨?_, ?_, htype⟩
  · rw [version, hfirst, bitField_setBitField_of_disjoint _ _ _ (by omega) (by omega),
      bitField_setBitField _ _ _ (by omega)]
  · rw [padding, hfirst, bitField_setBitField _ _ _ (by omega)]

/-- The block count is written beside the version and the padding. -/
theorem Begun.setBlockCount (h : Begun buf p t) (v : BitVec 5) :
    Begun (setBlockCount buf p v) p t := by
  have hfirst : RTCPPacket.setBlockCount buf p v p = setBitField (buf p) 0 v :=
    put_singleton_self _ _ _
  have htype : RTCPPacket.setBlockCount buf p v (p + 1) = buf (p + 1) :=
    Memory.put_of_ge _ _ (by rw [List.length_singleton])
  refine ⟨?_, ?_, htype.trans h.type⟩
  · rw [RTCPPacket.version, hfirst,
      bitField_setBitField_of_disjoint _ _ _ (by omega) (by omega)]
    exact h.version
  · rw [RTCPPacket.padding, hfirst,
      bitField_setBitField_of_disjoint _ _ _ (by omega) (by omega)]
    exact h.padding

/-- The length is behind the octets that a header begins with. -/
theorem Begun.setLength (h : Begun buf p t) (words : ℕ) : Begun (setLength buf p words) p t :=
  h.congr (Memory.put_of_lt _ _ (by omega)) (Memory.put_of_lt _ _ (by omega))

/-- A packet that has been begun stays so if what is before the octet 4 of it does. -/
theorem Begun.of_sameBelow (h : Begun buf p t) (hsame : Memory.SameBelow q buf buf')
    (hq : p + 4 ≤ q) : Begun buf' p t :=
  h.congr (hsame p (by omega)) (hsame (p + 1) (by omega))

/-- The fields lie in the first eight octets. -/
theorem sameFrom_setHeader (buf : Memory) {p q : ℕ} (hq : p + 8 ≤ q) (t : UInt8)
    (ssrc : BitVec 32) : Memory.SameFrom q buf (setHeader buf p t ssrc) := by
  intro i hi
  unfold setHeader setSSRC setType setPadding setVersion
  rw [Memory.put_of_ge _ _ (by rw [length_bigEndian]; omega),
    Memory.put_of_ge _ _ (by rw [List.length_singleton]; omega),
    Memory.put_of_ge _ _ (by rw [List.length_singleton]; omega),
    Memory.put_of_ge _ _ (by rw [List.length_singleton]; omega)]

/-- The block count is in the first octet. -/
theorem sameFrom_setBlockCount (buf : Memory) {p q : ℕ} (hq : p < q) (v : BitVec 5) :
    Memory.SameFrom q buf (setBlockCount buf p v) :=
  Memory.sameFrom_put _ _ (by rw [List.length_singleton]; omega)

/-- The length is in the first four octets. -/
theorem sameFrom_setLength (buf : Memory) {p q : ℕ} (hq : p + 4 ≤ q) (words : ℕ) :
    Memory.SameFrom q buf (setLength buf p words) :=
  Memory.sameFrom_put _ _ (by rw [length_bigEndian]; omega)

/-- A length that fits is read back in octets. -/
theorem getLength_setLength (buf : Memory) (p : ℕ) {words : ℕ} (h : words < 2 ^ 16) :
    getLength (setLength buf p words) p = (words + 1) * 4 := by
  have hread := Memory.octets_put_self buf (p + 2) (bigEndian 2 words)
  rw [length_bigEndian] at hread
  rw [getLength, setLength, hread, ofBigEndian_bigEndian 2 words h]

/-- The length is read from the first four octets. -/
theorem getLength_of_sameBelow (hsame : Memory.SameBelow q buf buf') (hq : p + 4 ≤ q) :
    getLength buf' p = getLength buf p :=
  getLength_congr (fun i hi => hsame (p + i) (by omega))

/-- The block count is read back. -/
theorem blockCount_setBlockCount (buf : Memory) (p : ℕ) (v : BitVec 5) :
    blockCount (RTCPPacket.setBlockCount buf p v) p = v := by
  rw [blockCount, RTCPPacket.setBlockCount, put_singleton_self,
    bitField_setBitField _ _ _ (by omega)]

/-! ## Packets one behind the other -/

/-- From one offset to another, packets of version 2 without padding stand one behind the
other, at the given offsets and of the types that belong to these. -/
def Laid (buf : Memory) (types : ℕ → UInt8) : ℕ → List ℕ → ℕ → Prop
  | p, [], q => p = q
  | p, o :: os, q => o = p ∧ Begun buf p (types p) ∧ Laid buf types (p + getLength buf p) os q

namespace Laid

variable {types : ℕ → UInt8} {os : List ℕ}

/-- A compound does not end before it begins. -/
theorem le (h : Laid buf types p os q) : p ≤ q := by
  induction os generalizing p with
  | nil => exact Nat.le_of_eq h
  | cons o os ih =>
      have hrest := ih h.2.2
      omega

/-- All its packets lie behind its beginning. -/
theorem le_of_mem (h : Laid buf types p os q) (o : ℕ) (ho : o ∈ os) : p ≤ o := by
  induction os generalizing p with
  | nil => exact absurd ho List.not_mem_nil
  | cons o' os ih =>
      rcases List.mem_cons.mp ho with rfl | ho
      · exact Nat.le_of_eq h.1.symm
      · have hrest := ih h.2.2 ho
        omega

/-- One compound behind another. -/
theorem append {os' : List ℕ} {r : ℕ} (h : Laid buf types p os q) (h' : Laid buf types q os' r) :
    Laid buf types p (os ++ os') r := by
  induction os generalizing p with
  | nil =>
      cases h
      exact h'
  | cons o os ih => exact ⟨h.1, h.2.1, ih h.2.2⟩

/-- One more packet. -/
theorem concat (h : Laid buf types p os q) (hbegun : Begun buf q (types q)) :
    Laid buf types p (os ++ [q]) (q + getLength buf q) :=
  h.append ⟨rfl, hbegun, rfl⟩

/-- Writing behind the packets leaves them. -/
theorem of_sameBelow (h : Laid buf types p os q) (hsame : Memory.SameBelow q buf buf') :
    Laid buf' types p os q := by
  induction os generalizing p with
  | nil => exact h
  | cons o os ih =>
      obtain ⟨ho, hbegun, hrest⟩ := h
      have hle := hrest.le
      have hfour := (getLength_bounds buf p).1
      refine ⟨ho, hbegun.of_sameBelow hsame (by omega), ?_⟩
      rw [getLength_of_sameBelow hsame (by omega)]
      exact ih hrest

/-- The types matter at the offsets only. -/
theorem congr_types {types' : ℕ → UInt8} (h : Laid buf types p os q)
    (htypes : ∀ o, p ≤ o → o < q → types' o = types o) : Laid buf types' p os q := by
  induction os generalizing p with
  | nil => exact h
  | cons o os ih =>
      obtain ⟨ho, hbegun, hrest⟩ := h
      have hle := hrest.le
      have hfour := (getLength_bounds buf p).1
      refine ⟨ho, ?_, ih hrest (fun o' hp hq => htypes o' (by omega) hq)⟩
      rw [htypes p le_rfl (by omega)]
      exact hbegun

/-- The octets split into the packets, all of version 2. -/
theorem exists_splits (h : Laid buf types p os q) :
    ∃ ps, Splits (buf.octets p (q - p)) ps ∧ ps.length = os.length ∧ ∀ r ∈ ps, Tagged r := by
  induction os generalizing p with
  | nil =>
      cases h
      refine ⟨[], ?_, rfl, fun r hr => absurd hr List.not_mem_nil⟩
      rw [splits_nil_iff, Nat.sub_self, Memory.octets_zero]
  | cons o os ih =>
      obtain ⟨-, hbegun, hrest⟩ := h
      have hle := hrest.le
      obtain ⟨ps, hsplits, hlen, htagged⟩ := ih hrest
      refine ⟨buf.octets p (getLength buf p) :: ps, ?_, congrArg Nat.succ hlen, ?_⟩
      · rw [splits_cons_iff, Nat.sub_sub]
        exact ⟨by omega, rfl, hsplits⟩
      · intro r hr
        rcases List.mem_cons.mp hr with rfl | hr
        · exact (tagged_octets_iff buf p (getLength_bounds buf p).1).mpr hbegun.version
        · exact htagged r hr

/-- **Packets behind a report are accepted.** -/
theorem accepted {o len : ℕ} (h : Laid buf types 0 (o :: os) len)
    (htype : types 0 = tSR ∨ types 0 = tRR) (hlen : len + 2 ^ 18 < 2 ^ 32) :
    RTCPCompoundHandler.checkCompoundRTCPHeader buf len = some true := by
  obtain ⟨ok, hok, hiff⟩ := RTCPCompoundHandler.checkCompoundRTCPHeader_eq buf hlen
  have hcompound : IsCompound (buf.octets 0 len) := by
    obtain ⟨ps, hsplits, hcount, htagged⟩ := h.exists_splits
    obtain ⟨-, hbegun, -⟩ := h
    rw [Nat.sub_zero] at hsplits
    cases ps with
    | nil => cases hcount
    | cons r ps =>
        have hr := htagged r List.mem_cons_self
        refine ⟨r, ps, hsplits, ⟨hr, ?_⟩, fun q hq => htagged q (List.mem_cons_of_mem r hq)⟩
        obtain ⟨-, rfl, -⟩ := (splits_cons_iff _ _ _ _ _).mp hsplits
        have hhead := octets_header buf 0 (getLength_bounds buf 0).1
        have h0 := hhead 0 (by omega)
        have h1 := hhead 1 (by omega)
        rw [padding, RTCPPacket.type, h0, h1]
        exact ⟨hbegun.padding, htype.imp hbegun.type.trans hbegun.type.trans⟩
  rw [hok, hiff.mpr (Or.inl hcompound)]

end Laid

end RTCPPacket

/-! ## Reports -/

/-- `timevalIntervalTo65536(t)` -/
def timevalIntervalTo65536 (t : Timeval) : BitVec 32 :=
  BitVec.ofInt 32 (t.sec * 65536) + BitVec.ofInt 32 (Int.tdiv (t.usec * 4096) 125000 * 2)

/-- The members of a source's link that a report block is made of, with the jitter already
cut to an integer. -/
structure ReportedSource where
  id : BitVec 32
  maxSeqNum : BitVec 16
  seqNumAccum : BitVec 32
  baseSeqNum : BitVec 16
  obsPacketCount : BitVec 32
  extendedMaxSeqNum : BitVec 32
  cumulativePacketLost : BitVec 32
  fractionLost : UInt8
  expectedPrior : BitVec 32
  receivedPrior : BitVec 32
  jitter : BitVec 32
  senderInfo : Option Octets
  lastRTCPSRTime : Timeval

namespace ReportedSource

/-- `computeStats()`.  The difference `lostDelta` is unsigned, so it is never negative. -/
def computeStats (s : ReportedSource) : ReportedSource :=
  let extended := s.maxSeqNum.setWidth 32 + s.seqNumAccum
  let expected := extended - s.baseSeqNum.setWidth 32 + 1
  let expectedDelta := expected - s.expectedPrior
  let lostDelta := expectedDelta - (s.obsPacketCount - s.receivedPrior)
  { s with
    extendedMaxSeqNum := extended
    cumulativePacketLost := if s.obsPacketCount = 0 then 0 else expected - s.obsPacketCount
    expectedPrior := expected
    receivedPrior := s.obsPacketCount
    fractionLost :=
      if expectedDelta = 0 ∨ lostDelta = 0 then 0
      else UInt8.ofBitVec ((lostDelta <<< 8 / expectedDelta).setWidth 8) }

/-- The middle of the NTP timestamp of the last sender report. -/
def lsr (s : ReportedSource) : BitVec 32 :=
  s.senderInfo.elim 0 (fun info =>
    ((BitVec.ofNat 32 (ofBigEndian (slice info 0 4)) &&& 0x0FFFF) <<< 16)
      + ((BitVec.ofNat 32 (ofBigEndian (slice info 4 4)) &&& 0xFFFF0000) >>> 16))

/-- The time since the last sender report. -/
def dlsr (s : ReportedSource) (now : Timeval) : BitVec 32 :=
  s.senderInfo.elim 0 (fun _ => timevalIntervalTo65536 (timersub now s.lastRTCPSRTime))

/-- The `RRBlock` of the source. -/
def block (s : ReportedSource) (now : Timeval) : Octets :=
  bigEndian 4 s.id.toNat ++ [s.fractionLost]
    ++ bigEndian 1 ((s.cumulativePacketLost &&& 0xFF0000) >>> 16).toNat
    ++ bigEndian 2 (s.cumulativePacketLost &&& 0xFFFF).toNat
    ++ bigEndian 4 s.extendedMaxSeqNum.toNat ++ bigEndian 4 s.jitter.toNat
    ++ bigEndian 4 s.lsr.toNat ++ bigEndian 4 (s.dlsr now).toNat

end ReportedSource

/-- What `dispatchControlPacket` makes of the clock for the sender info. -/
structure Stamps where
  ntpMSW : BitVec 32
  ntpLSW : BitVec 32
  rtpTimestamp : BitVec 32

/-- The members that sending RTCP reads and writes, with the sources in the order of their
list.  The next item to be sent is one of those that take turns. -/
structure ControlSender where
  localSSRC : BitVec 32
  pathMTU : BitVec 16
  lastSendPacketCount : BitVec 32
  sendPacketCount : BitVec 32
  sendOctetCount : BitVec 32
  ctrlSendCount : BitVec 32
  sources : List ReportedSource
  items : SDESItems
  nextScheduledSDESItem : UInt8
  schedulable : 2 ≤ nextScheduledSDESItem ∧ nextScheduledSDESItem ≤ 8

/-- What `packReportBlocks` leaves behind. -/
structure PackedBlocks where
  blocks : ℕ
  len : ℕ
  buf : Memory
  sources : List ReportedSource

/-- `packReportBlocks(blocks, len, available)`, from the `j`-th block on. -/
def packReportBlocks (clock : ℕ → Timeval) (reports available : ℕ) :
    List ReportedSource → ℕ → ℕ → Memory → PackedBlocks
  | [], j, len, buf => ⟨j, len, buf, []⟩
  | s :: rest, j, len, buf =>
      if len < sizeSub available 24 ∧ j < 31 then
        let block := s.computeStats.block (clock (reports + 24 * j))
        let r := packReportBlocks clock reports available rest (j + 1) ((len + 24) % 2 ^ 16)
          (buf.put (reports + 24 * j) block)
        { r with sources := s.computeStats :: r.sources }
      else ⟨j, len, buf, s :: rest⟩

/-- The variables of `dispatchControlPacket` while it puts report blocks, and the offsets of
the packets begun so far. -/
structure ReportDraft where
  buf : Memory
  pkt : ℕ
  reports : ℕ
  prevlen : ℕ
  len : ℕ
  another : Bool
  sources : List ReportedSource
  begun : List ℕ

namespace ControlSender

open RTCPPacket

/-- Packets have been sent since the last report. -/
def sent (s : ControlSender) : Bool := s.lastSendPacketCount ≠ s.sendPacketCount

/-- The type of the first report. -/
def reportType (s : ControlSender) : UInt8 := if s.sent then tSR else tRR

/-- The `SenderInfo` of a sender report. -/
def senderInfo (s : ControlSender) (stamps : Stamps) : Octets :=
  bigEndian 4 stamps.ntpMSW.toNat ++ bigEndian 4 stamps.ntpLSW.toNat
    ++ bigEndian 4 stamps.rtpTimestamp.toNat ++ bigEndian 4 s.sendPacketCount.toNat
    ++ bigEndian 4 s.sendOctetCount.toNat

/-- (A) SR or RR, depending on whether we sent. -/
def beginReports (s : ControlSender) (stamps : Stamps) (stale : Memory) : ReportDraft :=
  if s.sent then
    { buf := (setHeader stale 0 tSR s.localSSRC).put 8 (s.senderInfo stamps)
      pkt := 0, reports := 28, prevlen := 0, len := 28, another := false
      sources := s.sources, begun := [0] }
  else
    { buf := setHeader stale 0 tRR s.localSSRC
      pkt := 0, reports := 8, prevlen := 0, len := 8, another := false
      sources := s.sources, begun := [0] }

/-- `available`: the octets up to which report blocks may go, a `uint16`. -/
def available (s : ControlSender) (len : ℕ) : ℕ :=
  (s.pathMTU - 28 - BitVec.ofNat 16 len
    - BitVec.ofNat 16 (4 + 2 + (s.items QueueRTCPManager.sdesItemTypeCNAME).length) - 100).toNat

/-- The body of the loop of (B): the blocks of a report, and the header of a further one if
it is full and there is room. -/
def packReport (s : ControlSender) (clock : ℕ → Timeval) (available : ℕ) (d : ReportDraft) :
    ReportDraft :=
  let r := packReportBlocks clock d.reports available d.sources 0 d.len d.buf
  let buf := setLength (setBlockCount r.buf d.pkt (BitVec.ofNat 5 r.blocks)) d.pkt
    ((r.len - d.prevlen) / 4 - 1)
  if r.blocks = 31 ∧ r.len < sizeSub available 32 then
    { buf := setHeader buf r.len tRR s.localSSRC
      pkt := r.len
      reports := r.len + 8
      prevlen := r.len
      len := (r.len + 8) % 2 ^ 16
      another := true
      sources := r.sources
      begun := d.begun ++ [r.len] }
  else
    { d with buf := buf, prevlen := r.len, len := r.len, another := false, sources := r.sources }

/-- (B) put report blocks.  A further round begins at least eight octets behind the one
before, so the `uint16` length bounds the rounds. -/
def packReports (s : ControlSender) (clock : ℕ → Timeval) (stamps : Stamps) (stale : Memory) :
    Option ReportDraft :=
  let d := s.beginReports stamps stale
  let available := s.available d.len
  whileLoop (fun d => d.len < available ∧ d.another = true)
    (fun d => some (s.packReport clock available d)) (2 ^ 16) (s.packReport clock available d)

/-! ## Source description -/

/-- `SDESItemsHolder::getItem(type)` -/
def getSDESItem (s : ControlSender) (type : UInt8) : Octets :=
  if type > QueueRTCPManager.sdesItemTypeEND ∧ type ≤ QueueRTCPManager.sdesItemTypeLast then
    s.items type
  else s.items QueueRTCPManager.sdesItemTypeCNAME

/-- `nextSDESType(t)`: the items from NAME to PRIV take turns. -/
def nextSDESType (t : UInt8) : UInt8 := if t + 1 > 8 then 2 else t + 1

/-- The loop of `scheduleSDESItem`. -/
def skipEmptyItems (s : ControlSender) : ℕ → UInt8 → UInt8
  | 0, type => type
  | i + 1, type =>
      if (s.getSDESItem type).length = 0 then s.skipEmptyItems i (nextSDESType type) else type

/-- The item that `scheduleSDESItem` stops at. -/
def itemInTurn (s : ControlSender) : UInt8 := s.skipEmptyItems 6 s.nextScheduledSDESItem

/-- `scheduleSDESItem()`, the type returned. -/
def scheduleSDESItem (s : ControlSender) : UInt8 :=
  if (s.getSDESItem s.itemInTurn).length > 0 then s.itemInTurn
  else QueueRTCPManager.sdesItemTypeEND

end ControlSender

/-- The compound as far as it is written. -/
structure Draft where
  buf : Memory
  len : ℕ

/-- Octets are copied behind the compound, and `len` goes on. -/
def Draft.push (d : Draft) (l : Octets) : Draft := ⟨d.buf.put d.len l, (d.len + l.length) % 2 ^ 16⟩

/-- No octet of such a text ends it. -/
theorem ne_nul_of_nul_free {l : Octets} (h : 0 ∉ l) : ∀ c ∈ l, decide (c ≠ 0) = true := by
  intro c hc
  refine decide_eq_true ?_
  rintro rfl
  exact h hc

/-- Octets without NUL are a C string as a whole. -/
theorem takeWhile_of_nul_free {l : Octets} (h : 0 ∉ l) : l.takeWhile (fun c => c ≠ 0) = l :=
  List.takeWhile_eq_self_iff.mpr (ne_nul_of_nul_free h)

namespace ControlSender

open RTCPPacket

/-- The header of the source description and the head of its CNAME item. -/
def beginSDES (s : ControlSender) (d : Draft) : Draft :=
  ⟨(setBlockCount (setHeader d.buf d.len tSDES s.localSSRC) d.len 1).put (d.len + 8)
      [QueueRTCPManager.sdesItemTypeCNAME,
        UInt8.ofNat (s.getSDESItem QueueRTCPManager.sdesItemTypeCNAME).length],
    (d.len + 10) % 2 ^ 16⟩

/-- The C string of an item. -/
def content (s : ControlSender) (type : UInt8) : Octets :=
  (s.getSDESItem type).takeWhile (fun c => c ≠ 0)

/-- `item->len` -/
def itemLen (s : ControlSender) (type : UInt8) : UInt8 := UInt8.ofNat (s.content type).length

/-- What is sent of an item: as much as the length octet can tell. -/
def sentItem (s : ControlSender) (type : UInt8) : Octets :=
  (s.content type).take (s.itemLen type).toNat

/-- The item scheduled, if there is one. -/
def packItem (s : ControlSender) (d : Draft) : Draft :=
  let nexttype := s.scheduleSDESItem
  if nexttype > QueueRTCPManager.sdesItemTypeCNAME ∧
    nexttype ≤ QueueRTCPManager.sdesItemTypeLast then
    (d.push [nexttype, s.itemLen nexttype]).push (s.sentItem nexttype)
  else d

/-- The END item, and zeros up to a multiple of four. -/
def packEnd (d : Draft) : Draft :=
  let d := d.push [QueueRTCPManager.sdesItemTypeEND]
  if d.len % 4 = 0 then d
  else d.push (List.replicate (4 - d.len % 4) QueueRTCPManager.sdesItemTypeEND)

/-- `packSDES(len)` -/
def packSDES (s : ControlSender) (d : Draft) : Draft :=
  let e := packEnd (s.packItem ((s.beginSDES d).push
    (s.getSDESItem QueueRTCPManager.sdesItemTypeCNAME)))
  { e with buf := setLength e.buf d.len ((e.len - d.len - 1) / 4) }

/-! ## The compound -/

/-- The next item is one of those that are sent. -/
theorem schedulable_nextSDESType {t : UInt8} (h : 2 ≤ t ∧ t ≤ 8) :
    2 ≤ nextSDESType t ∧ nextSDESType t ≤ 8 := by
  rw [nextSDESType]
  split_ifs with hlast
  · exact ⟨by decide, by decide⟩
  · refine ⟨?_, UInt8.not_lt.mp hlast⟩
    obtain ⟨hlow, hhigh⟩ := h
    rw [UInt8.le_iff_toNat_le] at hlow hhigh ⊢
    rw [UInt8.toNat_add]
    have htwo : (2 : UInt8).toNat = 2 := rfl
    have height : (8 : UInt8).toNat = 8 := rfl
    have hone : (1 : UInt8).toNat = 1 := rfl
    omega

/-- So is the one after empty items have been left out. -/
theorem schedulable_skipEmptyItems (s : ControlSender) (i : ℕ) :
    ∀ {t : UInt8}, 2 ≤ t ∧ t ≤ 8 → 2 ≤ s.skipEmptyItems i t ∧ s.skipEmptyItems i t ≤ 8 := by
  induction i with
  | zero =>
      intro t h
      exact h
  | succ i ih =>
      intro t h
      rw [skipEmptyItems]
      split_ifs
      · exact ih (schedulable_nextSDESType h)
      · exact h

/-- The items take turns. -/
theorem schedulable_itemInTurn (s : ControlSender) : 2 ≤ s.itemInTurn ∧ s.itemInTurn ≤ 8 :=
  s.schedulable_skipEmptyItems 6 s.schedulable

end ControlSender

/-- A compound that has been built: the buffer and its length, the offsets of the reports and
of the source description in it, and the sender afterwards. -/
structure Compound where
  buf : Memory
  len : ℕ
  reports : List ℕ
  sdes : ℕ
  sender : ControlSender

namespace ControlSender

/-- The sender after a compound. -/
def reported (s : ControlSender) (sources : List ReportedSource) : ControlSender where
  localSSRC := s.localSSRC
  pathMTU := s.pathMTU
  lastSendPacketCount := s.sendPacketCount
  sendPacketCount := s.sendPacketCount
  sendOctetCount := s.sendOctetCount
  ctrlSendCount := s.ctrlSendCount + 1
  sources := sources
  items := s.items
  nextScheduledSDESItem := nextSDESType s.itemInTurn
  schedulable := schedulable_nextSDESType s.schedulable_itemInTurn

/-- `dispatchControlPacket()`, up to the sending of the compound. -/
def dispatchControlPacket (s : ControlSender) (clock : ℕ → Timeval) (stamps : Stamps)
    (stale : Memory) : Option Compound :=
  (s.packReports clock stamps stale).map (fun d =>
    -- (C) SDES (CNAME)
    let e := s.packSDES ⟨d.buf, d.len⟩
    ⟨e.buf, e.len, d.begun, d.len, s.reported d.sources⟩)

end ControlSender

/-! ## The reports -/

/-- A subtraction without wrap. -/
theorem sizeSub_of_le {a b : ℕ} (h : b ≤ a) (ha : a < 2 ^ 16) : sizeSub a b = a - b := by
  rw [sizeSub]
  omega

/-- **The blocks of a report**: each takes 24 octets behind the header, and they stay within
what is available. -/
theorem packReportBlocks_spec (clock : ℕ → Timeval) {reports available q : ℕ}
    (havailable : 24 ≤ available ∧ available < 2 ^ 16) (hq : q ≤ reports)
    (sources : List ReportedSource) :
    ∀ (j len : ℕ) (buf : Memory), j ≤ 31 → len < 2 ^ 16 →
      Memory.SameBelow q buf (packReportBlocks clock reports available sources j len buf).buf ∧
        ∃ k, (packReportBlocks clock reports available sources j len buf).blocks = j + k ∧
          j + k ≤ 31 ∧
          (packReportBlocks clock reports available sources j len buf).len = len + 24 * k ∧
          (k = 0 ∨ len + 24 * k < available) := by
  have hsize := sizeSub_of_le havailable.1 havailable.2
  induction sources with
  | nil =>
      intro j len buf hj hlen
      exact ⟨.refl q buf, 0, rfl, hj, rfl, Or.inl rfl⟩
  | cons s rest ih =>
      intro j len buf hj hlen
      rw [packReportBlocks, hsize]
      split_ifs with hroom
      · have hmod : (len + 24) % 2 ^ 16 = len + 24 := by omega
        obtain ⟨hsame, k, hblocks, hcount, hend, hbound⟩ := ih (j + 1) ((len + 24) % 2 ^ 16)
          (buf.put (reports + 24 * j) (s.computeStats.block (clock (reports + 24 * j))))
          (by omega) (by omega)
        refine ⟨(Memory.sameBelow_put buf _ (by omega)).trans hsame, k + 1, ?_, ?_, ?_, ?_⟩
        · rw [← Nat.add_assoc, Nat.add_right_comm]
          exact hblocks
        · omega
        · rw [show len + 24 * (k + 1) = (len + 24) % 2 ^ 16 + 24 * k by omega]
          exact hend
        · omega
      · exact ⟨.refl q buf, 0, rfl, hj, rfl, Or.inl rfl⟩

namespace ControlSender

open RTCPPacket

variable {s : ControlSender} {clock : ℕ → Timeval} {stamps : Stamps} {stale : Memory}
  {available : ℕ} {d : ReportDraft}

/-- The first packet is a sender report if packets have been sent; all others are receiver
reports. -/
def reportTypes (s : ControlSender) (o : ℕ) : UInt8 := if o = 0 then s.reportType else tRR

/-- A report has been begun behind those that are complete. -/
structure Open (s : ControlSender) (d : ReportDraft) : Prop where
  laid : ∃ os, d.begun = os ++ [d.pkt] ∧ Laid d.buf s.reportTypes 0 os d.pkt
  begun : Begun d.buf d.pkt (s.reportTypes d.pkt)
  prevlen : d.prevlen = d.pkt
  reports : d.reports = d.len
  len : d.pkt + 8 ≤ d.len
  whole : d.pkt % 4 = 0 ∧ d.len % 4 = 0

/-- The reports are complete. -/
structure Closed (s : ControlSender) (d : ReportDraft) : Prop where
  laid : Laid d.buf s.reportTypes 0 d.begun d.len
  nonempty : d.begun ≠ []
  whole : d.len % 4 = 0

/-- At the beginning of a compound. -/
theorem open_beginReports (s : ControlSender) (stamps : Stamps) (stale : Memory) :
    Open s (s.beginReports stamps stale) := by
  rw [beginReports]
  split_ifs with hsent
  · have hbegun : Begun ((setHeader stale 0 tSR s.localSSRC).put 8 (s.senderInfo stamps)) 0
        (s.reportTypes 0) := by
      rw [reportTypes, if_pos rfl, reportType, if_pos hsent]
      exact (begun_setHeader stale 0 tSR s.localSSRC).of_sameBelow
        (Memory.sameBelow_put _ _ (le_refl 8)) (by omega)
    exact ⟨⟨[], rfl, rfl⟩, hbegun, rfl, rfl, (by decide : 0 + 8 ≤ 28), rfl,
      (by decide : 28 % 4 = 0)⟩
  · have hbegun : Begun (setHeader stale 0 tRR s.localSSRC) 0 (s.reportTypes 0) := by
      rw [reportTypes, if_pos rfl, reportType, if_neg hsent]
      exact begun_setHeader stale 0 tRR s.localSSRC
    exact ⟨⟨[], rfl, rfl⟩, hbegun, rfl, rfl, (by decide : 0 + 8 ≤ 8), rfl, (by decide : 8 % 4 = 0)⟩

/-- A header changes nothing in front of it. -/
theorem sameBelow_setHeader (buf : Memory) {p q : ℕ} (hq : q ≤ p) (t : UInt8) (ssrc : BitVec 32) :
    Memory.SameBelow q buf (setHeader buf p t ssrc) := by
  have hversion := Memory.sameBelow_put buf [setBitField (buf p) 6 (2 : BitVec 2)] hq
  have hpadding := hversion.trans
    (Memory.sameBelow_put (setVersion buf p 2)
      [setBitField (setVersion buf p 2 p) 5 (0 : BitVec 1)] hq)
  have htype := hpadding.trans (Memory.sameBelow_put (setPadding (setVersion buf p 2) p 0) [t]
    (Nat.le_succ_of_le hq))
  exact htype.trans (Memory.sameBelow_put _ (bigEndian 4 ssrc.toNat) (by omega))

/-- The block count and the length of a report that has been begun. -/
theorem laid_of_open {os : List ℕ} {buf : Memory} {pkt len : ℕ} {types : ℕ → UInt8} (k : BitVec 5)
    (hlaid : Laid buf types 0 os pkt) (hbegun : Begun buf pkt (types pkt)) (hlen : pkt + 8 ≤ len)
    (hmax : len < 2 ^ 16) (hwhole : pkt % 4 = 0 ∧ len % 4 = 0) :
    Laid (setLength (setBlockCount buf pkt k) pkt ((len - pkt) / 4 - 1)) types 0
      (os ++ [pkt]) len := by
  have hsame : Memory.SameBelow pkt buf
      (setLength (setBlockCount buf pkt k) pkt ((len - pkt) / 4 - 1)) :=
    (Memory.sameBelow_put _ _ le_rfl).trans (Memory.sameBelow_put _ _ (by omega))
  have hlength := getLength_setLength (setBlockCount buf pkt k) pkt
    (show (len - pkt) / 4 - 1 < 2 ^ 16 by omega)
  have hdone := (hlaid.of_sameBelow hsame).concat ((hbegun.setBlockCount k).setLength _)
  rwa [hlength, show pkt + ((len - pkt) / 4 - 1 + 1) * 4 = len by omega] at hdone

/-- **A round of the loop** completes the report, and begins another one or not. -/
theorem packReport_spec (h : Open s d) (havailable : 32 ≤ available ∧ available < 2 ^ 16)
    (hlen : d.len < available) (clock : ℕ → Timeval) :
    ((s.packReport clock available d).another = true ∧ Open s (s.packReport clock available d) ∧
        d.len < (s.packReport clock available d).len ∧
        (s.packReport clock available d).len < available) ∨
      ((s.packReport clock available d).another = false ∧
        Closed s (s.packReport clock available d) ∧
        (s.packReport clock available d).len ≤ available) := by
  obtain ⟨os, hos, hlaid⟩ := h.laid
  obtain ⟨hpkt, hwhole⟩ := h.whole
  have hroom := h.len
  obtain ⟨hsame, k, hblocks, hcount, hend, hbound⟩ := packReportBlocks_spec clock
    (show 24 ≤ available ∧ available < 2 ^ 16 by omega) (le_refl d.reports) d.sources 0 d.len d.buf
    (by omega) (by omega)
  set r := packReportBlocks clock d.reports available d.sources 0 d.len d.buf with hr
  have hreports := h.reports
  have hdone := laid_of_open (BitVec.ofNat 5 r.blocks)
    (hlaid.of_sameBelow (hsame.mono (by omega))) (h.begun.of_sameBelow hsame (by omega))
    (show d.pkt + 8 ≤ r.len by omega) (by omega) (by omega)
  rw [← hos] at hdone
  rw [packReport, ← hr, h.prevlen, sizeSub_of_le havailable.1 havailable.2]
  split_ifs with hanother
  · have hmod : (r.len + 8) % 2 ^ 16 = r.len + 8 := by omega
    refine Or.inl ⟨rfl,
      ⟨⟨d.begun, rfl, hdone.of_sameBelow (sameBelow_setHeader _ le_rfl _ _)⟩, ?_, rfl,
      hmod.symm, Nat.le_of_eq hmod.symm, ?_, ?_⟩, ?_, ?_⟩
    · rw [reportTypes, if_neg (show r.len ≠ 0 by omega)]
      exact begun_setHeader _ r.len tRR s.localSSRC
    · show r.len % 4 = 0
      omega
    · show (r.len + 8) % 2 ^ 16 % 4 = 0
      omega
    · show d.len < (r.len + 8) % 2 ^ 16
      omega
    · show (r.len + 8) % 2 ^ 16 < available
      omega
  · refine Or.inr ⟨rfl, ⟨hdone, ?_, ?_⟩, ?_⟩
    · show d.begun ≠ []
      rw [hos]
      exact List.append_ne_nil_of_right_ne_nil os (List.cons_ne_nil _ _)
    · show r.len % 4 = 0
      omega
    · show r.len ≤ available
      omega

/-- What holds behind every round of the loop. -/
def Underway (s : ControlSender) (available : ℕ) (d : ReportDraft) : Prop :=
  (d.another = true ∧ Open s d ∧ d.len < available) ∨
    (d.another = false ∧ Closed s d ∧ d.len ≤ available)

/-- One round of the loop keeps it. -/
theorem underway_packReport (h : Open s d) (havailable : 32 ≤ available ∧ available < 2 ^ 16)
    (hlen : d.len < available) (clock : ℕ → Timeval) :
    Underway s available (s.packReport clock available d) := by
  rcases packReport_spec h havailable hlen clock with ⟨hagain, hnext, -, hlt⟩ | hend
  · exact Or.inl ⟨hagain, hnext, hlt⟩
  · exact Or.inr hend

/-- **The reports fill the compound** up to the octets that are available at most. -/
theorem laid_reports (s : ControlSender) (clock : ℕ → Timeval) (stamps : Stamps) (stale : Memory)
    (havailable : 32 ≤ s.available (s.beginReports stamps stale).len)
    (hfirst : (s.beginReports stamps stale).len < s.available (s.beginReports stamps stale).len) :
    ∃ d, s.packReports clock stamps stale = some d ∧ Closed s d ∧
      d.len ≤ s.available (s.beginReports stamps stale).len := by
  rw [packReports]
  set d₀ := s.beginReports stamps stale
  set available := s.available d₀.len
  have hmax : available < 2 ^ 16 := BitVec.isLt _
  have hround : ∀ d : ReportDraft, Underway s available d →
      decide (d.len < available ∧ d.another = true) = true →
      ∃ d', some (s.packReport clock available d) = some d' ∧ Underway s available d' ∧
        (if d'.another then available - d'.len else 0)
          < (if d.another then available - d.len else 0) := by
    intro d hd hcond
    obtain ⟨hlt, hagain⟩ := of_decide_eq_true hcond
    rcases hd with ⟨-, hopen, -⟩ | ⟨hend, -⟩
    · refine ⟨_, rfl, underway_packReport hopen ⟨havailable, hmax⟩ hlt clock, ?_⟩
      rw [if_pos hagain]
      rcases packReport_spec hopen ⟨havailable, hmax⟩ hlt clock with
        ⟨hnext, -, hmore, -⟩ | ⟨hend, -⟩
      · rw [if_pos hnext]
        omega
      · rw [hend, if_neg Bool.false_ne_true]
        omega
    · rw [hend] at hagain
      cases hagain
  have hstart :=
    underway_packReport (s.open_beginReports stamps stale) ⟨havailable, hmax⟩ hfirst clock
  obtain ⟨d, hd, hinv, hstop⟩ := whileLoop_of_measure _ _ hround (2 ^ 16) _ hstart (by
    split_ifs
    · omega
    · omega)
  refine ⟨d, hd, ?_⟩
  rcases hinv with ⟨hagain, -, hlt⟩ | ⟨-, hclosed, hle⟩
  · exact absurd ⟨hlt, hagain⟩ (of_decide_eq_false hstop)
  · exact ⟨hclosed, hle⟩

end ControlSender

/-! ## The source description -/

namespace Draft

variable {d : Draft} {p : ℕ} {l : Octets}

/-- The octets stand from the offset up to the end. -/
def Holds (d : Draft) (p : ℕ) (l : Octets) : Prop :=
  d.len = p + l.length ∧ d.buf.octets p l.length = l

/-- What is added is behind the octets packed so far. -/
theorem sameBelow_push (d : Draft) (l : Octets) : Memory.SameBelow d.len d.buf (d.push l).buf :=
  Memory.sameBelow_put d.buf l le_rfl

/-- **What is written at the end stays there.** -/
theorem Holds.push (h : d.Holds p l) (l' : Octets) (hmax : p + (l ++ l').length < 2 ^ 16) :
    (d.push l').Holds p (l ++ l') := by
  obtain ⟨hlen, hread⟩ := h
  rw [List.length_append] at hmax
  refine ⟨?_, ?_⟩
  · rw [Draft.push, List.length_append]
    dsimp only
    omega
  · have hold := (d.sameBelow_push l').octets (Nat.le_of_eq hlen.symm)
    have hnew : (d.push l').buf.octets (p + l.length) l'.length = l' := by
      rw [← hlen]
      exact Memory.octets_put_self d.buf d.len l'
    rw [List.length_append, Memory.octets_add, hold, hread]
    rw [hnew]

/-- A second write leaves what is before the first one. -/
theorem sameBelow_push_push (l l' : Octets) (hmax : d.len + l.length < 2 ^ 16) :
    Memory.SameBelow d.len d.buf ((d.push l).push l').buf := by
  have hlen : d.len ≤ (d.push l).len := by
    rw [Draft.push]
    dsimp only
    omega
  exact (d.sameBelow_push l).trans (((d.push l).sameBelow_push l').mono hlen)

end Draft

/-- A type, a length octet and the data. -/
def sdesItemOctets (item : UInt8 × Octets) : Octets :=
  item.1 :: UInt8.ofNat item.2.length :: item.2

namespace ControlSender

open RTCPPacket QueueRTCPManager

variable {s : ControlSender} {d : Draft} {p : ℕ} {l : Octets}

/-- The items of the chunk that is sent. -/
def chunkItems (s : ControlSender) : List (UInt8 × Octets) :=
  (sdesItemTypeCNAME, s.items sdesItemTypeCNAME) ::
    if s.scheduleSDESItem = sdesItemTypeEND then []
    else [(s.scheduleSDESItem, s.sentItem s.scheduleSDESItem)]

/-- An item is as long as its length octet says. -/
theorem length_sentItem (s : ControlSender) (t : UInt8) :
    (s.sentItem t).length = (s.itemLen t).toNat := by
  have hle : (s.itemLen t).toNat ≤ (s.content t).length := by
    rw [itemLen, UInt8.toNat_ofNat']
    exact Nat.mod_le _ _
  rw [sentItem, List.length_take, Nat.min_eq_left hle]

/-- An item without NUL is sent as it is if the length octet can tell its length. -/
theorem sentItem_of_le {t : UInt8} (hnul : 0 ∉ s.getSDESItem t)
    (hlen : (s.getSDESItem t).length ≤ 255) : s.sentItem t = s.getSDESItem t := by
  have hcontent : s.content t = s.getSDESItem t := takeWhile_of_nul_free hnul
  rw [sentItem, itemLen, hcontent, UInt8.toNat_ofNat', Nat.mod_eq_of_lt (by omega),
    List.take_length]

/-- What is scheduled is nothing or one of the items that take turns. -/
theorem scheduleSDESItem_cases (s : ControlSender) :
    s.scheduleSDESItem = sdesItemTypeEND ∨ (2 ≤ s.scheduleSDESItem ∧ s.scheduleSDESItem ≤ 8) := by
  rw [scheduleSDESItem]
  split_ifs
  · exact Or.inr s.schedulable_itemInTurn
  · exact Or.inl rfl

/-- The items sent are those of the application. -/
theorem getSDESItem_of_schedulable (s : ControlSender) {t : UInt8} (h : 2 ≤ t ∧ t ≤ 8) :
    s.getSDESItem t = s.items t := by
  rw [getSDESItem, if_pos ⟨UInt8.lt_of_lt_of_le (by decide) h.1, UInt8.le_trans h.2 (by decide)⟩]

/-- **The items are written one behind the other.** -/
theorem holds_items (h : d.Holds p (sdesItemOctets (sdesItemTypeCNAME, s.items sdesItemTypeCNAME)))
    (hmax : d.len + 257 < 2 ^ 16) :
    (s.packItem d).Holds p (s.chunkItems.flatMap sdesItemOctets) := by
  rw [packItem, chunkItems]
  rcases s.scheduleSDESItem_cases with hend | hturn
  · rw [hend, if_neg (by decide), if_pos rfl, List.flatMap_singleton]
    exact h
  · set t := s.scheduleSDESItem
    have hlow : sdesItemTypeCNAME < t := UInt8.lt_of_lt_of_le (by decide) hturn.1
    have hne : t ≠ sdesItemTypeEND := by
      rintro heq
      rw [heq] at hlow
      exact absurd hlow (by decide)
    have hlen : (s.sentItem t).length < 256 := by
      rw [length_sentItem]
      exact UInt8.toNat_lt _
    have hitem : sdesItemOctets (t, s.sentItem t) = [t, s.itemLen t] ++ s.sentItem t := by
      rw [sdesItemOctets, length_sentItem, UInt8.ofNat_toNat, List.cons_append, List.cons_append,
        List.nil_append]
    have hd := h.1
    have hhead := h.push [t, s.itemLen t] (by
      rw [List.length_append, List.length_cons, List.length_singleton]
      omega)
    have hall := hhead.push (s.sentItem t) (by
      rw [List.length_append, List.length_append, List.length_cons, List.length_singleton]
      omega)
    rw [if_pos ⟨hlow, UInt8.le_trans hturn.2 (by decide)⟩, if_neg hne, List.flatMap_cons,
      List.flatMap_singleton, hitem, ← List.append_assoc]
    exact hall

/-- The chunk is ended, and filled up to a multiple of four. -/
theorem holds_packEnd (h : d.Holds p l) (hmax : d.len + 4 < 2 ^ 16) :
    ∃ k, 0 < k ∧ k ≤ 4 ∧ (packEnd d).Holds p (l ++ List.replicate k sdesItemTypeEND) ∧
      (packEnd d).len % 4 = 0 := by
  have hd := h.1
  have hone := h.push [sdesItemTypeEND] (by
    rw [List.length_append, List.length_singleton]
    omega)
  have hlen : (d.push [sdesItemTypeEND]).len = d.len + 1 := by
    rw [hone.1, List.length_append, List.length_singleton]
    omega
  rw [packEnd]
  split_ifs with hwhole
  · exact ⟨1, by omega, by omega, hone, hwhole⟩
  · have hpad :=
      hone.push (List.replicate (4 - (d.push [sdesItemTypeEND]).len % 4) sdesItemTypeEND) (by
      rw [List.length_append, List.length_append, List.length_singleton, List.length_replicate]
      omega)
    have hzeros : [sdesItemTypeEND] ++
        List.replicate (4 - (d.push [sdesItemTypeEND]).len % 4) sdesItemTypeEND
          = List.replicate (4 - (d.push [sdesItemTypeEND]).len % 4 + 1) sdesItemTypeEND := rfl
    have hend := hpad.1
    rw [List.append_assoc, hzeros] at hpad hend
    refine ⟨_, Nat.succ_pos _, by omega, hpad, ?_⟩
    rw [hend, List.length_append, List.length_replicate]
    omega

/-- An item is behind the octets packed so far. -/
theorem sameBelow_packItem (s : ControlSender) (hmax : d.len + 2 < 2 ^ 16) :
    Memory.SameBelow d.len d.buf (s.packItem d).buf := by
  rw [packItem]
  split_ifs
  · exact Draft.sameBelow_push_push _ _ hmax
  · exact .refl _ _

/-- So is the end of the list. -/
theorem sameBelow_packEnd (hmax : d.len + 1 < 2 ^ 16) :
    Memory.SameBelow d.len d.buf (packEnd d).buf := by
  rw [packEnd]
  split_ifs
  · exact d.sameBelow_push _
  · exact Draft.sameBelow_push_push _ _ hmax

/-- The source description that has been begun. -/
theorem beginSDES_spec (s : ControlSender) (hmax : d.len + 10 < 2 ^ 16) :
    (s.beginSDES d).Holds (d.len + 8)
        [sdesItemTypeCNAME, UInt8.ofNat (s.items sdesItemTypeCNAME).length] ∧
      Memory.SameBelow d.len d.buf (s.beginSDES d).buf ∧
      Begun (s.beginSDES d).buf d.len tSDES ∧ blockCount (s.beginSDES d).buf d.len = 1 := by
  set head := setBlockCount (setHeader d.buf d.len tSDES s.localSSRC) d.len 1 with hhead
  have hput : Memory.SameBelow (d.len + 8) head (s.beginSDES d).buf :=
    Memory.sameBelow_put head _ le_rfl
  refine ⟨⟨?_, Memory.octets_put_self head _ _⟩, ?_, ?_, ?_⟩
  · show (d.len + 10) % 2 ^ 16 = d.len + 8 + 2
    omega
  · refine (sameBelow_setHeader d.buf le_rfl tSDES s.localSSRC).trans ?_
    exact (Memory.sameBelow_put _ _ le_rfl).trans (hput.mono (by omega))
  · exact ((begun_setHeader d.buf d.len tSDES s.localSSRC).setBlockCount 1).of_sameBelow hput
      (by omega)
  · rw [blockCount, hput d.len (by omega)]
    exact blockCount_setBlockCount _ _ _

/-- **The source description**: a packet with one chunk, which holds the items and is ended. -/
structure Described (s : ControlSender) (buf : Memory) (p len : ℕ) : Prop where
  begun : Begun buf p tSDES
  blockCount : blockCount buf p = 1
  length : p + getLength buf p = len
  items : ∃ k, 0 < k ∧ buf.octets (p + 8) (len - (p + 8))
    = s.chunkItems.flatMap sdesItemOctets ++ List.replicate k sdesItemTypeEND

/-- One or two items are sent. -/
theorem length_chunkItems (s : ControlSender) (hcname : (s.items sdesItemTypeCNAME).length ≤ 255) :
    2 ≤ (s.chunkItems.flatMap sdesItemOctets).length ∧
      (s.chunkItems.flatMap sdesItemOctets).length ≤ 514 := by
  have hlen : (s.sentItem s.scheduleSDESItem).length < 256 := by
    rw [length_sentItem]
    exact UInt8.toNat_lt _
  rw [chunkItems]
  split_ifs
  · simp only [List.flatMap_cons, List.flatMap_nil, sdesItemOctets, List.length_append,
      List.length_cons, List.length_nil]
    omega
  · simp only [List.flatMap_cons, List.flatMap_nil, sdesItemOctets, List.length_append,
      List.length_cons, List.length_nil]
    omega

/-- **The source description is complete**, behind what has been written before. -/
theorem packSDES_spec (s : ControlSender) (d : Draft)
    (hcname : (s.items sdesItemTypeCNAME).length ≤ 255)
    (hwhole : d.len % 4 = 0) (hmax : d.len + 526 < 2 ^ 16) :
    Memory.SameBelow d.len d.buf (s.packSDES d).buf ∧
      Described s (s.packSDES d).buf d.len (s.packSDES d).len ∧
      (s.packSDES d).len ≤ d.len + 526 := by
  obtain ⟨hhead, hbelow, hbegun, hcount⟩ := s.beginSDES_spec (show d.len + 10 < 2 ^ 16 by omega)
  have hcnameItem : s.getSDESItem sdesItemTypeCNAME = s.items sdesItemTypeCNAME := by
    rw [getSDESItem, if_pos (by decide)]
  rw [packSDES, hcnameItem]
  set b := s.beginSDES d
  have hb : b.len = d.len + 10 := hhead.1
  have hcnamePut := hhead.push (s.items sdesItemTypeCNAME) (by
    rw [List.length_append, List.length_cons, List.length_singleton]
    omega)
  set c := b.push (s.items sdesItemTypeCNAME)
  have hc : c.len = d.len + 10 + (s.items sdesItemTypeCNAME).length := by
    rw [hcnamePut.1, List.length_append, List.length_cons, List.length_singleton]
    omega
  have hitems := holds_items hcnamePut (by omega)
  have hi := hitems.1
  have hlength := s.length_chunkItems hcname
  set i := s.packItem c
  obtain ⟨k, hk, hk', hend, hwhole'⟩ := holds_packEnd hitems (by omega)
  have he := hend.1
  rw [List.length_append, List.length_replicate] at he
  set e := packEnd i
  -- everything behind the head of the CNAME item is written further back
  have hbehind : Memory.SameBelow b.len b.buf e.buf := by
    have hc' : Memory.SameBelow b.len b.buf c.buf := b.sameBelow_push _
    have hi' : Memory.SameBelow c.len c.buf i.buf := s.sameBelow_packItem (by omega)
    have he' : Memory.SameBelow i.len i.buf e.buf := sameBelow_packEnd (by omega)
    exact (hc'.trans (hi'.mono (by omega))).trans (he'.mono (by omega))
  clear_value e
  have hlengthField := getLength_setLength e.buf d.len
    (show (e.len - d.len - 1) / 4 < 2 ^ 16 by omega)
  refine ⟨?_, ⟨?_, ?_, ?_, ⟨k, hk, ?_⟩⟩, ?_⟩
  · exact (hbelow.trans (hbehind.mono (by omega))).trans (Memory.sameBelow_put _ _ (by omega))
  · exact (hbegun.of_sameBelow hbehind (by omega)).setLength _
  · show RTCPPacket.blockCount (setLength e.buf d.len _) d.len = 1
    rw [RTCPPacket.blockCount, setLength, Memory.put_of_lt _ _ (by omega),
      hbehind d.len (by omega)]
    exact hcount
  · show d.len + getLength (setLength e.buf d.len _) d.len = e.len
    rw [hlengthField]
    omega
  · show (setLength e.buf d.len _).octets (d.len + 8) (e.len - (d.len + 8)) = _
    rw [setLength, Memory.octets_put_of_ge _ _ (by rw [length_bigEndian]; omega)]
    have hread := hend.2
    rwa [List.length_append, List.length_replicate,
      show (s.chunkItems.flatMap sdesItemOctets).length + k = e.len - (d.len + 8) by omega] at hread
  · show e.len ≤ d.len + 526
    omega

end ControlSender

/-! ## The compound as a whole -/

namespace ControlSender

open RTCPPacket QueueRTCPManager

/-- The length of the first report without its blocks. -/
def firstLength (s : ControlSender) : ℕ := if s.sent then 28 else 8

/-- The first packet is an RR or an SR, here without blocks. -/
theorem firstLength_cases (s : ControlSender) : s.firstLength = 8 ∨ s.firstLength = 28 := by
  unfold firstLength
  split_ifs
  · exact Or.inr rfl
  · exact Or.inl rfl

/-- What the loop begins with. -/
theorem beginReports_spec (s : ControlSender) (stamps : Stamps) (stale : Memory) :
    (s.beginReports stamps stale).len = s.firstLength ∧
      (s.beginReports stamps stale).reports = s.firstLength ∧
      (s.beginReports stamps stale).prevlen = 0 ∧
      (s.beginReports stamps stale).pkt = 0 ∧
      (s.beginReports stamps stale).sources = s.sources := by
  unfold beginReports firstLength
  split_ifs
  · exact ⟨rfl, rfl, rfl, rfl, rfl⟩
  · exact ⟨rfl, rfl, rfl, rfl, rfl⟩

/-- The space for the report blocks, as a number: no difference wraps. -/
theorem available_eq (s : ControlSender) (hmtu : s.pathMTU = 1500)
    (hcname : (s.items sdesItemTypeCNAME).length ≤ 255) :
    s.available s.firstLength +
      (28 + s.firstLength + (6 + (s.items sdesItemTypeCNAME).length) + 100)
      = 1500 := by
  have h1500 : (1500 : BitVec 16).toNat = 1500 := rfl
  have h28 : (28 : BitVec 16).toNat = 28 := rfl
  have h100 : (100 : BitVec 16).toNat = 100 := rfl
  have hsmall := s.firstLength_cases
  unfold available
  rw [hmtu]
  simp only [BitVec.toNat_sub, BitVec.toNat_ofNat, h1500, h28, h100]
  omega

/-- With a path MTU of 1500 there is room for several report blocks. -/
theorem available_bounds (s : ControlSender) (hmtu : s.pathMTU = 1500)
    (hcname : (s.items sdesItemTypeCNAME).length ≤ 255) (stamps : Stamps) (stale : Memory) :
    (s.beginReports stamps stale).len ≤ 28 ∧
      1083 ≤ s.available (s.beginReports stamps stale).len ∧
      s.available (s.beginReports stamps stale).len ≤ 1358 := by
  obtain ⟨hlen, -⟩ := s.beginReports_spec stamps stale
  have hspace := s.available_eq hmtu hcname
  have hsmall := s.firstLength_cases
  rw [hlen]
  omega

/-- **What `dispatchControlPacket` builds**: reports from the start on, and behind them a
source description. -/
theorem dispatchControlPacket_spec (s : ControlSender) (clock : ℕ → Timeval) (stamps : Stamps)
    (stale : Memory) (hmtu : s.pathMTU = 1500)
    (hcname : (s.items sdesItemTypeCNAME).length ≤ 255) :
    ∃ c, s.dispatchControlPacket clock stamps stale = some c ∧ c.reports ≠ [] ∧
      Laid c.buf s.reportTypes 0 c.reports c.sdes ∧ Described s c.buf c.sdes c.len ∧
      c.len < 2 ^ 16 := by
  obtain ⟨hfirst, hlow, hhigh⟩ := s.available_bounds hmtu hcname stamps stale
  obtain ⟨d, hd, hclosed, hle⟩ := s.laid_reports clock stamps stale (by omega) (by omega)
  have hcompound : s.dispatchControlPacket clock stamps stale
      = some ⟨(s.packSDES ⟨d.buf, d.len⟩).buf, (s.packSDES ⟨d.buf, d.len⟩).len, d.begun, d.len,
          s.reported d.sources⟩ := by
    rw [dispatchControlPacket, hd, Option.map_some]
  have hroom : d.len + 526 < 2 ^ 16 := by omega
  obtain ⟨hsame, hdescribed, hmax⟩ := s.packSDES_spec ⟨d.buf, d.len⟩ hcname hclosed.whole hroom
  generalize s.packSDES ⟨d.buf, d.len⟩ = e at hcompound hsame hdescribed hmax
  exact ⟨_, hcompound, hclosed.nonempty, hclosed.laid.of_sameBelow hsame, hdescribed,
    Nat.lt_of_le_of_lt hmax hroom⟩

end ControlSender
