/-
# Reception statistics of a source

`computeStats` (`src/members.cpp`) makes the numbers of a report block out of what
`recordReception` has counted.  Two of them are not what a receiver of the report expects.

* A restart sets the accumulator to the sequence number too (`initSequence`), so that the
  extended highest number counts it twice.
* The base sequence number is never set, so all numbers below the first one count as lost.

Main facts:

* `extended_inOrder` : in order, the extended highest number goes up by the distances;
* `reported_computeStats` : these numbers are those of the report blocks;
* `restart_resynchronises_iff`, `cumulative_loss_iff` : the two slips come to light unless the
  sequence starts at 0;
* `fraction_lost_iff` : when the fraction lost is the one of the interval.
-/
import CcRtp.SequenceTracking
import CcRtp.RtcpSending

/-- `SyncSourceLink`, with the members that only `computeStats` works on. -/
structure MeasuredSource extends SyncSourceLink where
  extendedMaxSeqNum : BitVec 32
  cumulativePacketLost : BitVec 32
  fractionLost : BitVec 8
  baseSeqNum : BitVec 16
  expectedPrior : BitVec 32
  receivedPrior : BitVec 32

namespace MeasuredSource

/-- The link of a new source, as `initStats` leaves it, on probation. -/
def new (ssrc : BitVec 32) (activeSender : Bool) (probation : BitVec 8) : MeasuredSource where
  toSyncSourceLink := { SyncSourceLink.new ssrc activeSender with probation := probation }
  extendedMaxSeqNum := 0
  cumulativePacketLost := 0
  fractionLost := 0
  baseSeqNum := 0
  expectedPrior := 0
  receivedPrior := 0

/-- `recordReception` -/
def receive (policy : ReceptionPolicy) (sl : MeasuredSource) (pkt : ReceivedPacket) :
    MeasuredSource :=
  { sl with toSyncSourceLink := sl.toSyncSourceLink.receive policy pkt }

/-- The number of packets expected, as `computeStats` takes it. -/
def expected (sl : MeasuredSource) : BitVec 32 := sl.extended - sl.baseSeqNum.setWidth 32 + 1

/-- `computeStats()` -/
def computeStats (sl : MeasuredSource) : MeasuredSource :=
  let expected := sl.expected
  let pc := sl.obsPacketCount
  let lost := if pc = 0 then 0 else expected - pc
  let expectedDelta := expected - sl.expectedPrior
  let receivedDelta := sl.obsPacketCount - sl.receivedPrior
  let lostDelta := expectedDelta - receivedDelta
  { sl with
    extendedMaxSeqNum := sl.extended
    cumulativePacketLost := lost
    expectedPrior := expected
    receivedPrior := sl.obsPacketCount
    -- a `uint32` is never below zero
    fractionLost := if expectedDelta = 0 ∨ lostDelta ≤ 0 then 0
      else ((lostDelta <<< 8) / expectedDelta).setWidth 8 }

/-- The source as a report block is made of it, with the jitter and what the last sender report
has left. -/
def reported (sl : MeasuredSource) (jitter : BitVec 32) (senderInfo : Option Octets)
    (lastRTCPSRTime : Timeval) : ReportedSource where
  id := sl.id
  maxSeqNum := sl.maxSeqNum
  seqNumAccum := sl.seqNumAccum
  baseSeqNum := sl.baseSeqNum
  obsPacketCount := sl.obsPacketCount
  extendedMaxSeqNum := sl.extendedMaxSeqNum
  cumulativePacketLost := sl.cumulativePacketLost
  fractionLost := UInt8.ofBitVec sl.fractionLost
  expectedPrior := sl.expectedPrior
  receivedPrior := sl.receivedPrior
  jitter := jitter
  senderInfo := senderInfo
  lastRTCPSRTime := lastRTCPSRTime

/-- **The statistics are those of the report blocks that are sent.** -/
theorem reported_computeStats (sl : MeasuredSource) (jitter : BitVec 32)
    (senderInfo : Option Octets)
    (lastRTCPSRTime : Timeval) :
    (sl.reported jitter senderInfo lastRTCPSRTime).computeStats
      = sl.computeStats.reported jitter senderInfo lastRTCPSRTime := by
  have hfraction : ∀ expectedDelta lostDelta : BitVec 32,
      (if expectedDelta = 0 ∨ lostDelta = 0 then 0
        else UInt8.ofBitVec ((lostDelta <<< 8 / expectedDelta).setWidth 8))
      = UInt8.ofBitVec (if expectedDelta = 0 ∨ lostDelta ≤ 0 then 0
        else ((lostDelta <<< 8) / expectedDelta).setWidth 8) := by
    intro expectedDelta lostDelta
    have hle : lostDelta ≤ 0 ↔ lostDelta = 0 := BitVec.le_zero_iff
    simp only [hle]
    split_ifs <;> rfl
  unfold computeStats ReportedSource.computeStats reported
  dsimp only
  rw [hfraction]
  rfl

end MeasuredSource

namespace SyncSourceLink

variable {policy : ReceptionPolicy} {sl : SyncSourceLink} {pkt : ReceivedPacket}

/-! ## Packets in order -/

/-- The packets are in range, one after the other. -/
def InOrder (policy : ReceptionPolicy) : SyncSourceLink → List ReceivedPacket → Prop :=
  AlongRun (receive policy) (fun sl pkt => sl.InRange policy pkt.seqNum)

/-- The sum of the distances. -/
def totalSteps (policy : ReceptionPolicy) : SyncSourceLink → List ReceivedPacket → ℕ
  | _, [] => 0
  | sl, pkt :: pkts => (sl.step pkt.seqNum).toNat + totalSteps policy (sl.receive policy pkt) pkts

/-- A packet in order. -/
theorem receive_inRange (hvalid : sl.isValid = true) (hin : sl.InRange policy pkt.seqNum) :
    sl.receive policy pkt = (sl.advance pkt.seqNum).countPacket pkt := by
  rw [receive, recordReception_of_accepted (validate_inRange hvalid hin)]

/-- **In order, the extended highest number goes up by the distances**, and the packets are
counted. -/
theorem extended_inOrder {pkts : List ReceivedPacket} :
    ∀ {sl : SyncSourceLink}, sl.isValid = true → InOrder policy sl pkts →
      (pkts.foldl (receive policy) sl).extended
        = sl.extended + BitVec.ofNat 32 (totalSteps policy sl pkts) ∧
      (pkts.foldl (receive policy) sl).obsPacketCount
        = sl.obsPacketCount + BitVec.ofNat 32 pkts.length := by
  induction pkts with
  | nil =>
      intro sl _ _
      exact ⟨(BitVec.add_zero _).symm, (BitVec.add_zero _).symm⟩
  | cons pkt pkts ih =>
      intro sl hvalid hin
      obtain ⟨hfirst, hrest⟩ := hin
      obtain ⟨hext, hobs⟩ := ih (isValid_receive hvalid pkt) hrest
      rw [List.foldl_cons, hext, hobs, totalSteps, List.length_cons]
      have hreceive := receive_inRange hvalid hfirst
      have hone : (sl.receive policy pkt).extended
          = sl.extended + (sl.step pkt.seqNum).setWidth 32 := by
        rw [hreceive]
        exact extended_advance sl pkt.seqNum
      have hcount : (sl.receive policy pkt).obsPacketCount = sl.obsPacketCount + 1 := by
        rw [hreceive]
        rfl
      rw [hone, hcount]
      constructor
      · rw [BitVec.ofNat_add, BitVec.ofNat_toNat, BitVec.add_assoc]
      · rw [BitVec.ofNat_add, BitVec.add_assoc, BitVec.add_comm 1]
        rfl

/-- In order, the accumulator stays the same modulo `2 ^ 16`. -/
theorem seqNumAccum_inOrder {pkts : List ReceivedPacket} :
    ∀ {sl : SyncSourceLink}, sl.isValid = true → InOrder policy sl pkts →
      (pkts.foldl (receive policy) sl).seqNumAccum.toNat % 2 ^ 16
        = sl.seqNumAccum.toNat % 2 ^ 16 := by
  induction pkts with
  | nil =>
      intro sl _ _
      rfl
  | cons pkt pkts ih =>
      intro sl hvalid hin
      rw [List.foldl_cons, ih (isValid_receive hvalid pkt) hin.2, receive_inRange hvalid hin.1]
      unfold countPacket advance
      dsimp only
      split_ifs
      · rw [BitVec.toNat_add, BitVec.toNat_ofNat]
        have hmod : seqNumMod = 65536 := rfl
        omega
      · rfl

/-! ## Restarts -/

/-- The packet starts a new sequence: the probation ends with it, or it is out of range and
carries the number remembered. -/
def Restarts (policy : ReceptionPolicy) (sl : SyncSourceLink) (seqNum : BitVec 16) : Prop :=
  (sl.probation = 1 ∧ seqNum.toNat = sl.maxSeqNum.toNat + 1) ∨
    (sl.isValid = true ∧ sl.OutOfRange policy seqNum ∧ seqNum.setWidth 32 = sl.badSeqNum)

/-- **A restart** counts the sequence number twice. -/
theorem receive_restart (h : sl.Restarts policy pkt.seqNum) :
    (sl.receive policy pkt).isValid = true ∧
      (sl.receive policy pkt).extended = pkt.seqNum.setWidth 32 + pkt.seqNum.setWidth 32 ∧
      (sl.receive policy pkt).seqNumAccum = pkt.seqNum.setWidth 32 := by
  rcases h with ⟨hprobation, hseq⟩ | ⟨hvalid, hout, hbad⟩
  · have hinvalid : sl.isValid = false := by
      rw [isValid, hprobation]
      rfl
    have hval := validate_inSequence policy hinvalid hseq
    rw [hprobation, if_pos (sub_self 1)] at hval
    rw [receive, recordReception_of_accepted hval]
    exact ⟨rfl, rfl, rfl⟩
  · rw [receive, recordReception_of_accepted (validate_restart hvalid hout hbad)]
    exact ⟨hvalid, rfl, rfl⟩

end SyncSourceLink

namespace MeasuredSource

open SyncSourceLink (InOrder totalSteps Restarts)

variable {policy : ReceptionPolicy} {sl : MeasuredSource} {pkt : ReceivedPacket}

variable (policy) in
theorem toSyncSourceLink_foldl (sl : MeasuredSource) (pkts : List ReceivedPacket) :
    (pkts.foldl (receive policy) sl).toSyncSourceLink
      = pkts.foldl (SyncSourceLink.receive policy) sl.toSyncSourceLink := by
  induction pkts generalizing sl with
  | nil => rfl
  | cons pkt pkts ih => exact ih (sl.receive policy pkt)

/-- Sequence numbers stay different as 32-bit numbers. -/
theorem setWidth_eq_zero_iff (seqNum : BitVec 16) : seqNum.setWidth 32 = 0 ↔ seqNum = 0 := by
  rw [← BitVec.toNat_inj, ← BitVec.toNat_inj, BitVec.toNat_setWidth, Nat.mod_eq_of_lt]
  · rfl
  · have hlt := seqNum.isLt
    omega

/-- **The statistics are synchronised again**: the extended highest number is the one of the
restart plus the distances since, and the accumulator counts whole periods. -/
structure Resynchronised (q : BitVec 16) (total : ℕ) (sl : MeasuredSource) : Prop where
  extended : sl.computeStats.extendedMaxSeqNum = q.setWidth 32 + BitVec.ofNat 32 total
  congruent : sl.computeStats.extendedMaxSeqNum.toNat % 2 ^ 16 = sl.maxSeqNum.toNat
  accum : sl.seqNumAccum.toNat % 2 ^ 16 = 0

/-- The extended number ends in the highest one, if the accumulator counts whole periods. -/
theorem extended_mod (h : sl.seqNumAccum.toNat % 2 ^ 16 = 0) :
    sl.extended.toNat % 2 ^ 16 = sl.maxSeqNum.toNat := by
  have hmax := sl.maxSeqNum.isLt
  rw [SyncSourceLink.extended, BitVec.toNat_add, BitVec.toNat_setWidth]
  omega

/-- **Restarts.**  Behind a restart, and however many packets in order, the statistics are
synchronised exactly if the sequence has started at 0. -/
theorem restart_resynchronises_iff (policy : ReceptionPolicy) (sl : MeasuredSource)
    {pkt : ReceivedPacket} (hrestart : sl.Restarts policy pkt.seqNum) (pkts : List ReceivedPacket)
    (hin : InOrder policy (sl.receive policy pkt).toSyncSourceLink pkts) :
    Resynchronised pkt.seqNum (totalSteps policy (sl.receive policy pkt).toSyncSourceLink pkts)
        (pkts.foldl (receive policy) (sl.receive policy pkt)) ↔ pkt.seqNum = 0 := by
  obtain ⟨hvalid, hext₀, haccum₀⟩ := SyncSourceLink.receive_restart hrestart
  have hfold : (pkts.foldl (receive policy) (sl.receive policy pkt)).toSyncSourceLink
      = pkts.foldl (SyncSourceLink.receive policy) (sl.toSyncSourceLink.receive policy pkt) :=
    toSyncSourceLink_foldl policy _ pkts
  have hext := (SyncSourceLink.extended_inOrder hvalid hin).1
  have haccum := SyncSourceLink.seqNumAccum_inOrder hvalid hin
  rw [hext₀, ← hfold] at hext
  rw [haccum₀, ← hfold] at haccum
  have hwide : pkt.seqNum.setWidth 32 = 0 ↔ pkt.seqNum = 0 := setWidth_eq_zero_iff _
  constructor
  · intro h
    have heq := add_right_cancel (hext.symm.trans h.extended)
    exact hwide.mp (add_eq_left.mp heq)
  · intro hzero
    rw [hwide.mpr hzero] at hext haccum
    have hmod :
        (pkts.foldl (receive policy) (sl.receive policy pkt)).seqNumAccum.toNat % 2 ^ 16 = 0 :=
      haccum
    refine ⟨?_, extended_mod hmod, hmod⟩
    rw [hwide.mpr hzero, ← zero_add (0 : BitVec 32)]
    exact hext

/-- A valid source whose remembered number comes: the sequence starts again at 0. -/
theorem restart_resynchronises_at_zero :
    Resynchronised 0
      (totalSteps .default (({ MeasuredSource.new 7 false 0 with
        obsPacketCount := 1, maxSeqNum := 30000, badSeqNum := 0 } : MeasuredSource).receive .default
          ⟨0, 160, 0⟩).toSyncSourceLink [⟨1, 160, 160⟩, ⟨4, 160, 640⟩])
      ([⟨1, 160, 160⟩, ⟨4, 160, 640⟩].foldl (receive .default)
        (({ MeasuredSource.new 7 false 0 with
          obsPacketCount := 1, maxSeqNum := 30000, badSeqNum := 0 } : MeasuredSource).receive
            .default
            ⟨0, 160, 0⟩)) :=
  (@restart_resynchronises_iff .default _ ⟨0, 160, 0⟩ (Or.inr ⟨rfl, by decide, rfl⟩) _
    (by unfold InOrder; decide)).mpr rfl

/-- The probation ends with number 100, and the extended highest number is 200. -/
theorem restart_counts_twice :
    ({ MeasuredSource.new 7 false 1 with maxSeqNum := 99 } : MeasuredSource).Restarts .default 100 ∧
      (({ MeasuredSource.new 7 false 1 with maxSeqNum := 99 } : MeasuredSource).receive .default
        ⟨100, 160, 0⟩).computeStats.extendedMaxSeqNum = 200 ∧
      ¬ Resynchronised 100 0 (({ MeasuredSource.new 7 false 1 with maxSeqNum := 99 } :
        MeasuredSource).receive .default ⟨100, 160, 0⟩) := by
  refine ⟨Or.inl ⟨rfl, rfl⟩, by decide, fun h => ?_⟩
  exact absurd h.extended (by decide)

/-! ## Packets lost -/

/-- Packets in increasing order, modulo `2 ^ 16`, with gaps below the dropout. -/
def Increasing (policy : ReceptionPolicy) (sl : SyncSourceLink) (pkt : ReceivedPacket) : Prop :=
  0 < sl.step pkt.seqNum ∧ sl.InRange policy pkt.seqNum

instance {sl : SyncSourceLink} : Decidable (Increasing policy sl pkt) :=
  inferInstanceAs (Decidable (_ ∧ _))

/-- The number of sequence numbers skipped. -/
def skipped (policy : ReceptionPolicy) : SyncSourceLink → List ReceivedPacket → ℕ
  | _, [] => 0
  | sl, pkt :: pkts => ((sl.step pkt.seqNum).toNat - 1) +
    skipped policy (sl.receive policy pkt) pkts

/-- Every packet takes up one number of its distance. -/
theorem skipped_add_length {pkts : List ReceivedPacket} :
    ∀ {sl : SyncSourceLink}, AlongRun (SyncSourceLink.receive policy) (Increasing policy) sl pkts →
      skipped policy sl pkts + pkts.length = totalSteps policy sl pkts := by
  induction pkts with
  | nil =>
      intro sl _
      rfl
  | cons pkt pkts ih =>
      intro sl hin
      obtain ⟨⟨hpos, -⟩, hrest⟩ := hin
      have hzero : (0 : BitVec 16).toNat = 0 := rfl
      rw [BitVec.lt_def, hzero] at hpos
      rw [skipped, totalSteps, List.length_cons, ← ih hrest]
      omega

/-- **The first packet** of a new source. -/
theorem receive_first (ssrc : BitVec 32) (activeSender : Bool) (first : ReceivedPacket) :
    ((new ssrc activeSender 0).receive .default first).isValid = true ∧
      ((new ssrc activeSender 0).receive .default first).extended = first.seqNum.setWidth 32 ∧
      ((new ssrc activeSender 0).receive .default first).obsPacketCount = 1 := by
  set sl := (new ssrc activeSender 0).toSyncSourceLink with hsl
  have hvalid : sl.isValid = true := rfl
  change (sl.receive .default first).isValid = true ∧
    (sl.receive .default first).extended = _ ∧ (sl.receive .default first).obsPacketCount = 1
  by_cases hin : sl.InRange .default first.seqNum
  · rw [SyncSourceLink.receive_inRange hvalid hin]
    refine ⟨rfl, ?_, rfl⟩
    have hext := SyncSourceLink.extended_advance sl first.seqNum
    have hzero : sl.extended = 0 := rfl
    have hstep : sl.step first.seqNum = first.seqNum := sub_zero _
    rw [hzero, hstep, zero_add] at hext
    exact hext
  · have hlate : ¬ sl.Late .default first.seqNum := Nat.not_lt_zero _
    have hbad : first.seqNum.setWidth 32 ≠ sl.badSeqNum := by
      intro heq
      have hnat := congrArg BitVec.toNat heq
      have hlt := first.seqNum.isLt
      have hstart : sl.badSeqNum.toNat = 65537 := rfl
      rw [hstart, BitVec.toNat_setWidth] at hnat
      omega
    have hout := SyncSourceLink.validate_outOfRange hvalid ⟨hin, hlate⟩ hbad
    have hobs : ¬ 0 < sl.obsPacketCount := BitVec.lt_irrefl _
    rw [if_neg hobs] at hout
    rw [SyncSourceLink.receive, SyncSourceLink.recordReception_of_accepted hout]
    exact ⟨rfl, BitVec.add_zero _, rfl⟩

theorem baseSeqNum_foldl (sl : MeasuredSource) (pkts : List ReceivedPacket) :
    (pkts.foldl (receive policy) sl).baseSeqNum = sl.baseSeqNum := by
  induction pkts generalizing sl with
  | nil => rfl
  | cons pkt pkts ih => exact ih (sl.receive policy pkt)

theorem ofNat_eq_zero_iff (n : ℕ) : BitVec.ofNat 32 n = 0 ↔ 2 ^ 32 ∣ n := by
  rw [← BitVec.toNat_inj, BitVec.toNat_ofNat, Nat.dvd_iff_mod_eq_zero]
  rfl

/-- **Cumulative loss.**  From the first packet of a new source on, with the default settings,
the packets lost are the sequence numbers skipped exactly if the first packet carries number 0,
as long as the packet count has not wrapped around to zero. -/
theorem cumulative_loss_iff (ssrc : BitVec 32) (activeSender : Bool) (first : ReceivedPacket)
    (pkts : List ReceivedPacket)
    (hin : AlongRun (SyncSourceLink.receive .default) (Increasing .default)
      ((new ssrc activeSender 0).receive .default first).toSyncSourceLink pkts) :
    (pkts.foldl (receive .default)
        ((new ssrc activeSender 0).receive .default first)).computeStats.cumulativePacketLost
      = BitVec.ofNat 32 (skipped .default
          ((new ssrc activeSender 0).receive .default first).toSyncSourceLink pkts) ↔
      if 2 ^ 32 ∣ pkts.length + 1 then 2 ^ 32 ∣ skipped .default
          ((new ssrc activeSender 0).receive .default first).toSyncSourceLink pkts
      else first.seqNum = 0 := by
  obtain ⟨hvalid, hext₀, hobs₀⟩ := receive_first ssrc activeSender first
  set sl := (new ssrc activeSender 0).receive .default first with hsl
  have hfold := toSyncSourceLink_foldl .default sl pkts
  obtain ⟨hext, hobs⟩ := SyncSourceLink.extended_inOrder hvalid (hin.mono (fun _ _ h => h.2))
  rw [hext₀, ← skipped_add_length hin, ← hfold] at hext
  rw [hobs₀, ← hfold] at hobs
  have hbase : (pkts.foldl (receive .default) sl).baseSeqNum = 0 := baseSeqNum_foldl sl pkts
  have hcount : (pkts.foldl (receive .default) sl).obsPacketCount
      = BitVec.ofNat 32 (pkts.length + 1) := by
    rw [hobs, BitVec.ofNat_add, BitVec.add_comm]
    rfl
  have hnone : (pkts.foldl (receive .default) sl).obsPacketCount = 0 ↔
      2 ^ 32 ∣ pkts.length + 1 := by
    rw [hcount, ofNat_eq_zero_iff]
  have hlost : (pkts.foldl (receive .default) sl).computeStats.cumulativePacketLost
      = if (pkts.foldl (receive .default) sl).obsPacketCount = 0 then 0
        else expected (pkts.foldl (receive .default) sl)
          - (pkts.foldl (receive .default) sl).obsPacketCount := rfl
  rw [hlost]
  by_cases hwrap : 2 ^ 32 ∣ pkts.length + 1
  · rw [if_pos (hnone.mpr hwrap), if_pos hwrap, ← ofNat_eq_zero_iff]
    exact eq_comm
  · -- the numbers below the first one are added to those skipped
    have hsum : expected (pkts.foldl (receive .default) sl)
        - (pkts.foldl (receive .default) sl).obsPacketCount
        = first.seqNum.setWidth 32 +
          BitVec.ofNat 32 (skipped .default sl.toSyncSourceLink pkts) := by
      have hzero : (0 : BitVec 16).setWidth 32 = 0 := rfl
      rw [expected, hext, hbase, hobs, hzero, BitVec.ofNat_add]
      abel
    rw [if_neg (mt hnone.mp hwrap), if_neg hwrap, hsum, add_eq_right, setWidth_eq_zero_iff]

/-- Four packets from number 0 on, with two numbers skipped. -/
theorem cumulative_loss_from_zero :
    ([⟨1, 160, 160⟩, ⟨4, 160, 640⟩, ⟨5, 160, 800⟩].foldl (receive .default)
        ((new 7 false 0).receive .default ⟨0, 160, 0⟩)).computeStats.cumulativePacketLost
      = BitVec.ofNat 32 (skipped .default
          ((new 7 false 0).receive .default ⟨0, 160, 0⟩).toSyncSourceLink
            [⟨1, 160, 160⟩, ⟨4, 160, 640⟩, ⟨5, 160, 800⟩]) :=
  (cumulative_loss_iff 7 false ⟨0, 160, 0⟩ _ (by decide)).mpr (by decide)

/-- A single packet with number 100: a hundred packets count as lost. -/
theorem first_packet_counts_losses :
    ((new 7 false 0).receive .default ⟨100, 160, 0⟩).computeStats.cumulativePacketLost = 100 ∧
      ¬ ((new 7 false 0).receive .default ⟨100, 160, 0⟩).computeStats.cumulativePacketLost
        = BitVec.ofNat 32 (skipped .default
          ((new 7 false 0).receive .default ⟨100, 160, 0⟩).toSyncSourceLink []) := by
  decide

/-! ## The fraction lost -/

/-- The fraction of `E` packets expected that is lost when `R` are received, in 256ths. -/
def fractionOf (E R : ℕ) : ℕ := if E = 0 ∨ E ≤ R then 0 else min 255 (256 * (E - R) / E)

/-- The fraction as `computeStats` takes it. -/
def fraction (expectedDelta receivedDelta : BitVec 32) : BitVec 8 :=
  if expectedDelta = 0 ∨ expectedDelta - receivedDelta ≤ 0 then 0
  else (((expectedDelta - receivedDelta) <<< 8) / expectedDelta).setWidth 8

/-- When the 32-bit numbers give the fraction. -/
def FractionExact (E R : ℕ) : Prop :=
  E = 0 ∨ (0 < R ∧ R ≤ E) ∨ (E < R ∧ 256 ∣ (2 ^ 32 - 256 * (R - E)) / E)

/-- Fewer packets are received than expected. -/
theorem fraction_of_lt {e r : BitVec 32} (he : e.toNat < 2 ^ 23) (hlt : r.toNat < e.toNat) :
    (fraction e r).toNat = 256 * (e.toNat - r.toNat) / e.toNat % 256 := by
  have hsub : (e - r).toNat = e.toNat - r.toNat := by
    rw [BitVec.toNat_sub]
    omega
  have hpos : ¬ (e = 0 ∨ e - r ≤ 0) := by
    rintro (rfl | hle)
    · exact absurd hlt (Nat.not_lt_zero _)
    · rw [BitVec.le_def, hsub] at hle
      have hzero : (0 : BitVec 32).toNat = 0 := rfl
      omega
  rw [fraction, if_neg hpos, BitVec.toNat_setWidth, BitVec.toNat_udiv, BitVec.toNat_shiftLeft, hsub,
    Nat.shiftLeft_eq, Nat.mod_eq_of_lt (by omega : (e.toNat - r.toNat) * 2 ^ 8 < 2 ^ 32),
    mul_comm]
  rfl

/-- More packets are received than expected. -/
theorem fraction_of_gt {e r : BitVec 32} (hr : r.toNat < 2 ^ 23) (hpos : 0 < e.toNat)
    (hgt : e.toNat < r.toNat) :
    (fraction e r).toNat = (2 ^ 32 - 256 * (r.toNat - e.toNat)) / e.toNat % 256 := by
  have hsub : (e - r).toNat = 2 ^ 32 - (r.toNat - e.toNat) := by
    rw [BitVec.toNat_sub]
    omega
  have hzero : (0 : BitVec 32).toNat = 0 := rfl
  have hne : ¬ (e = 0 ∨ e - r ≤ 0) := by
    rintro (rfl | hle)
    · exact absurd hpos (lt_irrefl _)
    · rw [BitVec.le_def, hsub] at hle
      omega
  have hshift : (2 ^ 32 - (r.toNat - e.toNat)) * 2 ^ 8 % 2 ^ 32
      = 2 ^ 32 - 256 * (r.toNat - e.toNat) := by omega
  rw [fraction, if_neg hne, BitVec.toNat_setWidth, BitVec.toNat_udiv, BitVec.toNat_shiftLeft, hsub,
    Nat.shiftLeft_eq, hshift]

theorem fraction_eq_iff {e r : BitVec 32} (he : e.toNat < 2 ^ 23) (hr : r.toNat < 2 ^ 23) :
    (fraction e r).toNat = fractionOf e.toNat r.toNat ↔ FractionExact e.toNat r.toNat := by
  unfold fractionOf FractionExact
  rcases Nat.eq_zero_or_pos e.toNat with hzero | hpos
  · have he0 : e = 0 := BitVec.eq_of_toNat_eq hzero
    rw [if_pos (Or.inl hzero), fraction, if_pos (Or.inl he0)]
    exact iff_of_true rfl (Or.inl hzero)
  · rcases lt_trichotomy r.toNat e.toNat with hlt | heq | hgt
    · rw [fraction_of_lt he hlt, if_neg (by omega)]
      rcases Nat.eq_zero_or_pos r.toNat with hnone | hsome
      · -- everything is lost: 256 is one more than fits
        rw [hnone, Nat.sub_zero, Nat.mul_div_cancel _ hpos]
        exact iff_of_false (by decide) (by omega)
      · have hle : 256 * (e.toNat - r.toNat) / e.toNat < 256 := by
          rw [Nat.div_lt_iff_lt_mul hpos]
          omega
        rw [Nat.mod_eq_of_lt hle, min_eq_right (by omega)]
        exact iff_of_true rfl (Or.inr (Or.inl ⟨hsome, hlt.le⟩))
    · have heq' : e - r ≤ 0 := by
        rw [BitVec.eq_of_toNat_eq heq, BitVec.sub_self]
        exact BitVec.le_refl _
      rw [if_pos (Or.inr heq.ge), fraction, if_pos (Or.inr heq')]
      exact iff_of_true rfl (Or.inr (Or.inl ⟨by omega, heq.le⟩))
    · rw [fraction_of_gt hr hpos hgt, if_pos (Or.inr hgt.le), ← Nat.dvd_iff_mod_eq_zero]
      constructor
      · exact fun h => Or.inr (Or.inr ⟨hgt, h⟩)
      · rintro (h | h | h)
        · omega
        · omega
        · exact h.2

/-- The number of packets accepted. -/
def accepted (policy : ReceptionPolicy) : SyncSourceLink → List ReceivedPacket → ℕ
  | _, [] => 0
  | sl, pkt :: pkts => (if (sl.recordReception policy pkt).1 then 1 else 0)
      + accepted policy (sl.receive policy pkt) pkts

/-- Every packet accepted is counted. -/
theorem obsPacketCount_foldl (sl : SyncSourceLink) (pkts : List ReceivedPacket) :
    (pkts.foldl (SyncSourceLink.receive policy) sl).obsPacketCount
      = sl.obsPacketCount + BitVec.ofNat 32 (accepted policy sl pkts) := by
  induction pkts generalizing sl with
  | nil => exact (BitVec.add_zero _).symm
  | cons pkt pkts ih =>
      obtain ⟨-, -, -, hresult, hobs⟩ := SyncSourceLink.recordReception_frame policy sl pkt
      rw [List.foldl_cons, ih, accepted, SyncSourceLink.receive, hobs, hresult, BitVec.ofNat_add]
      split_ifs
      · rw [BitVec.add_assoc]
        rfl
      · exact congrArg (sl.obsPacketCount + ·) (BitVec.zero_add _).symm

variable (policy) in
/-- The numbers kept from the last report. -/
theorem prior_foldl (sl : MeasuredSource) (pkts : List ReceivedPacket) :
    (pkts.foldl (receive policy) sl).expectedPrior = sl.expectedPrior ∧
      (pkts.foldl (receive policy) sl).receivedPrior = sl.receivedPrior := by
  induction pkts generalizing sl with
  | nil => exact ⟨rfl, rfl⟩
  | cons pkt pkts ih => exact ih (sl.receive policy pkt)

/-- The number of packets newly expected after those received. -/
def newlyExpected (policy : ReceptionPolicy) (sl : MeasuredSource)
    (pkts : List ReceivedPacket) : ℕ :=
  ((pkts.foldl (receive policy) sl).expected - sl.expected).toNat

/-- **The fraction lost in an interval** between two reports, whatever is received in it. -/
theorem fraction_lost_iff (policy : ReceptionPolicy) (sl : MeasuredSource)
    (pkts : List ReceivedPacket) (hE : newlyExpected policy sl.computeStats pkts < 2 ^ 23)
    (hR : accepted policy sl.computeStats.toSyncSourceLink pkts < 2 ^ 23) :
    (pkts.foldl (receive policy) sl.computeStats).computeStats.fractionLost.toNat
      = fractionOf (newlyExpected policy sl.computeStats pkts)
          (accepted policy sl.computeStats.toSyncSourceLink pkts) ↔
      FractionExact (newlyExpected policy sl.computeStats pkts)
        (accepted policy sl.computeStats.toSyncSourceLink pkts) := by
  set final := pkts.foldl (receive policy) sl.computeStats with hfinal
  obtain ⟨hexpected, hreceived⟩ := prior_foldl policy sl.computeStats pkts
  have hobs : final.obsPacketCount - final.receivedPrior
      = BitVec.ofNat 32 (accepted policy sl.computeStats.toSyncSourceLink pkts) := by
    have hcount : final.obsPacketCount = sl.obsPacketCount
        + BitVec.ofNat 32 (accepted policy sl.computeStats.toSyncSourceLink pkts) := by
      rw [hfinal, toSyncSourceLink_foldl]
      exact obsPacketCount_foldl _ pkts
    rw [hcount, hreceived]
    exact add_sub_cancel_left _ _
  have htoNat : (final.obsPacketCount - final.receivedPrior).toNat
      = accepted policy sl.computeStats.toSyncSourceLink pkts := by
    rw [hobs, BitVec.toNat_ofNat, Nat.mod_eq_of_lt (by omega)]
  have hdelta : (final.expected - final.expectedPrior).toNat
      = newlyExpected policy sl.computeStats pkts := by
    rw [newlyExpected, hexpected]
    rfl
  have hfraction : final.computeStats.fractionLost
      = fraction (final.expected - final.expectedPrior)
          (final.obsPacketCount - final.receivedPrior) := rfl
  rw [← hdelta] at hE ⊢
  rw [← htoNat] at hR ⊢
  rw [hfraction]
  exact fraction_eq_iff hE hR

/-- One of four packets is lost. -/
theorem fraction_lost_one_in_four :
    ([⟨1, 160, 160⟩, ⟨3, 160, 480⟩, ⟨4, 160, 640⟩].foldl (receive .default)
        ((new 7 false 0).receive .default ⟨0, 160, 0⟩).computeStats).computeStats.fractionLost.toNat
      = fractionOf (newlyExpected .default
          ((new 7 false 0).receive .default ⟨0, 160, 0⟩).computeStats
            [⟨1, 160, 160⟩, ⟨3, 160, 480⟩, ⟨4, 160, 640⟩])
        (accepted .default
          ((new 7 false 0).receive .default ⟨0, 160, 0⟩).computeStats.toSyncSourceLink
            [⟨1, 160, 160⟩, ⟨3, 160, 480⟩, ⟨4, 160, 640⟩]) :=
  (fraction_lost_iff .default _ _ (by decide) (by decide)).mpr (by unfold FractionExact; decide)

/-- Three packets are expected and five come, two of them again: two thirds count as lost. -/
theorem duplicates_count_as_lost :
    newlyExpected .default ((new 7 false 0).receive .default ⟨0, 160, 0⟩).computeStats
        [⟨1, 160, 160⟩, ⟨2, 160, 320⟩, ⟨3, 160, 480⟩, ⟨3, 160, 480⟩, ⟨3, 160, 480⟩] = 3 ∧
      accepted .default ((new 7 false 0).receive .default ⟨0, 160, 0⟩).computeStats.toSyncSourceLink
        [⟨1, 160, 160⟩, ⟨2, 160, 320⟩, ⟨3, 160, 480⟩, ⟨3, 160, 480⟩, ⟨3, 160, 480⟩] = 5 ∧
      ([⟨1, 160, 160⟩, ⟨2, 160, 320⟩, ⟨3, 160, 480⟩, ⟨3, 160, 480⟩, ⟨3, 160, 480⟩].foldl
        (receive .default)
        ((new 7 false 0).receive .default ⟨0, 160, 0⟩).computeStats).computeStats.fractionLost
          = 170 ∧
      ¬ ([⟨1, 160, 160⟩, ⟨2, 160, 320⟩, ⟨3, 160, 480⟩, ⟨3, 160, 480⟩, ⟨3, 160, 480⟩].foldl
        (receive .default)
        ((new 7 false 0).receive .default ⟨0, 160, 0⟩).computeStats).computeStats.fractionLost.toNat
          = fractionOf 3 5 := by
  decide

end MeasuredSource
