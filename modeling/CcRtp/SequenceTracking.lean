/-
# Sequence numbers of a source

What `recordReception` (`src/incqueue.cpp`) makes of the sequence numbers of a source.  If it is
valid, the distance from the highest number so far, modulo `2 ^ 16`, says which branch is taken.

* `validate_inRange`, `validate_late`, `validate_restart`, `validate_outOfRange` : the branches
  for a valid source;
* `validate_inSequence`, `validate_notInSequence` : those for a source on probation;
* `extended_advance` : the extended highest number goes up by the distance;
* `sequence_tracking_iff` : along every run without restarts the numbers are tracked as long as
  the packet count has not wrapped around.
-/
import CcRtp.MembershipCalls
import CcRtp.AlongRun

namespace SyncSourceLink

variable {policy : ReceptionPolicy} {sl : SyncSourceLink} {seqNum : BitVec 16}
  {pkt : ReceivedPacket}

/-! ## Branches -/

/-- The distance from the highest sequence number. -/
def step (sl : SyncSourceLink) (seqNum : BitVec 16) : BitVec 16 := seqNum - sl.maxSeqNum

/-- Ordered, with not too high step. -/
def InRange (policy : ReceptionPolicy) (sl : SyncSourceLink) (seqNum : BitVec 16) : Prop :=
  sl.step seqNum < policy.maxPacketDropout

/-- Late by fewer packets than may be reordered. -/
def Late (policy : ReceptionPolicy) (sl : SyncSourceLink) (seqNum : BitVec 16) : Prop :=
  seqNumMod - (sl.step seqNum).toNat < policy.maxPacketMisorder.toNat

/-- Too high step of the sequence number. -/
def OutOfRange (policy : ReceptionPolicy) (sl : SyncSourceLink) (seqNum : BitVec 16) : Prop :=
  ¬ sl.InRange policy seqNum ∧ ¬ sl.Late policy seqNum

/-- `getMaxSeqNum() + getSeqNumAccum()` -/
def extended (sl : SyncSourceLink) : BitVec 32 := sl.maxSeqNum.setWidth 32 + sl.seqNumAccum

/-- The highest number is counted up, and the accumulator with it where the number wraps. -/
def advance (sl : SyncSourceLink) (seqNum : BitVec 16) : SyncSourceLink :=
  { sl with
    maxSeqNum := seqNum
    seqNumAccum := if seqNum < sl.maxSeqNum then sl.seqNumAccum + BitVec.ofNat 32 seqNumMod
      else sl.seqNumAccum }

/-- The number behind one that is out of range is remembered. -/
def rememberBad (sl : SyncSourceLink) (seqNum : BitVec 16) : SyncSourceLink :=
  { sl with badSeqNum := BitVec.ofNat 32 ((seqNum.toNat + 1) % seqNumMod) }

instance : Decidable (sl.InRange policy seqNum) := inferInstanceAs (Decidable (_ < _))

instance : Decidable (sl.Late policy seqNum) := inferInstanceAs (Decidable (_ < _))

instance : Decidable (sl.OutOfRange policy seqNum) := inferInstanceAs (Decidable (_ ∧ _))

/-- The comparison of the source with the window of late packets. -/
theorem not_late_iff : ¬ sl.Late policy seqNum ↔
    (seqNum - sl.maxSeqNum).toNat ≤ seqNumMod - policy.maxPacketMisorder.toNat := by
  have hstep := (seqNum - sl.maxSeqNum).isLt
  have hmod : seqNumMod = 65536 := rfl
  unfold Late step
  omega

/-- A number in range is the new maximum. -/
theorem validate_inRange (hvalid : sl.isValid = true) (h : sl.InRange policy seqNum) :
    validate policy sl seqNum = (true, sl.advance seqNum) := by
  have hstep : seqNum - sl.maxSeqNum < policy.maxPacketDropout := h
  unfold validate advance
  simp only [hvalid, Bool.not_true, Bool.false_eq_true, if_false, hstep, if_true]
  split_ifs <;> rfl

/-- A late number is accepted and changes nothing. -/
theorem validate_late (hvalid : sl.isValid = true) (h : ¬ sl.InRange policy seqNum)
    (hlate : sl.Late policy seqNum) : validate policy sl seqNum = (true, sl) := by
  have hstep : ¬ seqNum - sl.maxSeqNum < policy.maxPacketDropout := h
  have hnot := mt not_late_iff.mpr (not_not_intro hlate)
  unfold validate
  simp only [hvalid, Bool.not_true, Bool.false_eq_true, if_false, hstep, hnot]

/-- The second of two numbers out of range begins a new sequence. -/
theorem validate_restart (hvalid : sl.isValid = true) (h : sl.OutOfRange policy seqNum)
    (hbad : seqNum.setWidth 32 = sl.badSeqNum) :
    validate policy sl seqNum = (true, sl.initSequence seqNum) := by
  have hstep : ¬ seqNum - sl.maxSeqNum < policy.maxPacketDropout := h.1
  have hnot := not_late_iff.mp h.2
  unfold validate
  simp only [hvalid, Bool.not_true, Bool.false_eq_true, if_false, hstep, hnot, if_true, hbad]

/-- The first one is remembered, and accepted only if no packet has been counted. -/
theorem validate_outOfRange (hvalid : sl.isValid = true) (h : sl.OutOfRange policy seqNum)
    (hbad : seqNum.setWidth 32 ≠ sl.badSeqNum) :
    validate policy sl seqNum = if 0 < sl.obsPacketCount then (false, sl.rememberBad seqNum)
      else (true, { sl.rememberBad seqNum with maxSeqNum := seqNum }) := by
  have hstep : ¬ seqNum - sl.maxSeqNum < policy.maxPacketDropout := h.1
  have hnot := not_late_iff.mp h.2
  unfold validate rememberBad
  simp only [hvalid, Bool.not_true, Bool.false_eq_true, if_false, hstep, hnot, if_true, hbad]

variable (policy) in
/-- In sequence, the probation of a source is counted down. -/
theorem validate_inSequence (hinvalid : sl.isValid = false)
    (hseq : seqNum.toNat = sl.maxSeqNum.toNat + 1) :
    validate policy sl seqNum
      = if sl.probation - 1 = 0 then (true, { sl.initSequence seqNum with probation := 0 })
        else (false, { sl with probation := sl.probation - 1, maxSeqNum := seqNum }) := by
  unfold validate
  rw [hinvalid]
  by_cases hlast : sl.probation - 1 = 0
  · simp only [hseq, hlast, if_true, Bool.not_false]
    rfl
  · have hstill : ({ sl with probation := sl.probation - 1 } : SyncSourceLink).isValid = false :=
      decide_eq_false hlast
    simp only [hseq, hstill, hlast, if_true, if_false, Bool.not_false, Bool.false_eq_true]

variable (policy) in
/-- Out of sequence, it starts again. -/
theorem validate_notInSequence (hinvalid : sl.isValid = false)
    (hseq : seqNum.toNat ≠ sl.maxSeqNum.toNat + 1) :
    validate policy sl seqNum
      = (false,
        { sl with probation := policy.minValidPacketSequence - 1, maxSeqNum := seqNum }) := by
  unfold validate
  rw [hinvalid]
  simp only [hseq, if_true, if_false, Bool.not_false]

/-- **The extended highest number goes up by the distance.** -/
theorem extended_advance (sl : SyncSourceLink) (seqNum : BitVec 16) :
    (sl.advance seqNum).extended = sl.extended + (sl.step seqNum).setWidth 32 := by
  have hseq := seqNum.isLt
  have hmax := sl.maxSeqNum.isLt
  have hn : (seqNum.setWidth 32).toNat = seqNum.toNat := BitVec.toNat_setWidth_of_le (by omega)
  have hm : (sl.maxSeqNum.setWidth 32).toNat = sl.maxSeqNum.toNat :=
    BitVec.toNat_setWidth_of_le (by omega)
  have hstep : ((seqNum - sl.maxSeqNum).setWidth 32).toNat
      = (2 ^ 16 - sl.maxSeqNum.toNat + seqNum.toNat) % 2 ^ 16 :=
    (BitVec.toNat_setWidth_of_le (by omega)).trans (BitVec.toNat_sub _ _)
  have hmod : (BitVec.ofNat 32 seqNumMod).toNat = 65536 := rfl
  apply BitVec.eq_of_toNat_eq
  unfold extended advance step
  dsimp only
  rw [BitVec.toNat_add, BitVec.toNat_add (_ + _), BitVec.toNat_add (sl.maxSeqNum.setWidth 32),
    hn, hm, hstep, Nat.mod_add_mod]
  split_ifs with hlt
  · rw [BitVec.lt_def] at hlt
    rw [BitVec.toNat_add, hmod, Nat.add_mod_mod]
    refine congrArg (fun x => x % 2 ^ 32) ?_
    omega
  · rw [BitVec.lt_def] at hlt
    refine congrArg (fun x => x % 2 ^ 32) ?_
    omega

/-! ## Accepted packets -/

/-- What accepting a packet does behind the validation. -/
def countPacket (sl : SyncSourceLink) (pkt : ReceivedPacket) : SyncSourceLink :=
  { sl with
    obsPacketCount := sl.obsPacketCount + 1
    obsOctetCount := sl.obsOctetCount + pkt.payloadSize
    activeSender := if sl.obsPacketCount + 1 = 1 then true else sl.activeSender
    initialDataTimestamp :=
      if sl.obsPacketCount + 1 = 1 then pkt.timestamp else sl.initialDataTimestamp }

/-- An accepted packet is counted. -/
theorem recordReception_of_accepted {sl' : SyncSourceLink}
    (h : validate policy sl pkt.seqNum = (true, sl')) :
    recordReception policy sl pkt = (true, sl'.countPacket pkt) := by
  rw [recordReception, h]
  unfold countPacket
  dsimp only
  split_ifs <;> rfl

/-- A rejected packet is not. -/
theorem recordReception_of_rejected {sl' : SyncSourceLink}
    (h : validate policy sl pkt.seqNum = (false, sl')) :
    recordReception policy sl pkt = (false, sl') := by
  rw [recordReception, h]

/-- A packet is received. -/
def receive (policy : ReceptionPolicy) (sl : SyncSourceLink) (pkt : ReceivedPacket) :
    SyncSourceLink := (recordReception policy sl pkt).2

/-- A valid source stays valid. -/
theorem isValid_receive (hvalid : sl.isValid = true) (pkt : ReceivedPacket) :
    (sl.receive policy pkt).isValid = true := by
  unfold receive
  by_cases hin : sl.InRange policy pkt.seqNum
  · rw [recordReception_of_accepted (validate_inRange hvalid hin)]
    exact hvalid
  · by_cases hlate : sl.Late policy pkt.seqNum
    · rw [recordReception_of_accepted (validate_late hvalid hin hlate)]
      exact hvalid
    · by_cases hbad : pkt.seqNum.setWidth 32 = sl.badSeqNum
      · rw [recordReception_of_accepted (validate_restart hvalid ⟨hin, hlate⟩ hbad)]
        exact hvalid
      · have hout := validate_outOfRange hvalid ⟨hin, hlate⟩ hbad
        by_cases hobs : 0 < sl.obsPacketCount
        · rw [if_pos hobs] at hout
          rw [recordReception_of_rejected hout]
          exact hvalid
        · rw [if_neg hobs] at hout
          rw [recordReception_of_accepted hout]
          exact hvalid

/-! ## Runs -/

/-- **What a packet does to the numbers**: it advances the extended number by its distance, or
it is late and changes neither number, or it is rejected and nothing is counted. -/
def TracksSequence (policy : ReceptionPolicy) (sl : SyncSourceLink) (pkt : ReceivedPacket) : Prop :=
  (sl.InRange policy pkt.seqNum → (recordReception policy sl pkt).1 = true ∧
    (sl.receive policy pkt).extended = sl.extended + (sl.step pkt.seqNum).setWidth 32) ∧
  (¬ sl.InRange policy pkt.seqNum → sl.Late policy pkt.seqNum →
    (recordReception policy sl pkt).1 = true ∧
      (sl.receive policy pkt).maxSeqNum = sl.maxSeqNum ∧
      (sl.receive policy pkt).seqNumAccum = sl.seqNumAccum) ∧
  (sl.OutOfRange policy pkt.seqNum → (recordReception policy sl pkt).1 = false ∧
    (sl.receive policy pkt).maxSeqNum = sl.maxSeqNum ∧
    (sl.receive policy pkt).seqNumAccum = sl.seqNumAccum ∧
    (sl.receive policy pkt).obsPacketCount = sl.obsPacketCount ∧
    (sl.receive policy pkt).obsOctetCount = sl.obsOctetCount)

instance : Decidable (sl.TracksSequence policy pkt) := inferInstanceAs (Decidable (_ ∧ _ ∧ _))

/-- No restart: the packet is not out of range with the number remembered. -/
def NoRestart (policy : ReceptionPolicy) (sl : SyncSourceLink) (pkt : ReceivedPacket) : Prop :=
  sl.OutOfRange policy pkt.seqNum → pkt.seqNum.setWidth 32 ≠ sl.badSeqNum

/-- A packet out of range does not come while the packet count is zero. -/
def CountedBefore (policy : ReceptionPolicy) (sl : SyncSourceLink) (pkt : ReceivedPacket) : Prop :=
  sl.OutOfRange policy pkt.seqNum → sl.obsPacketCount ≠ 0

instance : Decidable (sl.NoRestart policy pkt) := inferInstanceAs (Decidable (_ → _))

instance : Decidable (sl.CountedBefore policy pkt) := inferInstanceAs (Decidable (_ → _))

/-- One packet. -/
theorem tracksSequence_iff (hvalid : sl.isValid = true) (hrestart : sl.NoRestart policy pkt) :
    sl.TracksSequence policy pkt ↔ sl.CountedBefore policy pkt := by
  unfold TracksSequence CountedBefore receive
  by_cases hin : sl.InRange policy pkt.seqNum
  · rw [recordReception_of_accepted (validate_inRange hvalid hin)]
    have hnot : ¬ sl.OutOfRange policy pkt.seqNum := fun h => h.1 hin
    exact iff_of_true ⟨fun _ => ⟨rfl, extended_advance sl pkt.seqNum⟩,
      fun h => absurd hin h, fun h => absurd h hnot⟩ (fun h => absurd h hnot)
  · by_cases hlate : sl.Late policy pkt.seqNum
    · rw [recordReception_of_accepted (validate_late hvalid hin hlate)]
      have hnot : ¬ sl.OutOfRange policy pkt.seqNum := fun h => h.2 hlate
      exact iff_of_true ⟨fun h => absurd h hin, fun _ _ => ⟨rfl, rfl, rfl⟩,
        fun h => absurd h hnot⟩ (fun h => absurd h hnot)
    · have hout : sl.OutOfRange policy pkt.seqNum := ⟨hin, hlate⟩
      have hval := validate_outOfRange hvalid hout (hrestart hout)
      by_cases hobs : sl.obsPacketCount = 0
      · -- it is taken for the very first packet
        rw [if_neg (by rw [hobs]; decide)] at hval
        rw [recordReception_of_accepted hval]
        refine iff_of_false (fun h => ?_) (fun h => h hout hobs)
        exact Bool.noConfusion (h.2.2 hout).1
      · have hpos : 0 < sl.obsPacketCount := by bv_omega
        rw [if_pos hpos] at hval
        rw [recordReception_of_rejected hval]
        exact iff_of_true ⟨fun h => absurd h hin, fun _ h => absurd h hlate,
          fun _ => ⟨rfl, rfl, rfl, rfl, rfl⟩⟩ (fun _ => hobs)

end SyncSourceLink

open SyncSourceLink in
/-- **Sequence tracking of a valid source.**  Along every run without restarts the numbers are
tracked exactly if no packet out of range comes while the packet count is zero, which a valid
source that has counted a packet reaches only when the count wraps around. -/
theorem sequence_tracking_iff (policy : ReceptionPolicy) {sl : SyncSourceLink}
    (hvalid : sl.isValid = true) (pkts : List ReceivedPacket)
    (hrestart : AlongRun (receive policy) (NoRestart policy) sl pkts) :
    AlongRun (receive policy) (TracksSequence policy) sl pkts ↔
      AlongRun (receive policy) (CountedBefore policy) sl pkts := by
  have hiff : ∀ (sl : SyncSourceLink) (pkt : ReceivedPacket), sl.isValid = true →
      sl.NoRestart policy pkt → (sl.TracksSequence policy pkt ↔ sl.CountedBefore policy pkt) :=
    fun sl pkt => tracksSequence_iff
  have hkeep : ∀ (sl : SyncSourceLink) (pkt : ReceivedPacket), sl.isValid = true →
      sl.NoRestart policy pkt → sl.CountedBefore policy pkt →
        (sl.receive policy pkt).isValid = true :=
          fun sl pkt hvalid _ _ => isValid_receive hvalid pkt
  exact alongRun_iff_of_invariant hiff hkeep hvalid hrestart

/-- The numbers wrap around; a late packet, one far ahead and the next one follow. -/
theorem sequence_tracking_wrap :
    AlongRun (SyncSourceLink.receive ⟨0, 3000, 100⟩) (SyncSourceLink.TracksSequence ⟨0, 3000, 100⟩)
      { SyncSourceLink.new 7 false with obsPacketCount := 1, maxSeqNum := 65534 }
      [⟨65535, 160, 0⟩, ⟨1, 160, 0⟩, ⟨65535, 160, 0⟩, ⟨20000, 160, 0⟩, ⟨2, 160, 0⟩] :=
  (sequence_tracking_iff _ rfl _ (by decide)).mpr (by decide)

/-- The packet that makes the count wrap around is in range, and behind it one far ahead is
accepted. -/
theorem sequence_tracking_count_wraps :
    0 < ({ SyncSourceLink.new 7 false with obsPacketCount := 0xFFFFFFFF, maxSeqNum := 9 } :
        SyncSourceLink).obsPacketCount ∧
      AlongRun (SyncSourceLink.receive .default) (SyncSourceLink.NoRestart .default)
        { SyncSourceLink.new 7 false with obsPacketCount := 0xFFFFFFFF, maxSeqNum := 9 }
        [⟨10, 160, 0⟩, ⟨20000, 160, 0⟩] ∧
      ¬ AlongRun (SyncSourceLink.receive .default) (SyncSourceLink.TracksSequence .default)
        { SyncSourceLink.new 7 false with obsPacketCount := 0xFFFFFFFF, maxSeqNum := 9 }
        [⟨10, 160, 0⟩, ⟨20000, 160, 0⟩] := by
  decide
