/-
# Validation of a new source

A source is on probation until enough packets have come in a row (`recordReception` of
`src/incqueue.cpp`, `setMinValidPacketSequence` of `src/ccrtp/iqueue.h`).  The successor of the
last sequence number is taken as an `int`, so a row ends behind 65535; and the first packet is
compared with number 0, which nobody has sent.

* `inARow`, `countedInARow` : the packets received in a row, modulo `2 ^ 16` and as they are
  counted;
* `le_countedInARow_iff` : the two agree on rows that do not go past 65535;
* `source_validation_iff` : along every run, when a packet is accepted because it completes its
  row.
-/
import CcRtp.SequenceTracking

/-! ## Packets in a row -/

/-- How many of the packets received last have consecutive numbers modulo `2 ^ 16`. -/
def inARow : List (BitVec 16) → ℕ
  | [] => 0
  | [_] => 1
  | a :: b :: l => if a = b + 1 then inARow (b :: l) + 1 else 1

/-- The same, for numbers that are consecutive as integers. -/
def countedInARow : List (BitVec 16) → ℕ
  | [] => 0
  | [_] => 1
  | a :: b :: l => if a.toNat = b.toNat + 1 then countedInARow (b :: l) + 1 else 1

theorem countedInARow_pos (a : BitVec 16) (l : List (BitVec 16)) : 0 < countedInARow (a :: l) := by
  cases l with
  | nil => exact Nat.one_pos
  | cons b l =>
      rw [countedInARow]
      split_ifs
      · exact Nat.succ_pos _
      · exact Nat.one_pos

theorem inARow_pos (a : BitVec 16) (l : List (BitVec 16)) : 0 < inARow (a :: l) := by
  cases l with
  | nil => exact Nat.one_pos
  | cons b l =>
      rw [inARow]
      split_ifs
      · exact Nat.succ_pos _
      · exact Nat.one_pos

/-- Successors as integers are the successors that are not 0. -/
theorem toNat_eq_succ_iff (a b : BitVec 16) : a.toNat = b.toNat + 1 ↔ a = b + 1 ∧ a ≠ 0 := by
  have ha := a.isLt
  have hb := b.isLt
  have hone : (1 : BitVec 16).toNat = 1 := rfl
  have hzero : (0 : BitVec 16).toNat = 0 := rfl
  rw [ne_eq, ← BitVec.toNat_inj, ← BitVec.toNat_inj, BitVec.toNat_add, hone, hzero]
  omega

/-- **A row is counted as such unless it goes past 65535**, that is, unless a packet in it but
the oldest one carries number 0. -/
theorem le_countedInARow_iff (k : ℕ) (a : BitVec 16) (l : List (BitVec 16)) :
    k + 1 ≤ countedInARow (a :: l) ↔
      k + 1 ≤ inARow (a :: l) ∧ 0 ∉ ((a :: l).take (k + 1)).dropLast := by
  induction k generalizing a l with
  | zero => simp [Nat.succ_le_of_lt (countedInARow_pos a l), Nat.succ_le_of_lt (inARow_pos a l)]
  | succ k ih =>
      cases l with
      | nil => simp [countedInARow, inARow]
      | cons b l =>
          have hne : (b :: l).take (k + 1) ≠ [] := by simp
          have hsucc := toNat_eq_succ_iff a b
          rw [countedInARow, inARow, List.take_succ_cons, List.dropLast_cons_of_ne_nil hne,
            List.mem_cons, not_or]
          by_cases hnext : a = b + 1
          · by_cases hzero : a = 0
            · rw [if_neg (fun h => (hsucc.mp h).2 hzero)]
              exact iff_of_false (by omega) (fun h => h.2.1 hzero.symm)
            · rw [if_pos (hsucc.mpr ⟨hnext, hzero⟩), if_pos hnext, Nat.add_le_add_iff_right,
                Nat.add_le_add_iff_right, ih b l]
              constructor
              · exact fun h => ⟨h.1, Ne.symm hzero, h.2⟩
              · exact fun h => ⟨h.1, h.2.2⟩
          · rw [if_neg (fun h => hnext (hsucc.mp h).1), if_neg hnext]
            exact iff_of_false (by omega) (fun h => by omega)

/-! ## Runs of data packets -/

/-- A source, and the sequence numbers received from it, the last one first. -/
structure SourceHistory where
  sl : SyncSourceLink
  received : List (BitVec 16)

namespace SourceHistory

variable {policy : ReceptionPolicy} {v : SourceHistory} {pkt : ReceivedPacket}

/-- A new source, as `takeInDataPacket` makes it. -/
def new (policy : ReceptionPolicy) (ssrc : BitVec 32) (activeSender : Bool) : SourceHistory :=
  ⟨{ SyncSourceLink.new ssrc activeSender with probation := policy.minValidPacketSequence }, []⟩

/-- A data packet. -/
def receive (policy : ReceptionPolicy) (v : SourceHistory) (pkt : ReceivedPacket) : SourceHistory :=
  ⟨v.sl.receive policy pkt, pkt.seqNum :: v.received⟩

/-- The packet completes a row that is long enough. -/
def Completes (policy : ReceptionPolicy) (v : SourceHistory) (pkt : ReceivedPacket) : Prop :=
  policy.minValidPacketSequence.toNat ≤ inARow (pkt.seqNum :: v.received)

/-- **The validation of a source**: before it is valid, a packet is accepted, and the source
becomes valid, exactly if the packet completes a row. -/
def ValidatedByRow (policy : ReceptionPolicy) (v : SourceHistory) (pkt : ReceivedPacket) : Prop :=
  v.sl.isValid = false →
    ((v.sl.recordReception policy pkt).1 = true ↔ v.Completes policy pkt) ∧
      ((v.sl.receive policy pkt).isValid = true ↔ v.Completes policy pkt)

/-- The row that a packet completes does not go past 65535; and if it takes but one packet, that
one carries number 1. -/
def RowCounted (policy : ReceptionPolicy) (v : SourceHistory) (pkt : ReceivedPacket) : Prop :=
  v.sl.isValid = false → v.Completes policy pkt →
    0 ∉ ((pkt.seqNum :: v.received).take policy.minValidPacketSequence.toNat).dropLast ∧
      (policy.minValidPacketSequence = 1 → pkt.seqNum = 1)

instance : Decidable (v.Completes policy pkt) := inferInstanceAs (Decidable (_ ≤ _))

instance : Decidable (v.ValidatedByRow policy pkt) := inferInstanceAs (Decidable (_ → _ ∧ _))

instance : Decidable (v.RowCounted policy pkt) := inferInstanceAs (Decidable (_ → _ → _))

/-- Invariant of a run: on probation, the packets missing in the row that is counted. -/
structure OnProbation (policy : ReceptionPolicy) (v : SourceHistory) : Prop where
  missing : v.sl.probation.toNat + countedInARow v.received = policy.minValidPacketSequence.toNat
  last : v.sl.maxSeqNum = v.received.headD 0

theorem onProbation_new (policy : ReceptionPolicy) (ssrc : BitVec 32) (activeSender : Bool) :
    (new policy ssrc activeSender).OnProbation policy := ⟨rfl, rfl⟩

/-- A packet in sequence makes the row longer by one. -/
theorem countedInARow_succ (h : v.OnProbation policy)
    (hseq : pkt.seqNum.toNat = v.sl.maxSeqNum.toNat + 1) :
    countedInARow (pkt.seqNum :: v.received) = countedInARow v.received + 1 := by
  have hlast := h.last
  cases hreceived : v.received with
  | nil => rfl
  | cons b l =>
      rw [hreceived, List.headD_cons] at hlast
      rw [hlast] at hseq
      rw [countedInARow, if_pos hseq]

/-- Any other packet is alone in its row. -/
theorem countedInARow_restart (h : v.OnProbation policy)
    (hseq : pkt.seqNum.toNat ≠ v.sl.maxSeqNum.toNat + 1) :
    countedInARow (pkt.seqNum :: v.received) = 1 := by
  have hlast := h.last
  cases hreceived : v.received with
  | nil => rfl
  | cons b l =>
      rw [hreceived, List.headD_cons] at hlast
      rw [hlast] at hseq
      rw [countedInARow, if_neg hseq]

/-- **One packet of a source on probation** is accepted, and makes the source valid, if it
completes the row that is counted. -/
theorem OnProbation.receive (h : v.OnProbation policy) (hinvalid : v.sl.isValid = false)
    (hone : policy.minValidPacketSequence = 1 → pkt.seqNum.toNat = v.sl.maxSeqNum.toNat + 1) :
    ((v.sl.recordReception policy pkt).1 = true ↔
        policy.minValidPacketSequence.toNat ≤ countedInARow (pkt.seqNum :: v.received)) ∧
      ((v.sl.receive policy pkt).isValid = true ↔
        policy.minValidPacketSequence.toNat ≤ countedInARow (pkt.seqNum :: v.received)) ∧
      ((v.sl.receive policy pkt).isValid = false → (v.receive policy pkt).OnProbation policy) := by
  have hmissing := h.missing
  have hprobation : v.sl.probation ≠ 0 := of_decide_eq_false hinvalid
  have hpos : v.sl.probation.toNat ≠ 0 := fun hzero => hprobation (BitVec.eq_of_toNat_eq hzero)
  have hlt := v.sl.probation.isLt
  have hdec : (v.sl.probation - 1).toNat = v.sl.probation.toNat - 1 := by
    have h1 : (1 : BitVec 8).toNat = 1 := rfl
    rw [BitVec.toNat_sub, h1]
    omega
  unfold SourceHistory.receive SyncSourceLink.receive
  by_cases hseq : pkt.seqNum.toNat = v.sl.maxSeqNum.toNat + 1
  · have hcount := countedInARow_succ h hseq
    have hval := SyncSourceLink.validate_inSequence policy hinvalid hseq
    rw [hcount]
    by_cases hlast : v.sl.probation - 1 = 0
    · rw [if_pos hlast] at hval
      rw [SyncSourceLink.recordReception_of_accepted hval]
      have hle : policy.minValidPacketSequence.toNat ≤ countedInARow v.received + 1 := by
        rw [hlast] at hdec
        have h0 : (0 : BitVec 8).toNat = 0 := rfl
        omega
      exact ⟨iff_of_true rfl hle, iff_of_true rfl hle, fun hstill => Bool.noConfusion hstill⟩
    · rw [if_neg hlast] at hval
      have hne : (v.sl.probation - 1).toNat ≠ 0 := fun hzero => hlast (BitVec.eq_of_toNat_eq hzero)
      have hnot : ¬ policy.minValidPacketSequence.toNat ≤ countedInARow v.received + 1 := by omega
      rw [SyncSourceLink.recordReception_of_rejected hval]
      refine ⟨iff_of_false Bool.false_ne_true hnot, iff_of_false ?_ hnot, fun _ => ⟨?_, rfl⟩⟩
      · exact fun hvalid => hlast (of_decide_eq_true hvalid)
      · dsimp only
        rw [hcount, hdec]
        omega
  · have hcount := countedInARow_restart h hseq
    have hval := SyncSourceLink.validate_notInSequence policy hinvalid hseq
    have hmin : policy.minValidPacketSequence ≠ 1 := fun heq => hseq (hone heq)
    have hdec' : (policy.minValidPacketSequence - 1).toNat
        = policy.minValidPacketSequence.toNat - 1 := by
      have h1 : (1 : BitVec 8).toNat = 1 := rfl
      have hltm := policy.minValidPacketSequence.isLt
      rw [BitVec.toNat_sub, h1]
      omega
    have hmany : policy.minValidPacketSequence.toNat ≠ 1 :=
      fun heq => hmin (BitVec.eq_of_toNat_eq heq)
    have hnot : ¬ policy.minValidPacketSequence.toNat ≤ 1 := by omega
    rw [hcount, SyncSourceLink.recordReception_of_rejected hval]
    refine ⟨iff_of_false Bool.false_ne_true hnot, iff_of_false ?_ hnot, fun _ => ⟨?_, rfl⟩⟩
    · intro hvalid
      have hzero := congrArg BitVec.toNat (of_decide_eq_true hvalid)
      have h0 : (0 : BitVec 8).toNat = 0 := rfl
      rw [hdec', h0] at hzero
      omega
    · dsimp only
      rw [hcount, hdec']
      omega

/-- If one packet is enough, it is compared with number 0. -/
theorem OnProbation.inSequence_iff (h : v.OnProbation policy) (hinvalid : v.sl.isValid = false)
    (hone : policy.minValidPacketSequence = 1) :
    pkt.seqNum.toNat = v.sl.maxSeqNum.toNat + 1 ↔ pkt.seqNum = 1 := by
  have hprobation : v.sl.probation ≠ 0 := of_decide_eq_false hinvalid
  have hpos : v.sl.probation.toNat ≠ 0 := fun hzero => hprobation (BitVec.eq_of_toNat_eq hzero)
  have hmissing := h.missing
  have hlast := h.last
  have h1 : (1 : BitVec 8).toNat = 1 := rfl
  rw [hone, h1] at hmissing
  cases hreceived : v.received with
  | nil =>
      rw [hreceived, List.headD_nil] at hlast
      rw [hlast, ← BitVec.toNat_inj]
      rfl
  | cons b l =>
      have hcount := countedInARow_pos b l
      rw [hreceived] at hmissing
      omega

theorem completes_of_one (hone : policy.minValidPacketSequence = 1) : v.Completes policy pkt := by
  rw [Completes, hone]
  exact inARow_pos _ _

/-- The rows that are counted. -/
theorem countedInARow_iff (hn : policy.minValidPacketSequence ≠ 0) :
    policy.minValidPacketSequence.toNat ≤ countedInARow (pkt.seqNum :: v.received) ↔
      v.Completes policy pkt ∧
        0 ∉ ((pkt.seqNum :: v.received).take policy.minValidPacketSequence.toNat).dropLast := by
  have hpos : policy.minValidPacketSequence.toNat ≠ 0 :=
    fun hzero => hn (BitVec.eq_of_toNat_eq hzero)
  obtain ⟨k, hk⟩ := Nat.exists_eq_succ_of_ne_zero hpos
  rw [Completes, hk]
  exact le_countedInARow_iff k pkt.seqNum v.received

/-- Both the property and the condition exclude a first packet that is not in sequence where one
packet is enough. -/
theorem inSequence_of_validatedByRow (hinvalid : v.sl.isValid = false)
    (hrow : v.ValidatedByRow policy pkt)
    (hone : policy.minValidPacketSequence = 1) : pkt.seqNum.toNat = v.sl.maxSeqNum.toNat + 1 := by
  by_contra hseq
  have haccepted := (hrow hinvalid).1.mpr (completes_of_one hone)
  rw [SyncSourceLink.recordReception_of_rejected
    (SyncSourceLink.validate_notInSequence _ hinvalid hseq)] at haccepted
  cases haccepted

theorem OnProbation.inSequence_of_rowCounted (h : v.OnProbation policy)
    (hinvalid : v.sl.isValid = false) (hrow : v.RowCounted policy pkt)
    (hone : policy.minValidPacketSequence = 1) : pkt.seqNum.toNat = v.sl.maxSeqNum.toNat + 1 :=
  (h.inSequence_iff hinvalid hone).mpr ((hrow hinvalid (completes_of_one hone)).2 hone)

/-- One packet. -/
theorem validatedByRow_iff (hn : policy.minValidPacketSequence ≠ 0)
    (h : v.sl.isValid = false → v.OnProbation policy) :
    v.ValidatedByRow policy pkt ↔ v.RowCounted policy pkt := by
  constructor
  · intro hrow hinvalid hcompletes
    have hprob := h hinvalid
    have hone := inSequence_of_validatedByRow hinvalid hrow
    obtain ⟨haccepted, -, -⟩ := hprob.receive hinvalid hone
    have hcounted := (countedInARow_iff hn).mp (haccepted.mp ((hrow hinvalid).1.mpr hcompletes))
    exact ⟨hcounted.2, fun heq => (hprob.inSequence_iff hinvalid heq).mp (hone heq)⟩
  · intro hrow hinvalid
    have hprob := h hinvalid
    have hone := hprob.inSequence_of_rowCounted hinvalid hrow
    obtain ⟨haccepted, hvalid, -⟩ := hprob.receive hinvalid hone
    have hcounted := (countedInARow_iff hn).trans
      (and_iff_left_of_imp (fun hcompletes => (hrow hinvalid hcompletes).1))
    exact ⟨haccepted.trans hcounted, hvalid.trans hcounted⟩

/-- Sources stay on probation until they are valid, and then stay valid. -/
theorem onProbation_receive (h : v.sl.isValid = false → v.OnProbation policy)
    (hrow : v.RowCounted policy pkt) :
    (v.receive policy pkt).sl.isValid = false → (v.receive policy pkt).OnProbation policy := by
  intro hstill
  cases hvalid : v.sl.isValid with
  | false =>
      have hprob := h hvalid
      exact (hprob.receive hvalid (hprob.inSequence_of_rowCounted hvalid hrow)).2.2 hstill
  | true =>
      have hstays : (v.sl.receive policy pkt).isValid = true :=
        SyncSourceLink.isValid_receive hvalid pkt
      exact absurd (hstays.symm.trans hstill) (by decide)

end SourceHistory

open SourceHistory in
/-- **Validation of a new source.**  Along every run of data packets, a packet is accepted before
the source is valid, and makes it valid, exactly when it completes a row of the required length,
if and only if no such row goes past 65535 and, where one packet is enough, the first one carries
number 1. -/
theorem source_validation_iff (policy : ReceptionPolicy) (hn : policy.minValidPacketSequence ≠ 0)
    (ssrc : BitVec 32) (activeSender : Bool) (pkts : List ReceivedPacket) :
    AlongRun (receive policy) (ValidatedByRow policy) (new policy ssrc activeSender) pkts ↔
      AlongRun (receive policy) (RowCounted policy) (new policy ssrc activeSender) pkts := by
  have hiff : ∀ (v : SourceHistory) (pkt : ReceivedPacket),
      (v.sl.isValid = false → v.OnProbation policy) → True →
        (v.ValidatedByRow policy pkt ↔ v.RowCounted policy pkt) :=
    fun v pkt h _ => validatedByRow_iff hn h
  have hkeep : ∀ (v : SourceHistory) (pkt : ReceivedPacket),
      (v.sl.isValid = false → v.OnProbation policy) → True → v.RowCounted policy pkt →
        (v.receive policy pkt).sl.isValid = false → (v.receive policy pkt).OnProbation policy :=
    fun v pkt h _ hrow => onProbation_receive h hrow
  exact alongRun_iff_of_invariant hiff hkeep (fun _ => onProbation_new policy ssrc activeSender)
    (alongRun_of_forall_mem (fun _ _ => trivial))

/-- Three packets in a row are required; a packet is lost in between. -/
theorem source_validation_three :
    AlongRun (SourceHistory.receive ⟨3, 3000, 0⟩) (SourceHistory.ValidatedByRow ⟨3, 3000, 0⟩)
      (SourceHistory.new ⟨3, 3000, 0⟩ 7 false)
      [⟨500, 160, 0⟩, ⟨501, 160, 160⟩, ⟨503, 160, 480⟩, ⟨504, 160, 640⟩, ⟨505, 160, 800⟩,
        ⟨506, 160, 960⟩] :=
  (source_validation_iff ⟨3, 3000, 0⟩ (by decide) 7 false _).mpr (by decide)

/-- Two packets in a row are required, and 0 comes behind 65535: the second packet is rejected. -/
theorem source_validation_wrap :
    ¬ AlongRun (SourceHistory.receive ⟨2, 3000, 0⟩) (SourceHistory.ValidatedByRow ⟨2, 3000, 0⟩)
      (SourceHistory.new ⟨2, 3000, 0⟩ 7 false) [⟨65535, 160, 0⟩, ⟨0, 160, 160⟩] := by
  decide
