/-
# The scheduling of the head packet

What `getSchedulingTimeout` (`src/outqueue.cpp`) decides about the packet at the head of the sending
queue, once the time at which it is scheduled has been computed (`SendingQueue.sendTime`).  The time
that is left is put into an `int32` of microseconds, which holds less than the hour that the
function allows for.

* `timeoutFor_eq` : the decision, in terms of the time that is left;
* `scheduling_decision_iff` : when the head packet is scheduled as it should be.
-/
import CcRtp.SendingQueue

/-- What is decided about a packet: the timeout that is returned, or nothing if the packet has been
deleted. -/
def headDecision (r : BitVec 32 × List (QueueEvent OutgoingRTPPkt) × SendingQueue) :
    Option (BitVec 32) :=
  match r.2.1 with
  | [] => some r.1
  | _ :: _ => none

/-- The decision for a packet that is scheduled in `left` microseconds: an hour at most, the time
that is left, nothing if it is due, and the packet is deleted if it is overdue for longer than the
expire timeout. -/
structure WellScheduled (left : ℤ) (expireTimeout : BitVec 32) (decision : Option (BitVec 32)) :
    Prop where
  far : 3601000000 ≤ left → decision = some 3600000000
  waiting : 0 ≤ left → left ≤ 3600000000 → ∃ t, decision = some t ∧ (t.toNat : ℤ) = left
  due : left < 0 → -left ≤ expireTimeout.toNat → decision = some 0
  expired : decision = none → (expireTimeout.toNat : ℤ) < -left
  notKept : (expireTimeout.toNat : ℤ) < -left → decision = none

/-- The head packet is well scheduled by a time that is left as far as `int32` reaches.  Beyond it,
that is so if the hour is exceeded in whole seconds; if the time left is within a second above the
hour and what is left of it modulo `2^32` passes for due; or if the packet is overdue and what is
left of that is overdue for longer than the expire timeout, too. -/
def LeftInReach (send now : Timeval) (expireTimeout : BitVec 32) : Prop :=
  let left := send.micros - now.micros
  if 3600 < send.sec - now.sec then 3600000000 ≤ left
  else (-(2 ^ 31) ≤ left ∧ left < 2 ^ 31) ∨
    (3600000000 < left ∧ left < 3601000000 ∧ 2 ^ 32 - left ≤ expireTimeout.toNat) ∨
    (left < -(2 ^ 31) ∧ (expireTimeout.toNat : ℤ) < -left.bmod (2 ^ 32))

namespace SendingQueue

variable {q q' : SendingQueue} {l : List ℕ} {c : List OutgoingRTPPkt} {p : OutgoingRTPPkt}
  {send now overflowTime : Timeval}

/-- **The decision**, by the time that is left as an `int32`. -/
theorem timeoutFor_eq (q : SendingQueue) (send now : Timeval) :
    (3600 < send.sec - now.sec → q.timeoutFor send now = some 3600000000) ∧
      (¬ 3600 < send.sec - now.sec →
        (0 ≤ (send.micros - now.micros).bmod (2 ^ 32) → ∃ t, q.timeoutFor send now = some t ∧
          (t.toNat : ℤ) = (send.micros - now.micros).bmod (2 ^ 32)) ∧
        ((send.micros - now.micros).bmod (2 ^ 32) < 0 → q.timeoutFor send now
          = if -(send.micros - now.micros).bmod (2 ^ 32) ≤ q.expireTimeout.toNat then some 0
            else none)) := by
  have hdiff : (send.sec - now.sec) * 1000000 + send.usec - now.usec =
      send.micros - now.micros := by
    unfold Timeval.micros
    ring
  unfold timeoutFor
  rw [hdiff]
  refine ⟨fun hfar => if_pos hfar, fun hnear => ?_⟩
  rw [if_neg hnear]
  set diff : BitVec 32 := .ofInt 32 (send.micros - now.micros) with hdef
  have htoInt : diff.toInt = (send.micros - now.micros).bmod (2 ^ 32) :=
    BitVec.toInt_ofInt _
  have hcond := diff.toInt_eq_toNat_cond
  have hlt := diff.isLt
  dsimp only
  rw [← htoInt]
  refine ⟨fun hpos => ⟨diff, if_pos hpos, ?_⟩, fun hneg => ?_⟩
  · split_ifs at hcond <;> omega
  · have hle : -diff ≤ q.expireTimeout ↔ -diff.toInt ≤ q.expireTimeout.toNat := by
      rw [BitVec.le_def, BitVec.toNat_neg]
      split_ifs at hcond <;> omega
    rw [if_neg (by omega)]
    exact if_congr hle rfl rfl

section WellScheduled

variable {left : ℤ} {timeout t : BitVec 32}

/-- A packet is deleted as it should be if it is overdue for longer than the expire timeout. -/
theorem wellScheduled_none_iff : WellScheduled left timeout none ↔ (timeout.toNat : ℤ) < -left := by
  constructor
  · intro h
    exact h.expired rfl
  · intro h
    exact ⟨fun hlong => by omega, fun hpos hle => by omega, fun hneg hle => by omega, fun _ => h,
      fun _ => rfl⟩

/-- A timeout is returned as it should be: of an hour, of the time that is left, or of nothing. -/
theorem wellScheduled_some_iff : WellScheduled left timeout (some t) ↔
    (3601000000 ≤ left → t.toNat = 3600000000) ∧
      (0 ≤ left → left ≤ 3600000000 → (t.toNat : ℤ) = left) ∧
      (left < 0 → -left ≤ timeout.toNat ∧ t.toNat = 0) := by
  constructor
  · intro h
    refine ⟨fun hlong => ?_, fun hpos hle => ?_, fun hneg => ?_⟩
    · exact congrArg BitVec.toNat (Option.some.inj (h.far hlong))
    · obtain ⟨t', ht', heq⟩ := h.waiting hpos hle
      rwa [Option.some.inj ht']
    · have hkept : -left ≤ timeout.toNat := by
        by_contra hover
        cases h.notKept (by omega)
      exact ⟨hkept, congrArg BitVec.toNat (Option.some.inj (h.due hneg hkept))⟩
  · rintro ⟨hfar, hwaiting, hdue⟩
    refine ⟨fun hlong => ?_, fun hpos hle => ⟨t, rfl, hwaiting hpos hle⟩, fun hneg _ => ?_,
      fun hnone => (by cases hnone), fun hover => ?_⟩
    · exact congrArg some (BitVec.eq_of_toNat_eq (hfar hlong))
    · exact congrArg some (BitVec.eq_of_toNat_eq (hdue hneg).2)
    · have hkept := hdue (by omega)
      omega

end WellScheduled

/-- **When the decision is the right one.** -/
theorem wellScheduled_iff (q : SendingQueue) (send now : Timeval) :
    WellScheduled (send.micros - now.micros) q.expireTimeout (q.timeoutFor send now) ↔
      LeftInReach send now q.expireTimeout := by
  obtain ⟨hfar, hnear⟩ := q.timeoutFor_eq send now
  have hbound := q.expireTimeout.isLt
  unfold LeftInReach
  generalize send.micros - now.micros = left at hnear ⊢
  generalize q.timeoutFor send now = decision at hfar hnear ⊢
  generalize q.expireTimeout = timeout at hnear hbound ⊢
  dsimp only
  split_ifs with hsec
  · -- an hour, whatever the time left is
    have hhour : (3600000000 : BitVec 32).toNat = 3600000000 := rfl
    rw [hfar hsec, wellScheduled_some_iff, hhour]
    omega
  · obtain ⟨hpos, hneg⟩ := hnear hsec
    have hbmod := Int.bmod_def left (2 ^ 32)
    norm_num at hbmod
    generalize left.bmod (2 ^ 32) = w at hpos hneg hbmod ⊢
    rcases lt_or_ge w 0 with hw | hw
    · have hdecision := hneg hw
      split_ifs at hdecision with hdue
      · -- it passes for due
        have hzero : (0 : BitVec 32).toNat = 0 := rfl
        rw [hdecision, wellScheduled_some_iff, hzero]
        split_ifs at hbmod <;> omega
      · -- it passes for expired
        rw [hdecision, wellScheduled_none_iff]
        split_ifs at hbmod <;> omega
    · -- it is waited for
      obtain ⟨t, hdecision, ht⟩ := hpos hw
      rw [hdecision, wellScheduled_some_iff]
      split_ifs at hbmod <;> omega

/-! ## The call -/

/-- With a rate below 1000 there is no scheduled time. -/
theorem rate_of_sendTime {timestamp : BitVec 32}
    (h : q.sendTime timestamp now = some (send, overflowTime)) :
    1000 ≤ q.currentRTPClockRate.toNat := by
  by_contra hlow
  rw [sendTime] at h
  simp only [Nat.lt_of_not_le hlow, if_true] at h
  cases h

/-- **What the call decides about the head packet**: the first round returns a timeout, or deletes
the packet and goes on with the next one. -/
theorem headDecision_getSchedulingTimeout (h : q.Lists l (p :: c)) (clock : ℕ → Timeval)
    (hsend : q.sendTime p.cachedTimestamp (clock 0) = some (send, overflowTime)) :
    ∃ r, q.getSchedulingTimeout clock = some r ∧
      headDecision r = q.timeoutFor send (clock 0) ∧
      (headDecision r = none → ∃ rest, r.2.1 = .left .expired p :: rest) := by
  obtain ⟨r, hr⟩ := Option.isSome_iff_exists.mp
    ((h.getSchedulingTimeout clock).1 (rate_of_sendTime hsend))
  refine ⟨r, hr, ?_⟩
  rw [getSchedulingTimeout, schedulingLoop] at hr
  cases l with
  | nil => cases h.length_eq
  | cons a l =>
      obtain ⟨hfirst, link, hlink, rfl, -⟩ := h.first_link
      have hkept : (q.setOverflowTime overflowTime).timeoutFor send (clock 0)
          = q.timeoutFor send (clock 0) := rfl
      rw [hfirst] at hr
      simp only [hlink, Option.bind_some, hsend, hkept] at hr
      cases hdecision : q.timeoutFor send (clock 0) with
      | some timeout =>
          rw [hdecision] at hr
          cases hr
          refine ⟨rfl, fun hnone => ?_⟩
          cases hnone
      | none =>
          rw [hdecision] at hr
          obtain ⟨q₁, -, hloop⟩ := Option.bind_eq_some_iff.mp hr
          obtain ⟨⟨timeout, events, q₂⟩, -, heq⟩ := Option.map_eq_some_iff.mp hloop
          cases heq
          exact ⟨rfl, fun _ => ⟨events, rfl⟩⟩

/-- **When the head packet is scheduled as it should be**: for every queue, clock and expire
timeout, the call returns or deletes the packet as `WellScheduled` says exactly if the time that is
left is in reach. -/
theorem scheduling_decision_iff (h : q.Lists l (p :: c)) (clock : ℕ → Timeval)
    (hsend : q.sendTime p.cachedTimestamp (clock 0) = some (send, overflowTime)) :
    ∃ r, q.getSchedulingTimeout clock = some r ∧
      (headDecision r = none → ∃ rest, r.2.1 = .left .expired p :: rest) ∧
      (WellScheduled (send.micros - (clock 0).micros) q.expireTimeout (headDecision r) ↔
        LeftInReach send (clock 0) q.expireTimeout) := by
  obtain ⟨r, hr, hdecision, hexpired⟩ := headDecision_getSchedulingTimeout h clock hsend
  refine ⟨r, hr, hexpired, ?_⟩
  rw [hdecision]
  exact q.wellScheduled_iff send (clock 0)

/-- A queue at 8000 Hz, made at time zero, with one packet of the given timestamp. -/
def oneWaiting (timestamp : BitVec 32) : SendingQueue :=
  { new ⟨7, 65535, fun _ => 0, 0, 0, false, 0, 0, 2, [], []⟩ 8000 ⟨0, 0⟩ with
    links := Heap.write (fun _ => none) 0 ⟨⟨[], 0, 0, 0, 0, 0, 0, timestamp⟩, none, none⟩
    sendFirst := some 0
    sendLast := some 0
    fresh := 1 }

theorem lists_oneWaiting (timestamp : BitVec 32) :
    (oneWaiting timestamp).Lists [0] [⟨[], 0, 0, 0, 0, 0, 0, timestamp⟩] := by
  obtain ⟨q', hq', -, hlists⟩ :=
    (lists_new ⟨7, 65535, fun _ => 0, 0, 0, false, 0, 0, 2, [], []⟩ 8000
    ⟨0, 0⟩).appendLink ⟨[], 0, 0, 0, 0, 0, 0, timestamp⟩
  cases hq'
  exact hlists

/-- The theorem for a packet that is scheduled in ten seconds. -/
theorem scheduling_decision_iff_ten_seconds :
    ∃ r, (oneWaiting 80000).getSchedulingTimeout (fun _ => ⟨0, 0⟩) = some r ∧
      (headDecision r = none → ∃ rest, r.2.1
        = .left .expired ⟨[], 0, 0, 0, 0, 0, 0, 80000⟩ :: rest) ∧
      (WellScheduled 10000000 40000 (headDecision r) ↔
        LeftInReach ⟨10, 0⟩ ⟨0, 0⟩ 40000) :=
  scheduling_decision_iff (lists_oneWaiting 80000) (fun _ => ⟨0, 0⟩)
    (show _ = some ((⟨10, 0⟩ : Timeval), (⟨0, 0⟩ : Timeval)) from rfl)

/-- **A packet that is scheduled in 2200 seconds is deleted.** -/
theorem waiting_packet_deleted :
    (oneWaiting 17600000).sendTime 17600000 ⟨0, 0⟩ = some (⟨2200, 0⟩, ⟨0, 0⟩) ∧
      ∃ r, (oneWaiting 17600000).getSchedulingTimeout (fun _ => ⟨0, 0⟩) = some r ∧
        ¬ WellScheduled 2200000000 40000 (headDecision r) := by
  refine ⟨rfl, ?_⟩
  have hdeleted : ((oneWaiting 17600000).getSchedulingTimeout (fun _ => ⟨0, 0⟩)).map headDecision
      = some none := by decide
  obtain ⟨r, hr, hnone⟩ := Option.map_eq_some_iff.mp hdeleted
  refine ⟨r, hr, fun h => ?_⟩
  exact absurd (h.expired hnone) (by decide)

end SendingQueue
