/-
# When the next RTCP check is due

Models how the two services of the queue (`controlReceptionService`, `controlTransmissionService`,
`timerReconsideration` in `src/control.cpp`) keep `rtcpLastCheck` and `rtcpNextCheck`.  After a
check the reception service adds the interval to the last check and swaps the two times until the
next one lies in the future; the transmission service sets the last check to the current time.  No
reading of the clock is before an earlier one, and the random interval of a report is given.

* `rearmRound_inv` : what a round of the loop keeps, while the sum of the two times grows;
* `rearm_returns` : the loop ends, with the next check in the future and within an interval;
* `Reachable.timed` : the two times along every run of both services;
* `reception_check_rearmed` : both together.
-/
import CcRtp.ReverseReconsideration
import CcRtp.WhileLoop

/-! ## The functions of the source -/

/-- `timercmp(&a, &b, >=)` -/
def timercmpGe (a b : Timeval) : Bool :=
  if a.sec = b.sec then b.usec ≤ a.usec else b.sec ≤ a.sec

/-- The members of `QueueRTCPManager` that time its services. -/
structure ControlTiming where
  reconsInfo : ReconsInfo
  rtcpLastCheck : Timeval
  rtcpCheckInterval : Timeval
  rtcpNextCheck : Timeval
  controlServiceActive : Bool

namespace ControlTiming

/-- The constructor, which reads the clock at `now`.  It stores an interval of a quarter of a
second. -/
def start (interval now : Timeval) : ControlTiming where
  reconsInfo := ⟨⟨0, 0⟩, ⟨0, 0⟩, ⟨0, 0⟩, 1⟩
  rtcpLastCheck := timersub now interval
  rtcpCheckInterval := interval
  rtcpNextCheck := now
  controlServiceActive := true

/-- `gettimeofday(&(reconsInfo.rtcpTc),NULL)` -/
def readClock (now : Timeval) (s : ControlTiming) : ControlTiming :=
  { s with reconsInfo := { s.reconsInfo with rtcpTc := now } }

/-- The next check is due. -/
def due (s : ControlTiming) : Bool := timercmpGe s.reconsInfo.rtcpTc s.rtcpNextCheck

/-- The body of the loop. -/
def rearmRound (s : ControlTiming) : ControlTiming :=
  let tmp := s.rtcpNextCheck
  { s with
    rtcpNextCheck := timeradd s.rtcpLastCheck s.rtcpCheckInterval
    rtcpLastCheck := tmp }

/-- The loop `do { ... } while (...)`, whose condition is looked at so many times at most. -/
def rearm (rounds : ℕ) (s : ControlTiming) : Option ControlTiming :=
  whileLoop due (fun s => some s.rearmRound) rounds s.rearmRound

/-- `controlReceptionService()`, at `now`.  Taking in the packets that are pending may set the times
of the reports; these are then `taken`. -/
def controlReceptionService (rounds : ℕ) (now : Timeval) (taken : ReconsInfo) (s : ControlTiming) :
    Option ControlTiming :=
  if s.controlServiceActive then
    let s := s.readClock now
    if s.due then rearm rounds { s with reconsInfo := taken } else some s
  else some s

/-- `timerReconsideration()`, with the interval `T` and the clock at `now`. -/
def timerReconsideration (T now : Timeval) (s : ControlTiming) : Bool × ControlTiming :=
  let s := { s with reconsInfo := { s.reconsInfo with rtcpTn := timeradd s.reconsInfo.rtcpTp T } }
  let s := s.readClock now
  if timercmpGe s.reconsInfo.rtcpTc s.reconsInfo.rtcpTn then
    (true, { s with reconsInfo := { s.reconsInfo with rtcpTp := s.reconsInfo.rtcpTc } })
  else (false, s)

/-- What the transmission service does once the packet may be sent, with the next interval `T`. -/
def reportSent (T : Timeval) (members : BitVec 32) (s : ControlTiming) : ControlTiming :=
  { s with
    -- not the time of a check, which the reception service takes it for
    rtcpLastCheck := s.reconsInfo.rtcpTc
    reconsInfo := { s.reconsInfo with
      rtcpTp := s.reconsInfo.rtcpTc
      rtcpTn := timeradd s.reconsInfo.rtcpTc T
      rtcpPMembers := members } }

/-- `controlTransmissionService()`, with two readings of the clock and two intervals. -/
def controlTransmissionService (now T now' T' : Timeval) (members : BitVec 32) (s : ControlTiming) :
    ControlTiming :=
  if s.controlServiceActive then
    let s := s.readClock now
    if timercmpGe s.reconsInfo.rtcpTc s.reconsInfo.rtcpTn then
      let r := s.timerReconsideration T now'
      if r.1 then r.2.reportSent T' members else r.2
    else s
  else s

/-! ## Before and after the loop -/

/-- The precondition of the loop: both times have come. -/
structure ReadyToRearm (s : ControlTiming) : Prop where
  current : s.reconsInfo.rtcpTc.Normal
  last : s.rtcpLastCheck.Normal
  next : s.rtcpNextCheck.Normal
  last_le : s.rtcpLastCheck.micros ≤ s.reconsInfo.rtcpTc.micros
  next_le : s.rtcpNextCheck.micros ≤ s.reconsInfo.rtcpTc.micros

/-- The next check is in the future, but not farther than an interval. -/
structure Rearmed (s : ControlTiming) : Prop where
  last : s.rtcpLastCheck.Normal
  next : s.rtcpNextCheck.Normal
  last_le : s.rtcpLastCheck.micros ≤ s.reconsInfo.rtcpTc.micros
  lt_next : s.reconsInfo.rtcpTc.micros < s.rtcpNextCheck.micros
  next_le : s.rtcpNextCheck.micros
    ≤ s.reconsInfo.rtcpTc.micros + s.rtcpCheckInterval.micros

/-- Nothing but the two times of checks has changed. -/
def SameBut (s s' : ControlTiming) : Prop :=
  s' = { s with rtcpLastCheck := s'.rtcpLastCheck, rtcpNextCheck := s'.rtcpNextCheck }

/-! ## The loop -/

/-- `timercmp` compares the values. -/
theorem timercmpGe_iff {a b : Timeval} (ha : a.Normal) (hb : b.Normal) :
    timercmpGe a b = true ↔ b.micros ≤ a.micros := by
  obtain ⟨ha, ha'⟩ := ha
  obtain ⟨hb, hb'⟩ := hb
  unfold timercmpGe Timeval.micros
  split_ifs with hsec
  · rw [decide_eq_true_iff]
    omega
  · rw [decide_eq_true_iff]
    omega

/-- What holds whenever the condition of the loop is looked at. -/
structure LoopInv (s₀ s : ControlTiming) : Prop where
  same : s₀.SameBut s
  last : s.rtcpLastCheck.Normal
  next : s.rtcpNextCheck.Normal
  last_le : s.rtcpLastCheck.micros ≤ s₀.reconsInfo.rtcpTc.micros
  next_le : s.rtcpNextCheck.micros
    ≤ s₀.reconsInfo.rtcpTc.micros + s₀.rtcpCheckInterval.micros

/-- How far the two times together are behind. -/
def lag (s : ControlTiming) : ℕ :=
  (2 * s.reconsInfo.rtcpTc.micros + s.rtcpCheckInterval.micros - s.rtcpLastCheck.micros
    - s.rtcpNextCheck.micros).toNat

variable {s₀ s s' : ControlTiming} {I : Timeval}

theorem LoopInv.current_eq (h : LoopInv s₀ s) : s.reconsInfo = s₀.reconsInfo := by
  rw [h.same]

theorem LoopInv.interval_eq (h : LoopInv s₀ s) : s.rtcpCheckInterval = s₀.rtcpCheckInterval := by
  rw [h.same]

/-- **A round** brings one of the two times forward by an interval and swaps them. -/
theorem rearmRound_inv (hI : s₀.rtcpCheckInterval.Normal) (hsame : s₀.SameBut s)
    (hlast : s.rtcpLastCheck.Normal) (hnext : s.rtcpNextCheck.Normal)
    (hlastle : s.rtcpLastCheck.micros ≤ s₀.reconsInfo.rtcpTc.micros)
    (hnextle : s.rtcpNextCheck.micros ≤ s₀.reconsInfo.rtcpTc.micros) : LoopInv s₀ s.rearmRound := by
  have hinterval : s.rtcpCheckInterval = s₀.rtcpCheckInterval := by rw [hsame]
  refine ⟨?_, hnext, ?_, hnextle, ?_⟩
  · unfold SameBut rearmRound at *
    rw [hsame]
  · unfold rearmRound
    rw [hinterval]
    exact normal_timeradd hlast hI
  · unfold rearmRound
    dsimp only
    rw [micros_timeradd, hinterval]
    omega

/-- **The times come nearer** to the current time with every round. -/
theorem lag_rearmRound_lt (hpos : 0 < s₀.rtcpCheckInterval.micros) (h : LoopInv s₀ s)
    (hdue : s.rtcpNextCheck.micros ≤ s₀.reconsInfo.rtcpTc.micros) : s.rearmRound.lag < s.lag := by
  have hlast := h.last_le
  unfold lag rearmRound
  dsimp only
  rw [micros_timeradd, h.current_eq, h.interval_eq]
  omega

/-- **The loop ends**, and the check is armed again. -/
theorem rearm_returns (hI : s.rtcpCheckInterval.Normal) (hpos : 0 < s.rtcpCheckInterval.micros)
    (h : s.ReadyToRearm) :
    ∃ N s', (∀ rounds ≥ N, s.rearm rounds = some s') ∧ s'.Rearmed ∧ s.SameBut s' := by
  have hround : ∀ t, LoopInv s t → due t = true →
      ∃ u, some t.rearmRound = some u ∧ LoopInv s u ∧ u.lag < t.lag := by
    intro t ht hdue
    unfold due at hdue
    rw [timercmpGe_iff (by rw [ht.current_eq]; exact h.current) ht.next, ht.current_eq] at hdue
    exact ⟨t.rearmRound, rfl, rearmRound_inv hI ht.same ht.last ht.next ht.last_le hdue,
      lag_rearmRound_lt hpos ht hdue⟩
  have hfirst : LoopInv s s.rearmRound :=
    rearmRound_inv hI rfl h.last h.next h.last_le h.next_le
  obtain ⟨s', hloop, hinv, hdone⟩ := whileLoop_of_measure (LoopInv s) lag hround s.rearmRound.lag
    s.rearmRound hfirst le_rfl
  refine ⟨s.rearmRound.lag, s', fun rounds hrounds => whileLoop_of_le hloop hrounds, ?_, hinv.same⟩
  have hnot : ¬ s'.due = true := by rw [hdone]; exact Bool.false_ne_true
  unfold due at hnot
  rw [timercmpGe_iff (by rw [hinv.current_eq]; exact h.current) hinv.next] at hnot
  refine ⟨hinv.last, hinv.next, ?_, not_le.mp hnot, ?_⟩
  · rw [hinv.current_eq]
    exact hinv.last_le
  · rw [hinv.current_eq, hinv.interval_eq]
    exact hinv.next_le

/-! ## Both services, along every run -/

/-- The states that are reached, with the last reading of the clock.  Between the calls of the
services the rest of the object may set the times of the reports, and end the services. -/
inductive Reachable (I : Timeval) : Timeval → ControlTiming → Prop
  | start {now : Timeval} : now.Normal → Reachable I now (start I now)
  | reception {t : Timeval} {s s' : ControlTiming} (rounds : ℕ) (now : Timeval)
      (taken : ReconsInfo) : Reachable I t s → now.Normal → t.micros ≤ now.micros →
      taken.rtcpTc.Normal → now.micros ≤ taken.rtcpTc.micros →
      s.controlReceptionService rounds now taken = some s' → Reachable I taken.rtcpTc s'
  | transmission {t : Timeval} {s : ControlTiming} (now T now' T' : Timeval) (members : BitVec 32) :
      Reachable I t s → now.Normal → t.micros ≤ now.micros → now'.Normal →
      now.micros ≤ now'.micros →
      Reachable I now' (s.controlTransmissionService now T now' T' members)
  | otherwise {t : Timeval} {s : ControlTiming} (r : ReconsInfo) (active : Bool) :
      Reachable I t s → Reachable I t { s with reconsInfo := r, controlServiceActive := active }

/-- What holds of the two times, at `t` or later. -/
structure Timed (I t : Timeval) (s : ControlTiming) : Prop where
  interval : s.rtcpCheckInterval = I
  last : s.rtcpLastCheck.Normal
  next : s.rtcpNextCheck.Normal
  last_le : s.rtcpLastCheck.micros ≤ t.micros
  next_le : s.rtcpNextCheck.micros ≤ t.micros + I.micros

variable {t now now' T T' : Timeval} {taken : ReconsInfo} {members : BitVec 32}

theorem start_timed (hI : I.Normal) (hpos : 0 < I.micros) (hnow : now.Normal) :
    Timed I now (start I now) := by
  refine ⟨rfl, normal_timersub hnow hI, hnow, ?_, ?_⟩
  · show (timersub now I).micros ≤ now.micros
    rw [micros_timersub]
    omega
  · show now.micros ≤ now.micros + I.micros
    omega

/-- As long as the times of checks stay, they may be looked at later. -/
theorem Timed.later (h : Timed I t s) (hle : t.micros ≤ now.micros)
    (hlast : s'.rtcpLastCheck = s.rtcpLastCheck) (hnext : s'.rtcpNextCheck = s.rtcpNextCheck)
    (hinterval : s'.rtcpCheckInterval = s.rtcpCheckInterval) : Timed I now s' := by
  refine ⟨hinterval.trans h.interval, hlast ▸ h.last, hnext ▸ h.next, ?_, ?_⟩
  · rw [hlast]
    exact h.last_le.trans hle
  · rw [hnext]
    exact h.next_le.trans (Int.add_le_add_right hle _)

/-- **The precondition holds again** at the next loop, under a clock that does not go back. -/
theorem Timed.ready (h : Timed I t s) (hnow : now.Normal) (hle : t.micros ≤ now.micros)
    (htaken : taken.rtcpTc.Normal) (hlater : now.micros ≤ taken.rtcpTc.micros)
    (hdue : (s.readClock now).due = true) : ReadyToRearm { s with reconsInfo := taken } := by
  have hcome : s.rtcpNextCheck.micros ≤ now.micros := (timercmpGe_iff hnow h.next).mp hdue
  exact ⟨htaken, h.last, h.next, h.last_le.trans (hle.trans hlater), hcome.trans hlater⟩

/-- **The reception service returns**, and the check is armed. -/
theorem Timed.reception_returns (h : Timed I t s) (hI : I.Normal) (hpos : 0 < I.micros)
    (hnow : now.Normal) (hle : t.micros ≤ now.micros) (htaken : taken.rtcpTc.Normal)
    (hlater : now.micros ≤ taken.rtcpTc.micros) :
    ∃ N s', (∀ rounds ≥ N, s.controlReceptionService rounds now taken = some s') ∧
      Timed I taken.rtcpTc s' ∧ (s.controlServiceActive = true → s'.Rearmed) := by
  unfold controlReceptionService
  by_cases hactive : s.controlServiceActive = true
  · simp only [hactive, if_true]
    by_cases hdue : (s.readClock now).due = true
    · have hready := h.ready hnow hle htaken hlater hdue
      obtain ⟨N, s', hloop, hrearmed, hsame⟩ := rearm_returns
        (s := { s with reconsInfo := taken }) (h.interval ▸ hI) (h.interval ▸ hpos) hready
      have htc : s'.reconsInfo.rtcpTc = taken.rtcpTc := by rw [hsame]
      have hinterval : s'.rtcpCheckInterval = I := by
        rw [hsame]
        exact h.interval
      refine ⟨N, s', fun rounds hrounds => ?_, ⟨hinterval, hrearmed.last, hrearmed.next, ?_, ?_⟩,
        fun _ => hrearmed⟩
      · rw [if_pos hdue]
        exact hloop rounds hrounds
      · rw [← htc]
        exact hrearmed.last_le
      · rw [← htc, ← hinterval]
        exact hrearmed.next_le
    · have hfuture : ¬ s.rtcpNextCheck.micros ≤ now.micros := fun hcome =>
        hdue ((timercmpGe_iff hnow h.next).mpr hcome)
      refine ⟨0, s.readClock now, fun rounds _ => ?_,
        h.later (hle.trans hlater) rfl rfl rfl, fun _ => ?_⟩
      · rw [if_neg hdue]
      · have hlast := h.last_le
        have hnext := h.next_le
        refine ⟨h.last, h.next, hlast.trans hle, not_le.mp hfuture, ?_⟩
        show s.rtcpNextCheck.micros ≤ now.micros + s.rtcpCheckInterval.micros
        rw [h.interval]
        omega
  · refine ⟨0, s, fun rounds _ => ?_, h.later (hle.trans hlater) rfl rfl rfl,
      fun htrue => absurd htrue hactive⟩
    rw [if_neg hactive]

/-- `timerReconsideration` reads the clock and leaves the times of checks. -/
theorem timerReconsideration_snd (T now : Timeval) (s : ControlTiming) :
    ∃ r : ReconsInfo, r.rtcpTc = now ∧
    (s.timerReconsideration T now).2 = { s with reconsInfo := r } := by
  unfold timerReconsideration
  dsimp only
  split_ifs
  · exact ⟨_, rfl, rfl⟩
  · exact ⟨_, rfl, rfl⟩

/-- A report that is sent sets the last check to the current time. -/
theorem Timed.reportSent (h : Timed I t s) (hnow : now.Normal) (hle : t.micros ≤ now.micros)
    {r : ReconsInfo} (hr : r.rtcpTc = now) :
    Timed I now (ControlTiming.reportSent T members { s with reconsInfo := r }) := by
  unfold ControlTiming.reportSent
  dsimp only
  rw [hr]
  exact ⟨h.interval, hnow, h.next, le_rfl, h.next_le.trans (Int.add_le_add_right hle _)⟩

/-- **The transmission service** sets the last check to the current time, or leaves it. -/
theorem Timed.transmission (h : Timed I t s) (hle : t.micros ≤ now.micros) (hnow' : now'.Normal)
    (hlater : now.micros ≤ now'.micros) :
    Timed I now' (s.controlTransmissionService now T now' T' members) := by
  have hend : t.micros ≤ now'.micros := hle.trans hlater
  unfold controlTransmissionService
  dsimp only
  obtain ⟨r, hr, hsnd⟩ := timerReconsideration_snd T now' (s.readClock now)
  rw [hsnd]
  split_ifs
  · exact h.reportSent hnow' hend hr
  · exact h.later hend rfl rfl rfl
  · exact h.later hend rfl rfl rfl
  · exact h.later hend rfl rfl rfl

/-- A call that has returned does so with more rounds. -/
theorem controlReceptionService_of_le {rounds more : ℕ}
    (h : s.controlReceptionService rounds now taken = some s') (hle : rounds ≤ more) :
    s.controlReceptionService more now taken = some s' := by
  unfold controlReceptionService at h ⊢
  dsimp only at h ⊢
  split_ifs at h ⊢
  · exact whileLoop_of_le h hle
  · exact h
  · exact h

/-- **Along every run** the two times lie where the loop needs them. -/
theorem Reachable.timed (hI : I.Normal) (hpos : 0 < I.micros) (h : Reachable I t s) :
    Timed I t s := by
  induction h with
  | start hnow => exact start_timed hI hpos hnow
  | reception rounds now taken _ hnow hle htaken hlater hreturned ih =>
      obtain ⟨N, s'', hall, htimed, -⟩ := ih.reception_returns hI hpos hnow hle htaken hlater
      have hmore := controlReceptionService_of_le hreturned (Nat.le_max_left rounds N)
      rw [hall _ (Nat.le_max_right rounds N), Option.some_inj] at hmore
      exact hmore ▸ htimed
  | transmission now T now' T' members _ _ hle hnow' hlater ih =>
    exact ih.transmission hle hnow' hlater
  | otherwise r active _ ih => exact ih.later le_rfl rfl rfl rfl

/-- **The RTCP check is armed again.**  For every positive interval: from a state in which both
times have come the loop ends; afterwards the next check is in the future, at most an interval away,
and the last one is not, and nothing else has changed.  Along every run of both services with a
clock that does not go back the times have come whenever the loop is begun, and every call of the
reception service returns, with the check armed while the services are active. -/
theorem reception_check_rearmed (I : Timeval) (hI : I.Normal) (hpos : 0 < I.micros) :
    (∀ s : ControlTiming, s.rtcpCheckInterval = I → s.ReadyToRearm →
      ∃ N s', (∀ rounds ≥ N, s.rearm rounds = some s') ∧ s'.Rearmed ∧ s.SameBut s') ∧
    ∀ (t : Timeval) (s : ControlTiming), Reachable I t s → ∀ (now : Timeval) (taken : ReconsInfo),
      now.Normal → t.micros ≤ now.micros → taken.rtcpTc.Normal →
      now.micros ≤ taken.rtcpTc.micros →
      ((s.readClock now).due = true → ReadyToRearm { s with reconsInfo := taken }) ∧
        ∃ N s', (∀ rounds ≥ N, s.controlReceptionService rounds now taken = some s') ∧
          (s.controlServiceActive = true → s'.Rearmed) := by
  constructor
  · rintro s rfl hready
    exact rearm_returns hI hpos hready
  · intro t s hreach now taken hnow hle htaken hlater
    have htimed := hreach.timed hI hpos
    obtain ⟨N, s', hall, -, hrearmed⟩ :=
      htimed.reception_returns hI hpos hnow hle htaken hlater
    exact ⟨fun hdue => htimed.ready hnow hle htaken hlater hdue, N, s', hall, hrearmed⟩

/-- The theorem for a queue that is served again after two seconds. -/
theorem reception_check_rearmed_late :
    ∃ N s', (∀ rounds ≥ N, (start ⟨0, 250000⟩ ⟨100, 0⟩).controlReceptionService rounds ⟨102, 0⟩
      ⟨⟨0, 0⟩, ⟨102, 0⟩, ⟨0, 0⟩, 1⟩ = some s') ∧ s'.Rearmed := by
  have hzero : ∀ sec : ℤ, (⟨sec, 0⟩ : Timeval).Normal := fun _ =>
    ⟨le_rfl, (by decide : (0 : ℤ) < 1000000)⟩
  obtain ⟨-, hrun⟩ := reception_check_rearmed ⟨0, 250000⟩ ⟨by decide, by decide⟩ (by decide)
  obtain ⟨-, N, s', hall, hrearmed⟩ := hrun ⟨100, 0⟩ _ (Reachable.start (hzero 100)) ⟨102, 0⟩
    ⟨⟨0, 0⟩, ⟨102, 0⟩, ⟨0, 0⟩, 1⟩ (hzero 102) (by decide) (hzero 102) (by decide)
  exact ⟨N, s', hall, hrearmed rfl⟩

end ControlTiming
