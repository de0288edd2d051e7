/-
# The statistics of the sender

`dispatchDataPacket` counts the packets and octets that it hands to `dispatchImmediate`;
`dispatchControlPacket` sends a sender report if the packet count has changed since the last
report (`src/outqueue.cpp`, `src/control.cpp`).  Next to the sender a ledger is kept of what
was really handed over, by `sendImmediate` as well.

* `SendingQueue.perform_counts` : what a call adds to the two counters;
* `Ledger.Kept.perform` : the ledger and the counters agree, as long as nothing is sent by
  `sendImmediate`;
* `sender_statistics` : so they do along whole runs, and in no others.
-/
import CcRtp.SendingQueue
import CcRtp.RtcpSending

/-! ## What leaves the sender -/

/-- The elements that were dispatched, in order. -/
def dispatchedOf {α : Type*} (trace : List (QueueEvent α)) : List α :=
  trace.filterMap (fun | .left .dispatched p => some p | _ => none)

/-- The payload octets of packets. -/
def payloadOctets (l : List OutgoingRTPPkt) : ℕ := (l.map (fun p => p.payloadSize.toNat)).sum

/-- The sending queue, and the packet count at the last report. -/
structure RtpSender where
  queue : SendingQueue
  lastSendPacketCount : BitVec 32

/-- A call on the queue, or a report.  What a report says about the sources, and in which
words, does not matter here. -/
inductive SenderCall : Type where
  | queue (call : QueueCall)
  | dispatchControlPacket (control : ControlSender) (clock : ℕ → Timeval) (stamps : Stamps)
      (stale : Memory)

/-- A call sends data without the queue. -/
def SenderCall.SendsImmediately : SenderCall → Prop
  | .queue (.send (.sendImmediate _ data)) => data ≠ []
  | _ => False

/-- The octets that a call sends without the queue. -/
def SenderCall.immediateOctets : SenderCall → ℕ
  | .queue (.send (.sendImmediate _ data)) => data.length
  | _ => 0

namespace RtpSender

/-- The members that `dispatchControlPacket` reads, with the counters of this sender. -/
def withCounters (s : RtpSender) (control : ControlSender) : ControlSender :=
  { control with
    lastSendPacketCount := s.lastSendPacketCount
    sendPacketCount := s.queue.packetCount
    sendOctetCount := s.queue.octetCount }

/-- One call: the packets that it hands to `dispatchImmediate`, and the type of the report. -/
def perform (P : Primitives) (s : RtpSender) :
    SenderCall → Option (List OutgoingRTPPkt × Option UInt8 × RtpSender)
  | .queue (.send (.sendImmediate stamp data)) =>
      (s.queue.info.sendImmediate P stamp data).map (fun (l, info) =>
        (l.map SentPacket.packet, none, { s with queue := { s.queue with info := info } }))
  | .queue call =>
      (s.queue.perform P call).map (fun (events, q) =>
        (dispatchedOf events, none, { s with queue := q }))
  | .dispatchControlPacket control clock stamps stale =>
      ((s.withCounters control).dispatchControlPacket clock stamps stale).map (fun c =>
        ([], some (s.withCounters control).reportType,
          { s with lastSendPacketCount := c.sender.lastSendPacketCount }))

/-- A sender that has not sent anything. -/
def new (info : OutgoingDataQueue) (rate : BitVec 32) (initialTime : Timeval) : RtpSender where
  queue := .new info rate initialTime
  lastSendPacketCount := 0

end RtpSender

/-- A sender, the packets handed over so far, how many of them since the last report, and if
the last call was a report, its type and how many packets there were before it. -/
structure Ledger where
  sender : RtpSender
  sent : List OutgoingRTPPkt
  sinceReport : ℕ
  report : Option (UInt8 × ℕ)

namespace Ledger

open RTCPPacket

/-- One call, with the books kept. -/
def perform (P : Primitives) (l : Ledger) (call : SenderCall) : Option Ledger :=
  (l.sender.perform P call).map (fun (sent, report, s) =>
    { sender := s
      sent := l.sent ++ sent
      sinceReport := if report.isSome then 0 else l.sinceReport + sent.length
      report := report.map (fun type => (type, l.sinceReport)) })

/-- The books of a new sender. -/
def new (info : OutgoingDataQueue) (rate : BitVec 32) (initialTime : Timeval) : Ledger where
  sender := .new info rate initialTime
  sent := []
  sinceReport := 0
  report := none

/-- **The statistics count what was sent**, and a report is a sender report if and only if
something was sent since the one before. -/
structure Balanced (l : Ledger) : Prop where
  packetCount : l.sender.queue.packetCount = BitVec.ofNat 32 l.sent.length
  octetCount : l.sender.queue.octetCount = BitVec.ofNat 32 (payloadOctets l.sent)
  report : ∀ r, l.report = some r → r.2 < 2 ^ 32 → (r.1 = tSR ↔ 0 < r.2)

end Ledger

/-! ## The counters of the queue -/

namespace SendingQueue

variable {P : Primitives} {q q' : SendingQueue}

/-- The two counters. -/
def counters (q : SendingQueue) : BitVec 32 × BitVec 32 := (q.packetCount, q.octetCount)

theorem counters_appendLink {p : OutgoingRTPPkt} (h : q.appendLink p = some q') :
    q'.counters = q.counters := by
  rw [appendLink] at h
  dsimp only at h
  cases hlast : q.sendLast with
  | none =>
      rw [hlast] at h
      cases h
      rfl
  | some last =>
      rw [hlast] at h
      obtain ⟨links, -, rfl⟩ := Option.map_eq_some_iff.mp h
      rfl

theorem counters_putLoop (stamp : BitVec 32) (rounds : ℕ) :
    ∀ {data : Octets} {first : Bool} {q : SendingQueue} {r : List OutgoingRTPPkt × SendingQueue},
      putLoop P stamp rounds data first q = some r → r.2.counters = q.counters := by
  induction rounds with
  | zero =>
      intro data first q r h
      cases data with
      | nil =>
          cases h
          rfl
      | cons x data => cases h
  | succ rounds ih =>
      intro data first q r h
      cases data with
      | nil =>
          cases h
          rfl
      | cons x data =>
          rw [putLoop_cons] at h
          obtain ⟨⟨p, q₁⟩, hput, hrest⟩ := Option.bind_eq_some_iff.mp h
          obtain ⟨r', hr', rfl⟩ := Option.map_eq_some_iff.mp hrest
          have hq₁ : q₁.counters = q.counters := by
            rw [putSegment] at hput
            obtain ⟨info, -, hinfo⟩ := Option.bind_eq_some_iff.mp hput
            obtain ⟨⟨s, info'⟩, -, happend⟩ := Option.bind_eq_some_iff.mp hinfo
            obtain ⟨q₂, hq₂, heq⟩ := Option.map_eq_some_iff.mp happend
            cases heq
            have hkeep := counters_appendLink hq₂
            exact hkeep
          exact (ih hr').trans hq₁

theorem counters_relinkFirst {next : Option ℕ} (h : q.relinkFirst next = some q') :
    q'.counters = q.counters := by
  cases next with
  | none =>
      cases h
      rfl
  | some b =>
      obtain ⟨links, -, rfl⟩ := Option.map_eq_some_iff.mp h
      rfl

/-- What expires is not counted. -/
theorem counters_schedulingLoop (clock : ℕ → Timeval) (rounds : ℕ) :
    ∀ {reading : ℕ} {q : SendingQueue}
      {r : BitVec 32 × List (QueueEvent OutgoingRTPPkt) × SendingQueue},
      schedulingLoop clock rounds reading q = some r →
      r.2.2.counters = q.counters ∧ dispatchedOf r.2.1 = [] := by
  induction rounds with
  | zero =>
      intro reading q r h
      cases h
  | succ rounds ih =>
      intro reading q r h
      rw [schedulingLoop] at h
      cases hfirst : q.sendFirst with
      | none =>
          rw [hfirst] at h
          cases h
          exact ⟨rfl, rfl⟩
      | some first =>
          rw [hfirst] at h
          obtain ⟨link, -, hlink⟩ := Option.bind_eq_some_iff.mp h
          obtain ⟨⟨send, overflowTime⟩, -, htimeout⟩ := Option.bind_eq_some_iff.mp hlink
          dsimp only at htimeout
          cases htime : (q.setOverflowTime overflowTime).timeoutFor send (clock reading) with
          | some timeout =>
              rw [htime] at htimeout
              cases htimeout
              exact ⟨rfl, rfl⟩
          | none =>
              rw [htime] at htimeout
              obtain ⟨q₁, hq₁, hloop⟩ := Option.bind_eq_some_iff.mp htimeout
              obtain ⟨r', hr', rfl⟩ := Option.map_eq_some_iff.mp hloop
              obtain ⟨hcounters, hnone⟩ := ih hr'
              have hkeep := counters_relinkFirst hq₁
              exact ⟨hcounters.trans hkeep, hnone⟩

theorem counters_purgeLoop (rounds : ℕ) :
    ∀ {q : SendingQueue} {r : List (QueueEvent OutgoingRTPPkt) × SendingQueue},
      purgeLoop rounds q = some r → r.2.counters = q.counters ∧ dispatchedOf r.1 = [] := by
  induction rounds with
  | zero =>
      intro q r h
      cases h
  | succ rounds ih =>
      intro q r h
      rw [purgeLoop] at h
      cases hfirst : q.sendFirst with
      | none =>
          rw [hfirst] at h
          cases h
          exact ⟨rfl, rfl⟩
      | some first =>
          rw [hfirst] at h
          obtain ⟨link, -, hlink⟩ := Option.bind_eq_some_iff.mp h
          obtain ⟨r', hr', rfl⟩ := Option.map_eq_some_iff.mp hlink
          obtain ⟨hcounters, hnone⟩ := ih hr'
          exact ⟨hcounters, hnone⟩

/-- **What a call adds to the counters**: the packets that it dispatches from the queue. -/
theorem perform_counts {call : QueueCall} {events : List (QueueEvent OutgoingRTPPkt)}
    (h : q.perform P call = some (events, q')) :
    q'.packetCount = q.packetCount + BitVec.ofNat 32 (dispatchedOf events).length ∧
      q'.octetCount = q.octetCount + BitVec.ofNat 32 (payloadOctets (dispatchedOf events)) := by
  have hkeep : q'.counters = q.counters → dispatchedOf events = [] →
      q'.packetCount = q.packetCount + BitVec.ofNat 32 (dispatchedOf events).length ∧
        q'.octetCount = q.octetCount + BitVec.ofNat 32 (payloadOctets (dispatchedOf events)) := by
    intro hcounters hnone
    obtain ⟨hpackets, hoctets⟩ := Prod.mk.inj hcounters
    rw [hnone]
    exact ⟨hpackets.trans (BitVec.add_zero _).symm, hoctets.trans (BitVec.add_zero _).symm⟩
  cases call with
  | send call =>
      cases call with
      | putData stamp data =>
          obtain ⟨⟨l, q₁⟩, hput, heq⟩ := Option.map_eq_some_iff.mp h
          cases heq
          refine hkeep (counters_putLoop stamp data.length hput) ?_
          rw [dispatchedOf, List.filterMap_map]
          exact List.filterMap_none ..
      | sendImmediate stamp data =>
          obtain ⟨⟨l, info⟩, -, heq⟩ := Option.map_eq_some_iff.mp h
          cases heq
          exact hkeep rfl rfl
      | _ =>
          cases h
          exact hkeep rfl rfl
  | dispatchDataPacket =>
      obtain ⟨⟨size, events', q₁⟩, hdispatch, heq⟩ := Option.map_eq_some_iff.mp h
      cases heq
      rw [dispatchDataPacket] at hdispatch
      cases hfirst : q.sendFirst with
      | none =>
          rw [hfirst] at hdispatch
          cases hdispatch
          exact hkeep rfl rfl
      | some first =>
          rw [hfirst] at hdispatch
          obtain ⟨link, -, hlink⟩ := Option.bind_eq_some_iff.mp hdispatch
          obtain ⟨q₂, hq₂, heq⟩ := Option.map_eq_some_iff.mp hlink
          cases heq
          obtain ⟨hpackets, hoctets⟩ := Prod.mk.inj (counters_relinkFirst hq₂)
          refine ⟨congrArg (· + 1) hpackets, ?_⟩
          have hsize : payloadOctets [link.packet] = link.packet.payloadSize.toNat := Nat.add_zero _
          show q₂.octetCount + link.packet.payloadSize
            = q.octetCount + BitVec.ofNat 32 (payloadOctets [link.packet])
          rw [hsize, BitVec.ofNat_toNat, BitVec.setWidth_eq, hoctets]
  | getSchedulingTimeout clock =>
      obtain ⟨⟨timeout, events', q₁⟩, htimeout, heq⟩ := Option.map_eq_some_iff.mp h
      cases heq
      obtain ⟨hcounters, hnone⟩ := counters_schedulingLoop clock _ htimeout
      exact hkeep hcounters hnone
  | purgeOutgoingQueue =>
      obtain ⟨⟨events', q₁⟩, hpurge, heq⟩ := Option.map_eq_some_iff.mp h
      cases heq
      obtain ⟨hcounters, hnone⟩ := counters_purgeLoop _ hpurge
      exact hkeep hcounters hnone
  | setCurrentRTPClockRate rate =>
      cases h
      exact hkeep rfl rfl
  | setSchedulingTimeout timeout =>
      cases h
      exact hkeep rfl rfl
  | setExpireTimeout timeout =>
      cases h
      exact hkeep rfl rfl

end SendingQueue

/-- A loop over segments makes a packet in every round. -/
theorem OutgoingDataQueue.length_segmentLoop
    {body : OutgoingDataQueue → Octets → Bool → Option (SentPacket × OutgoingDataQueue)}
    (rounds : ℕ) :
    ∀ {data : Octets} {first : Bool} {q : OutgoingDataQueue}
      {r : List SentPacket × OutgoingDataQueue}, segmentLoop body rounds data first q = some r →
      r.1.length ≤ rounds ∧ (data ≠ [] → 0 < r.1.length) := by
  induction rounds with
  | zero =>
      intro data first q r h
      cases data with
      | nil =>
          cases h
          exact ⟨le_rfl, fun hne => absurd rfl hne⟩
      | cons x data => cases h
  | succ rounds ih =>
      intro data first q r h
      cases data with
      | nil =>
          cases h
          exact ⟨Nat.zero_le _, fun hne => absurd rfl hne⟩
      | cons x data =>
          rw [SendingQueue.segmentLoop_cons] at h
          obtain ⟨⟨s, q₁⟩, -, hrest⟩ := Option.bind_eq_some_iff.mp h
          obtain ⟨r', hr', rfl⟩ := Option.map_eq_some_iff.mp hrest
          exact ⟨Nat.succ_le_succ (ih hr').1, fun _ => Nat.succ_pos _⟩

/-! ## The ledger -/

theorem RtpSender.perform_queue (P : Primitives) (s : RtpSender) {call : QueueCall}
    (h : ∀ stamp data, call ≠ .send (.sendImmediate stamp data)) :
    s.perform P (.queue call) = (s.queue.perform P call).map (fun (events, q) =>
      (dispatchedOf events, none, { s with queue := q })) := by
  cases call with
  | send call =>
      cases call with
      | sendImmediate stamp data => exact absurd rfl (h stamp data)
      | _ => rfl
  | _ => rfl

/-- With the default path MTU the compound starts with a packet of that type. -/
theorem ControlSender.begun_reportType (s : ControlSender) (clock : ℕ → Timeval) (stamps : Stamps)
    (stale : Memory) (hmtu : s.pathMTU = 1500)
    (hcname : (s.items QueueRTCPManager.sdesItemTypeCNAME).length ≤ 255) :
    ∃ c, s.dispatchControlPacket clock stamps stale = some c ∧
      RTCPPacket.Begun c.buf 0 s.reportType := by
  obtain ⟨c, hc, hne, hlaid, -⟩ := s.dispatchControlPacket_spec clock stamps stale hmtu hcname
  obtain ⟨o, os, hos⟩ := List.exists_cons_of_ne_nil hne
  rw [hos] at hlaid
  obtain ⟨rfl, hbegun, -⟩ := hlaid
  exact ⟨c, hc, hbegun⟩

namespace Ledger

open RTCPPacket

variable {P : Primitives} {l l' : Ledger} {call : SenderCall}

/-- The books are balanced, and the count at the last report is what it was then. -/
structure Kept (l : Ledger) : Prop where
  balanced : l.Balanced
  le : l.sinceReport ≤ l.sent.length
  last : l.sender.lastSendPacketCount = BitVec.ofNat 32 (l.sent.length - l.sinceReport)

theorem kept_new (info : OutgoingDataQueue) (rate : BitVec 32) (initialTime : Timeval) :
    (new info rate initialTime).Kept :=
  ⟨⟨rfl, rfl, fun _ h => by cases h⟩, le_rfl, rfl⟩

/-- A call that counts what it hands over. -/
theorem Kept.of_counted (h : l.Kept) {sent : List OutgoingRTPPkt} {q : SendingQueue}
    (hpackets : q.packetCount = l.sender.queue.packetCount + BitVec.ofNat 32 sent.length)
    (hoctets : q.octetCount = l.sender.queue.octetCount + BitVec.ofNat 32 (payloadOctets sent)) :
    Kept { sender := { l.sender with queue := q }
           sent := l.sent ++ sent
           sinceReport := l.sinceReport + sent.length
           report := none } := by
  have hle := h.le
  refine ⟨⟨?_, ?_, fun _ h => by cases h⟩, ?_, ?_⟩
  · rw [List.length_append, BitVec.ofNat_add, ← h.balanced.packetCount]
    exact hpackets
  · rw [payloadOctets, List.map_append, List.sum_append, BitVec.ofNat_add]
    exact hoctets.trans (congrArg (· + _) h.balanced.octetCount)
  · rw [List.length_append]
    exact Nat.add_le_add_right hle _
  · rw [List.length_append, Nat.add_sub_add_right]
    exact h.last

/-- **The report.**  Fewer than `2 ^ 32` packets ago the count was another one. -/
theorem Kept.reportType_iff (h : l.Kept) (hfew : l.sinceReport < 2 ^ 32) (control : ControlSender) :
    (l.sender.withCounters control).reportType = tSR ↔ 0 < l.sinceReport := by
  have hsent : (l.sender.withCounters control).sent = true ↔
      l.sender.lastSendPacketCount ≠ l.sender.queue.packetCount := by
    rw [ControlSender.sent]
    exact decide_eq_true_iff
  have hcounts : l.sender.lastSendPacketCount ≠ l.sender.queue.packetCount ↔ 0 < l.sinceReport := by
    have hle := h.le
    rw [h.last, h.balanced.packetCount, ne_eq, ← BitVec.toNat_inj, BitVec.toNat_ofNat,
      BitVec.toNat_ofNat]
    omega
  rw [ControlSender.reportType, ← hcounts, ← hsent]
  split_ifs with hs
  · exact iff_of_true rfl hs
  · exact iff_of_false (by decide) hs

/-- **Every call but `sendImmediate` with data keeps the books.** -/
theorem Kept.perform (h : l.Kept) (hcall : ¬ call.SendsImmediately)
    (hl' : l.perform P call = some l') : l'.Kept := by
  obtain ⟨⟨sent, report, s⟩, hs, rfl⟩ := Option.map_eq_some_iff.mp hl'
  cases call with
  | dispatchControlPacket control clock stamps stale =>
      obtain ⟨c, hc, heq⟩ := Option.map_eq_some_iff.mp hs
      cases heq
      obtain ⟨d, -, rfl⟩ := Option.map_eq_some_iff.mp hc
      refine ⟨⟨?_, ?_, ?_⟩, Nat.zero_le _, ?_⟩
      · show l.sender.queue.packetCount = BitVec.ofNat 32 (l.sent ++ []).length
        rw [List.append_nil]
        exact h.balanced.packetCount
      · show l.sender.queue.octetCount = BitVec.ofNat 32 (payloadOctets (l.sent ++ []))
        rw [List.append_nil]
        exact h.balanced.octetCount
      · rintro r ⟨⟩ hfew
        exact h.reportType_iff hfew control
      · show l.sender.queue.packetCount = BitVec.ofNat 32 ((l.sent ++ []).length - 0)
        rw [List.append_nil, Nat.sub_zero]
        exact h.balanced.packetCount
  | queue call =>
      by_cases himmediate : ∃ stamp data, call = .send (.sendImmediate stamp data)
      · obtain ⟨stamp, data, rfl⟩ := himmediate
        have hdata : data = [] := not_not.mp hcall
        subst hdata
        cases hs
        exact h.of_counted (BitVec.add_zero _).symm (BitVec.add_zero _).symm
      · rw [RtpSender.perform_queue P l.sender
          (fun stamp data heq => himmediate ⟨stamp, data, heq⟩)]
          at hs
        obtain ⟨⟨events, q⟩, hq, heq⟩ := Option.map_eq_some_iff.mp hs
        cases heq
        obtain ⟨hpackets, hoctets⟩ := SendingQueue.perform_counts hq
        exact h.of_counted hpackets hoctets

/-- **`sendImmediate` with data spoils the books**, if the data are shorter than `2 ^ 32`
octets. -/
theorem not_balanced_of_sendsImmediately (h : l.Balanced) (hcall : call.SendsImmediately)
    (hshort : call.immediateOctets < 2 ^ 32) (hl' : l.perform P call = some l') :
    ¬ l'.Balanced := by
  obtain ⟨⟨sent, report, s⟩, hs, rfl⟩ := Option.map_eq_some_iff.mp hl'
  cases call with
  | dispatchControlPacket control clock stamps stale => exact hcall.elim
  | queue call =>
      cases call with
      | send call =>
          cases call with
          | sendImmediate stamp data =>
              obtain ⟨r, hr, heq⟩ := Option.map_eq_some_iff.mp hs
              cases heq
              obtain ⟨hle, hpos⟩ := OutgoingDataQueue.length_segmentLoop data.length hr
              have hsome : 0 < r.1.length := hpos hcall
              have hfew : data.length < 2 ^ 32 := hshort
              intro hbalanced
              have hcount : BitVec.ofNat 32 l.sent.length
                  = BitVec.ofNat 32 (l.sent.length + r.1.length) := by
                have hnew : l.sender.queue.packetCount
                    = BitVec.ofNat 32 (l.sent ++ r.1.map SentPacket.packet).length :=
                  hbalanced.packetCount
                rw [h.packetCount, List.length_append, List.length_map] at hnew
                exact hnew
              rw [← BitVec.toNat_inj, BitVec.toNat_ofNat, BitVec.toNat_ofNat] at hcount
              omega
          | _ => exact hcall.elim
      | _ => exact hcall.elim

end Ledger

/-- Every state that a run reaches is balanced. -/
def Ledger.BalancedThroughout (P : Primitives) (l : Ledger) (calls : List SenderCall) : Prop :=
  AlongRun (partialStep (Ledger.perform P))
    (fun s call => ∀ l' ∈ partialStep (Ledger.perform P) s call, l'.Balanced) (some l) calls

/-- **The statistics count what was sent**, in every state that a run of calls on a new sender
reaches, and its reports are sender reports exactly if something was sent, if no call of the run
is a `sendImmediate` with data.  No other run whose calls return is like that, as long as fewer
than `2 ^ 32` octets are sent by each `sendImmediate`. -/
theorem sender_statistics (P : Primitives) (info : OutgoingDataQueue) (rate : BitVec 32)
    (initialTime : Timeval) (calls : List SenderCall) :
    ((∀ call ∈ calls, ¬ call.SendsImmediately) →
      (Ledger.new info rate initialTime).BalancedThroughout P calls) ∧
    (AlongRun (partialStep (Ledger.perform P))
        (fun s call => (partialStep (Ledger.perform P) s call).isSome = true)
        (some (Ledger.new info rate initialTime)) calls →
      (∀ call ∈ calls, call.immediateOctets < 2 ^ 32) →
      (Ledger.new info rate initialTime).BalancedThroughout P calls →
      ∀ call ∈ calls, ¬ call.SendsImmediately) := by
  constructor
  · intro hcalls
    have hstep : ∀ (s : Option Ledger) (call : SenderCall), (∀ l ∈ s, l.Kept) →
        ¬ call.SendsImmediately →
        (∀ l' ∈ partialStep (Ledger.perform P) s call, l'.Balanced) ∧
          ∀ l' ∈ partialStep (Ledger.perform P) s call, l'.Kept := by
      intro s call hs hcall
      have hkept : ∀ l' ∈ partialStep (Ledger.perform P) s call, l'.Kept := by
        intro l' hl'
        obtain ⟨l, hl, hperform⟩ := Option.bind_eq_some_iff.mp hl'
        exact (hs l hl).perform hcall hperform
      exact ⟨fun l' hl' => (hkept l' hl').balanced, hkept⟩
    refine alongRun_of_invariant hstep ?_ (alongRun_of_forall_mem hcalls)
    rintro l ⟨⟩
    exact Ledger.kept_new info rate initialTime
  · intro hruns hshort hbalanced
    have hexact : ∀ (s : Option Ledger) (call : SenderCall), (∃ l, s = some l ∧ l.Kept) →
        ((partialStep (Ledger.perform P) s call).isSome = true ∧ call.immediateOctets < 2 ^ 32) →
        ((∀ l' ∈ partialStep (Ledger.perform P) s call, l'.Balanced) ↔
          ¬ call.SendsImmediately) := by
      rintro s call ⟨l, rfl, hl⟩ ⟨hreturns, hfew⟩
      obtain ⟨l', hl'⟩ := Option.isSome_iff_exists.mp hreturns
      constructor
      · intro hgood hcall
        exact Ledger.not_balanced_of_sendsImmediately hl.balanced hcall hfew hl' (hgood l' hl')
      · intro hcall l₁ hl₁
        exact (hl.perform hcall hl₁).balanced
    have hkeep : ∀ (s : Option Ledger) (call : SenderCall), (∃ l, s = some l ∧ l.Kept) →
        ((partialStep (Ledger.perform P) s call).isSome = true ∧ call.immediateOctets < 2 ^ 32) →
        ¬ call.SendsImmediately → ∃ l, partialStep (Ledger.perform P) s call = some l ∧ l.Kept := by
      rintro s call ⟨l, rfl, hl⟩ ⟨hreturns, -⟩ hcall
      obtain ⟨l', hl'⟩ := Option.isSome_iff_exists.mp hreturns
      exact ⟨l', hl', hl.perform hcall hl'⟩
    have hiff := alongRun_iff_of_invariant hexact hkeep
      ⟨_, rfl, Ledger.kept_new info rate initialTime⟩ (hruns.and (alongRun_of_forall_mem hshort))
    exact forall_mem_of_alongRun (hiff.mp hbalanced)

/-- A packet sent by `sendImmediate` is not counted, and the next report is a receiver
report. -/
theorem sender_statistics_immediate :
    ∃ l, (Ledger.new ⟨7, 65535, fun _ => 0, 0, 0, false, 0, 0, 2, [], []⟩ 8000 ⟨1000, 0⟩).perform
        .additive (.queue (.send (.sendImmediate 0 [1]))) = some l ∧
      l.sent.length = 1 ∧ l.sinceReport = 1 ∧ l.sender.queue.packetCount = 0 ∧
      (∀ control, (l.sender.withCounters control).reportType = tRR) ∧
      ¬ (Ledger.new ⟨7, 65535, fun _ => 0, 0, 0, false, 0, 0, 2, [], []⟩ 8000
        ⟨1000, 0⟩).BalancedThroughout .additive [.queue (.send (.sendImmediate 0 [1]))] := by
  refine ⟨_, rfl, rfl, rfl, rfl, fun _ => rfl, ?_⟩
  rintro ⟨hbalanced, -⟩
  have hcount := (hbalanced _ rfl).packetCount
  exact absurd hcount (by decide)
