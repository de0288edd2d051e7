/-
# The sending queue of `OutgoingDataQueue`

`putData` appends link objects at `sendLast`; `dispatchDataPacket`, the expiry inside
`getSchedulingTimeout` and `purgeOutgoingQueue` take them away at `sendFirst`
(`src/outqueue.cpp`).  Here the links are objects in memory, and every access through a
pointer to a deleted object has no outcome.

What a call does to the queue is recorded as events, and a FIFO says which events may come
next (`fifoStep`).

* `Lists` : the links form a list in both directions, with the given packets;
* `Lists.putData_eq` : the pointers and the list of `OutgoingDataQueue` agree on `putData`;
* `sending_queue_refines_fifo` : along every run of calls the queue is a FIFO.
-/
import CcRtp.OutgoingQueue
import CcRtp.LinkedList
import CcRtp.TimeArithmetic

/-! ## Events -/

/-- How a packet leaves the queue. -/
inductive Departure : Type where
  | dispatched
  | expired
  | purged

/-- What happens to a queue. -/
inductive QueueEvent (α : Type*) : Type _ where
  | enqueued (p : α)
  | left (how : Departure) (p : α)

section Fifo

variable {α : Type*}

/-- The elements that joined, in order. -/
def enqueuedOf (trace : List (QueueEvent α)) : List α :=
  trace.filterMap (fun | .enqueued p => some p | .left _ _ => none)

/-- The elements that left, in order. -/
def leftOf (trace : List (QueueEvent α)) : List α :=
  trace.filterMap (fun | .enqueued _ => none | .left _ p => some p)

variable [DecidableEq α]

/-- A FIFO: elements join behind the others, and only the oldest may leave. -/
def fifoStep : List α → QueueEvent α → Option (List α)
  | c, .enqueued p => some (c ++ [p])
  | p' :: c, .left _ p => if p = p' then some c else none
  | [], .left _ _ => none

theorem foldlM_fifoStep_enqueued (c l : List α) :
    (l.map QueueEvent.enqueued).foldlM fifoStep c = some (c ++ l) := by
  induction l generalizing c with
  | nil => exact congrArg some (List.append_nil c).symm
  | cons p l ih =>
      rw [List.map_cons, List.foldlM_cons]
      show (l.map QueueEvent.enqueued).foldlM fifoStep (c ++ [p]) = _
      rw [ih, List.append_assoc, List.singleton_append]

/-- The oldest elements may leave one after the other. -/
theorem foldlM_fifoStep_left (how : Departure) (k : ℕ) (c : List α) :
    ((c.take k).map (QueueEvent.left how)).foldlM fifoStep c = some (c.drop k) := by
  induction k generalizing c with
  | zero => rfl
  | succ k ih =>
      cases c with
      | nil => rfl
      | cons p c =>
          rw [List.take_succ_cons, List.map_cons, List.foldlM_cons, List.drop_succ_cons, ← ih c]
          show (if p = p then some c else none).bind _ = _
          rw [if_pos rfl, Option.bind_some]

/-- **What joined a FIFO has left it or is in it, in this order.** -/
theorem enqueuedOf_eq_leftOf_append {trace : List (QueueEvent α)} {c c' : List α}
    (h : trace.foldlM fifoStep c = some c') : c ++ enqueuedOf trace = leftOf trace ++ c' := by
  induction trace generalizing c with
  | nil =>
      cases h
      exact List.append_nil _
  | cons event trace ih =>
      rw [List.foldlM_cons] at h
      cases event with
      | enqueued p =>
          have hih := ih h
          rwa [List.append_assoc] at hih
      | left how p =>
          cases c with
          | nil => cases h
          | cons p' c =>
              obtain ⟨c₁, hstep, hrest⟩ := Option.bind_eq_some_iff.mp h
              rw [fifoStep] at hstep
              split_ifs at hstep with heq
              cases hstep
              subst heq
              exact congrArg (List.cons p) (ih hrest)

end Fifo

/-! ## The functions of the source -/

/-- `OutgoingRTPPktLink` -/
structure OutgoingRTPPktLink where
  packet : OutgoingRTPPkt
  prev : Option ℕ
  next : Option ℕ

/-- The queue with its link objects.  Of `info` everything is used but the list of packets
that stands for the queue there. -/
structure SendingQueue where
  info : OutgoingDataQueue
  links : Heap ℕ OutgoingRTPPktLink
  sendFirst : Option ℕ
  sendLast : Option ℕ
  fresh : ℕ
  schedulingTimeout : BitVec 32
  expireTimeout : BitVec 32
  currentRTPClockRate : BitVec 32
  overflowTime : Timeval
  packetCount : BitVec 32
  octetCount : BitVec 32

namespace SendingQueue

variable (P : Primitives)

/-- The end of the loop of `putData`: a new link behind the last one. -/
def appendLink (q : SendingQueue) (packet : OutgoingRTPPkt) : Option SendingQueue :=
  let link := q.fresh
  let q := { q with links := q.links.write link ⟨packet, q.sendLast, none⟩, fresh := q.fresh + 1 }
  match q.sendLast with
  | some last =>
      (q.links.modify last (fun l => { l with next := some link })).map (fun links =>
        { q with links := links, sendLast := some link })
  | none => some { q with sendFirst := some link, sendLast := some link }

/-- The body of the loop of `putData`. -/
def putSegment (q : SendingQueue) (stamp : BitVec 32) (segment : Octets) (first : Bool) :
    Option (OutgoingRTPPkt × SendingQueue) :=
  (q.info.ensureContext P).bind (fun info =>
    (info.sendSegment P (info.getOutQueueCryptoContext info.localSSRC) stamp segment first).bind
      (fun (s, info) =>
        ({ q with info := info }.appendLink s.packet).map (fun q => (s.packet, q))))

/-- The loop of `putData`, as in `OutgoingDataQueue.segmentLoop`. -/
def putLoop (stamp : BitVec 32) :
    ℕ → Octets → Bool → SendingQueue → Option (List OutgoingRTPPkt × SendingQueue)
  | _, [], _, q => some ([], q)
  | 0, _ :: _, _, _ => none
  | rounds + 1, data, first, q =>
      let step := if data.length > q.info.maxSendSegmentSize then q.info.maxSendSegmentSize
        else data.length
      (q.putSegment P stamp (data.take step) first).bind (fun (p, q) =>
        (putLoop stamp rounds (data.drop step) false q).map (fun (l, q) => (p :: l, q)))

/-- `putData(stamp, data, datalen)`: the packets put into the queue. -/
def putData (q : SendingQueue) (stamp : BitVec 32) (data : Octets) :
    Option (List OutgoingRTPPkt × SendingQueue) :=
  putLoop P stamp data.length data true q

/-- The first link is given up for the one behind it. -/
def relinkFirst (q : SendingQueue) (next : Option ℕ) : Option SendingQueue :=
  match next with
  | some b =>
      (q.links.modify b (fun l => { l with prev := none })).map (fun links =>
        { q with links := links, sendFirst := some b })
  | none => some { q with sendFirst := none, sendLast := none }

/-- `delete` of a link, with its packet. -/
def deleteLink (q : SendingQueue) (a : ℕ) : SendingQueue := { q with links := q.links.delete a }

/-- `dispatchDataPacket()`: the payload size, and the packet that went to
`dispatchImmediate`. -/
def dispatchDataPacket (q : SendingQueue) :
    Option (BitVec 32 × List (QueueEvent OutgoingRTPPkt) × SendingQueue) :=
  match q.sendFirst with
  | none => some (0, [], q)
  | some first =>
      (q.links first).bind (fun link =>
        (q.relinkFirst link.next).map (fun q =>
          (link.packet.payloadSize, [.left .dispatched link.packet],
            { q.deleteLink first with
              packetCount := q.packetCount + 1
              octetCount := q.octetCount + link.packet.payloadSize })))

/-- The time of one cycle of the timestamps. -/
def overflow (rate : ℕ) : Timeval :=
  ⟨((2 ^ 32 - 1) / rate : ℕ), ((2 ^ 32 - 1) % rate * 1000000 / rate : ℕ)⟩

/-- The `do ... while` loop that adds cycles until `send` is not too far behind `now`. -/
def catchUp (overflow now : Timeval) : ℕ → Timeval → Timeval → Option (Timeval × Timeval)
  | 0, _, _ => none
  | rounds + 1, send, overflowTime =>
      let send := timeradd send overflow
      let overflowTime := timeradd overflowTime overflow
      if now.sec - send.sec > 5000 then catchUp overflow now rounds send overflowTime
      else some (send, overflowTime)

/-- When a packet is scheduled, and the cycles counted so far.  Every round of the loop gains
a second at least, so the distance in seconds bounds the rounds. -/
def sendTime (q : SendingQueue) (timestamp : BitVec 32) (now : Timeval) :
    Option (Timeval × Timeval) :=
  let rate := q.currentRTPClockRate.toNat
  -- below 1000 the divisor `rate/1000ul` is zero
  if rate < 1000 then none
  else
    let stamp := (timestamp - q.info.initialTimestamp).toNat
    let send := timeradd ⟨(stamp / rate : ℕ), (1000 * (stamp % rate) / (rate / 1000) : ℕ)⟩
      q.overflowTime
    (if now.sec - send.sec > 5000 then
        catchUp (overflow rate) now (now.sec - send.sec).toNat send q.overflowTime
      else some (send, q.overflowTime)).map (fun (send, overflowTime) =>
        (if send.sec - now.sec > 20000 then timersub send (overflow rate) else send,
          overflowTime))

/-- What is returned for a packet that is scheduled at `send`; nothing if it has expired. -/
def timeoutFor (q : SendingQueue) (send now : Timeval) : Option (BitVec 32) :=
  -- one hour at most
  if send.sec - now.sec > 3600 then some 3600000000
  else
    -- `int32 diff`
    let diff : BitVec 32 := .ofInt 32 ((send.sec - now.sec) * 1000000 + send.usec - now.usec)
    if 0 ≤ diff.toInt then some diff
    else if -diff ≤ q.expireTimeout then some 0
    else none

/-- The cycles counted so far are stored. -/
def setOverflowTime (q : SendingQueue) (overflowTime : Timeval) : SendingQueue :=
  { q with overflowTime := overflowTime }

/-- The loop of `getSchedulingTimeout`; each round takes one reading of the clock. -/
def schedulingLoop (clock : ℕ → Timeval) :
    ℕ → ℕ → SendingQueue → Option (BitVec 32 × List (QueueEvent OutgoingRTPPkt) × SendingQueue)
  | 0, _, _ => none
  | rounds + 1, reading, q =>
      match q.sendFirst with
      | none => some (q.schedulingTimeout, [], q)
      | some first =>
          (q.links first).bind (fun link =>
            (q.sendTime link.packet.cachedTimestamp (clock reading)).bind
              (fun (send, overflowTime) =>
                let q := q.setOverflowTime overflowTime
                match q.timeoutFor send (clock reading) with
                | some timeout => some (timeout, [], q)
                | none =>
                    ((q.deleteLink first).relinkFirst link.next).bind (fun q =>
                      (schedulingLoop clock rounds (reading + 1) q).map
                        (fun (timeout, events, q) =>
                          (timeout, .left .expired link.packet :: events, q)))))

/-- `getSchedulingTimeout()`: the timeout, and the packets that went to `onExpireSend`.  Every
round but the last deletes a link, so the links ever made bound the rounds. -/
def getSchedulingTimeout (q : SendingQueue) (clock : ℕ → Timeval) :
    Option (BitVec 32 × List (QueueEvent OutgoingRTPPkt) × SendingQueue) :=
  schedulingLoop clock (q.fresh + 1) 0 q

/-- The loop of `purgeOutgoingQueue`. -/
def purgeLoop : ℕ → SendingQueue → Option (List (QueueEvent OutgoingRTPPkt) × SendingQueue)
  | 0, _ => none
  | rounds + 1, q =>
      match q.sendFirst with
      | none => some ([], q)
      | some first =>
          (q.links first).bind (fun link =>
            (purgeLoop rounds { q.deleteLink first with sendFirst := link.next }).map
              (fun (events, q) => (.left .purged link.packet :: events, q)))

/-- `purgeOutgoingQueue()`: the packets deleted. -/
def purgeOutgoingQueue (q : SendingQueue) :
    Option (List (QueueEvent OutgoingRTPPkt) × SendingQueue) :=
  (purgeLoop (q.fresh + 1) q).map (fun (events, q) => (events, { q with sendLast := none }))

/-- The constructor: no links, and the default timeouts. -/
def new (info : OutgoingDataQueue) (rate : BitVec 32) (initialTime : Timeval) : SendingQueue where
  info := info
  links := fun _ => none
  sendFirst := none
  sendLast := none
  fresh := 0
  schedulingTimeout := 8000
  expireTimeout := 40000
  currentRTPClockRate := rate
  overflowTime := initialTime
  packetCount := 0
  octetCount := 0

end SendingQueue

/-- A call on the queue, by the application or by the service thread. -/
inductive QueueCall : Type where
  | send (call : SendCall)
  | dispatchDataPacket
  | getSchedulingTimeout (clock : ℕ → Timeval)
  | purgeOutgoingQueue
  | setCurrentRTPClockRate (rate : BitVec 32)
  | setSchedulingTimeout (timeout : BitVec 32)
  | setExpireTimeout (timeout : BitVec 32)

namespace SendingQueue

variable (P : Primitives)

/-- One call: the events, and the queue afterwards. -/
def perform (q : SendingQueue) :
    QueueCall → Option (List (QueueEvent OutgoingRTPPkt) × SendingQueue)
  | .send (.putData stamp data) =>
      (q.putData P stamp data).map (fun (l, q) => (l.map .enqueued, q))
  -- what is sent immediately does not pass through the queue
  | .send call => (q.info.perform P call).map (fun (_, info) => ([], { q with info := info }))
  | .dispatchDataPacket => q.dispatchDataPacket.map Prod.snd
  | .getSchedulingTimeout clock => (q.getSchedulingTimeout clock).map Prod.snd
  | .purgeOutgoingQueue => q.purgeOutgoingQueue
  | .setCurrentRTPClockRate rate => some ([], { q with currentRTPClockRate := rate })
  | .setSchedulingTimeout timeout => some ([], { q with schedulingTimeout := timeout })
  | .setExpireTimeout timeout => some ([], { q with expireTimeout := timeout })

/-- One call after the other: all events, in order. -/
def performAll :
    SendingQueue → List QueueCall → Option (List (QueueEvent OutgoingRTPPkt) × SendingQueue)
  | q, [] => some ([], q)
  | q, call :: calls =>
      (q.perform P call).bind (fun (l, q) =>
        (performAll q calls).map (fun (l', q) => (l ++ l', q)))

end SendingQueue

/-! ## Links and packets -/

namespace SendingQueue

variable {q : SendingQueue} {a : ℕ} {l : List ℕ} {p : OutgoingRTPPkt} {c : List OutgoingRTPPkt}

/-- The links `l` form the queue and carry the packets `c`; memory holds no other links. -/
structure Lists (q : SendingQueue) (l : List ℕ) (c : List OutgoingRTPPkt) : Prop where
  linked : DoublyLinked (q.links.view OutgoingRTPPktLink.next)
    (q.links.view OutgoingRTPPktLink.prev) q.sendFirst q.sendLast l
  packets : l.map (q.links.view OutgoingRTPPktLink.packet) = c.map some
  owned : ∀ a, (q.links a).isSome = true → a ∈ l
  bound : ∀ a ∈ l, a < q.fresh

theorem lists_new (info : OutgoingDataQueue) (rate : BitVec 32) (initialTime : Timeval) :
    (new info rate initialTime).Lists [] [] := by
  refine ⟨DoublyLinked.nil, rfl, ?_, ?_⟩
  · intro a ha
    cases ha
  · intro a ha
    cases ha

namespace Lists

theorem fresh_notMem (h : q.Lists l c) : q.fresh ∉ l := fun hmem => (h.bound _ hmem).false

theorem length_le_fresh (h : q.Lists l c) : l.length ≤ q.fresh :=
  length_le_of_nodup_of_lt h.linked.nodup h.bound

theorem length_eq (h : q.Lists l c) : l.length = c.length := by
  have hlen := congrArg List.length h.packets
  rwa [List.length_map, List.length_map] at hlen

/-- The packets of the links do not change with a link outside. -/
theorem packets_congr {links : Heap ℕ OutgoingRTPPktLink} (h : q.Lists l c)
    (heq : ∀ b ∈ l, links.view OutgoingRTPPktLink.packet b
      = q.links.view OutgoingRTPPktLink.packet b) :
    l.map (links.view OutgoingRTPPktLink.packet) = c.map some := by
  rw [← h.packets]
  exact List.map_congr_left heq

/-- **A packet joins behind the others.** -/
theorem appendLink (h : q.Lists l c) (p : OutgoingRTPPkt) :
    ∃ q', q.appendLink p = some q' ∧ q'.info = q.info ∧
      q'.Lists (l ++ [q.fresh]) (c ++ [p]) := by
  have hfresh := h.fresh_notMem
  have hbound : ∀ a ∈ l ++ [q.fresh], a < q.fresh + 1 := by
    intro a ha
    rcases List.mem_append.mp ha with ha | ha
    · exact Nat.lt_succ_of_lt (h.bound a ha)
    · rw [List.mem_singleton.mp ha]
      exact Nat.lt_succ_self _
  have howned : ∀ (link : OutgoingRTPPktLink) (a : ℕ),
      (q.links.write q.fresh link a).isSome = true → a ∈ l ++ [q.fresh] := by
    intro link a ha
    rcases Heap.eq_or_isSome_of_write ha with rfl | ha
    · exact List.mem_append_right l List.mem_cons_self
    · exact List.mem_append_left _ (h.owned a ha)
  have hpackets : ∀ (links : Heap ℕ OutgoingRTPPktLink),
      links.view OutgoingRTPPktLink.packet
        = Function.update (q.links.view OutgoingRTPPktLink.packet) q.fresh (some p) →
      (l ++ [q.fresh]).map (links.view OutgoingRTPPktLink.packet) = (c ++ [p]).map some := by
    intro links hview
    rw [List.map_append, List.map_append, h.packets_congr, List.map_singleton, hview,
      Function.update_self, List.map_singleton]
    intro b hb
    rw [hview, Function.update_of_ne]
    rintro rfl
    exact hfresh hb
  cases hlast : q.sendLast with
  | none =>
      have hnil : l = [] := by
        rw [← List.getLast?_eq_none_iff, ← h.linked.last_eq, hlast]
      subst hnil
      refine ⟨{ q with
        links := q.links.write q.fresh ⟨p, none, none⟩
        fresh := q.fresh + 1
        sendFirst := some q.fresh
        sendLast := some q.fresh }, ?_, rfl, ?_, ?_, howned _, hbound⟩
      · rw [SendingQueue.appendLink, hlast]
      · rw [Heap.view_write, Heap.view_write]
        exact DoublyLinked.push_back_nil q.fresh
      · exact hpackets _ (Heap.view_write ..)
  | some b =>
      have hb : b ∈ l := by
        have hmem := h.linked.last_eq
        rw [hlast] at hmem
        exact List.mem_of_getLast? hmem.symm
      obtain ⟨link, hlink, -⟩ :=
        Heap.view_eq_some.mp (Option.eq_some_of_isSome (h.linked.forward.isSome_of_mem hb))
      have hne : b ≠ q.fresh := by
        rintro rfl
        exact hfresh hb
      have hlink' : q.links.write q.fresh ⟨p, some b, none⟩ b = some link := by
        rw [Heap.write_of_ne hne, hlink]
      refine ⟨{ q with
        links := (q.links.write q.fresh ⟨p, some b, none⟩).write b
          { link with next := some q.fresh }
        fresh := q.fresh + 1
        sendLast := some q.fresh }, ?_, rfl, ?_, ?_, ?_, hbound⟩
      · rw [SendingQueue.appendLink, hlast]
        show ((q.links.write q.fresh _).modify b _).map _ = _
        rw [Heap.modify, hlink']
        rfl
      · have hprev : ((q.links.write q.fresh ⟨p, some b, none⟩).write b
            { link with next := some q.fresh }).view OutgoingRTPPktLink.prev
            = (q.links.write q.fresh ⟨p, some b, none⟩).view OutgoingRTPPktLink.prev := by
          refine Heap.view_write_of_eq hlink' ?_
          rfl
        rw [hprev, Heap.view_write, Heap.view_write, Heap.view_write]
        have hlinked := h.linked
        rw [hlast] at hlinked
        exact hlinked.push_back hfresh
      · refine hpackets _ ((Heap.view_write_of_eq hlink' ?_).trans (Heap.view_write ..))
        rfl
      · intro a ha
        rcases Heap.eq_or_isSome_of_write ha with rfl | ha
        · exact List.mem_append_left _ hb
        · exact howned _ a ha

/-- The first link. -/
theorem first_link (h : q.Lists (a :: l) (p :: c)) :
    q.sendFirst = some a ∧ ∃ link, q.links a = some link ∧ link.packet = p ∧
      link.next = l.head? := by
  obtain ⟨hfirst, next, hnext, hrest⟩ := h.linked.forward
  obtain ⟨link, hlink, rfl⟩ := Heap.view_eq_some.mp hnext
  have hpacket := (List.cons.inj h.packets).1
  rw [Heap.view, hlink, Option.map_some, Option.some_inj] at hpacket
  exact ⟨hfirst, link, hlink, hpacket, hrest.eq_head?⟩

/-- Without packets there is no link. -/
theorem sendFirst_eq_none (h : q.Lists l []) : q.sendFirst = none := by
  rw [h.linked.first_eq, List.eq_nil_of_length_eq_zero h.length_eq]
  rfl

end Lists

/-- It does not matter whether the first link is deleted before the next one becomes the
first, as in the expiry, or afterwards, as in `dispatchDataPacket`. -/
theorem relinkFirst_deleteLink {next : Option ℕ} (hne : next ≠ some a) :
    (q.deleteLink a).relinkFirst next = (q.relinkFirst next).map (fun q => q.deleteLink a) := by
  cases next with
  | none => rfl
  | some b =>
      have hba : b ≠ a := fun heq => hne (congrArg some heq)
      have hb : (q.links.delete a) b = q.links b := Heap.delete_of_ne hba
      simp only [relinkFirst, Heap.modify, deleteLink, hb]
      cases q.links b with
      | none => rfl
      | some link =>
          have hcomm : (q.links.delete a).write b { link with prev := none }
              = (q.links.write b { link with prev := none }).delete a :=
            Function.update_comm hba.symm ..
          simp only [Option.map_some, hcomm]

/-- The queue is the same but for its links. -/
structure SameSettings (q q' : SendingQueue) : Prop where
  info : q'.info = q.info
  fresh : q'.fresh = q.fresh
  rate : q'.currentRTPClockRate = q.currentRTPClockRate

namespace Lists

/-- **The oldest packet leaves.** -/
theorem pop (h : q.Lists (a :: l) (p :: c)) :
    ∃ q', q.relinkFirst l.head? = some q' ∧ q.SameSettings q' ∧ (q'.deleteLink a).Lists l c := by
  obtain ⟨ha, hnodup⟩ := List.nodup_cons.mp h.linked.nodup
  have hbound : ∀ b ∈ l, b < q.fresh := fun b hb => h.bound b (List.mem_cons_of_mem a hb)
  have howned : ∀ {links : Heap ℕ OutgoingRTPPktLink},
      (∀ b, (links b).isSome = true → (q.links b).isSome = true) →
      ∀ b, (links.delete a b).isSome = true → b ∈ l := by
    intro links hlinks b hb
    exact Heap.mem_of_isSome_delete (fun b hb => h.owned b (hlinks b hb)) hb
  have hpackets : ∀ {links : Heap ℕ OutgoingRTPPktLink},
      links.view OutgoingRTPPktLink.packet = q.links.view OutgoingRTPPktLink.packet →
      l.map ((links.delete a).view OutgoingRTPPktLink.packet) = c.map some := by
    intro links hview
    rw [← (List.cons.inj h.packets).2]
    refine List.map_congr_left (fun b hb => ?_)
    have hne : b ≠ a := by
      rintro rfl
      exact ha hb
    rw [Heap.view_delete, Function.update_of_ne hne, hview]
  cases l with
  | nil =>
      refine ⟨{ q with sendFirst := none, sendLast := none }, rfl, ⟨rfl, rfl, rfl⟩, ?_⟩
      exact ⟨DoublyLinked.nil, hpackets rfl, howned (fun _ hb => hb), hbound⟩
  | cons b l =>
      obtain ⟨-, hpop⟩ := h.linked.pop_front none none
      obtain ⟨link, hlink, -⟩ := Heap.view_eq_some.mp (Option.eq_some_of_isSome
        (h.linked.forward.isSome_of_mem (List.mem_cons_of_mem a List.mem_cons_self)))
      refine ⟨{ q with
        links := q.links.write b { link with prev := none }
        sendFirst := some b }, ?_, ⟨rfl, rfl, rfl⟩, ?_, ?_, ?_, hbound⟩
      · rw [List.head?_cons, relinkFirst, Heap.modify, hlink]
        rfl
      · have hnext : (q.links.write b { link with prev := none }).view OutgoingRTPPktLink.next
            = q.links.view OutgoingRTPPktLink.next := by
          refine Heap.view_write_of_eq hlink ?_
          rfl
        rw [deleteLink, Heap.view_delete, hnext, Heap.view_delete, Heap.view_write]
        exact hpop
      · refine hpackets (Heap.view_write_of_eq hlink ?_)
        rfl
      · refine howned (fun b' hb' => ?_)
        rcases Heap.eq_or_isSome_of_write hb' with rfl | hb'
        · rw [hlink]
          rfl
        · exact hb'

/-- **`dispatchDataPacket`** hands the oldest packet on, if there is one. -/
theorem dispatchDataPacket (h : q.Lists l c) :
    ∃ size q', q.dispatchDataPacket = some (size, c.head?.toList.map (.left .dispatched), q') ∧
      q'.Lists l.tail c.tail := by
  cases c with
  | nil =>
      have hl := List.eq_nil_of_length_eq_zero h.length_eq
      subst hl
      refine ⟨0, q, ?_, h⟩
      rw [SendingQueue.dispatchDataPacket, h.sendFirst_eq_none]
      rfl
  | cons p c =>
      cases l with
      | nil => cases h.length_eq
      | cons a l =>
          obtain ⟨hfirst, link, hlink, rfl, hnext⟩ := h.first_link
          obtain ⟨q', hq', -, hpop⟩ := h.pop
          refine ⟨link.packet.payloadSize, { q'.deleteLink a with
            packetCount := q'.packetCount + 1
            octetCount := q'.octetCount + link.packet.payloadSize }, ?_,
            hpop.linked, hpop.packets, hpop.owned, hpop.bound⟩
          rw [SendingQueue.dispatchDataPacket, hfirst]
          simp only [hlink, Option.bind_some, hnext, hq', Option.map_some]
          rfl

end Lists

/-! ## The expiry -/

/-- The loop over the cycles ends: each cycle is a second at least. -/
theorem catchUp_isSome {overflow now : Timeval} (hpos : 1 ≤ overflow.sec) (rounds : ℕ) :
    ∀ {send overflowTime : Timeval}, 5000 < now.sec - send.sec →
      now.sec - send.sec ≤ rounds →
        (catchUp overflow now rounds send overflowTime).isSome = true := by
  induction rounds with
  | zero =>
      intro send overflowTime hfar hle
      omega
  | succ rounds ih =>
      intro send overflowTime hfar hle
      have hgain := sec_add_le_timeradd send overflow
      rw [catchUp]
      split_ifs with hstill
      · exact ih hstill (by omega)
      · rfl

/-- With a clock rate of at least 1000 the time of a packet can be computed. -/
theorem sendTime_isSome (hrate : 1000 ≤ q.currentRTPClockRate.toNat) (timestamp : BitVec 32)
    (now : Timeval) : (q.sendTime timestamp now).isSome = true := by
  have hpos : 1 ≤ (overflow q.currentRTPClockRate.toNat).sec := by
    have hlt := q.currentRTPClockRate.isLt
    have hdiv : 1 ≤ (2 ^ 32 - 1) / q.currentRTPClockRate.toNat :=
      (Nat.one_le_div_iff (by omega)).mpr (by omega)
    exact Int.ofNat_le.mpr hdiv
  rw [sendTime]
  simp only [Nat.not_lt.mpr hrate, if_false, Option.isSome_map]
  split_ifs with hfar
  · exact catchUp_isSome hpos _ hfar (Int.self_le_toNat _)
  · rfl

namespace Lists

/-- **The loop of `getSchedulingTimeout`**: the packets that leave are the oldest ones. -/
theorem schedulingLoop (clock : ℕ → Timeval) (rounds : ℕ) :
    ∀ {q : SendingQueue} {l : List ℕ} {c : List OutgoingRTPPkt} (reading : ℕ), q.Lists l c →
      l.length < rounds →
      (1000 ≤ q.currentRTPClockRate.toNat →
        (SendingQueue.schedulingLoop clock rounds reading q).isSome = true) ∧
      ∀ timeout events q',
        SendingQueue.schedulingLoop clock rounds reading q = some (timeout, events, q') →
        ∃ k, events = (c.take k).map (.left .expired) ∧ q'.Lists (l.drop k) (c.drop k) := by
  induction rounds with
  | zero =>
      intro q l c reading _ hlt
      cases hlt
  | succ rounds ih =>
      intro q l c reading h hlt
      cases c with
      | nil =>
          rw [SendingQueue.schedulingLoop, h.sendFirst_eq_none]
          refine ⟨fun _ => rfl, ?_⟩
          rintro timeout events q' ⟨⟩
          exact ⟨0, rfl, h⟩
      | cons p c =>
          cases l with
          | nil => cases h.length_eq
          | cons a l =>
              obtain ⟨hfirst, link, hlink, rfl, hnext⟩ := h.first_link
              rw [SendingQueue.schedulingLoop, hfirst]
              simp only [hlink, Option.bind_some]
              cases htime : q.sendTime link.packet.cachedTimestamp (clock reading) with
              | none =>
                  refine ⟨fun hrate => ?_, fun _ _ _ hnone => by cases hnone⟩
                  have hsome := sendTime_isSome hrate link.packet.cachedTimestamp (clock reading)
                  rw [htime] at hsome
                  cases hsome
              | some time =>
                  obtain ⟨send, overflowTime⟩ := time
                  -- the time is not part of what `Lists` says
                  have h' : (q.setOverflowTime overflowTime).Lists (a :: l) (link.packet :: c) :=
                    ⟨h.linked, h.packets, h.owned, h.bound⟩
                  simp only [Option.bind_some]
                  cases (q.setOverflowTime overflowTime).timeoutFor send (clock reading) with
                  | some timeout =>
                      refine ⟨fun _ => rfl, ?_⟩
                      rintro timeout' events q' ⟨⟩
                      exact ⟨0, rfl, h'⟩
                  | none =>
                      obtain ⟨q₁, hq₁, hsame, hpop⟩ := h'.pop
                      have hne : l.head? ≠ some a := fun heq =>
                        (List.nodup_cons.mp h.linked.nodup).1 (List.mem_of_mem_head? heq)
                      obtain ⟨hsome, hspec⟩ :=
                        ih (reading + 1) hpop (Nat.lt_of_succ_lt_succ hlt)
                      rw [hnext, relinkFirst_deleteLink hne, hq₁, Option.map_some,
                        Option.bind_some]
                      refine ⟨fun hrate => ?_, ?_⟩
                      · rw [Option.isSome_map]
                        refine hsome ?_
                        show 1000 ≤ q₁.currentRTPClockRate.toNat
                        rw [hsame.rate]
                        exact hrate
                      · intro timeout events q' heq
                        obtain ⟨⟨timeout₁, events₁, q₂⟩, hloop, heq⟩ :=
                          Option.map_eq_some_iff.mp heq
                        cases heq
                        obtain ⟨k, rfl, hlists⟩ := hspec _ _ _ hloop
                        exact ⟨k + 1, rfl, hlists⟩

/-- **`getSchedulingTimeout`**, for all readings of the clock. -/
theorem getSchedulingTimeout (h : q.Lists l c) (clock : ℕ → Timeval) :
    (1000 ≤ q.currentRTPClockRate.toNat → (q.getSchedulingTimeout clock).isSome = true) ∧
      ∀ timeout events q', q.getSchedulingTimeout clock = some (timeout, events, q') →
        ∃ k, events = (c.take k).map (.left .expired) ∧ q'.Lists (l.drop k) (c.drop k) :=
  schedulingLoop clock (q.fresh + 1) 0 h (Nat.lt_succ_of_le h.length_le_fresh)

end Lists

/-! ## The purge -/

/-- The loop deletes one link after the other; the links back are not kept in order while it
runs. -/
theorem purgeLoop_eq (rounds : ℕ) :
    ∀ {q : SendingQueue} {l : List ℕ} {c : List OutgoingRTPPkt}, l.length < rounds → l.Nodup →
      Segment (q.links.view OutgoingRTPPktLink.next) q.sendFirst l none →
      l.map (q.links.view OutgoingRTPPktLink.packet) = c.map some →
      (∀ a, (q.links a).isSome = true → a ∈ l) →
      ∃ q', purgeLoop rounds q = some (c.map (.left .purged), q') ∧ q'.sendFirst = none ∧
        ∀ a, q'.links a = none := by
  induction rounds with
  | zero =>
      intro q l c hlt
      cases hlt
  | succ rounds ih =>
      intro q l c hlt hnodup hnext hpackets howned
      cases l with
      | nil =>
          have hc : c = [] := List.map_eq_nil_iff.mp hpackets.symm
          have hfirst : q.sendFirst = none := hnext
          subst hc
          refine ⟨q, ?_, hfirst, fun a => ?_⟩
          · rw [purgeLoop, hfirst]
            rfl
          · by_contra hne
            cases howned a (Option.isSome_iff_ne_none.mpr hne)
      | cons a l =>
          obtain ⟨ha, hnodup'⟩ := List.nodup_cons.mp hnodup
          obtain ⟨hfirst, next, hview, hrest⟩ := hnext
          obtain ⟨link, hlink, rfl⟩ := Heap.view_eq_some.mp hview
          cases c with
          | nil => cases hpackets
          | cons p c =>
              obtain ⟨hp, hpackets'⟩ := List.cons.inj hpackets
              rw [Heap.view, hlink, Option.map_some, Option.some_inj] at hp
              subst hp
              have hstep : ∃ q', purgeLoop rounds { q.deleteLink a with sendFirst := link.next }
                  = some (c.map (.left .purged), q') ∧ q'.sendFirst = none ∧
                    ∀ a, q'.links a = none := by
                refine ih (Nat.lt_of_succ_lt_succ hlt) hnodup' ?_ ?_ ?_
                · show Segment ((q.links.delete a).view _) _ _ _
                  rw [Heap.view_delete]
                  exact hrest.update_of_notMem _ ha
                · rw [← hpackets']
                  refine List.map_congr_left (fun b hb => ?_)
                  have hne : b ≠ a := by
                    rintro rfl
                    exact ha hb
                  show ((q.links.delete a).view _) b = _
                  rw [Heap.view_delete, Function.update_of_ne hne]
                · intro b hb
                  exact Heap.mem_of_isSome_delete howned hb
              obtain ⟨q', hloop, hfirst', hlinks⟩ := hstep
              refine ⟨q', ?_, hfirst', hlinks⟩
              rw [purgeLoop, hfirst]
              simp only [hlink, Option.bind_some, hloop, Option.map_some, List.map_cons]

/-- **`purgeOutgoingQueue`** deletes all packets. -/
theorem Lists.purgeOutgoingQueue (h : q.Lists l c) :
    ∃ q', q.purgeOutgoingQueue = some (c.map (.left .purged), q') ∧ q'.Lists [] [] := by
  obtain ⟨q', hloop, hfirst, hlinks⟩ := purgeLoop_eq (q.fresh + 1)
    (Nat.lt_succ_of_le h.length_le_fresh) h.linked.nodup h.linked.forward h.packets h.owned
  refine ⟨{ q' with sendLast := none }, ?_, ?_, rfl, ?_, ?_⟩
  · rw [SendingQueue.purgeOutgoingQueue, hloop]
    rfl
  · show DoublyLinked _ _ q'.sendFirst none []
    rw [hfirst]
    exact DoublyLinked.nil
  · intro a ha
    rw [show ({ q' with sendLast := none } : SendingQueue).links a = none from hlinks a] at ha
    cases ha
  · intro a ha
    cases ha

/-! ## `putData` -/

/-- The queue as `OutgoingDataQueue` has it, with a list of packets. -/
def asList (q : SendingQueue) (c : List OutgoingRTPPkt) : OutgoingDataQueue :=
  { q.info with sendQueue := c }

variable {P : Primitives}

/-- The contexts are made without a look at the packets. -/
theorem ensureContext_sendQueue (info : OutgoingDataQueue) (c : List OutgoingRTPPkt) :
    ({ info with sendQueue := c } : OutgoingDataQueue).ensureContext P
      = (info.ensureContext P).map (fun info => { info with sendQueue := c }) := by
  have hget : ∀ ssrc, ({ info with sendQueue := c } : OutgoingDataQueue).getOutQueueCryptoContext
      ssrc = info.getOutQueueCryptoContext ssrc := fun _ => rfl
  rw [OutgoingDataQueue.ensureContext, OutgoingDataQueue.ensureContext, hget, hget]
  cases info.getOutQueueCryptoContext info.localSSRC with
  | some _ => rfl
  | none =>
      cases info.getOutQueueCryptoContext 0 with
      | none => rfl
      | some template =>
          simp only [Option.map_map]
          rfl

/-- So are the packets. -/
theorem sendSegment_sendQueue (info : OutgoingDataQueue) (c : List OutgoingRTPPkt)
    (pcc : Option CryptoContext) (stamp : BitVec 32) (segment : Octets) (first : Bool) :
    ({ info with sendQueue := c } : OutgoingDataQueue).sendSegment P pcc stamp segment first
      = (info.sendSegment P pcc stamp segment first).map
          (fun (s, info) => (s, { info with sendQueue := c })) := by
  cases pcc with
  | none => rfl
  | some cc =>
      simp only [OutgoingDataQueue.sendSegment, Option.map_map]
      rfl

/-- The octets of the next segment. -/
def segmentOctets (info : OutgoingDataQueue) (data : Octets) : ℕ :=
  if data.length > info.maxSendSegmentSize then info.maxSendSegmentSize else data.length

theorem segmentLoop_cons
    {body : OutgoingDataQueue → Octets → Bool → Option (SentPacket × OutgoingDataQueue)}
    (rounds : ℕ) (x : UInt8) (data : Octets) (first : Bool) (info : OutgoingDataQueue) :
    OutgoingDataQueue.segmentLoop body (rounds + 1) (x :: data) first info
      = (body info ((x :: data).take (segmentOctets info (x :: data))) first).bind
          (fun (s, info') =>
            (OutgoingDataQueue.segmentLoop body rounds
              ((x :: data).drop (segmentOctets info (x :: data))) false info').map
                (fun (l, info') => (s :: l, info'))) := rfl

theorem putLoop_cons (stamp : BitVec 32) (rounds : ℕ) (x : UInt8) (data : Octets) (first : Bool)
    (q : SendingQueue) :
    putLoop P stamp (rounds + 1) (x :: data) first q
      = (q.putSegment P stamp ((x :: data).take (segmentOctets q.info (x :: data))) first).bind
          (fun (p, q') =>
            (putLoop P stamp rounds ((x :: data).drop (segmentOctets q.info (x :: data))) false
              q').map (fun (l, q') => (p :: l, q'))) := rfl

namespace Lists

/-- **One round of `putData`**: it returns together with the round of the list model, with
the same packet. -/
theorem putSegment (h : q.Lists l c) (stamp : BitVec 32) (segment : Octets) (first : Bool) :
    ((q.asList c).putSegment P stamp segment first).map (fun (s, info) => (s.packet, info))
        = (q.putSegment P stamp segment first).map (fun (p, q) => (p, q.asList (c ++ [p]))) ∧
      ∀ p q', q.putSegment P stamp segment first = some (p, q') →
        ∃ l', q'.Lists l' (c ++ [p]) := by
  rw [OutgoingDataQueue.putSegment, asList, ensureContext_sendQueue, SendingQueue.putSegment]
  cases q.info.ensureContext P with
  | none => exact ⟨rfl, fun _ _ hnone => by cases hnone⟩
  | some info =>
      simp only [Option.map_some, Option.bind_some, sendSegment_sendQueue]
      show ((((info.sendSegment P (info.getOutQueueCryptoContext info.localSSRC) stamp segment
        first).map _).map _).map _ = _) ∧ _
      cases info.sendSegment P (info.getOutQueueCryptoContext info.localSSRC) stamp segment
          first with
      | none => exact ⟨rfl, fun _ _ hnone => by cases hnone⟩
      | some sent =>
          obtain ⟨s, info'⟩ := sent
          have h' : ({ q with info := info' } : SendingQueue).Lists l c :=
            ⟨h.linked, h.packets, h.owned, h.bound⟩
          obtain ⟨q', hq', hinfo, hlists⟩ := h'.appendLink s.packet
          simp only [Option.map_some, Option.bind_some, hq']
          refine ⟨?_, ?_⟩
          · rw [asList, hinfo]
          · rintro p q'' ⟨⟩
            exact ⟨_, hlists⟩

/-- **The loop of `putData`.** -/
theorem putLoop (stamp : BitVec 32) (rounds : ℕ) :
    ∀ {data : Octets} {first : Bool} {q : SendingQueue} {l : List ℕ} {c : List OutgoingRTPPkt},
      q.Lists l c →
      (OutgoingDataQueue.segmentLoop (fun q => q.putSegment P stamp) rounds data first
          (q.asList c)).map (fun (sent, info) => (sent.map SentPacket.packet, info))
        = (SendingQueue.putLoop P stamp rounds data first q).map
            (fun (ps, q) => (ps, q.asList (c ++ ps))) ∧
      ∀ ps q', SendingQueue.putLoop P stamp rounds data first q = some (ps, q') →
        ∃ l', q'.Lists l' (c ++ ps) := by
  induction rounds with
  | zero =>
      intro data first q l c h
      cases data with
      | nil =>
          refine ⟨?_, ?_⟩
          · simp [OutgoingDataQueue.segmentLoop, SendingQueue.putLoop]
          · rintro ps q' ⟨⟩
            exact ⟨l, (List.append_nil c).symm ▸ h⟩
      | cons x data => exact ⟨rfl, fun _ _ hnone => by cases hnone⟩
  | succ rounds ih =>
      intro data first q l c h
      cases data with
      | nil =>
          refine ⟨?_, ?_⟩
          · simp [OutgoingDataQueue.segmentLoop, SendingQueue.putLoop]
          · rintro ps q' ⟨⟩
            exact ⟨l, (List.append_nil c).symm ▸ h⟩
      | cons x data =>
          obtain ⟨hagree, hlists⟩ := h.putSegment (P := P) stamp
            ((x :: data).take (segmentOctets q.info (x :: data))) first
          rw [segmentLoop_cons, putLoop_cons]
          show Option.map _ (((q.asList c).putSegment P stamp
            ((x :: data).take (segmentOctets q.info (x :: data))) first).bind _) = _ ∧ _
          cases hput : q.putSegment P stamp
              ((x :: data).take (segmentOctets q.info (x :: data))) first with
          | none =>
              rw [hput, Option.map_none, Option.map_eq_none_iff] at hagree
              rw [hagree]
              exact ⟨rfl, fun _ _ hnone => by cases hnone⟩
          | some r =>
              obtain ⟨p, q₁⟩ := r
              rw [hput, Option.map_some, Option.map_eq_some_iff] at hagree
              obtain ⟨⟨s, info₁⟩, hinfo₁, heq⟩ := hagree
              cases heq
              obtain ⟨l₁, hlists₁⟩ := hlists _ _ hput
              rw [hinfo₁]
              simp only [Option.bind_some]
              obtain ⟨hagree', hlists'⟩ :=
                @ih ((x :: data).drop (segmentOctets q.info (x :: data))) false _ _ _ hlists₁
              show Option.map _ (Option.map _ (OutgoingDataQueue.segmentLoop _ rounds
                ((x :: data).drop (segmentOctets q.info (x :: data))) false _)) = _ ∧ _
              cases hrest : SendingQueue.putLoop P stamp rounds
                  ((x :: data).drop (segmentOctets q.info (x :: data))) false q₁ with
              | none =>
                  rw [hrest, Option.map_none, Option.map_eq_none_iff] at hagree'
                  rw [hagree']
                  exact ⟨rfl, fun _ _ hnone => by cases hnone⟩
              | some r =>
                  obtain ⟨ps, q₂⟩ := r
                  rw [hrest, Option.map_some, Option.map_eq_some_iff] at hagree'
                  obtain ⟨⟨sent, info₂⟩, hinfo₂, heq⟩ := hagree'
                  cases heq
                  obtain ⟨l₂, hlists₂⟩ := hlists' _ _ hrest
                  rw [List.append_assoc, List.singleton_append] at hinfo₂ hlists₂
                  rw [hinfo₂]
                  refine ⟨rfl, ?_⟩
                  rintro ps' q' ⟨⟩
                  exact ⟨l₂, hlists₂⟩

/-- **`putData`**: the pointers and the list agree. -/
theorem putData_eq (h : q.Lists l c) (stamp : BitVec 32) (data : Octets) :
    ((q.asList c).putData P stamp data).map
        (fun (sent, info) => (sent.map SentPacket.packet, info))
      = (q.putData P stamp data).map (fun (ps, q) => (ps, q.asList (c ++ ps))) :=
  (putLoop stamp data.length h).1

/-- One call: its events are possible for the FIFO, and lead to the packets in the queue. -/
theorem perform (h : q.Lists l c) {call : QueueCall}
    {events : List (QueueEvent OutgoingRTPPkt)} {q' : SendingQueue}
    (hcall : q.perform P call = some (events, q')) :
    ∃ l' c', events.foldlM fifoStep c = some c' ∧ q'.Lists l' c' := by
  cases call with
  | send call =>
      cases call with
      | putData stamp data =>
          obtain ⟨⟨ps, q₁⟩, hput, heq⟩ := Option.map_eq_some_iff.mp hcall
          cases heq
          obtain ⟨l', hlists⟩ := (putLoop stamp data.length h).2 _ _ hput
          exact ⟨l', c ++ ps, foldlM_fifoStep_enqueued c ps, hlists⟩
      | sendImmediate stamp data =>
          obtain ⟨⟨sent, info⟩, -, heq⟩ := Option.map_eq_some_iff.mp hcall
          cases heq
          exact ⟨l, c, rfl, h.linked, h.packets, h.owned, h.bound⟩
      | _ =>
          cases hcall
          exact ⟨l, c, rfl, h.linked, h.packets, h.owned, h.bound⟩
  | dispatchDataPacket =>
      obtain ⟨size, q₁, hdispatch, hlists⟩ := h.dispatchDataPacket
      rw [SendingQueue.perform, hdispatch] at hcall
      cases hcall
      refine ⟨l.tail, c.tail, ?_, hlists⟩
      rw [← List.drop_one, ← foldlM_fifoStep_left .dispatched 1 c, List.take_one]
  | getSchedulingTimeout clock =>
      obtain ⟨⟨timeout, events', q₁⟩, htimeout, heq⟩ := Option.map_eq_some_iff.mp hcall
      cases heq
      obtain ⟨k, rfl, hlists⟩ := (h.getSchedulingTimeout clock).2 _ _ _ htimeout
      exact ⟨l.drop k, c.drop k, foldlM_fifoStep_left .expired k c, hlists⟩
  | purgeOutgoingQueue =>
      obtain ⟨q₁, hpurge, hlists⟩ := h.purgeOutgoingQueue
      rw [SendingQueue.perform, hpurge] at hcall
      cases hcall
      have hleft := foldlM_fifoStep_left .purged c.length c
      rw [List.take_length, List.drop_length] at hleft
      exact ⟨[], [], hleft, hlists⟩
  | setCurrentRTPClockRate rate =>
      cases hcall
      exact ⟨l, c, rfl, h.linked, h.packets, h.owned, h.bound⟩
  | setSchedulingTimeout timeout =>
      cases hcall
      exact ⟨l, c, rfl, h.linked, h.packets, h.owned, h.bound⟩
  | setExpireTimeout timeout =>
      cases hcall
      exact ⟨l, c, rfl, h.linked, h.packets, h.owned, h.bound⟩

/-- A run of calls. -/
theorem performAll (calls : List QueueCall) :
    ∀ {q : SendingQueue} {l : List ℕ} {c : List OutgoingRTPPkt}, q.Lists l c →
      ∀ {trace : List (QueueEvent OutgoingRTPPkt)} {q' : SendingQueue},
        q.performAll P calls = some (trace, q') →
        ∃ l' c', trace.foldlM fifoStep c = some c' ∧ q'.Lists l' c' := by
  induction calls with
  | nil =>
      rintro q l c h trace q' ⟨⟩
      exact ⟨l, c, rfl, h⟩
  | cons call calls ih =>
      intro q l c h trace q' hrun
      obtain ⟨⟨events, q₁⟩, hcall, hrest⟩ := Option.bind_eq_some_iff.mp hrun
      obtain ⟨⟨trace', q₂⟩, hcalls, heq⟩ := Option.map_eq_some_iff.mp hrest
      cases heq
      obtain ⟨l₁, c₁, hevents, h₁⟩ := h.perform hcall
      obtain ⟨l₂, c₂, htrace, h₂⟩ := ih h₁ hcalls
      refine ⟨l₂, c₂, ?_, h₂⟩
      rw [List.foldlM_append, hevents]
      exact htrace

end Lists

/-- Without contexts there is nothing to protect, and the loop over the segments returns. -/
theorem segmentLoop_isSome (stamp : BitVec 32) (rounds : ℕ) :
    ∀ {data : Octets} {first : Bool} {info : OutgoingDataQueue}, data.length ≤ rounds →
      0 < info.maxSendSegmentSize → info.cryptoContexts = [] →
      (OutgoingDataQueue.segmentLoop (fun q => q.putSegment P stamp) rounds data first
        info).isSome = true := by
  induction rounds with
  | zero =>
      intro data first info hle _ _
      rw [List.eq_nil_of_length_eq_zero (Nat.le_zero.mp hle)]
      rfl
  | succ rounds ih =>
      intro data first info hle hsize hcontexts
      cases data with
      | nil => rfl
      | cons x data =>
          have hget : ∀ ssrc, info.getOutQueueCryptoContext ssrc = none := by
            intro ssrc
            rw [OutgoingDataQueue.getOutQueueCryptoContext, hcontexts]
            rfl
          have hlen : ((x :: data).drop (segmentOctets info (x :: data))).length ≤ rounds := by
            rw [List.length_drop, segmentOctets]
            rw [List.length_cons] at hle ⊢
            split_ifs <;> omega
          rw [segmentLoop_cons, OutgoingDataQueue.putSegment, OutgoingDataQueue.ensureContext, hget,
            hget]
          simp only [Option.bind_some, hget, OutgoingDataQueue.sendSegment, Option.map_some,
            Option.isSome_map]
          exact ih hlen hsize hcontexts

/-! ## Runs -/

/-- What a queue with the packets `c` does at the next call: `dispatchDataPacket` returns and
hands on the oldest packet, if there is one; `purgeOutgoingQueue` returns and deletes all;
`getSchedulingTimeout` deletes some of the oldest, and returns if the clock rate is at least
1000; `putData` returns whenever the list model does, with the same packets, and in
particular for all data in positive segments if there is nothing to protect. -/
structure ActsAsFifo (P : Primitives) (q : SendingQueue) (c : List OutgoingRTPPkt) : Prop where
  dispatches : ∃ q', q.perform P .dispatchDataPacket
    = some (c.head?.toList.map (.left .dispatched), q')
  purges : ∃ q', q.perform P .purgeOutgoingQueue = some (c.map (.left .purged), q')
  expires : ∀ clock events q', q.perform P (.getSchedulingTimeout clock) = some (events, q') →
    ∃ k, events = (c.take k).map (.left .expired)
  schedules : 1000 ≤ q.currentRTPClockRate.toNat → ∀ clock,
    (q.perform P (.getSchedulingTimeout clock)).isSome = true
  enqueues : ∀ stamp data, ((q.asList c).putData P stamp data).map
      (fun (sent, info) => (sent.map SentPacket.packet, info))
    = (q.putData P stamp data).map (fun (ps, q) => (ps, q.asList (c ++ ps)))
  segments : 0 < q.info.maxSendSegmentSize → q.info.cryptoContexts = [] → ∀ stamp data,
    (q.putData P stamp data).isSome = true

theorem Lists.actsAsFifo (h : q.Lists l c) : ActsAsFifo P q c := by
  refine ⟨?_, ?_, ?_, ?_, h.putData_eq, ?_⟩
  · obtain ⟨size, q', hdispatch, -⟩ := h.dispatchDataPacket
    exact ⟨q', by rw [SendingQueue.perform, hdispatch]; rfl⟩
  · obtain ⟨q', hpurge, -⟩ := h.purgeOutgoingQueue
    exact ⟨q', hpurge⟩
  · intro clock events q' hcall
    obtain ⟨⟨timeout, events', q₁⟩, htimeout, heq⟩ := Option.map_eq_some_iff.mp hcall
    cases heq
    obtain ⟨k, hk, -⟩ := (h.getSchedulingTimeout clock).2 _ _ _ htimeout
    exact ⟨k, hk⟩
  · intro hrate clock
    rw [SendingQueue.perform, Option.isSome_map]
    exact (h.getSchedulingTimeout clock).1 hrate
  · intro hsize hcontexts stamp data
    have heq := congrArg Option.isSome (h.putData_eq (P := P) stamp data)
    rw [Option.isSome_map, Option.isSome_map] at heq
    rw [← heq]
    exact segmentLoop_isSome stamp data.length le_rfl hsize hcontexts

/-- **The sending queue refines a FIFO.**  After every run of calls, with all readings of the
clock, the links between `sendFirst` and `sendLast` form a list in both directions; its
packets are those that were enqueued and have not been dispatched, expired or purged, in
order; and the next call keeps to that order. -/
theorem sending_queue_refines_fifo (info : OutgoingDataQueue) (rate : BitVec 32)
    (initialTime : Timeval) (calls : List QueueCall)
    (trace : List (QueueEvent OutgoingRTPPkt)) (q : SendingQueue)
    (hrun : (new info rate initialTime).performAll P calls = some (trace, q)) :
    ∃ l c, q.Lists l c ∧ (q.sendFirst = none ↔ q.sendLast = none) ∧
      trace.foldlM fifoStep [] = some c ∧ enqueuedOf trace = leftOf trace ++ c ∧
      ActsAsFifo P q c := by
  obtain ⟨l, c, htrace, h⟩ := (lists_new info rate initialTime).performAll calls hrun
  exact ⟨l, c, h, h.linked.first_eq_none_iff, htrace, enqueuedOf_eq_leftOf_append htrace,
    h.actsAsFifo⟩

/-- Three octets in two packets; the first one is dispatched, the second one expires. -/
theorem sending_queue_refines_fifo_dispatch_expire :
    ∃ trace q,
      (new ⟨7, 65535, fun _ => 0, 0, 0, false, 0, 0, 2, [], []⟩ 8000 ⟨1000, 0⟩).performAll
        Primitives.additive
        [.send (.putData 0 [1, 2, 3]), .dispatchDataPacket,
          .getSchedulingTimeout (fun _ => ⟨1001, 0⟩)] = some (trace, q) ∧
      ∃ l c, q.Lists l c ∧ (q.sendFirst = none ↔ q.sendLast = none) ∧
        trace.foldlM fifoStep [] = some c ∧ enqueuedOf trace = leftOf trace ++ c ∧
        ActsAsFifo Primitives.additive q c := by
  have hsome : ((new ⟨7, 65535, fun _ => 0, 0, 0, false, 0, 0, 2, [], []⟩ 8000
      ⟨1000, 0⟩).performAll Primitives.additive
        [.send (.putData 0 [1, 2, 3]), .dispatchDataPacket,
          .getSchedulingTimeout (fun _ => ⟨1001, 0⟩)]).isSome = true := by decide
  obtain ⟨⟨trace, q⟩, hrun⟩ := Option.isSome_iff_exists.mp hsome
  exact ⟨trace, q, hrun, sending_queue_refines_fifo _ _ _ _ trace q hrun⟩

end SendingQueue
