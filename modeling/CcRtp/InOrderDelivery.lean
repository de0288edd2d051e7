/-
# Delivery in the order of sending

The packets of one source come with consecutive sequence numbers, which wrap, and between them
packets of other sources.  Packets of any source are asked for, one source at a time.  The queue
of the source should then list its packets in the order in which they were sent.

`insertRecvPacket` compares the numbers as they are, so that number 0 goes before all that are
queued.  `recordReception` knows that a sequence number may have wrapped.

* `Sequenced.next_iff` : the next packet goes to the end of the queue unless it is number 0 and
  the queue is not empty;
* `in_order_delivery_iff` : so the order of sending is kept along exactly those runs in which
  number 0 finds the queue empty.
-/
import CcRtp.DuplicatePackets

/-- A call from outside, where packets of the source `s` come in the order of sending. -/
inductive DeliveryCall (s : ℕ) : Type where
  | next (timestamp : BitVec 32)
  | other (n : WaitingPacket) (hn : n.sourceLink ≠ s)
  | getData (stamp : BitVec 32) (src : ℕ) (delayed : ℕ → Bool)

/-- Calls that insert a packet. -/
def DeliveryCall.Inserts {s : ℕ} : DeliveryCall s → Prop
  | .next _ => True
  | .other _ _ => True
  | .getData _ _ _ => False

/-- A queue, the packets of the source that have come, and those that have left the queue. -/
structure DeliveryState where
  queue : ReceptionQueue
  arrived : List ℕ
  departed : List ℕ

namespace DeliveryState

/-- An empty queue. -/
def new (isMine : ℕ → Bool) : DeliveryState := ⟨ReceptionQueue.new isMine, [], []⟩

/-- The number of the next packet, when the first one had the number `start`. -/
def nextNumber (start : BitVec 16) (t : DeliveryState) : BitVec 16 :=
  start + BitVec.ofNat 16 t.arrived.length

/-- The outcome of a call, if it returns. -/
def perform (s : ℕ) (start : BitVec 16) (t : DeliveryState) : DeliveryCall s → Option DeliveryState
  | .next timestamp => (t.queue.insertRecvPacket ⟨t.nextNumber start, timestamp, s⟩).map (fun r =>
      ⟨r.2, t.arrived ++ [t.queue.fresh], t.departed⟩)
  | .other n _ => (t.queue.insertRecvPacket n).map (fun r => ⟨r.2, t.arrived, t.departed⟩)
  | .getData stamp src delayed => (t.queue.getData stamp (some src) delayed).map (fun r =>
      ⟨r.queue, t.arrived,
        if src = s then t.departed ++ (r.expired ++ r.result.toList) else t.departed⟩)

/-- The packets that have come have left or are queued, in their order. -/
def InOrder (s : ℕ) (t : DeliveryState) : Prop := t.departed ++ t.queue.packetsOf s = t.arrived

/-- Number 0 comes only when no packet of the source is queued. -/
def WrapsEmpty (s : ℕ) (start : BitVec 16) (t : DeliveryState) : DeliveryCall s → Prop
  | .next _ => t.nextNumber start = 0 → t.queue.packetsOf s = []
  | .other _ _ => True
  | .getData _ _ _ => True

variable {s : ℕ} {start : BitVec 16} {t u : DeliveryState}

/-- Invariant of a run: the packets queued are the last ones that have come, and the next number
follows that of the last one. -/
def Sequenced (s : ℕ) (start : BitVec 16) (t : DeliveryState) : Prop :=
  ∃ befores S, t.queue.SourcesLinked befores S ∧ t.departed ++ S s = t.arrived ∧
    ∀ a ∈ (S s).getLast?, t.queue.links.seqOf a + 1 = t.nextNumber start

theorem sequenced_new (isMine : ℕ → Bool) : Sequenced s start (new isMine) :=
  ⟨_, _, ReceptionQueue.sourcesLinked_new isMine, rfl,
    fun _ ha => absurd ha (Option.not_mem_none _)⟩

theorem Sequenced.inOrder (h : Sequenced s start t) : InOrder s t := by
  obtain ⟨befores, S, hsrc, heq, -⟩ := h
  rw [InOrder, hsrc.packetsOf_eq, heq]

/-- A number is lower than the one before it only if it has wrapped. -/
theorem succ_lt_iff (x : BitVec 16) : x + 1 < x ↔ x + 1 = 0 := by
  have hx := x.isLt
  have h1 : (1 : BitVec 16).toNat = 1 := rfl
  have h0 : (0 : BitVec 16).toNat = 0 := rfl
  rw [BitVec.lt_def, BitVec.toNat_add, ← BitVec.toNat_inj, BitVec.toNat_add]
  omega

/-- A packet goes to the end of the queue if the last one has no higher number. -/
theorem placed_eq_append_iff {P : ℕ → Bool} {link : ℕ} {l : List ℕ} (hlink : link ∉ l) :
    ReceptionQueue.placed P link l = l ++ [link] ↔ ∀ a ∈ l.getLast?, ¬ P a = true := by
  obtain rfl | ⟨l', c, rfl⟩ := List.eq_nil_or_concat' l
  · exact iff_of_true rfl (fun _ ha => absurd ha (Option.not_mem_none _))
  · rw [List.getLast?_concat, ReceptionQueue.placed]
    by_cases hc : P c = true
    · refine iff_of_false (fun heq => ?_) (fun h => h c rfl hc)
      rw [List.rtakeWhile_concat_pos _ _ _ hc] at heq
      have hlast := congrArg List.getLast? heq
      rw [List.getLast?_concat, ← List.cons_append, ← List.append_assoc, List.getLast?_concat,
        Option.some_inj] at hlast
      exact hlink (hlast ▸ List.mem_append_right l' List.mem_cons_self)
    · refine iff_of_true ?_ (fun a ha => ?_)
      · rw [List.rdropWhile_concat_neg _ _ _ hc, List.rtakeWhile_concat_neg _ _ _ hc]
      · cases ha
        exact hc

/-- The next number, when one more packet has come. -/
theorem nextNumber_concat (q : ReceptionQueue) (a : ℕ) (departed : List ℕ) :
    nextNumber start ⟨q, t.arrived ++ [a], departed⟩ = t.nextNumber start + 1 := by
  rw [nextNumber, nextNumber, List.length_append, List.length_singleton, BitVec.ofNat_add,
    BitVec.add_assoc]
  rfl

/-- A packet with the number that follows that of the last one goes behind it, unless the number
has wrapped. -/
theorem placed_eq_append_iff_seqNum {q : ReceptionQueue} {befores : ℕ → Option ℕ} {S : ℕ → List ℕ}
    (hsrc : q.SourcesLinked befores S) {n : WaitingPacket}
    (hlast : ∀ a ∈ (S s).getLast?, q.links.seqOf a + 1 = n.seqNum) :
    ReceptionQueue.placed ((q.newLink n).links.higher n.seqNum) q.fresh (S s) = S s ++ [q.fresh] ↔
      (n.seqNum = 0 → S s = []) := by
  rw [placed_eq_append_iff (hsrc.notMem_fresh s)]
  cases hget : (S s).getLast? with
  | none =>
      rw [List.getLast?_eq_none_iff] at hget
      exact iff_of_true (fun _ ha => absurd ha (Option.not_mem_none _)) (fun _ => hget)
  | some c =>
      have hmem : c ∈ S s := List.mem_of_getLast? hget
      have hpacket : (q.newLink n).links.packet c = q.links.packet c := by
        refine Function.update_of_ne ?_ ..
        rintro rfl
        exact hsrc.notMem_fresh s hmem
      have hhigher : (q.newLink n).links.higher n.seqNum c = true ↔ n.seqNum = 0 := by
        rw [PacketLinks.higher, decide_eq_true_iff, ReceptionQueue.seqOf_congr hpacket,
          ← hlast c hget]
        exact succ_lt_iff _
      constructor
      · exact fun h hzero => absurd (hhigher.mpr hzero) (h c rfl)
      · rintro h a ⟨⟩ ha
        exact List.ne_nil_of_mem hmem (h (hhigher.mp ha))

/-- **The next packet of the source** goes to the end of the queue, unless its number has
wrapped and others are queued. -/
theorem Sequenced.next_iff (h : Sequenced s start t) {timestamp : BitVec 32}
    (hu : t.perform s start (.next timestamp) = some u) :
    (InOrder s u ↔ WrapsEmpty s start t (.next timestamp)) ∧
      (WrapsEmpty s start t (.next timestamp) → Sequenced s start u) := by
  obtain ⟨befores, S, hsrc, heq, hlast⟩ := h
  obtain ⟨⟨stored, q'⟩, hq', rfl⟩ := Option.map_eq_some_iff.mp hu
  cases stored with
  | false =>
      -- a number is not the one that follows it
      obtain ⟨-, ⟨last, hmem, hseq⟩, -⟩ := hsrc.insertRecvPacket_false hq'
      have hsucc := hlast last hmem
      rw [hseq] at hsucc
      exact absurd hsucc (by simp)
  | true =>
      obtain ⟨honly, before, -, hsrc'⟩ := hsrc.insertRecvPacket hq'
      have hplaced :=
        placed_eq_append_iff_seqNum (n := ⟨t.nextNumber start, timestamp, s⟩) hsrc hlast
      set P :=
        (t.queue.newLink ⟨t.nextNumber start, timestamp, s⟩).links.higher (t.nextNumber start)
      have hwraps : WrapsEmpty s start t (.next timestamp) ↔
          ReceptionQueue.placed P t.queue.fresh (S s) = S s ++ [t.queue.fresh] := by
        rw [hplaced, WrapsEmpty, hsrc.packetsOf_eq]
      rw [hwraps]
      constructor
      · rw [InOrder, hsrc'.packetsOf_eq, Function.update_self, ← heq, List.append_assoc,
          List.append_right_inj]
      · intro hback
        dsimp only at hsrc' honly
        rw [hback] at hsrc'
        refine ⟨_, _, hsrc', ?_, fun a ha => ?_⟩
        · rw [Function.update_self, ← List.append_assoc, heq]
        · rw [Function.update_self, List.getLast?_concat] at ha
          cases ha
          have hmem : t.queue.fresh ∈ Function.update S s (S s ++ [t.queue.fresh]) s := by
            rw [Function.update_self]
            exact List.mem_append_right _ List.mem_cons_self
          have hpacket := honly.packet_of_isSome
            (PacketLinks.isSome_of_ofSource ((hsrc'.linked s).ofSource _ hmem))
          have hnew : (t.queue.newLink ⟨t.nextNumber start, timestamp, s⟩).links.packet
              t.queue.fresh
              = some ⟨t.nextNumber start, timestamp, s⟩ := Function.update_self ..
          rw [nextNumber_concat, PacketLinks.seqOf, hpacket, hnew]
          rfl

variable (t) in
/-- The number of the last packet of the source, when it is still there. -/
theorem Sequenced.of_linked {befores : ℕ → Option ℕ} {S : ℕ → List ℕ}
    (hu : u.queue.SourcesLinked befores S) (heq : u.departed ++ S s = u.arrived)
    (harrived : u.arrived = t.arrived)
    (hlast : ∀ a ∈ (S s).getLast?, t.queue.links.seqOf a + 1 = t.nextNumber start)
    (hpacket : ∀ a ∈ S s, u.queue.links.packet a = t.queue.links.packet a) :
    Sequenced s start u := by
  refine ⟨befores, S, hu, heq, fun a ha => ?_⟩
  rw [nextNumber, harrived, ReceptionQueue.seqOf_congr (hpacket a (List.mem_of_mem_getLast? ha))]
  exact hlast a ha

/-- A packet of another source does not affect the queue of this one. -/
theorem Sequenced.other (h : Sequenced s start t) {n : WaitingPacket} {hn : n.sourceLink ≠ s}
    (hu : t.perform s start (.other n hn) = some u) : Sequenced s start u := by
  obtain ⟨befores, S, hsrc, heq, hlast⟩ := h
  obtain ⟨⟨stored, q'⟩, hq', rfl⟩ := Option.map_eq_some_iff.mp hu
  cases stored with
  | false =>
      obtain ⟨rfl, -, hsrc'⟩ := hsrc.insertRecvPacket_false hq'
      have hsame := ReceptionQueue.sameQueues_newLink_deleteLink hsrc n
      exact .of_linked t hsrc' heq rfl hlast (fun a _ => congrFun hsame.packet a)
  | true =>
      obtain ⟨honly, before, -, hsrc'⟩ := hsrc.insertRecvPacket hq'
      have hS : Function.update S n.sourceLink (ReceptionQueue.placed
          ((t.queue.newLink n).links.higher n.seqNum) t.queue.fresh (S n.sourceLink)) s = S s :=
        Function.update_of_ne hn.symm ..
      refine .of_linked t hsrc' ?_ rfl ?_ (fun a ha => ?_)
      · rw [hS]
        exact heq
      · rw [hS]
        exact hlast
      · have hpacket := honly.packet_of_isSome
          (PacketLinks.isSome_of_ofSource ((hsrc'.linked s).ofSource a ha))
        rw [hS] at ha
        refine hpacket.trans (Function.update_of_ne ?_ ..)
        rintro rfl
        exact hsrc.notMem_fresh s ha

/-- **Packets leave in their order.** -/
theorem Sequenced.getData (h : Sequenced s start t) {stamp : BitVec 32} {src : ℕ}
    {delayed : ℕ → Bool} (hu : t.perform s start (.getData stamp src delayed) = some u) :
    Sequenced s start u := by
  obtain ⟨befores, S, hsrc, heq, hlast⟩ := h
  obtain ⟨r, hr, rfl⟩ := Option.map_eq_some_iff.mp hu
  obtain ⟨honly, l, before, hS, -, hsrc'⟩ := hsrc.getData hr
  have hpacket : ∀ a ∈ Function.update S src l s,
      r.queue.links.packet a = t.queue.links.packet a := fun a ha =>
    honly.packet_of_isSome (PacketLinks.isSome_of_ofSource ((hsrc'.linked s).ofSource a ha))
  rcases eq_or_ne src s with rfl | hne
  · refine .of_linked t hsrc' ?_ rfl ?_ hpacket
    · rw [if_pos rfl, Function.update_self, List.append_assoc, List.append_assoc, ← hS]
      exact heq
    · rw [Function.update_self]
      intro a ha
      -- the last packet is the one of before
      apply hlast
      rw [hS, ← List.append_assoc, List.getLast?_append, Option.mem_def.mp ha]
      rfl
  · rw [Function.update_of_ne hne.symm] at hpacket
    have hS' : Function.update S src l s = S s := Function.update_of_ne hne.symm ..
    refine .of_linked t hsrc' ?_ rfl ?_ (by rw [hS']; exact hpacket)
    · rw [if_neg hne, hS']
      exact heq
    · rw [hS']
      exact hlast

/-- **One call**: the order is kept exactly if number 0 finds the queue empty. -/
theorem Sequenced.perform_iff (h : Sequenced s start t) {call : DeliveryCall s}
    (hu : t.perform s start call = some u) :
    (InOrder s u ↔ WrapsEmpty s start t call) ∧
    (WrapsEmpty s start t call → Sequenced s start u) := by
  cases call with
  | next timestamp => exact h.next_iff hu
  | other n hn => exact ⟨iff_of_true (h.other hu).inOrder trivial, fun _ => h.other hu⟩
  | getData stamp src delayed =>
      exact ⟨iff_of_true (h.getData hu).inOrder trivial, fun _ => h.getData hu⟩

variable (start) in
/-- As long as packets are only inserted, calls return. -/
theorem perform_of_inserts (h : t.queue.Received) {call : DeliveryCall s} (hcall : call.Inserts) :
    ∃ u, t.perform s start call = some u ∧ u.queue.Received := by
  cases call with
  | next timestamp =>
      obtain ⟨stored, q', hq', h'⟩ := h.insertRecvPacket ⟨t.nextNumber start, timestamp, s⟩
      exact ⟨_, Option.map_eq_some_iff.mpr ⟨_, hq', rfl⟩, h'⟩
  | other n hn =>
      obtain ⟨stored, q', hq', h'⟩ := h.insertRecvPacket n
      exact ⟨_, Option.map_eq_some_iff.mpr ⟨_, hq', rfl⟩, h'⟩
  | getData stamp src delayed => exact hcall.elim

/-! ## Runs -/

section Runs

variable {st : Option DeliveryState} {calls : List (DeliveryCall s)}

/-- Along a run in which number 0 finds the queue empty, every state reached is in order. -/
theorem inOrder_of_wrapsEmpty (hst : ∀ t ∈ st, Sequenced s start t)
    (hwraps : AlongRun (partialStep (perform s start)) (fun st call =>
      ∀ t ∈ st, WrapsEmpty s start t call) st calls) :
    AlongRun (partialStep (perform s start)) (fun st call =>
      ∀ u ∈ partialStep (perform s start) st call, InOrder s u) st calls := by
  have hstep : ∀ (st : Option DeliveryState) (call : DeliveryCall s),
      (∀ t ∈ st, Sequenced s start t) → (∀ t ∈ st, WrapsEmpty s start t call) →
      (∀ u ∈ partialStep (perform s start) st call, InOrder s u) ∧
        ∀ u ∈ partialStep (perform s start) st call, Sequenced s start u := by
    intro st call hst hwraps
    have hnext : ∀ u ∈ partialStep (perform s start) st call, Sequenced s start u := by
      intro u hu
      obtain ⟨t, rfl, hu⟩ := Option.bind_eq_some_iff.mp hu
      exact ((hst t rfl).perform_iff hu).2 (hwraps t rfl)
    exact ⟨fun u hu => (hnext u hu).inOrder, hnext⟩
  exact alongRun_of_invariant hstep hst hwraps

/-- And only along such a run. -/
theorem wrapsEmpty_of_inOrder (hst : ∀ t ∈ st, Sequenced s start t)
    (hin : AlongRun (partialStep (perform s start)) (fun st call =>
      ∃ u, partialStep (perform s start) st call = some u ∧ InOrder s u) st calls) :
    AlongRun (partialStep (perform s start)) (fun st call =>
      ∀ t ∈ st, WrapsEmpty s start t call) st calls := by
  have hstep : ∀ (st : Option DeliveryState) (call : DeliveryCall s),
      (∀ t ∈ st, Sequenced s start t) →
      (∃ u, partialStep (perform s start) st call = some u ∧ InOrder s u) →
      (∀ t ∈ st, WrapsEmpty s start t call) ∧
        ∀ u ∈ partialStep (perform s start) st call, Sequenced s start u := by
    rintro st call hst ⟨u, hu, hin⟩
    obtain ⟨t, rfl, hperform⟩ := Option.bind_eq_some_iff.mp hu
    obtain ⟨hiff, hnext⟩ := (hst t rfl).perform_iff hperform
    have hwraps := hiff.mp hin
    refine ⟨?_, ?_⟩
    · rintro _ ⟨⟩
      exact hwraps
    · intro u' hu'
      rw [hu] at hu'
      cases hu'
      exact hnext hwraps
  exact alongRun_of_invariant hstep hst hin

/-- Along a run of insertions every call returns. -/
theorem returns_of_inserts (hst : ∃ t, st = some t ∧ t.queue.Received)
    (hcalls : ∀ call ∈ calls, call.Inserts) :
    AlongRun (partialStep (perform s start)) (fun st call =>
      ∃ u, partialStep (perform s start) st call = some u) st calls := by
  have hstep : ∀ (st : Option DeliveryState) (call : DeliveryCall s),
      (∃ t, st = some t ∧ t.queue.Received) → call.Inserts →
      (∃ u, partialStep (perform s start) st call = some u) ∧
        ∃ u, partialStep (perform s start) st call = some u ∧ u.queue.Received := by
    rintro _ call ⟨t, rfl, h⟩ hcall
    obtain ⟨u, hu, h'⟩ := perform_of_inserts start h hcall
    exact ⟨⟨u, hu⟩, u, hu, h'⟩
  exact alongRun_of_invariant hstep hst (alongRun_of_forall_mem hcalls)

end Runs

end DeliveryState

open DeliveryState

/-- **Delivery in the order of sending.**  For every source, every number that the first packet
has and every run: if number 0 comes only when no packet of the source is queued, in every state
reached its packets have left and are queued in the order in which they came.  If all calls
return and this is so, number 0 has come only then.  Calls that insert packets return, so of
their runs the condition is exact. -/
theorem in_order_delivery_iff (isMine : ℕ → Bool) (s : ℕ) (start : BitVec 16)
    (calls : List (DeliveryCall s)) :
    (AlongRun (partialStep (perform s start)) (fun st call => ∀ t ∈ st, WrapsEmpty s start t call)
        (some (.new isMine)) calls →
      AlongRun (partialStep (perform s start)) (fun st call =>
        ∀ u ∈ partialStep (perform s start) st call, InOrder s u) (some (.new isMine)) calls) ∧
    (AlongRun (partialStep (perform s start)) (fun st call =>
        ∃ u, partialStep (perform s start) st call = some u ∧ InOrder s u)
        (some (.new isMine)) calls →
      AlongRun (partialStep (perform s start)) (fun st call => ∀ t ∈ st, WrapsEmpty s start t call)
        (some (.new isMine)) calls) ∧
    ((∀ call ∈ calls, call.Inserts) →
      (AlongRun (partialStep (perform s start)) (fun st call =>
          ∃ u, partialStep (perform s start) st call = some u ∧ InOrder s u)
          (some (.new isMine)) calls ↔
        AlongRun (partialStep (perform s start)) (fun st call =>
          ∀ t ∈ st, WrapsEmpty s start t call) (some (.new isMine)) calls)) := by
  have hnew : ∀ t ∈ some (new isMine), Sequenced s start t := by
    rintro t ⟨⟩
    exact sequenced_new isMine
  refine ⟨inOrder_of_wrapsEmpty hnew, wrapsEmpty_of_inOrder hnew, fun hcalls =>
    ⟨wrapsEmpty_of_inOrder hnew, fun hwraps => ?_⟩⟩
  have hreturns : AlongRun (partialStep (perform s start)) (fun st call =>
      ∃ u, partialStep (perform s start) st call = some u) (some (.new isMine)) calls :=
    returns_of_inserts ⟨_, rfl, ReceptionQueue.received_new isMine⟩ hcalls
  refine ((inOrder_of_wrapsEmpty hnew hwraps).and hreturns).mono ?_
  rintro st call ⟨hin, u, hu⟩
  exact ⟨u, hu, hin u hu⟩

instance (s : ℕ) (start : BitVec 16) (t : DeliveryState) :
    ∀ call, Decidable (WrapsEmpty s start t call)
  | .next _ => inferInstanceAs (Decidable (_ → _))
  | .other _ _ => .isTrue trivial
  | .getData _ _ _ => .isTrue trivial

/-- The theorem at a run in which number 65535 is taken out before number 0 comes. -/
theorem in_order_delivery_iff_emptied :
    AlongRun (partialStep (perform 0 65535)) (fun st call =>
      ∀ u ∈ partialStep (perform 0 65535) st call, InOrder 0 u) (some (.new (fun _ => true)))
      [.next 0, .other ⟨7, 0, 1⟩ (by decide), .getData 0 0 (fun _ => false), .next 160,
        .next 320] :=
  (in_order_delivery_iff (fun _ => true) 0 65535 _).1 (by decide)

/-- Numbers 65535 and 0 come in this order, and are queued in the other. -/
theorem in_order_delivery_not_across_wrap :
    ¬ AlongRun (partialStep (perform 0 65535)) (fun st call =>
      ∃ u, partialStep (perform 0 65535) st call = some u ∧ InOrder 0 u)
      (some (.new (fun _ => true))) [.next 0, .next 160] := by
  rintro ⟨-, ⟨u, hu, hin⟩, -⟩
  have hout : (partialStep (perform 0 65535) (partialStep (perform 0 65535)
      (some (.new (fun _ => true))) (.next 0)) (.next 160)).map
        (fun u => (u.departed ++ u.queue.packetsOf 0, u.arrived)) = some ([1, 0], [0, 1]) := by
    decide
  rw [hu, Option.map_some, Option.some_inj, Prod.mk.injEq] at hout
  have hlists : u.departed ++ u.queue.packetsOf 0 = u.arrived := hin
  rw [hout.1, hout.2] at hlists
  cases hlists
