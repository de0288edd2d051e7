/-
# Runs of calls on the reception queue

Packets are inserted, asked for and purged in any order.  `Represents` says that the pointers
of a queue list its packets: all of them from `recvFirst` to `recvLast`, those of each source
in the same order from its first to its last packet, and both ways.

Four slips break this.

* A packet that goes before all others of its source becomes the first of all if the first
  packet of the source was, but `recvFirst` still leads to that one.
* `purgeIncomingQueue` leaves `recvLast` as it is.
* Where packets expire in a source specific query, `recvFirst` and `recvLast` stay as they are
  unless the global queue gets empty, or a packet is selected that is then the first of all.
* Behind the packet that a source specific query selects, `setPrev` is called in place of
  `setSrcPrev`.

`KeepsLists` says when a call runs into none of them.

* `Represents.perform` : such a call returns, and the pointers list what is then waiting;
* `reception_queue_lists` : the same along every run.
-/
import CcRtp.AlongRun
import CcRtp.ReceptionQueries

namespace ReceptionQueue

variable {q : ReceptionQueue} {l : List ℕ}

/-- **The lists of a queue.**  The packets `l` are those of the global queue, and in this order
those of each source are the ones of its own queue. -/
structure Represents (q : ReceptionQueue) (l : List ℕ) : Prop where
  live : ∀ a ∈ l, (q.links.packet a).isSome = true
  global : DoublyLinked (follow q.links.next) (follow q.links.prev) q.recvFirst q.recvLast l
  source : ∀ s, DoublyLinked (follow q.links.srcNext) (follow q.links.srcPrev) (q.sources s).first
    (q.sources s).last (l.filter (q.links.ofSource s))

/-- The packets from `recvFirst` on. -/
def packets (q : ReceptionQueue) : List ℕ := walk q.links.next q.fresh q.recvFirst

/-- The queue of the code is a list of packets. -/
theorem Passing.represents (h : Passing q none l) : Represents q l where
  live := h.global.live
  global := ⟨h.global.nodup, h.global.piece.forward, h.global.piece.backward⟩
  source := fun s =>
    have hlinked := h.sources.linked s
    ⟨hlinked.nodup, hlinked.piece.forward, hlinked.piece.backward⟩

/-- This list is what `packets` reads from it. -/
theorem Passing.packets_eq (h : Passing q none l) : q.packets = l := by
  apply h.global.piece.forward.walk_eq
  exact length_le_of_nodup_of_lt h.global.nodup
    (fun a ha => h.sources.below a (h.global.live a ha))

/-- An empty queue is in order. -/
theorem passing_new (isMine : ℕ → Bool) : Passing (new isMine) none [] where
  global := ⟨List.nodup_nil, fun _ ha => absurd ha List.not_mem_nil, piece_nil.mpr ⟨rfl, rfl⟩⟩
  sources := sourcesLinked_new isMine

end ReceptionQueue

/-! ## Calls -/

/-- A call from outside.  Of a query, what is delayed is given with it. -/
inductive ReceptionCall : Type where
  | insertRecvPacket (n : WaitingPacket)
  | getData (stamp : BitVec 32) (src : Option ℕ) (delayed : ℕ → Bool)
  | purgeIncomingQueue

/-- A queue, and the packets inserted that have not been returned, expired or purged. -/
structure ReceptionState where
  queue : ReceptionQueue
  waiting : Finset ℕ

namespace ReceptionState

/-- An empty queue. -/
def new (isMine : ℕ → Bool) : ReceptionState := ⟨ReceptionQueue.new isMine, ∅⟩

/-- The outcome of a call, if it returns. -/
def perform (t : ReceptionState) : ReceptionCall → Option ReceptionState
  | .insertRecvPacket n => (t.queue.insertRecvPacket n).map (fun r =>
      ⟨r.2, if r.1 then insert t.queue.fresh t.waiting else t.waiting⟩)
  | .getData stamp src delayed => (t.queue.getData stamp src delayed).map (fun r =>
      ⟨r.queue, t.waiting \ (r.expired ++ r.result.toList).toFinset⟩)
  | .purgeIncomingQueue => t.queue.purgeIncomingQueue.map (fun r =>
      ⟨r.2, t.waiting \ r.1.toFinset⟩)

/-- The lists of the queue hold exactly what is waiting. -/
def Represented (t : ReceptionState) : Prop :=
  ∃ l, t.queue.Represents l ∧ ∀ a, a ∈ l ↔ a ∈ t.waiting

end ReceptionState

namespace ReceptionQueue

variable {q : ReceptionQueue} {l : List ℕ}

/-- What a call needs to keep the lists in order. -/
def KeepsLists (q : ReceptionQueue) : ReceptionCall → Prop
  | .insertRecvPacket n =>
      -- the packet may not go before the first one of all
      q.packetsOf n.sourceLink ≠ [] → (q.sources n.sourceLink).first = q.recvFirst →
        ∃ a ∈ q.packetsOf n.sourceLink, q.links.seqOf a ≤ n.seqNum
  | .getData stamp (some s) delayed =>
      q.isMine s = true → QueryKeeps q.links stamp q.packets
        ((q.packetsOf s).takeWhile (isOld q.links stamp delayed))
        ((q.packetsOf s).dropWhile (isOld q.links stamp delayed))
  | .getData _ none _ => True
  | .purgeIncomingQueue => q.recvFirst = none

instance QueryKeeps.decidable (h : PacketLinks) (timestamp : BitVec 32) (l O : List ℕ) :
    ∀ R, Decidable (QueryKeeps h timestamp l O R)
  | [] => inferInstanceAs (Decidable (l = O ∨ (∀ b ∈ l.head?, b ∉ O) ∧ ∀ b ∈ l.getLast?, b ∉ O))
  | a :: R => inferInstanceAs (Decidable
      (if timestamp < (h.packet a).elim 0 WaitingPacket.timestamp then ∀ b ∈ l.head?, b ∉ O
      else R = [] ∧ ((∀ b ∈ l.head?, b ∉ O) ∨ l.takeWhile (fun b => b ≠ a) = O)))

instance KeepsLists.decidable (q : ReceptionQueue) : ∀ call, Decidable (q.KeepsLists call)
  | .insertRecvPacket n => inferInstanceAs (Decidable
      (q.packetsOf n.sourceLink ≠ [] → (q.sources n.sourceLink).first = q.recvFirst →
        ∃ a ∈ q.packetsOf n.sourceLink, q.links.seqOf a ≤ n.seqNum))
  | .getData stamp (some s) delayed => inferInstanceAs (Decidable
      (q.isMine s = true → QueryKeeps q.links stamp q.packets
        ((q.packetsOf s).takeWhile (isOld q.links stamp delayed))
        ((q.packetsOf s).dropWhile (isOld q.links stamp delayed))))
  | .getData _ none _ => inferInstanceAs (Decidable True)
  | .purgeIncomingQueue => inferInstanceAs (Decidable (q.recvFirst = none))

/-- Insertion of a packet that does not go before the first one of all. -/
theorem Passing.insertRecvPacket (h : Passing q none l) {n : WaitingPacket}
    (hkeeps : q.KeepsLists (.insertRecvPacket n)) :
    ∃ stored q' l', q.insertRecvPacket n = some (stored, q') ∧ Passing q' none l' ∧
      ∀ a, a ∈ l' ↔ a ∈ l ∨ stored = true ∧ a = q.fresh := by
  have hfirst := h.global.piece.first_eq_or
  rw [Option.or_none] at hfirst
  have hlisted : Listed q l := ⟨hfirst ▸ h.global, h.sources⟩
  have hempty : q.recvFirst = none ↔ l = [] := by rw [hfirst, List.head?_eq_none_iff]
  rcases hlisted.insertRecvPacket hempty n with
    ⟨q', hq', hl', hfirst'⟩ | ⟨q', l₁, l₂, hq', rfl, hl', hfirst', hdrop, hhead⟩
  · refine ⟨false, q', l, hq', ⟨?_, hl'.sources⟩, fun a => by simp⟩
    rw [hfirst', hfirst]
    exact hl'.global
  · refine ⟨true, q', _, hq', ⟨?_, hl'.sources⟩, fun a => ?_⟩
    · have heq : q'.recvFirst = (l₁ ++ q.fresh :: l₂).head? := by
        rw [hfirst']
        split_ifs with hnil
        · obtain ⟨rfl, rfl⟩ := List.append_eq_nil_iff.mp hnil
          rfl
        · cases l₁ with
          | cons c l₁ => rw [hfirst]; rfl
          | nil =>
              -- then the first packet of all is one of the source, and all of these are higher
              rw [KeepsLists, h.sources.packetsOf_eq] at hkeeps
              rw [List.nil_append] at hkeeps hdrop hnil hfirst h
              rw [List.filter_nil, List.rdropWhile_eq_nil_iff] at hdrop
              have hne : l₂.filter (q.links.ofSource n.sourceLink) ≠ [] := by
                intro hnone
                rw [hnone, List.head?_nil, List.head?_eq_none_iff] at hhead
                exact hnil hhead
              have hsrcFirst := (h.sources.linked n.sourceLink).piece.first_eq_or
              rw [Option.or_none] at hsrcFirst
              obtain ⟨a, ha, hle⟩ := hkeeps hne (by rw [hsrcFirst, hfirst, hhead])
              have hlt : n.seqNum < (q.newLink n).links.seqOf a := of_decide_eq_true (hdrop a ha)
              have hafresh : a ≠ q.fresh :=
                fun heq => hlisted.fresh_notMem (heq ▸ (List.mem_filter.mp ha).1)
              have hseq : (q.newLink n).links.seqOf a = q.links.seqOf a :=
                congrArg (fun p => Option.elim p 0 WaitingPacket.seqNum)
                  (Function.update_of_ne hafresh ..)
              rw [hseq] at hlt
              exact absurd hlt (BitVec.not_lt.mpr hle)
      rw [heq]
      exact hl'.global
    · simp only [List.mem_append, List.mem_cons, true_and]
      tauto

/-- Purging an empty queue. -/
theorem purgeIncomingQueue_of_none (hfirst : q.recvFirst = none) :
    q.purgeIncomingQueue = some ([], q) := by
  rw [purgeIncomingQueue]
  cases q.fresh with
  | zero => rw [purgeLoop, if_pos hfirst]
  | succ rounds => rw [purgeLoop, if_pos hfirst]

end ReceptionQueue

namespace ReceptionState

variable {t : ReceptionState} {call : ReceptionCall}

/-- Invariant of a run. -/
def Ordered (t : ReceptionState) : Prop :=
  ∃ l, t.queue.Passing none l ∧ ∀ a, a ∈ l ↔ a ∈ t.waiting

/-- An empty queue is in order. -/
theorem ordered_new (isMine : ℕ → Bool) : (new isMine).Ordered :=
  ⟨[], ReceptionQueue.passing_new isMine, fun a => by simp [new]⟩

/-- A queue in order is a list of packets. -/
theorem Ordered.represented (h : t.Ordered) : t.Represented := by
  obtain ⟨l, hl, hmem⟩ := h
  exact ⟨l, hl.represents, hmem⟩

/-- A query that keeps the lists, of one source or of all. -/
theorem Ordered.getData (h : t.Ordered) {stamp : BitVec 32} {src : Option ℕ} {delayed : ℕ → Bool}
    (hkeeps : t.queue.KeepsLists (.getData stamp src delayed)) :
    ∃ u, t.perform (.getData stamp src delayed) = some u ∧ u.Ordered := by
  obtain ⟨l, hl, hmem⟩ := h
  have hquery : ∃ r l', t.queue.getData stamp src delayed = some r ∧ r.queue.Passing none l' ∧
      ∀ a, a ∈ l' ↔ a ∈ l ∧ a ∉ r.expired ++ r.result.toList := by
    cases src with
    | none => exact hl.getData_all stamp delayed
    | some s =>
        by_cases hmine : t.queue.isMine s = true
        · have hkeeps' := hkeeps hmine
          rw [hl.packets_eq, hl.sources.packetsOf_eq] at hkeeps'
          exact hl.getData_of hmine hkeeps'
        · -- another queue has the packets of the source
          refine ⟨⟨none, [], t.queue⟩, l, ?_, hl, fun a => by simp⟩
          rw [ReceptionQueue.getData, ReceptionQueue.getWaiting, if_neg hmine]
          rfl
  obtain ⟨r, l', hr, hl', hmem'⟩ := hquery
  refine ⟨_, Option.map_eq_some_iff.mpr ⟨r, hr, rfl⟩, l', hl', fun a => ?_⟩
  rw [hmem', hmem, Finset.mem_sdiff, List.mem_toFinset]

/-- **A call that keeps the lists** returns, and they hold what is then waiting. -/
theorem Ordered.perform (h : t.Ordered) (hkeeps : t.queue.KeepsLists call) :
    ∃ u, t.perform call = some u ∧ u.Ordered := by
  cases call with
  | insertRecvPacket n =>
      obtain ⟨l, hl, hmem⟩ := h
      obtain ⟨stored, q', l', hq', hl', hmem'⟩ := hl.insertRecvPacket hkeeps
      refine ⟨_, Option.map_eq_some_iff.mpr ⟨_, hq', rfl⟩, l', hl', fun a => ?_⟩
      rw [hmem', hmem]
      cases stored with
      | false => simp
      | true => simp [or_comm]
  | getData stamp src delayed => exact h.getData hkeeps
  | purgeIncomingQueue =>
      obtain ⟨l, hl, hmem⟩ := h
      have hpurge := ReceptionQueue.purgeIncomingQueue_of_none hkeeps
      refine ⟨_, Option.map_eq_some_iff.mpr ⟨_, hpurge, rfl⟩, l, hl, fun a => ?_⟩
      rw [hmem, List.toFinset_nil, Finset.sdiff_empty]

end ReceptionState

/-- **The reception queue along every run.**  Whatever is inserted, asked for and purged, if no
call runs into one of the slips, every call returns and the pointers list what is then waiting. -/
theorem reception_queue_lists (isMine : ℕ → Bool) (calls : List ReceptionCall)
    (hkeeps : AlongRun (partialStep ReceptionState.perform)
      (fun t call => ∀ u ∈ t, u.queue.KeepsLists call) (some (.new isMine)) calls) :
    AlongRun (partialStep ReceptionState.perform)
      (fun t call => ∃ u, partialStep ReceptionState.perform t call = some u ∧ u.Represented)
      (some (.new isMine)) calls := by
  have hstep : ∀ (t : Option ReceptionState) (call : ReceptionCall),
      (∃ u, t = some u ∧ u.Ordered) → (∀ u ∈ t, u.queue.KeepsLists call) →
      (∃ u, partialStep ReceptionState.perform t call = some u ∧ u.Represented) ∧
        ∃ u, partialStep ReceptionState.perform t call = some u ∧ u.Ordered := by
    rintro _ call ⟨t, rfl, ht⟩ hk
    obtain ⟨u, hu, hord⟩ := ht.perform (hk t rfl)
    exact ⟨⟨u, hu, hord.represented⟩, u, hu, hord⟩
  exact alongRun_of_invariant hstep ⟨_, rfl, ReceptionState.ordered_new isMine⟩ hkeeps

/-- Packets of two sources are asked for as they come, of one source and of any. -/
theorem reception_queue_lists_two_sources :
    AlongRun (partialStep ReceptionState.perform)
      (fun t call => ∃ u, partialStep ReceptionState.perform t call = some u ∧ u.Represented)
      (some (.new (fun _ => true)))
      [.insertRecvPacket ⟨7, 0, 0⟩, .insertRecvPacket ⟨1, 0, 1⟩, .insertRecvPacket ⟨9, 160, 0⟩,
        .insertRecvPacket ⟨8, 160, 0⟩, .getData 0 (some 1) (fun _ => false),
        .getData 0 none (fun _ => false), .getData 320 none (fun _ => false),
        .purgeIncomingQueue] :=
  reception_queue_lists _ _ (by decide)

/-- Two packets of one source come in the wrong order: the pointers lead past the second one. -/
theorem reception_queue_lists_reordered :
    ¬ AlongRun (partialStep ReceptionState.perform)
      (fun t call => ∃ u, partialStep ReceptionState.perform t call = some u ∧ u.Represented)
      (some (.new (fun _ => true))) [.insertRecvPacket ⟨5, 0, 0⟩, .insertRecvPacket ⟨3, 0, 0⟩] := by
  rintro ⟨-, ⟨u, hu, l, hl, -⟩, -⟩
  have hout : (partialStep ReceptionState.perform (partialStep ReceptionState.perform
      (some (.new (fun _ => true))) (.insertRecvPacket ⟨5, 0, 0⟩))
      (.insertRecvPacket ⟨3, 0, 0⟩)).map
        (fun u => (u.queue.recvFirst, u.queue.links.prev 0)) = some (some 0, some 1) := by
    decide
  rw [hu, Option.map_some, Option.some_inj, Prod.mk.injEq] at hout
  cases l with
  | nil =>
      have hfirst := hl.global.first_eq
      rw [hout.1] at hfirst
      cases hfirst
  | cons a l =>
      -- the first packet links back to the one that should be first
      obtain ⟨r, hfirst, -, hprev, -⟩ := piece_cons.mp hl.global.piece
      rw [hout.1, Option.some_inj] at hfirst
      subst hfirst
      rw [follow_apply, hout.2] at hprev
      cases hprev
