/-
# Queries for packets of any source

What `getWaiting` does without a source, on any reception queue whose lists are in order, and
what the receive loops of the test programs do with it: they ask for the packet with the first
timestamp until there is none.

* `WellFormed.getWaiting_all` : old packets expire, from the front, and the next one is given
  back if it has the timestamp asked for;
* `WellFormed.drain` : a receive loop gets all packets, in the order of the queue;
* `source_unspecific_retrieval` : both.
-/
import CcRtp.ReceptionRuns
import CcRtp.DuplicatePackets

namespace ReceptionQueue

variable {q q' : ReceptionQueue} {l : List ℕ} {a : ℕ}

/-- A queue whose lists are in order.  No link is at an address that has never been used. -/
structure WellFormed (q : ReceptionQueue) (l : List ℕ) : Prop extends Represents q l where
  below : ∀ a, (q.links.packet a).isSome = true → a < q.fresh

theorem wellFormed_iff : WellFormed q l ↔ Passing q none l := by
  constructor
  · intro h
    refine ⟨⟨h.global.nodup, h.live, h.global.piece⟩, fun s => ?_, fun _ => stale_none q, h.below⟩
    exact ⟨(h.source s).nodup, fun a ha => (List.mem_filter.mp ha).2, (h.source s).piece⟩
  · exact fun h => ⟨h.represents, h.sources.below⟩

theorem WellFormed.packetsOf_eq (h : WellFormed q l) (s : ℕ) :
    q.packetsOf s = l.filter (q.links.ofSource s) :=
  (wellFormed_iff.mp h).sources.packetsOf_eq s

/-- Packets that are received in order leave a queue whose lists are in order. -/
theorem wellFormed_received (isMine : ℕ → Bool) (packets : List WaitingPacket)
    (hkeeps : AlongRun (partialStep received)
      (fun q n => ∀ t ∈ q, t.KeepsLists (.insertRecvPacket n)) (some (new isMine)) packets) :
    ∃ q, packets.foldl (partialStep received) (some (new isMine)) = some q ∧
    WellFormed q q.packets := by
  have hstep : ∀ (q : Option ReceptionQueue) (n : WaitingPacket),
      (∃ t, q = some t ∧ ∃ l, Passing t none l) → (∀ t ∈ q, t.KeepsLists (.insertRecvPacket n)) →
      ∃ t, partialStep received q n = some t ∧ ∃ l, Passing t none l := by
    rintro _ n ⟨t, rfl, l, hl⟩ hk
    obtain ⟨stored, q', l', hq', hl', -⟩ := hl.insertRecvPacket (hk t rfl)
    exact ⟨q', Option.map_eq_some_iff.mpr ⟨_, hq', rfl⟩, l', hl'⟩
  obtain ⟨q, hq, l, hl⟩ := foldl_of_invariant hstep ⟨_, rfl, [], passing_new isMine⟩ hkeeps
  refine ⟨q, hq, ?_⟩
  rw [hl.packets_eq]
  exact wellFormed_iff.mpr hl

/-- The lists are the old ones without the packets that expire and the one that is given back,
and in order. -/
structure Leaves (q : ReceptionQueue) (l : List ℕ) (r : Retrieval) : Prop where
  wellFormed : WellFormed r.queue (l.filter (fun a => a ∉ r.expired ++ r.result.toList))
  packetsOf : ∀ s, r.queue.packetsOf s
    = (q.packetsOf s).filter (fun a => a ∉ r.expired ++ r.result.toList)
  packet : ∀ a ∉ r.expired, r.queue.links.packet a = q.links.packet a

/-- The lists of the sources follow. -/
theorem WellFormed.leaves (h : WellFormed q l) {r : Retrieval}
    (hr : WellFormed r.queue (l.filter (fun a => a ∉ r.expired ++ r.result.toList)))
    (hpacket : ∀ a ∉ r.expired, r.queue.links.packet a = q.links.packet a) : Leaves q l r where
  wellFormed := hr
  packetsOf := by
    intro s
    rw [hr.packetsOf_eq, h.packetsOf_eq]
    refine (List.filter_congr (fun a ha => ?_)).trans (List.filter_comm ..)
    have hnot : a ∉ r.expired ++ r.result.toList := by simpa using (List.mem_filter.mp ha).2
    exact PacketLinks.ofSource_congr (hpacket a (fun hexp => hnot (List.mem_append_left _ hexp)))
  packet := hpacket

/-- A packet that is not old has the timestamp asked for if it has no higher one. -/
theorem le_iff_of_not_isOld {h : PacketLinks} {timestamp : BitVec 32} {delayed : ℕ → Bool}
    (hlive : (h.packet a).isSome = true) (hold : ¬ isOld h timestamp delayed a = true) :
    timestamp ≥ h.timestampOf a ↔ h.timestampOf a = timestamp := by
  obtain ⟨n, hn⟩ := Option.isSome_iff_exists.mp hlive
  have hstamp : h.timestampOf a = n.timestamp := by
    rw [PacketLinks.timestampOf, hn]
    rfl
  have hge : ¬ n.timestamp < timestamp := by
    intro hlt
    apply hold
    rw [isOld, hn, Option.any_some, decide_eq_true hlt, Bool.true_or]
  rw [hstamp]
  exact ⟨fun hle => BitVec.le_antisymm hle (BitVec.not_lt.mp hge),
    fun heq => heq ▸ BitVec.le_refl _⟩

/-- **A query for any source**: old packets expire, from the front, and the next packet is given
back if it has the timestamp asked for. -/
theorem WellFormed.getWaiting_all (h : WellFormed q l) (timestamp : BitVec 32)
    (delayed : ℕ → Bool) :
    ∃ r, q.getWaiting timestamp none delayed = some r ∧
      r.expired = l.takeWhile (isOld q.links timestamp delayed) ∧
      r.result = (l.dropWhile (isOld q.links timestamp delayed)).head?.filter
        (fun a => q.links.timestampOf a = timestamp) ∧ Leaves q l r := by
  obtain ⟨r, l', hr, hexpired, hresult, hl, hpass, hpacket⟩ :=
    (wellFormed_iff.mp h).getWaitingOfAll timestamp delayed
  refine ⟨r, hr, hexpired, ?_, h.leaves ?_ hpacket⟩
  · rw [hresult]
    cases hhead : (l.dropWhile (isOld q.links timestamp delayed)).head? with
    | none => rfl
    | some a =>
        have hmem : a ∈ l := (List.dropWhile_sublist _).subset (List.mem_of_mem_head? hhead)
        have hold := List.head?_dropWhile_not (isOld q.links timestamp delayed) l
        rw [hhead] at hold
        rw [Option.filter_some, Option.filter_some]
        exact if_congr (by
          simpa using le_iff_of_not_isOld (h.live a hmem) (by simpa using hold)) rfl rfl
  · have hnodup := h.global.nodup
    rw [hl, ← List.append_assoc] at hnodup ⊢
    rw [filter_notMem_append hnodup]
    exact wellFormed_iff.mpr hpass

/-! ## Receive loops -/

/-- `getFirstTimestamp(src)` -/
def getFirstTimestamp (q : ReceptionQueue) (src : Option ℕ) : Option (BitVec 32) :=
  let packetLink :=
    match src with
    | none => q.recvFirst
    | some s => if q.isMine s then (q.sources s).first else none
  match packetLink with
  | none => some 0
  | some a => (q.links.packet a).map WaitingPacket.timestamp

/-- `while ((adu = getData(getFirstTimestamp())))`, for at most so many rounds: the packets
given back, those that expire, and what is left. -/
def drain (delayed : ℕ → Bool) : ℕ → ReceptionQueue → Option (List ℕ × List ℕ × ReceptionQueue)
  | 0, _ => none
  | rounds + 1, q =>
      (q.getFirstTimestamp none).bind (fun stamp =>
        (q.getData stamp none delayed).bind (fun r =>
          match r.result with
          | none => some ([], r.expired, r.queue)
          | some a => (drain delayed rounds r.queue).map (fun d =>
              (a :: d.1, r.expired ++ d.2.1, d.2.2))))

/-- A round of the loop gives back the first packet. -/
theorem WellFormed.getData_first (h : WellFormed q (a :: l)) :
    ∃ stamp q', q.getFirstTimestamp none = some stamp ∧
      q.getData stamp none (fun _ => false) = some ⟨some a, [], q'⟩ ∧ WellFormed q' l := by
  obtain ⟨n, hn⟩ := Option.isSome_iff_exists.mp (h.live a List.mem_cons_self)
  have hstamp : q.links.timestampOf a = n.timestamp := by
    rw [PacketLinks.timestampOf, hn]
    rfl
  have hold : ¬ isOld q.links n.timestamp (fun _ => false) a = true := by
    rw [isOld, hn, Option.any_some, decide_eq_false (BitVec.lt_irrefl _)]
    exact Bool.false_ne_true
  obtain ⟨r, hr, hexpired, hresult, hleaves⟩ := h.getWaiting_all n.timestamp (fun _ => false)
  rw [List.takeWhile_cons_of_neg hold] at hexpired
  rw [List.dropWhile_cons_of_neg hold, List.head?_cons, Option.filter_some, hstamp,
    if_pos (decide_eq_true rfl)] at hresult
  have hnot := (List.nodup_cons.mp h.global.nodup).1
  have hleft : (a :: l).filter (fun b => b ∉ r.expired ++ r.result.toList) = l := by
    rw [hexpired, hresult]
    exact filter_notMem_append (O := [a]) h.global.nodup
  have hpass := hleaves.wellFormed
  rw [hleft] at hpass
  refine ⟨n.timestamp, r.queue.deleteLink a, ?_, ?_,
    wellFormed_iff.mpr ((wellFormed_iff.mp hpass).deleteLink hnot)⟩
  · rw [getFirstTimestamp, h.global.first_eq]
    exact congrArg (Option.map WaitingPacket.timestamp) hn
  · rw [getData, hr, Option.map_some, hresult, hexpired]
    rfl

/-- **A receive loop** gets all packets, each once and in the order of the queue. -/
theorem WellFormed.drain (l : List ℕ) : ∀ {q : ReceptionQueue} {rounds : ℕ}, WellFormed q l →
    l.length < rounds →
    ∃ q', drain (fun _ => false) rounds q = some (l, [], q') ∧ WellFormed q' [] := by
  induction l with
  | nil =>
      intro q rounds h hlt
      obtain ⟨r, hr, hexpired, hresult, hleaves⟩ := h.getWaiting_all 0 (fun _ => false)
      refine ⟨r.queue, ?_, hleaves.wellFormed⟩
      rw [List.takeWhile_nil] at hexpired
      rw [List.dropWhile_nil, List.head?_nil, Option.filter_none] at hresult
      have hstamp : q.getFirstTimestamp none = some 0 := by
        rw [getFirstTimestamp, h.global.first_eq]
        rfl
      cases rounds with
      | zero => cases hlt
      | succ rounds =>
          rw [ReceptionQueue.drain, hstamp, Option.bind_some, getData, hr, Option.map_some,
            Option.bind_some, hresult, hexpired]
          rfl
  | cons a l ih =>
      intro q rounds h hlt
      obtain ⟨stamp, q₁, hstamp, hdata, h₁⟩ := h.getData_first
      cases rounds with
      | zero => cases hlt
      | succ rounds =>
          obtain ⟨q', hq', h'⟩ := ih h₁ (Nat.lt_of_succ_lt_succ hlt)
          refine ⟨q', ?_, h'⟩
          rw [ReceptionQueue.drain, hstamp, Option.bind_some, hdata, Option.bind_some]
          dsimp only
          rw [hq']
          rfl

end ReceptionQueue

open ReceptionQueue

/-- **Source unspecific retrieval.**  On every queue whose lists are in order, old packets expire
from the front and no others, the next packet is given back exactly if it has the timestamp asked
for, and the lists without these packets are in order.  So a receive loop gets all packets in the
order of the queue, and lets none expire. -/
theorem source_unspecific_retrieval {q : ReceptionQueue} {l : List ℕ} (h : WellFormed q l) :
    (∀ (timestamp : BitVec 32) (delayed : ℕ → Bool),
      ∃ r, q.getWaiting timestamp none delayed = some r ∧
        r.expired = l.takeWhile (isOld q.links timestamp delayed) ∧
        r.result = (l.dropWhile (isOld q.links timestamp delayed)).head?.filter
          (fun a => q.links.timestampOf a = timestamp) ∧ Leaves q l r) ∧
      ∀ rounds > l.length, ∃ q', drain (fun _ => false) rounds q = some (l, [], q') ∧
        WellFormed q' [] :=
  ⟨h.getWaiting_all, fun _ hlt => WellFormed.drain l h hlt⟩

/-- A queue with packets of two sources. -/
theorem source_unspecific_retrieval_two_sources :
    ∃ q, WellFormed q [0, 1] ∧ (∃ r, q.getWaiting 160 none (fun _ => false) = some r ∧
      r.expired = [0] ∧ r.result = some 1 ∧ Leaves q [0, 1] r) ∧
      ∃ q', drain (fun _ => false) 3 q = some ([0, 1], [], q') ∧ WellFormed q' [] := by
  have hrun : ([⟨7, 0, 0⟩, ⟨1, 160, 1⟩].foldl (partialStep received)
      (some (.new (fun _ => true)))).any (fun q => decide (q.packets = [0, 1]) &&
        decide ([0, 1].takeWhile (isOld q.links 160 (fun _ => false)) = [0]) &&
        decide (([0, 1].dropWhile (isOld q.links 160 (fun _ => false))).head?.filter
          (fun a => q.links.timestampOf a = 160) = some 1)) = true := by
    decide
  obtain ⟨q, hq, h⟩ := wellFormed_received (fun _ => true) [⟨7, 0, 0⟩, ⟨1, 160, 1⟩] (by decide)
  rw [hq, Option.any_some, Bool.and_eq_true, Bool.and_eq_true, decide_eq_true_iff,
    decide_eq_true_iff, decide_eq_true_iff] at hrun
  obtain ⟨⟨hpackets, hexpired⟩, hresult⟩ := hrun
  rw [hpackets] at h
  obtain ⟨r, hr, hexpired', hresult', hleaves⟩ :=
    (source_unspecific_retrieval h).1 160 (fun _ => false)
  exact ⟨q, h, ⟨r, hr, hexpired'.trans hexpired, hresult'.trans hresult, hleaves⟩,
    (source_unspecific_retrieval h).2 3 (by decide)⟩
