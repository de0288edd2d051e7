/-
# Duplicates in the reception queue

Packets are received with `insertRecvPacket` and none is asked for.  A packet whose number is
already queued for its source should be ignored, wherever in the queue that number is.

The loop that looks for the place of a disordered packet compares the numbers for equality only
while the packet's is the lower one, so there it never finds them the same.  Outside the loop
the number of the last packet alone is looked at.

* `insertRecvPacket_ignores_iff` : which packets are ignored;
* `Received.distinctNumbers_iff` : when the numbers of the sources stay distinct;
* `duplicates_ignored_iff` : both, in every state that is reached.
-/
import CcRtp.AlongRun
import CcRtp.ReceptionLists

namespace ReceptionQueue

variable {q q' : ReceptionQueue} {s : ℕ} {n : WaitingPacket} {l : List ℕ}
  {befores : ℕ → Option ℕ} {S : ℕ → List ℕ}

/-- A packet is received, whether it is inserted or not. -/
def received (q : ReceptionQueue) (n : WaitingPacket) : Option ReceptionQueue :=
  (q.insertRecvPacket n).map Prod.snd

/-- The sequence numbers in the queue of a source. -/
def numbersOf (q : ReceptionQueue) (s : ℕ) : List (BitVec 16) :=
  (q.packetsOf s).map q.links.seqOf

/-- No two packets of one source have the same number. -/
def DistinctNumbers (q : ReceptionQueue) : Prop := ∀ s, (q.numbersOf s).Nodup

/-- All that is queued, globally and by source, and all pointers of it. -/
structure SameQueues (q q' : ReceptionQueue) : Prop where
  recvFirst : q'.recvFirst = q.recvFirst
  recvLast : q'.recvLast = q.recvLast
  sources : q'.sources = q.sources
  packet : q'.links.packet = q.links.packet
  next : ∀ a, (q.links.packet a).isSome = true → q'.links.next a = q.links.next a
  prev : ∀ a, (q.links.packet a).isSome = true → q'.links.prev a = q.links.prev a
  srcNext : ∀ a, (q.links.packet a).isSome = true → q'.links.srcNext a = q.links.srcNext a
  srcPrev : ∀ a, (q.links.packet a).isSome = true → q'.links.srcPrev a = q.links.srcPrev a

/-- The packet is ignored exactly if its number is queued for its source. -/
def IgnoresDuplicate (q : ReceptionQueue) (n : WaitingPacket) : Prop :=
  (∃ q', q.insertRecvPacket n = some (false, q') ∧ SameQueues q q') ↔
    n.seqNum ∈ q.numbersOf n.sourceLink

/-- If the number is queued for the source, it is that of its last packet. -/
def LastIfQueued (q : ReceptionQueue) (n : WaitingPacket) : Prop :=
  n.seqNum ∈ q.numbersOf n.sourceLink → n.seqNum ∈ (q.numbersOf n.sourceLink).getLast?

/-- A new link that is deleted again. -/
theorem sameQueues_newLink_deleteLink (h : SourcesLinked q befores S) (n : WaitingPacket) :
    SameQueues q ((q.newLink n).deleteLink q.fresh) := by
  have hne : ∀ a, (q.links.packet a).isSome = true → a ≠ q.fresh := fun a ha => (h.below a ha).ne
  refine ⟨rfl, rfl, rfl, ?_, ?_, ?_, ?_, ?_⟩
  · funext a
    by_cases ha : a = q.fresh
    · subst ha
      have hnone : q.links.packet q.fresh = none := by
        cases hp : q.links.packet q.fresh with
        | none => rfl
        | some m => exact absurd rfl (hne q.fresh (by rw [hp]; rfl))
      rw [hnone]
      exact Function.update_self ..
    · exact (Function.update_of_ne ha ..).trans (Function.update_of_ne ha ..)
  · exact fun a ha => Function.update_of_ne (hne a ha) ..
  · exact fun a ha => Function.update_of_ne (hne a ha) ..
  · exact fun a ha => Function.update_of_ne (hne a ha) ..
  · exact fun a ha => Function.update_of_ne (hne a ha) ..

theorem seqOf_congr {h h' : PacketLinks} {a : ℕ} (hpacket : h'.packet a = h.packet a) :
    h'.seqOf a = h.seqOf a := by
  rw [PacketLinks.seqOf, PacketLinks.seqOf, hpacket]

theorem placed_perm (P : ℕ → Bool) (link : ℕ) (l : List ℕ) :
    (placed P link l).Perm (link :: l) := by
  have hsplit : l.rdropWhile P ++ l.rtakeWhile P = l := List.rdropWhile_append_rtakeWhile
  rw [placed]
  conv_rhs => rw [← hsplit]
  exact List.perm_middle

theorem SourcesLinked.numbersOf_eq (h : SourcesLinked q befores S) (s : ℕ) :
    q.numbersOf s = (S s).map q.links.seqOf := by
  rw [numbersOf, h.packetsOf_eq]

/-- Of the packets in a queue, the numbers are as before. -/
theorem OnlySource.map_seqOf (honly : OnlySource s q q')
    (hlive : ∀ a ∈ l, (q'.links.packet a).isSome = true) :
    l.map q'.links.seqOf = l.map q.links.seqOf := by
  apply List.map_congr_left
  intro a ha
  exact seqOf_congr (honly.packet_of_isSome (hlive a ha))

theorem SourcesLinked.map_seqOf_newLink (h : SourcesLinked q befores S) (s : ℕ) :
    (S s).map (q.newLink n).links.seqOf = (S s).map q.links.seqOf := by
  apply List.map_congr_left
  intro a ha
  apply seqOf_congr
  refine Function.update_of_ne ?_ ..
  rintro rfl
  exact h.notMem_fresh s ha

/-- The numbers behind a packet that is inserted. -/
theorem SourcesLinked.numbersOf_insertRecvPacket (h : SourcesLinked q befores S)
    (hq : q.insertRecvPacket n = some (true, q')) :
    (q'.numbersOf n.sourceLink).Perm (n.seqNum :: q.numbersOf n.sourceLink) ∧
      ∀ s ≠ n.sourceLink, q'.numbersOf s = q.numbersOf s := by
  obtain ⟨honly, before, -, hsrc⟩ := h.insertRecvPacket hq
  have hmap : ∀ s, q'.numbersOf s = (Function.update S n.sourceLink (placed
      ((q.newLink n).links.higher n.seqNum) q.fresh (S n.sourceLink)) s).map
        (q.newLink n).links.seqOf := by
    intro s
    rw [hsrc.numbersOf_eq]
    exact honly.map_seqOf
      (fun a ha => PacketLinks.isSome_of_ofSource ((hsrc.linked s).ofSource a ha))
  constructor
  · have hpacket : (q.newLink n).links.packet q.fresh = some n := Function.update_self ..
    have hnew : (q.newLink n).links.seqOf q.fresh = n.seqNum := by
      rw [PacketLinks.seqOf, hpacket]
      rfl
    rw [hmap, Function.update_self, h.numbersOf_eq, ← h.map_seqOf_newLink (n := n), ← hnew,
      ← List.map_cons]
    exact (placed_perm ..).map _
  · intro s hs
    rw [hmap, Function.update_of_ne hs, h.numbersOf_eq, h.map_seqOf_newLink]

/-- The last packet of a source and its number. -/
theorem SourcesLinked.getLast?_numbersOf (h : SourcesLinked q befores S) (s : ℕ) :
    (q.numbersOf s).getLast? = (S s).getLast?.map q.links.seqOf := by
  rw [h.numbersOf_eq, List.getLast?_map]

/-! ## One packet -/

/-- The pointers that packets are inserted by. -/
def Received (q : ReceptionQueue) : Prop := ∃ l, Listed q l ∧ (q.recvFirst = none ↔ l = [])

theorem received_new (isMine : ℕ → Bool) : Received (new isMine) :=
  ⟨[], ⟨⟨List.nodup_nil, fun _ ha => absurd ha List.not_mem_nil, piece_nil.mpr ⟨rfl, rfl⟩⟩,
    sourcesLinked_new isMine⟩, iff_of_true rfl rfl⟩

/-- **A call returns.** -/
theorem Received.insertRecvPacket (h : Received q) (n : WaitingPacket) :
    ∃ stored q', q.insertRecvPacket n = some (stored, q') ∧ Received q' := by
  obtain ⟨l, hl, hfirst⟩ := h
  rcases hl.insertRecvPacket hfirst n with
    ⟨q', hq', hl', hfirst'⟩ | ⟨q', l₁, l₂, hq', rfl, hl', hfirst', -, -⟩
  · exact ⟨false, q', hq', l, hl', by rw [hfirst', hfirst]⟩
  · refine ⟨true, q', hq', _, hl', iff_of_false ?_ (by simp)⟩
    rw [hfirst']
    by_cases hnil : l₁ ++ l₂ = []
    · rw [if_pos hnil]
      exact Option.some_ne_none q.fresh
    · rw [if_neg hnil]
      exact fun hnone => hnil (hfirst.mp hnone)

/-- If the last packet of its source has its number, a packet is not inserted. -/
theorem SourcesLinked.insertRecvPacket_last (h : SourcesLinked q befores S) {stored : Bool}
    (hq : q.insertRecvPacket n = some (stored, q'))
    (hlast : n.seqNum ∈ (q.numbersOf n.sourceLink).getLast?) : stored = false := by
  rw [h.getLast?_numbersOf, Option.mem_def, Option.map_eq_some_iff] at hlast
  obtain ⟨last, hget, hseq⟩ := hlast
  have hmem : last ∈ S n.sourceLink := List.mem_of_getLast? hget
  have hend : ((q.newLink n).sources n.sourceLink).last = some last := by
    have hor := (h.linked n.sourceLink).piece.last_eq_or
    rw [hget] at hor
    exact hor
  have hpacket : (q.newLink n).links.packet last = q.links.packet last := by
    refine Function.update_of_ne ?_ ..
    rintro rfl
    exact h.notMem_fresh _ hmem
  obtain ⟨m, hm⟩ := Option.isSome_iff_exists.mp
    (PacketLinks.isSome_of_ofSource ((h.linked n.sourceLink).ofSource last hmem))
  have heq : n.seqNum = m.seqNum := by
    rw [← hseq, PacketLinks.seqOf, hm]
    rfl
  rw [ReceptionQueue.insertRecvPacket, hend] at hq
  dsimp only at hq
  rw [insertBehind, hpacket, hm, Option.bind_some, if_neg (by rw [heq]; exact BitVec.lt_irrefl _),
    if_pos heq] at hq
  cases hq
  rfl

/-- **Which packets are ignored**: those with the number of the last packet of their source. -/
theorem insertRecvPacket_ignores_iff (h : Received q) (n : WaitingPacket) :
    (∃ q', q.insertRecvPacket n = some (false, q') ∧ SameQueues q q') ↔
      n.seqNum ∈ (q.numbersOf n.sourceLink).getLast? := by
  obtain ⟨l, hl, hfirst⟩ := h
  constructor
  · rintro ⟨q', hq', -⟩
    obtain ⟨-, ⟨last, hlast, hseq⟩, -⟩ := hl.sources.insertRecvPacket_false hq'
    rw [hl.sources.getLast?_numbersOf, Option.mem_def.mp hlast, Option.map_some, hseq]
    rfl
  · intro hlast
    obtain ⟨stored, q', hq', -⟩ := Received.insertRecvPacket ⟨l, hl, hfirst⟩ n
    obtain rfl := hl.sources.insertRecvPacket_last hq' hlast
    obtain ⟨rfl, -⟩ := hl.sources.insertRecvPacket_false hq'
    exact ⟨_, hq', sameQueues_newLink_deleteLink hl.sources n⟩

theorem ignoresDuplicate_iff (h : Received q) (n : WaitingPacket) :
    IgnoresDuplicate q n ↔ LastIfQueued q n := by
  rw [IgnoresDuplicate, insertRecvPacket_ignores_iff h, LastIfQueued]
  exact ⟨Iff.mpr, fun hlast => ⟨List.mem_of_getLast?, hlast⟩⟩

/-- **One step**: distinct numbers stay distinct if duplicates are ignored. -/
theorem Received.distinctNumbers_iff (h : Received q) (n : WaitingPacket) :
    ∃ q', received q n = some q' ∧ Received q' ∧
      (DistinctNumbers q' ↔ DistinctNumbers q ∧ LastIfQueued q n) := by
  obtain ⟨stored, q', hq', hr'⟩ := h.insertRecvPacket n
  have hignores := insertRecvPacket_ignores_iff h n
  refine ⟨q', Option.map_eq_some_iff.mpr ⟨_, hq', rfl⟩, hr', ?_⟩
  obtain ⟨l, hl, -⟩ := h
  cases stored with
  | false =>
      obtain ⟨rfl, -, hsrc⟩ := hl.sources.insertRecvPacket_false hq'
      have hsame := sameQueues_newLink_deleteLink hl.sources n
      have hnumbers : ∀ s, ((q.newLink n).deleteLink q.fresh).numbersOf s = q.numbersOf s := by
        intro s
        rw [hsrc.numbersOf_eq, hl.sources.numbersOf_eq]
        exact List.map_congr_left (fun a _ => seqOf_congr (congrFun hsame.packet a))
      have hlast : LastIfQueued q n := fun _ => hignores.mp ⟨_, hq', hsame⟩
      rw [DistinctNumbers, DistinctNumbers, and_iff_left hlast]
      exact forall_congr' (fun s => by rw [hnumbers])
  | true =>
      obtain ⟨hperm, hother⟩ := hl.sources.numbersOf_insertRecvPacket hq'
      have hnotLast : n.seqNum ∉ (q.numbersOf n.sourceLink).getLast? := by
        intro hlast
        obtain ⟨_, hfalse, -⟩ := hignores.mpr hlast
        rw [hq'] at hfalse
        cases hfalse
      have hiff : LastIfQueued q n ↔ n.seqNum ∉ q.numbersOf n.sourceLink :=
        ⟨fun hlast hmem => hnotLast (hlast hmem), fun hnot hmem => absurd hmem hnot⟩
      rw [hiff]
      constructor
      · intro hdistinct
        have hcons := hperm.nodup_iff.mp (hdistinct n.sourceLink)
        refine ⟨fun s => ?_, (List.nodup_cons.mp hcons).1⟩
        by_cases hs : s = n.sourceLink
        · rw [hs]
          exact (List.nodup_cons.mp hcons).2
        · rw [← hother s hs]
          exact hdistinct s
      · rintro ⟨hdistinct, hnot⟩ s
        by_cases hs : s = n.sourceLink
        · rw [hs]
          exact hperm.nodup_iff.mpr (List.nodup_cons.mpr ⟨hnot, hdistinct n.sourceLink⟩)
        · rw [hother s hs]
          exact hdistinct s

/-! ## Runs -/

/-- The numbers stay distinct exactly as long as duplicates are ignored. -/
theorem Received.foldl (packets : List WaitingPacket) : ∀ {q : ReceptionQueue}, Received q →
    ∃ q', packets.foldl (partialStep received) (some q) = some q' ∧ Received q' ∧
      (DistinctNumbers q' ↔ DistinctNumbers q ∧
        AlongRun (partialStep received) (fun q n => ∀ t ∈ q, LastIfQueued t n)
          (some q) packets) := by
  induction packets with
  | nil =>
      intro q h
      exact ⟨q, rfl, h, (and_iff_left trivial).symm⟩
  | cons n packets ih =>
      intro q h
      obtain ⟨q₁, hq₁, h₁, hdistinct₁⟩ := h.distinctNumbers_iff n
      have hstep : partialStep received (some q) n = some q₁ := hq₁
      obtain ⟨q', hq', h', hdistinct'⟩ := ih h₁
      refine ⟨q', ?_, h', ?_⟩
      · rw [List.foldl_cons, hstep, hq']
      · have hhead : (∀ t ∈ some q, LastIfQueued t n) ↔ LastIfQueued q n := by simp
        rw [hdistinct', hdistinct₁, AlongRun, hstep, hhead, and_assoc]

end ReceptionQueue

open ReceptionQueue

/-- **Duplicates in the reception queue.**  Whatever has been received, the call does with a packet
what it should, if and only if a number that is queued already is that of the last packet of the
source.  No two packets of a source have the same number, if and only if this was so of all
packets received. -/
theorem duplicates_ignored_iff (isMine : ℕ → Bool) (packets : List WaitingPacket) :
    ∃ q, packets.foldl (partialStep received) (some (.new isMine)) = some q ∧
      (∀ n, IgnoresDuplicate q n ↔ LastIfQueued q n) ∧
      (DistinctNumbers q ↔ AlongRun (partialStep received)
        (fun q n => ∀ t ∈ q, LastIfQueued t n) (some (.new isMine)) packets) := by
  obtain ⟨q, hq, h, hdistinct⟩ := (received_new isMine).foldl packets
  refine ⟨q, hq, ignoresDuplicate_iff h, hdistinct.trans (and_iff_right (fun s => ?_))⟩
  rw [(sourcesLinked_new isMine).numbersOf_eq]
  exact List.nodup_nil

/-- Number 5 comes again behind 7, and is queued twice. -/
theorem duplicates_ignored_not_behind :
    ∃ q, [⟨5, 0, 0⟩, ⟨7, 320, 0⟩].foldl (partialStep received) (some (.new (fun _ => true))) =
      some q ∧
      ¬ IgnoresDuplicate q ⟨5, 0, 0⟩ ∧ ∃ q', received q ⟨5, 0, 0⟩ = some q' ∧
      ¬ DistinctNumbers q' := by
  have hrun : ([⟨5, 0, 0⟩, ⟨7, 320, 0⟩].foldl (partialStep received)
      (some (.new (fun _ => true)))).any (fun q => decide (5 ∈ q.numbersOf 0) &&
        (q.insertRecvPacket ⟨5, 0, 0⟩).any (fun r => r.1 && !decide (r.2.numbersOf 0).Nodup)) =
        true := by
    decide
  obtain ⟨q, hq, h, -⟩ := (received_new (fun _ => true)).foldl [⟨5, 0, 0⟩, ⟨7, 320, 0⟩]
  obtain ⟨stored, q', hq', -⟩ := h.insertRecvPacket ⟨5, 0, 0⟩
  rw [hq, Option.any_some, hq', Option.any_some, Bool.and_eq_true, Bool.and_eq_true,
    decide_eq_true_iff, Bool.not_eq_true', decide_eq_false_iff_not] at hrun
  obtain ⟨hmem, hstored, hnodup⟩ := hrun
  obtain rfl : stored = true := hstored
  refine ⟨q, hq, fun hiff => ?_, q', Option.map_eq_some_iff.mpr ⟨_, hq', rfl⟩,
    fun h => hnodup (h 0)⟩
  obtain ⟨_, hfalse, -⟩ := hiff.mpr hmem
  rw [hq'] at hfalse
  cases hfalse
