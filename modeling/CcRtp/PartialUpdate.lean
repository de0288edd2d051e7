/-
# Partial update of a queued packet

`setPartial` (`src/outqueue.cpp`) overwrites part of the payload of a packet that is waiting in
the sending queue.  It looks for the packet by its stamp, but compares with the timestamps in the
packets, which have been moved by the initial timestamp; and one of its four exits keeps the send
lock.

* `payload_overwritePayload` : the payload that is left;
* `Lists.setPartial_eq` : the packet that is met, and what is done to it;
* `partial_update_iff` : when it is the packet that was put into the queue with that stamp, and
  the lock is released.
-/
import CcRtp.SendingQueue

/-! ## One packet -/

namespace RTPPacket

variable {p : RTPPacket} {offset : ℕ} {octets : Octets}

/-- `memcpy` to `getPayload() + offset` -/
def overwritePayload (p : RTPPacket) (offset : ℕ) (octets : Octets) : RTPPacket :=
  p.setbuffer octets (p.hdrSize.toNat + offset)

/-- The octets that there is room for, at most `max` of them. -/
def partialOctets (p : RTPPacket) (data : ℕ → UInt8) (offset max : ℕ) : Octets :=
  (List.range (min max (p.payloadSize.toNat - offset))).map data

/-- The number of octets set, and the packet afterwards. -/
def updatePayload (p : RTPPacket) (data : ℕ → UInt8) (offset max : ℕ) : ℕ × RTPPacket :=
  if offset < p.payloadSize.toNat then
    (min max (p.payloadSize.toNat - offset),
      p.overwritePayload offset (p.partialOctets data offset max))
  else (0, p)

/-- **The payload that is left**, in a packet that lies in its memory: some of its octets are
overwritten. -/
theorem payload_overwritePayload
    (hmemory : p.hdrSize.toNat + p.payloadSize.toNat ≤ p.buffer.length)
    (hinside : offset + octets.length ≤ p.payloadSize.toNat) :
    (p.overwritePayload offset octets).payload = writeAt p.payload offset octets := by
  obtain ⟨front, rest, hfront, hbuffer⟩ : ∃ front rest, front.length = p.hdrSize.toNat ∧
      p.buffer = front ++ p.payload ++ rest := by
    refine ⟨p.buffer.take p.hdrSize.toNat,
      p.buffer.drop (p.hdrSize.toNat + p.payloadSize.toNat), ?_, ?_⟩
    · rw [List.length_take]
      omega
    · rw [payload, slice, List.append_assoc, ← List.drop_drop, List.take_append_drop,
        List.take_append_drop]
  have hlen : p.payload.length = p.payloadSize.toNat := by
    rw [payload, slice, List.length_take, List.length_drop]
    omega
  obtain ⟨before, middle, behind, hpayload, hbefore, hmiddle⟩ : ∃ before middle behind,
      p.payload = before ++ middle ++ behind ∧ offset = before.length ∧
        octets.length = middle.length := by
    refine ⟨p.payload.take offset, (p.payload.drop offset).take octets.length,
      p.payload.drop (offset + octets.length), ?_, ?_, ?_⟩
    · rw [List.append_assoc, ← List.drop_drop, List.take_append_drop, List.take_append_drop]
    · rw [List.length_take]
      omega
    · rw [List.length_take, List.length_drop]
      omega
  have hwrite : writeAt p.buffer (p.hdrSize.toNat + offset) octets
      = front ++ (before ++ octets ++ behind) ++ rest := by
    have hsplit : p.buffer = (front ++ before) ++ middle ++ (behind ++ rest) := by
      rw [hbuffer, hpayload]
      simp only [List.append_assoc]
    rw [writeAt_eq _ _ octets _ hsplit (by rw [List.length_append, hfront, hbefore]) hmiddle]
    simp only [List.append_assoc]
  show slice (writeAt p.buffer (p.hdrSize.toNat + offset) octets) p.hdrSize.toNat
    p.payloadSize.toNat = _
  rw [hwrite, slice_append_mid _ _ _ hfront.symm, hpayload]
  · exact (writeAt_append_mid _ _ _ _ hbefore hmiddle).symm
  · rw [← hlen, hpayload]
    simp only [List.length_append, hmiddle]

/-- Without octets nothing is written. -/
theorem overwritePayload_nil (p : RTPPacket) (offset : ℕ) : p.overwritePayload offset [] = p := by
  rw [overwritePayload, setbuffer, writeAt, List.append_nil, List.length_nil, Nat.add_zero,
    List.take_append_drop]

/-- None are written with a maximum of zero. -/
theorem updatePayload_zero (p : RTPPacket) (data : ℕ → UInt8) (offset : ℕ) :
    p.updatePayload data offset 0 = (0, p) := by
  unfold updatePayload partialOctets
  rw [Nat.zero_min, List.range_zero, List.map_nil, overwritePayload_nil, ite_self]

end RTPPacket

/-! ## The functions of the source -/

namespace SendingQueue

/-- The loop of `setPartial`: the link that it stops at. -/
def partialLoop (q : SendingQueue) (stamp : BitVec 32) : ℕ → Option ℕ → Option (Option ℕ)
  | _, none => some none
  | 0, some _ => none
  | rounds + 1, some a =>
      (q.links a).bind (fun link =>
        let pstamp := link.packet.cachedTimestamp
        if pstamp > stamp then some none
        else if pstamp ≥ stamp then some (some a)
        else partialLoop q stamp rounds link.next)

/-- The `memcpy` into the packet of a link. -/
def copyPartial (q : SendingQueue) (a offset : ℕ) (octets : Octets) : Option SendingQueue :=
  (q.links.modify a (fun link => ⟨link.packet.overwritePayload offset octets, link.prev,
    link.next⟩)).map (fun links => { q with links := links })

/-- `setPartial(stamp, data, offset, max)` with the send lock free: what is returned, the queue
afterwards, and whether the lock is held. -/
def setPartial (q : SendingQueue) (stamp : BitVec 32) (data : ℕ → UInt8) (offset max : ℕ) :
    Option (ℕ × SendingQueue × Bool) :=
  (q.partialLoop stamp q.fresh q.sendFirst).bind (fun packetLink =>
    match packetLink with
    | none => some (0, q, false)
    | some a =>
        (q.links a).bind (fun link =>
          let size := link.packet.payloadSize.toNat
          -- this exit does not unlock
          if offset ≥ size then some (0, q, true)
          else
            let max := if max > size - offset then size - offset else max
            (q.copyPartial a offset ((List.range max).map data)).map (fun q => (max, q, false))))

variable {q q' : SendingQueue} {l : List ℕ} {c c' : List OutgoingRTPPkt} {stamp : BitVec 32}
  {data : ℕ → UInt8} {offset max : ℕ} {p : OutgoingRTPPkt}

/-! ## The packet that is met -/

/-- The packet that `setPartial` meets among the packets in the queue, if any: the first one that
is not stamped earlier, if it has the stamp. -/
def metPacket (stamp : BitVec 32) (c : List OutgoingRTPPkt) : Option OutgoingRTPPkt :=
  (c.find? (fun p => stamp ≤ p.cachedTimestamp)).filter (fun p => p.cachedTimestamp = stamp)

/-- It is met in front. -/
theorem metPacket_cons_of_eq (hp : p.cachedTimestamp = stamp) (c : List OutgoingRTPPkt) :
    metPacket stamp (p :: c) = some p := by
  have hle : decide (stamp ≤ p.cachedTimestamp) = true :=
    decide_eq_true (BitVec.le_of_eq hp.symm)
  rw [metPacket, List.find?_cons, hle, Option.filter_some, if_pos (decide_eq_true hp)]

/-- A later one hides the others. -/
theorem metPacket_cons_of_gt (hp : stamp < p.cachedTimestamp) (c : List OutgoingRTPPkt) :
    metPacket stamp (p :: c) = none := by
  have hle : decide (stamp ≤ p.cachedTimestamp) = true := decide_eq_true (BitVec.le_of_lt hp)
  rw [metPacket, List.find?_cons, hle, Option.filter_some,
    if_neg (fun h => BitVec.ne_of_lt hp (of_decide_eq_true h).symm)]

/-- Earlier ones are passed over. -/
theorem metPacket_cons_of_lt (hp : p.cachedTimestamp < stamp) (c : List OutgoingRTPPkt) :
    metPacket stamp (p :: c) = metPacket stamp c := by
  have hnot : decide (stamp ≤ p.cachedTimestamp) = false :=
    decide_eq_false (BitVec.not_le.mpr hp)
  rw [metPacket, List.find?_cons, hnot, metPacket]

/-- **The packet that is met**, with the packets before it. -/
theorem metPacket_append {c₁ : List OutgoingRTPPkt} (h : ∀ p' ∈ c₁, p'.cachedTimestamp < stamp)
    (hp : p.cachedTimestamp = stamp) (c₂ : List OutgoingRTPPkt) :
    metPacket stamp (c₁ ++ p :: c₂) = some p := by
  induction c₁ with
  | nil => exact metPacket_cons_of_eq hp c₂
  | cons p' c₁ ih =>
      rw [List.cons_append, metPacket_cons_of_lt (h p' List.mem_cons_self)]
      exact ih fun p'' hp'' => h p'' (List.mem_cons_of_mem p' hp'')

/-- **The loop** stops at the link of the packet that is met. -/
theorem partialLoop_eq (q : SendingQueue) (stamp : BitVec 32) (l : List ℕ) :
    ∀ {c : List OutgoingRTPPkt} {first : Option ℕ} {rounds : ℕ},
      Segment (q.links.view OutgoingRTPPktLink.next) first l none →
      l.map (q.links.view OutgoingRTPPktLink.packet) = c.map some → l.length ≤ rounds →
      (metPacket stamp c = none ∧ q.partialLoop stamp rounds first = some none) ∨
        ∃ l₁ a l₂ c₁ p c₂, l = l₁ ++ a :: l₂ ∧ c = c₁ ++ p :: c₂ ∧ l₁.length = c₁.length ∧
          (∀ p' ∈ c₁, p'.cachedTimestamp < stamp) ∧ p.cachedTimestamp = stamp ∧
          q.partialLoop stamp rounds first = some (some a) := by
  induction l with
  | nil =>
      intro c first rounds hlinks hpackets _
      rw [segment_nil] at hlinks
      subst hlinks
      have hnil : c = [] := List.map_eq_nil_iff.mp hpackets.symm
      subst hnil
      refine Or.inl ⟨rfl, ?_⟩
      cases rounds <;> rfl
  | cons a l ih =>
      intro c first rounds hlinks hpackets hle
      obtain ⟨rfl, next, hnext, hrest⟩ := segment_cons.mp hlinks
      obtain ⟨link, hlink, rfl⟩ := Heap.view_eq_some.mp hnext
      cases c with
      | nil => cases hpackets
      | cons p c =>
          obtain ⟨hpacket, hbehind⟩ := List.cons.inj hpackets
          obtain ⟨link', hlink', rfl⟩ := Heap.view_eq_some.mp hpacket
          obtain rfl : link = link' := Option.some.inj (hlink.symm.trans hlink')
          obtain ⟨rounds, rfl⟩ : ∃ n, rounds = n + 1 :=
            Nat.exists_eq_succ_of_ne_zero (by rintro rfl; cases hle)
          rw [partialLoop, hlink, Option.bind_some]
          dsimp only
          by_cases hgt : link.packet.cachedTimestamp > stamp
          · rw [if_pos hgt]
            exact Or.inl ⟨metPacket_cons_of_gt hgt c, rfl⟩
          · rw [if_neg hgt]
            by_cases hge : link.packet.cachedTimestamp ≥ stamp
            · rw [if_pos hge]
              exact Or.inr ⟨[], a, l, [], link.packet, c, rfl, rfl, rfl, nofun,
                BitVec.le_antisymm (BitVec.not_lt.mp hgt) hge, rfl⟩
            · have hlt : link.packet.cachedTimestamp < stamp := BitVec.not_le.mp hge
              rw [if_neg hge, metPacket_cons_of_lt hlt]
              rcases ih hrest hbehind (Nat.le_of_succ_le_succ hle) with
                ⟨hnone, hloop⟩ | ⟨l₁, b, l₂, c₁, p, c₂, rfl, rfl, hlen, hbefore, hp, hloop⟩
              · exact Or.inl ⟨hnone, hloop⟩
              · refine Or.inr ⟨a :: l₁, b, l₂, link.packet :: c₁, p, c₂, rfl, rfl,
                  congrArg (· + 1) hlen, fun p' hp' => ?_, hp, hloop⟩
                rcases List.mem_cons.mp hp' with rfl | hp'
                · exact hlt
                · exact hbefore p' hp'

namespace Lists

/-- A packet is changed in its link. -/
theorem copyPartial {l₁ l₂ : List ℕ} {a : ℕ} {c₁ c₂ : List OutgoingRTPPkt}
    (h : q.Lists (l₁ ++ a :: l₂) (c₁ ++ p :: c₂)) (hlen : l₁.length = c₁.length) (offset : ℕ)
    (octets : Octets) :
    (∃ link, q.links a = some link ∧ link.packet = p) ∧
      ∃ q', q.copyPartial a offset octets = some q' ∧ q' = { q with links := q'.links } ∧
        q'.Lists (l₁ ++ a :: l₂) (c₁ ++ p.overwritePayload offset octets :: c₂) := by
  have hpackets := h.packets
  rw [List.map_append, List.map_append] at hpackets
  obtain ⟨hfront, hback⟩ :=
    List.append_inj hpackets (by rw [List.length_map, List.length_map, hlen])
  rw [List.map_cons, List.map_cons] at hback
  obtain ⟨hpacket, hbehind⟩ := List.cons.inj hback
  obtain ⟨link, hlink, rfl⟩ := Heap.view_eq_some.mp hpacket
  have hnodup := h.linked.nodup
  rw [List.nodup_append, List.nodup_cons] at hnodup
  obtain ⟨-, ⟨ha₂, -⟩, hdisjoint⟩ := hnodup
  have ha₁ : a ∉ l₁ := fun ha => hdisjoint a ha a List.mem_cons_self rfl
  set link' : OutgoingRTPPktLink :=
    ⟨link.packet.overwritePayload offset octets, link.prev, link.next⟩ with hlink'
  refine ⟨⟨link, hlink, rfl⟩, { q with links := q.links.write a link' },
    by rw [SendingQueue.copyPartial, Heap.modify, hlink]; rfl, rfl, ?_⟩
  have hview : ∀ {β : Type} {g : OutgoingRTPPktLink → β}, g link' = g link →
      (q.links.write a link').view g = q.links.view g := fun hg => Heap.view_write_of_eq hlink hg
  refine ⟨?_, ?_, ?_, h.bound⟩
  · show DoublyLinked (Heap.view _ _) (Heap.view _ _) _ _ _
    rw [hview rfl, hview rfl]
    exact h.linked
  · have hother : ∀ b ∈ l₁ ++ l₂, (q.links.write a link').view OutgoingRTPPktLink.packet b
        = q.links.view OutgoingRTPPktLink.packet b := by
      intro b hb
      rw [Heap.view_write, Function.update_of_ne]
      rintro rfl
      rcases List.mem_append.mp hb with hb | hb
      · exact ha₁ hb
      · exact ha₂ hb
    rw [List.map_append, List.map_append, List.map_cons, List.map_cons,
      List.map_congr_left (fun b hb => hother b (List.mem_append_left l₂ hb)), hfront,
      List.map_congr_left (fun b hb => hother b (List.mem_append_right l₁ hb)), hbehind,
      Heap.view_write, Function.update_self]
  · intro b hb
    rcases Heap.eq_or_isSome_of_write hb with rfl | hb
    · exact List.mem_append_right l₁ List.mem_cons_self
    · exact h.owned b hb

/-- **`setPartial`**: without a packet that is met nothing happens; otherwise this packet is
updated, or nothing happens but that the lock is kept. -/
theorem setPartial_eq (h : q.Lists l c) (stamp : BitVec 32) (data : ℕ → UInt8) (offset max : ℕ) :
    (metPacket stamp c = none ∧ q.setPartial stamp data offset max = some (0, q, false)) ∨
      ∃ c₁ p c₂, c = c₁ ++ p :: c₂ ∧ (∀ p' ∈ c₁, p'.cachedTimestamp < stamp) ∧
        p.cachedTimestamp = stamp ∧
        ((p.payloadSize.toNat ≤ offset ∧ q.setPartial stamp data offset max = some (0, q, true)) ∨
          (offset < p.payloadSize.toNat ∧ ∃ q',
            q.setPartial stamp data offset max
              = some ((p.updatePayload data offset max).1, q', false) ∧
            q' = { q with links := q'.links } ∧
            q'.Lists l (c₁ ++ (p.updatePayload data offset max).2 :: c₂))) := by
  rw [SendingQueue.setPartial]
  rcases q.partialLoop_eq stamp l h.linked.forward h.packets h.length_le_fresh with
    ⟨hnone, hloop⟩ | ⟨l₁, a, l₂, c₁, p, c₂, rfl, rfl, hlen, hbefore, hp, hloop⟩
  · rw [hloop]
    exact Or.inl ⟨hnone, rfl⟩
  · refine Or.inr ⟨c₁, p, c₂, rfl, hbefore, hp, ?_⟩
    obtain ⟨⟨link, hlink, rfl⟩, q', hcopy, hq', hlists⟩ :=
      h.copyPartial hlen offset (p.partialOctets data offset max)
    rw [hloop, Option.bind_some]
    simp only [hlink, Option.bind_some]
    rcases Nat.lt_or_ge offset link.packet.payloadSize.toNat with hlt | hge
    · rw [if_neg (Nat.not_le.mpr hlt), RTPPacket.updatePayload, if_pos hlt]
      have hmin : (if max > link.packet.payloadSize.toNat - offset
          then link.packet.payloadSize.toNat - offset else max)
          = min max (link.packet.payloadSize.toNat - offset) := by
        split_ifs <;> omega
      rw [hmin]
      rw [RTPPacket.partialOctets] at hcopy
      rw [hcopy]
      exact Or.inr ⟨hlt, q', rfl, hq', hlists⟩
    · rw [if_pos hge]
      exact Or.inl ⟨hge, rfl⟩

end Lists

/-! ## Queues built by `putData` -/

/-- A queue without crypto contexts that was built by calls of `putData` with stamps that do not go
down: its packets, each with the stamp it was put with.  In between, the settings of the queue may
change and packets may be dispatched. -/
inductive BuiltByPutData (P : Primitives) : SendingQueue → List (BitVec 32 × OutgoingRTPPkt) → Prop
  | new (info : OutgoingDataQueue) (rate : BitVec 32) (initialTime : Timeval)
      (hplain : info.cryptoContexts = []) : BuiltByPutData P (.new info rate initialTime) []
  | putData {q q' : SendingQueue} {entries : List (BitVec 32 × OutgoingRTPPkt)} {stamp : BitVec 32}
      {data : Octets} {ps : List OutgoingRTPPkt} (h : BuiltByPutData P q entries)
      (hmono : ∀ e ∈ entries, e.1 ≤ stamp) (hput : q.putData P stamp data = some (ps, q')) :
      BuiltByPutData P q' (entries ++ ps.map (Prod.mk stamp))
  | settings {q : SendingQueue} {entries : List (BitVec 32 × OutgoingRTPPkt)}
      {info : OutgoingDataQueue} (h : BuiltByPutData P q entries)
      (hplain : info.cryptoContexts = [])
      (hinit : info.initialTimestamp = q.info.initialTimestamp) :
      BuiltByPutData P { q with info := info } entries
  | dispatch {q q' : SendingQueue} {entries : List (BitVec 32 × OutgoingRTPPkt)} {size : BitVec 32}
      {events : List (QueueEvent OutgoingRTPPkt)} (h : BuiltByPutData P q entries)
      (hdispatch : q.dispatchDataPacket = some (size, events, q')) :
      BuiltByPutData P q' entries.tail

/-- The timestamps in the packets are the stamps, moved by the initial timestamp; and the stamps do
not go down. -/
structure Stamped (initialTimestamp : BitVec 32) (entries : List (BitVec 32 × OutgoingRTPPkt)) :
    Prop where
  moved : ∀ e ∈ entries, e.2.cachedTimestamp = e.1 + initialTimestamp
  sorted : entries.Pairwise (fun e e' => e.1 ≤ e'.1)

variable {P : Primitives} {entries : List (BitVec 32 × OutgoingRTPPkt)}

theorem info_appendLink (h : q.appendLink p = some q') : q'.info = q.info := by
  rw [appendLink] at h
  cases hlast : q.sendLast with
  | none =>
      simp only [hlast] at h
      cases h
      rfl
  | some last =>
      simp only [hlast] at h
      obtain ⟨links, -, rfl⟩ := Option.map_eq_some_iff.mp h
      rfl

theorem info_dispatchDataPacket {size : BitVec 32} {events : List (QueueEvent OutgoingRTPPkt)}
    (h : q.dispatchDataPacket = some (size, events, q')) : q'.info = q.info := by
  rw [SendingQueue.dispatchDataPacket] at h
  cases hfirst : q.sendFirst with
  | none =>
      simp only [hfirst] at h
      cases h
      rfl
  | some first =>
      simp only [hfirst] at h
      obtain ⟨link, -, hrelink⟩ := Option.bind_eq_some_iff.mp h
      obtain ⟨q₁, hq₁, heq⟩ := Option.map_eq_some_iff.mp hrelink
      cases heq
      show q₁.info = q.info
      cases hnext : link.next with
      | none =>
          rw [hnext, relinkFirst] at hq₁
          cases hq₁
          rfl
      | some b =>
          rw [hnext, relinkFirst] at hq₁
          obtain ⟨links, -, rfl⟩ := Option.map_eq_some_iff.mp hq₁
          rfl

/-- A round of `putData` without contexts. -/
theorem putSegment_plain {segment : Octets} {first : Bool} (hplain : q.info.cryptoContexts = [])
    (h : q.putSegment P stamp segment first = some (p, q')) :
    p.cachedTimestamp = stamp + q.info.initialTimestamp ∧ q'.info.cryptoContexts = [] ∧
      q'.info.initialTimestamp = q.info.initialTimestamp := by
  have hget : ∀ ssrc, q.info.getOutQueueCryptoContext ssrc = none := by
    intro ssrc
    rw [OutgoingDataQueue.getOutQueueCryptoContext, hplain]
    rfl
  rw [putSegment, OutgoingDataQueue.ensureContext, hget, hget] at h
  simp only [Option.bind_some, hget, OutgoingDataQueue.sendSegment] at h
  obtain ⟨q₁, happend, heq⟩ := Option.map_eq_some_iff.mp h
  obtain ⟨rfl, rfl⟩ := Prod.mk.inj heq
  have hinfo := info_appendLink happend
  refine ⟨rfl, ?_, ?_⟩
  · rw [hinfo]
    exact hplain
  · rw [hinfo]

/-- The loop of `putData` without contexts. -/
theorem putLoop_plain (stamp : BitVec 32) (rounds : ℕ) :
    ∀ {data : Octets} {first : Bool} {q q' : SendingQueue} {ps : List OutgoingRTPPkt},
      q.info.cryptoContexts = [] → putLoop P stamp rounds data first q = some (ps, q') →
      (∀ p ∈ ps, p.cachedTimestamp = stamp + q.info.initialTimestamp) ∧
        q'.info.cryptoContexts = [] ∧ q'.info.initialTimestamp = q.info.initialTimestamp := by
  induction rounds with
  | zero =>
      intro data first q q' ps hplain h
      cases data with
      | nil =>
          cases h
          exact ⟨nofun, hplain, rfl⟩
      | cons x data => cases h
  | succ rounds ih =>
      intro data first q q' ps hplain h
      cases data with
      | nil =>
          cases h
          exact ⟨nofun, hplain, rfl⟩
      | cons x data =>
          rw [putLoop_cons] at h
          obtain ⟨⟨p, q₁⟩, hround, hrest⟩ := Option.bind_eq_some_iff.mp h
          obtain ⟨⟨ps', q₂⟩, hloop, heq⟩ := Option.map_eq_some_iff.mp hrest
          obtain ⟨rfl, rfl⟩ := Prod.mk.inj heq
          obtain ⟨hp, hplain₁, hinit₁⟩ := putSegment_plain hplain hround
          obtain ⟨hps, hplain₂, hinit₂⟩ := ih hplain₁ hloop
          refine ⟨fun p' hp' => ?_, hplain₂, hinit₂.trans hinit₁⟩
          rcases List.mem_cons.mp hp' with rfl | hp'
          · exact hp
          · rw [← hinit₁]
            exact hps p' hp'

/-- **What every such queue looks like.** -/
theorem BuiltByPutData.stamped (h : BuiltByPutData P q entries) :
    (∃ l, q.Lists l (entries.map Prod.snd)) ∧ q.info.cryptoContexts = [] ∧
      Stamped q.info.initialTimestamp entries := by
  induction h with
  | new info rate initialTime hplain =>
      exact ⟨⟨[], lists_new info rate initialTime⟩, hplain, nofun, List.Pairwise.nil⟩
  | @putData q q' entries stamp data ps h hmono hput ih =>
      obtain ⟨⟨l, hlists⟩, hplain, hmoved, hsorted⟩ := ih
      obtain ⟨hps, hplain', hinit'⟩ := putLoop_plain stamp data.length hplain hput
      obtain ⟨l', hlists'⟩ := (Lists.putLoop stamp data.length hlists).2 _ _ hput
      refine ⟨⟨l', ?_⟩, hplain', ?_, ?_⟩
      · rw [List.map_append, List.map_map]
        have hid : ps.map (Prod.snd ∘ Prod.mk stamp) = ps := List.map_id' ps
        rw [hid]
        exact hlists'
      · intro e he
        rw [hinit']
        rcases List.mem_append.mp he with he | he
        · exact hmoved e he
        · obtain ⟨p, hp, rfl⟩ := List.mem_map.mp he
          exact hps p hp
      · refine List.pairwise_append.mpr ⟨hsorted, ?_, fun e he e' he' => ?_⟩
        · exact List.pairwise_map.mpr (List.pairwise_of_forall (fun _ _ => BitVec.le_refl stamp))
        · obtain ⟨p, -, rfl⟩ := List.mem_map.mp he'
          exact hmono e he
  | settings h hplain hinit ih =>
      obtain ⟨⟨l, hlists⟩, -, hstamped⟩ := ih
      refine ⟨⟨l, hlists.linked, hlists.packets, hlists.owned, hlists.bound⟩, hplain, ?_⟩
      rw [← hinit] at hstamped
      exact hstamped
  | @dispatch q q' entries size events h hdispatch ih =>
      obtain ⟨⟨l, hlists⟩, hplain, hmoved, hsorted⟩ := ih
      obtain ⟨size', q'', hdispatch', hlists'⟩ := hlists.dispatchDataPacket
      have hinfo := info_dispatchDataPacket hdispatch
      rw [hdispatch'] at hdispatch
      cases hdispatch
      rw [hinfo]
      refine ⟨⟨l.tail, ?_⟩, hplain, fun e he => hmoved e (List.mem_of_mem_tail he), hsorted.tail⟩
      rw [List.map_tail]
      exact hlists'

/-! ## The update that is wanted -/

/-- The update of the first packet that was put with the stamp: the number of octets set, and the
packets afterwards. -/
def wantedUpdate (stamp : BitVec 32) (data : ℕ → UInt8) (offset max : ℕ) :
    List (BitVec 32 × OutgoingRTPPkt) → ℕ × List OutgoingRTPPkt
  | [] => (0, [])
  | (s, p) :: entries =>
      if s = stamp then
        let (count, p) := p.updatePayload data offset max
        (count, p :: entries.map Prod.snd)
      else
        let (count, c) := wantedUpdate stamp data offset max entries
        (count, p :: c)

/-- `setPartial` makes the wanted update and releases the lock. -/
def SetsPartial (q : SendingQueue) (l : List ℕ) (entries : List (BitVec 32 × OutgoingRTPPkt))
    (stamp : BitVec 32) (data : ℕ → UInt8) (offset max : ℕ) : Prop :=
  ∃ q', q.setPartial stamp data offset max
      = some ((wantedUpdate stamp data offset max entries).1, q', false) ∧
    q' = { q with links := q'.links } ∧
    q'.Lists l (wantedUpdate stamp data offset max entries).2

/-- When `setPartial` does what is wanted.  A packet that is met must have octets at the offset, or
the lock is kept; and it is the wanted one only without an initial timestamp, or else nothing is
to be copied, or all that would be copied is there already.  If none is met, there must be
nothing to copy. -/
def MeetsWanted (initialTimestamp stamp : BitVec 32) (data : ℕ → UInt8) (offset max : ℕ)
    (entries : List (BitVec 32 × OutgoingRTPPkt)) : Prop :=
  match metPacket stamp (entries.map Prod.snd) with
  | some p => offset < p.payloadSize.toNat ∧ (initialTimestamp = 0 ∨ max = 0 ∨
      ∃ e, entries.find? (fun e => e.1 = stamp) = some e ∧ offset < e.2.payloadSize.toNat ∧
        (e.2.updatePayload data offset max).1 = (p.updatePayload data offset max).1 ∧
        (e.2.updatePayload data offset max).2 = e.2 ∧ (p.updatePayload data offset max).2 = p)
  | none => max = 0 ∨ ∀ e, entries.find? (fun e => e.1 = stamp) = some e →
      e.2.payloadSize.toNat ≤ offset

/-- Packets with other stamps are passed over. -/
theorem wantedUpdate_append (data : ℕ → UInt8) (offset max : ℕ)
    {e₁ : List (BitVec 32 × OutgoingRTPPkt)} (h : ∀ e ∈ e₁, e.1 ≠ stamp)
    (e₂ : List (BitVec 32 × OutgoingRTPPkt)) :
    wantedUpdate stamp data offset max (e₁ ++ e₂)
      = ((wantedUpdate stamp data offset max e₂).1,
        e₁.map Prod.snd ++ (wantedUpdate stamp data offset max e₂).2) := by
  induction e₁ with
  | nil => rfl
  | cons e e₁ ih =>
      rw [List.cons_append, wantedUpdate, if_neg (h e List.mem_cons_self),
        ih fun e' he' => h e' (List.mem_cons_of_mem e he')]
      rfl

/-- **The wanted update**, by the packet it is about. -/
theorem wantedUpdate_cases (stamp : BitVec 32) (data : ℕ → UInt8) (offset max : ℕ)
    (entries : List (BitVec 32 × OutgoingRTPPkt)) :
    (entries.find? (fun e => e.1 = stamp) = none ∧
        wantedUpdate stamp data offset max entries = (0, entries.map Prod.snd)) ∨
      ∃ e₁ p e₂, entries = e₁ ++ (stamp, p) :: e₂ ∧
        entries.find? (fun e => e.1 = stamp) = some (stamp, p) ∧
        wantedUpdate stamp data offset max entries = ((p.updatePayload data offset max).1,
          e₁.map Prod.snd ++ (p.updatePayload data offset max).2 :: e₂.map Prod.snd) := by
  cases hfind : entries.find? (fun e => e.1 = stamp) with
  | none =>
      refine Or.inl ⟨rfl, ?_⟩
      have hnone : ∀ e ∈ entries, e.1 ≠ stamp := fun e he heq =>
        List.find?_eq_none.mp hfind e he (decide_eq_true heq)
      have happend := wantedUpdate_append data offset max hnone []
      rw [List.append_nil] at happend
      rw [happend, wantedUpdate, List.append_nil]
  | some e =>
      obtain ⟨hstamp, e₁, e₂, rfl, hbefore⟩ := List.find?_eq_some_iff_append.mp hfind
      obtain ⟨s, p⟩ := e
      obtain rfl : s = stamp := of_decide_eq_true hstamp
      refine Or.inr ⟨e₁, p, e₂, rfl, rfl, ?_⟩
      have hnot : ∀ e ∈ e₁, e.1 ≠ s := by
        intro e he heq
        have hfalse := hbefore e he
        rw [decide_eq_true heq] at hfalse
        cases hfalse
      rw [wantedUpdate_append data offset max hnot, wantedUpdate, if_pos rfl]

/-- Two elements replaced at different places: that makes the same list only if neither of them
changes. -/
theorem replaced_eq_iff {α : Type*} {l₁ l₂ m₁ m₂ : List α} {x y x' y' : α}
    (h : l₁ ++ x :: l₂ = m₁ ++ y :: m₂) (hne : l₁.length ≠ m₁.length) :
    l₁ ++ x' :: l₂ = m₁ ++ y' :: m₂ ↔ y' = y ∧ x' = x := by
  have hset : ∀ (k : List α) (z z' : α) (r : List α), k ++ z' :: r
      = (k ++ z :: r).set k.length z' := by
    intro k z z' r
    rw [List.set_append_right _ _ le_rfl, Nat.sub_self, List.set_cons_zero]
  have hget : ∀ (k : List α) (z : α) (r : List α), (k ++ z :: r)[k.length]? = some z := by
    intro k z r
    rw [List.getElem?_append_right le_rfl, Nat.sub_self, List.getElem?_cons_zero]
  constructor
  · intro heq
    constructor
    · have hat := hget m₁ y' m₂
      rw [← heq, hset l₁ x x' l₂, List.getElem?_set_ne hne, h, hget] at hat
      exact (Option.some.inj hat).symm
    · have hat := hget l₁ x' l₂
      rw [heq, hset m₁ y y' m₂, List.getElem?_set_ne hne.symm, ← h, hget] at hat
      exact (Option.some.inj hat).symm
  · rintro ⟨rfl, rfl⟩
    exact h

/-- The packets of the links are determined. -/
theorem Lists.packets_unique (h : q.Lists l c) (h' : q.Lists l c') : c = c' :=
  List.map_injective_iff.mpr (Option.some_injective _) (h.packets.symm.trans h'.packets)

/-- **The packet that is met is the wanted one** only without an initial timestamp, or if the
difference does not show. -/
theorem met_eq_wanted_iff {T : BitVec 32} {c₁ c₂ : List OutgoingRTPPkt}
    (hstamped : Stamped T entries)
    (hsplit : entries.map Prod.snd = c₁ ++ p :: c₂)
    (hbefore : ∀ p' ∈ c₁, p'.cachedTimestamp < stamp) (hp : p.cachedTimestamp = stamp)
    (hoffset : offset < p.payloadSize.toNat) :
    wantedUpdate stamp data offset max entries = ((p.updatePayload data offset max).1,
        c₁ ++ (p.updatePayload data offset max).2 :: c₂) ↔
      T = 0 ∨ max = 0 ∨
        ∃ e, entries.find? (fun e => e.1 = stamp) = some e ∧ offset < e.2.payloadSize.toNat ∧
          (e.2.updatePayload data offset max).1 = (p.updatePayload data offset max).1 ∧
          (e.2.updatePayload data offset max).2 = e.2 ∧
          (p.updatePayload data offset max).2 = p := by
  obtain ⟨f₁, f₂, rfl, rfl, hf₂⟩ := List.map_eq_append_iff.mp hsplit
  obtain ⟨⟨s, p'⟩, f₂, rfl, rfl, rfl⟩ := List.map_eq_cons_iff.mp hf₂
  have hs : p'.cachedTimestamp = s + T :=
    hstamped.moved (s, p') (List.mem_append_right f₁ List.mem_cons_self)
  by_cases hT : T = 0
  · -- the stamps are the timestamps, so the first packet with the stamp is the one that is met
    refine iff_of_true ?_ (Or.inl hT)
    have hmoved : ∀ e ∈ f₁ ++ (s, p') :: f₂, e.2.cachedTimestamp = e.1 := by
      intro e he
      rw [hstamped.moved e he, hT]
      exact BitVec.add_zero _
    have hne : ∀ e ∈ f₁, e.1 ≠ stamp := by
      intro e he
      have hlt := hbefore e.2 (List.mem_map_of_mem he)
      rw [hmoved e (List.mem_append_left _ he)] at hlt
      exact BitVec.ne_of_lt hlt
    have hmet : s = stamp := by
      rw [← hp, hs, hT]
      exact (BitVec.add_zero s).symm
    rw [wantedUpdate_append data offset max hne, wantedUpdate, if_pos hmet]
  · have hne : s ≠ stamp := by
      rintro rfl
      have hself : s + T = s + 0 := by
        rw [← hs, hp]
        exact (BitVec.add_zero s).symm
      exact hT (add_left_cancel hself)
    rw [or_iff_right hT]
    by_cases hmax : max = 0
    · subst hmax
      refine iff_of_true ?_ (Or.inl rfl)
      rw [RTPPacket.updatePayload_zero]
      rcases wantedUpdate_cases stamp data offset 0 (f₁ ++ (s, p') :: f₂) with
        ⟨-, hw⟩ | ⟨e₁, p'', e₂, heq, -, hw⟩
      · rw [hw, hsplit]
      · rw [hw, RTPPacket.updatePayload_zero, ← hsplit, heq, List.map_append, List.map_cons]
    · rw [or_iff_right hmax]
      have hcount : 0 < (p'.updatePayload data offset max).1 := by
        rw [RTPPacket.updatePayload, if_pos hoffset]
        exact lt_min (Nat.pos_of_ne_zero hmax) (Nat.sub_pos_of_lt hoffset)
      rcases wantedUpdate_cases stamp data offset max (f₁ ++ (s, p') :: f₂) with
        ⟨hnone, hw⟩ | ⟨e₁, p'', e₂, heq, hfind, hw⟩
      · rw [hw]
        refine iff_of_false (fun h => ?_) ?_
        · rw [← (Prod.mk.inj h).1] at hcount
          exact hcount.false
        · rintro ⟨e, he, -⟩
          rw [hnone] at he
          cases he
      · have hlists : f₁.map Prod.snd ++ p' :: f₂.map Prod.snd
            = e₁.map Prod.snd ++ p'' :: e₂.map Prod.snd := by
          rw [← hsplit, heq, List.map_append, List.map_cons]
        have hplaces : (f₁.map Prod.snd).length ≠ (e₁.map Prod.snd).length := by
          intro hlen
          rw [List.length_map, List.length_map] at hlen
          obtain ⟨-, hrest⟩ := List.append_inj heq hlen
          exact hne (Prod.mk.inj (List.cons.inj hrest).1).1
        rw [hw, Prod.mk.injEq, hfind, eq_comm (a := e₁.map Prod.snd ++ _),
          replaced_eq_iff hlists hplaces]
        constructor
        · rintro ⟨hcounts, hsame, hsame'⟩
          refine ⟨_, rfl, ?_, hcounts, hsame, hsame'⟩
          by_contra hbehind
          rw [← hcounts, RTPPacket.updatePayload, if_neg hbehind] at hcount
          exact hcount.false
        · rintro ⟨e, he, -, hcounts, hsame, hsame'⟩
          cases he
          exact ⟨hcounts, hsame, hsame'⟩

/-- Where none is met, there must be nothing to update. -/
theorem unmet_eq_wanted_iff :
    wantedUpdate stamp data offset max entries = (0, entries.map Prod.snd) ↔
      max = 0 ∨ ∀ e, entries.find? (fun e => e.1 = stamp) = some e →
        e.2.payloadSize.toNat ≤ offset := by
  rcases wantedUpdate_cases stamp data offset max entries with
    ⟨hnone, hw⟩ | ⟨e₁, p, e₂, heq, hfind, hw⟩
  · refine iff_of_true hw (Or.inr fun e he => ?_)
    rw [hnone] at he
    cases he
  · rw [hw, hfind]
    have hmap : entries.map Prod.snd = e₁.map Prod.snd ++ p :: e₂.map Prod.snd := by
      rw [heq, List.map_append, List.map_cons]
    constructor
    · intro h
      by_contra hcopy
      rw [not_or] at hcopy
      obtain ⟨hmax, hroom⟩ := hcopy
      have hoffset : offset < p.payloadSize.toNat := by
        by_contra hbehind
        refine hroom fun e he => ?_
        cases he
        exact Nat.le_of_not_lt hbehind
      have hzero := (Prod.mk.inj h).1
      rw [RTPPacket.updatePayload, if_pos hoffset] at hzero
      have hpos : 0 < min max (p.payloadSize.toNat - offset) :=
        lt_min (Nat.pos_of_ne_zero hmax) (Nat.sub_pos_of_lt hoffset)
      exact hpos.ne' hzero
    · rintro (hmax | hroom)
      · rw [hmax, RTPPacket.updatePayload_zero, hmap]
      · rw [RTPPacket.updatePayload, if_neg (Nat.not_lt.mpr (hroom _ rfl)), hmap]

/-- **When `setPartial` makes the wanted update and releases the lock**, for every queue built by
`putData`, initial timestamp, stamp, data, offset and maximum. -/
theorem partial_update_iff (h : BuiltByPutData P q entries) :
    ∃ l, q.Lists l (entries.map Prod.snd) ∧ ∀ stamp data offset max,
      SetsPartial q l entries stamp data offset max ↔
        MeetsWanted q.info.initialTimestamp stamp data offset max entries := by
  obtain ⟨⟨l, hlists⟩, -, hstamped⟩ := h.stamped
  refine ⟨l, hlists, fun stamp data offset max => ?_⟩
  rw [MeetsWanted]
  rcases hlists.setPartial_eq stamp data offset max with
    ⟨hnone, hcall⟩ | ⟨c₁, p, c₂, hsplit, hbefore, hp, hcase⟩
  · rw [hnone]
    dsimp only
    rw [← unmet_eq_wanted_iff]
    constructor
    · rintro ⟨q', hq', -, hlists'⟩
      rw [hcall] at hq'
      obtain ⟨hcount, hrest⟩ := Prod.mk.inj (Option.some.inj hq')
      obtain ⟨rfl, -⟩ := Prod.mk.inj hrest
      exact Prod.ext hcount.symm (hlists.packets_unique hlists').symm
    · intro hw
      refine ⟨q, ?_, rfl, ?_⟩
      · rw [hcall, hw]
      · rw [hw]
        exact hlists
  · have hmet := metPacket_append hbefore hp c₂
    rw [hsplit, hmet]
    dsimp only
    rcases hcase with ⟨hbehind, hcall⟩ | ⟨hoffset, q', hcall, hq', hlists'⟩
    · refine iff_of_false ?_ fun h => Nat.not_lt.mpr hbehind h.1
      rintro ⟨q', hq', -⟩
      rw [hcall] at hq'
      obtain ⟨-, hrest⟩ := Prod.mk.inj (Option.some.inj hq')
      cases (Prod.mk.inj hrest).2
    · rw [← met_eq_wanted_iff hstamped hsplit hbefore hp hoffset]
      constructor
      · rintro ⟨q'', hq'', -, hlists''⟩
        rw [hcall] at hq''
        obtain ⟨hcount, hrest⟩ := Prod.mk.inj (Option.some.inj hq'')
        obtain ⟨rfl, -⟩ := Prod.mk.inj hrest
        exact ⟨hoffset, Prod.ext hcount.symm (hlists''.packets_unique hlists')⟩
      · rintro ⟨-, hw⟩
        refine ⟨q', ?_, hq', ?_⟩
        · rw [hcall, hw]
        · rw [hw]
          exact hlists'

/-- Two octets put with the stamp 320 into a queue with the given initial timestamp. -/
def putAt320 (initialTimestamp : BitVec 32) : Option (List OutgoingRTPPkt × SendingQueue) :=
  (new ⟨7, 65535, fun _ => 0, 0, 0, false, 0, initialTimestamp, 2, [], []⟩ 8000 ⟨0, 0⟩).putData
    .additive 320 [1, 2]

theorem builtByPutData_putAt320 {initialTimestamp : BitVec 32} {ps : List OutgoingRTPPkt}
    (h : putAt320 initialTimestamp = some (ps, q)) :
    BuiltByPutData .additive q ([] ++ ps.map (Prod.mk 320)) :=
  .putData
    (.new ⟨7, 65535, fun _ => 0, 0, 0, false, 0, initialTimestamp, 2, [], []⟩ 8000 ⟨0, 0⟩ rfl)
    nofun h

/-- Three octets more, with the stamp 480, which make two packets. -/
def putAt480 (initialTimestamp : BitVec 32) :
    Option (List OutgoingRTPPkt × List OutgoingRTPPkt × SendingQueue) :=
  (putAt320 initialTimestamp).bind (fun (ps, q) =>
    (q.putData .additive 480 [3, 4, 5]).map (Prod.mk ps))

/-- The theorem for a queue with three packets and no initial timestamp. -/
theorem partial_update_iff_three_packets :
    ∃ q entries, BuiltByPutData .additive q entries ∧ entries.length = 3 ∧
      ∃ l, q.Lists l (entries.map Prod.snd) ∧ ∀ stamp data offset max,
        SetsPartial q l entries stamp data offset max ↔
          MeetsWanted q.info.initialTimestamp stamp data offset max entries := by
  have hthree : (putAt480 0).map (fun r => r.1.length + r.2.1.length) = some 3 := by decide
  obtain ⟨⟨ps, ps', q⟩, hput, hlength⟩ := Option.map_eq_some_iff.mp hthree
  obtain ⟨⟨ps₁, q₁⟩, hfirst, hmap⟩ := Option.bind_eq_some_iff.mp hput
  obtain ⟨second, hsecond, heq⟩ := Option.map_eq_some_iff.mp hmap
  cases heq
  have hmono : ∀ e ∈ [] ++ ps.map (Prod.mk (320 : BitVec 32)), e.1 ≤ 480 := by
    intro e he
    obtain ⟨p, -, rfl⟩ := List.mem_map.mp he
    exact (by decide : (320 : BitVec 32) ≤ 480)
  have hbuilt := (builtByPutData_putAt320 hfirst).putData hmono hsecond
  refine ⟨q, _, hbuilt, ?_, partial_update_iff hbuilt⟩
  rw [List.nil_append, List.length_append, List.length_map, List.length_map]
  exact hlength

/-- **With an initial timestamp the packet is not found**: nothing is set, although its first octet
should be. -/
theorem moved_stamp_not_found :
    ∃ q entries l, BuiltByPutData .additive q entries ∧ q.Lists l (entries.map Prod.snd) ∧
      ¬ SetsPartial q l entries 320 (fun _ => 9) 0 1 := by
  have hsome : (putAt320 160).isSome = true := by decide
  obtain ⟨⟨ps, q⟩, hput⟩ := Option.isSome_iff_exists.mp hsome
  have hbuilt := builtByPutData_putAt320 hput
  obtain ⟨⟨l, hlists⟩, -, -⟩ := hbuilt.stamped
  refine ⟨q, _, l, hbuilt, hlists, ?_⟩
  rintro ⟨q', hq', -, -⟩
  have hcall : (putAt320 160).map (fun r => (r.2.setPartial 320 (fun _ => 9) 0 1).map Prod.fst)
      = some (some 0) := by decide
  have hwanted : (putAt320 160).map (fun r =>
      (wantedUpdate 320 (fun _ => 9) 0 1 ([] ++ r.1.map (Prod.mk 320))).1) = some 1 := by decide
  rw [hput, Option.map_some, hq', Option.map_some] at hcall
  rw [hput, Option.map_some] at hwanted
  have hzero := Option.some.inj (Option.some.inj hcall)
  rw [Option.some.inj hwanted] at hzero
  cases hzero

end SendingQueue
