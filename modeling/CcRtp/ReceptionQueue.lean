/-
# The reception queue

Models `insertRecvPacket`, `getWaiting`, `getData` and `purgeIncomingQueue` of
`IncomingDataQueue` (`src/incqueue.cpp`) with `IncomingRTPPktLink` and the ends of the queue
of a source (`src/ccrtp/iqueue.h`).

Every packet waiting is linked in two lists: that of all packets, and that of its source.
Links are at addresses, and so are the sources.  A link that has been deleted is not there any
more, and following a pointer to it has no outcome.  New links are made at addresses that have
never been used.  All links have addresses below `fresh`, so a walk along a list of distinct
links ends within so many rounds.

What `end2EndDelayed` says of the packets waiting is a parameter.  Callbacks, and the
statistics that `recordInsertion` keeps, are left out.
-/
import CcRtp.LinkedList

/-- What a link holds of its packet, which never changes. -/
structure WaitingPacket where
  seqNum : BitVec 16
  timestamp : BitVec 32
  sourceLink : ℕ

/-- `IncomingRTPPktLink`: all links in memory, member by member.  There is a link where there
is a packet. -/
structure PacketLinks where
  packet : ℕ → Option WaitingPacket
  prev : ℕ → Option ℕ
  next : ℕ → Option ℕ
  srcPrev : ℕ → Option ℕ
  srcNext : ℕ → Option ℕ

/-- The pointers of a link. -/
inductive LinkPointer : Type where
  | prev
  | next
  | srcPrev
  | srcNext
  deriving DecidableEq

namespace PacketLinks

variable (h : PacketLinks) (p v : Option ℕ)

/-- One of the pointers, of all links. -/
def pointer : LinkPointer → ℕ → Option ℕ
  | .prev => h.prev
  | .next => h.next
  | .srcPrev => h.srcPrev
  | .srcNext => h.srcNext

/-- The links with other values of one of the pointers. -/
def withPointer (g : ℕ → Option ℕ) : LinkPointer → PacketLinks
  | .prev => { h with prev := g }
  | .next => { h with next := g }
  | .srcPrev => { h with srcPrev := g }
  | .srcNext => { h with srcNext := g }

/-- The link that a pointer leads to. -/
def deref : Option ℕ := p.bind (fun a => if (h.packet a).isSome then some a else none)

def getPrev : Option (Option ℕ) := (h.deref p).map h.prev

def getSrcNext : Option (Option ℕ) := (h.deref p).map h.srcNext

/-- The assignment of `v` to a pointer of the link that `p` leads to. -/
def assign (f : LinkPointer) : Option PacketLinks :=
  (h.deref p).map (fun a => h.withPointer (Function.update (h.pointer f) a v) f)

def setNext : Option PacketLinks := h.assign p v .next

def setPrev : Option PacketLinks := h.assign p v .prev

def setSrcNext : Option PacketLinks := h.assign p v .srcNext

def setSrcPrev : Option PacketLinks := h.assign p v .srcPrev

/-- `if (p) p->setNext(v)` -/
def setNextOf : Option PacketLinks := if p = none then some h else h.setNext p v

/-- `if (p) p->setPrev(v)` -/
def setPrevOf : Option PacketLinks := if p = none then some h else h.setPrev p v

/-- `new IncomingRTPPktLink(...)`, with null pointers. -/
def new (a : ℕ) (n : WaitingPacket) : PacketLinks where
  packet := Function.update h.packet a (some n)
  prev := Function.update h.prev a none
  next := Function.update h.next a none
  srcPrev := Function.update h.srcPrev a none
  srcNext := Function.update h.srcNext a none

/-- `delete` of a link -/
def delete (a : ℕ) : PacketLinks := { h with packet := Function.update h.packet a none }

/-! ## Linking and unlinking -/

/-- `p->setNext(link); link->setPrev(p)` -/
def linkBehind (link : ℕ) : Option PacketLinks :=
  (h.setNext p (some link)).bind (fun h => h.setPrev (some link) p)

/-- The same, `if (p)`. -/
def linkBehindOf (link : ℕ) : Option PacketLinks :=
  if p = none then some h else h.linkBehind p link

/-- `p->setPrev(link); link->setNext(p)` -/
def linkAhead (link : ℕ) : Option PacketLinks :=
  (h.setPrev p (some link)).bind (fun h => h.setNext (some link) p)

/-- `p->setSrcNext(link); link->setSrcPrev(p)` -/
def linkSrcBehind (link : ℕ) : Option PacketLinks :=
  (h.setSrcNext p (some link)).bind (fun h => h.setSrcPrev (some link) p)

/-- `p->setSrcPrev(link); link->setSrcNext(p)` -/
def linkSrcAhead (link : ℕ) : Option PacketLinks :=
  (h.setSrcPrev p (some link)).bind (fun h => h.setSrcNext (some link) p)

/-- A link is unlinked from the global queue. -/
def unlink (a : ℕ) : Option PacketLinks :=
  (h.setNextOf (h.prev a) (h.next a)).bind (fun h => h.setPrevOf (h.next a) (h.prev a))

/-! ## What assignments change -/

variable {h p v} {h' : PacketLinks} {a : ℕ}

/-- A pointer leads somewhere if it is not null and its link has not been deleted. -/
theorem deref_eq_some : h.deref p = some a ↔ p = some a ∧ (h.packet a).isSome = true := by
  rw [deref, Option.bind_eq_some_iff]
  constructor
  · rintro ⟨b, rfl, hb⟩
    obtain ⟨hlive, heq⟩ := Option.ite_none_right_eq_some.mp hb
    cases heq
    exact ⟨rfl, hlive⟩
  · rintro ⟨rfl, hlive⟩
    exact ⟨a, rfl, if_pos hlive⟩

/-- The pointer to a link that is there leads to it. -/
theorem deref_some (hlive : (h.packet a).isSome = true) : h.deref (some a) = some a :=
  deref_eq_some.mpr ⟨rfl, hlive⟩

/-- An assignment has an outcome if the pointer leads to a link. -/
theorem map_deref_eq_some {f : ℕ → PacketLinks} :
    (h.deref p).map f = some h' ↔ ∃ a, p = some a ∧ (h.packet a).isSome = true ∧ f a = h' := by
  rw [Option.map_eq_some_iff]
  refine exists_congr (fun a => ?_)
  rw [deref_eq_some, and_assoc]

/-- What `setPrev` does to a link that is there. -/
theorem setPrev_some (hlive : (h.packet a).isSome = true) :
    h.setPrev (some a) v = some { h with prev := Function.update h.prev a v } :=
  map_deref_eq_some.mpr ⟨a, rfl, hlive, rfl⟩

/-- What `setSrcPrev` does to a link that is there. -/
theorem setSrcPrev_some (hlive : (h.packet a).isSome = true) :
    h.setSrcPrev (some a) v = some { h with srcPrev := Function.update h.srcPrev a v } :=
  map_deref_eq_some.mpr ⟨a, rfl, hlive, rfl⟩

/-- The packets of the links do not depend on their pointers. -/
theorem packet_withPointer (g : ℕ → Option ℕ) (f : LinkPointer) :
    (h.withPointer g f).packet = h.packet := by
  cases f <;> rfl

/-- The pointer that has been replaced. -/
theorem pointer_withPointer_self (g : ℕ → Option ℕ) (f : LinkPointer) :
    (h.withPointer g f).pointer f = g := by
  cases f <;> rfl

/-- The other pointers are kept. -/
theorem pointer_withPointer_of_ne (g : ℕ → Option ℕ) {f f' : LinkPointer} (hne : f' ≠ f) :
    (h.withPointer g f).pointer f' = h.pointer f' := by
  cases f <;> cases f' <;> first | rfl | exact absurd rfl hne

/-- **Two assignments that link `p` and `link` to each other**: a pointer of `p`, and another one of
`link`. -/
theorem assign_link_eq_some {link : ℕ} {f f' : LinkPointer} (hne : f' ≠ f) :
    (h.assign p (some link) f).bind (fun h => h.assign (some link) p f') = some h' ↔
      ∃ c, p = some c ∧ (h.packet c).isSome = true ∧ (h.packet link).isSome = true ∧
        (h.withPointer (Function.update (h.pointer f) c (some link)) f).withPointer
          (Function.update (h.pointer f') link (some c)) f' = h' := by
  rw [Option.bind_eq_some_iff]
  constructor
  · rintro ⟨h₁, hset₁, hset₂⟩
    obtain ⟨c, rfl, hc, rfl⟩ := map_deref_eq_some.mp hset₁
    obtain ⟨_, ⟨⟩, hlink, rfl⟩ := map_deref_eq_some.mp hset₂
    rw [packet_withPointer] at hlink
    rw [pointer_withPointer_of_ne _ hne]
    exact ⟨c, rfl, hc, hlink, rfl⟩
  · rintro ⟨c, rfl, hc, hlink, rfl⟩
    refine ⟨_, map_deref_eq_some.mpr ⟨c, rfl, hc, rfl⟩, map_deref_eq_some.mpr ⟨link, rfl, ?_, ?_⟩⟩
    · rw [packet_withPointer]
      exact hlink
    · rw [pointer_withPointer_of_ne _ hne]

/-- `link` is linked behind `p` in the global list. -/
theorem linkBehind_eq_some {link : ℕ} : h.linkBehind p link = some h' ↔
    ∃ c, p = some c ∧ (h.packet c).isSome = true ∧ (h.packet link).isSome = true ∧
      { h with next := Function.update h.next c (some link),
               prev := Function.update h.prev link (some c) } = h' :=
  assign_link_eq_some (f := .next) (by decide)

/-- `link` is linked in front of `p` in the global list. -/
theorem linkAhead_eq_some {link : ℕ} : h.linkAhead p link = some h' ↔
    ∃ c, p = some c ∧ (h.packet c).isSome = true ∧ (h.packet link).isSome = true ∧
      { h with prev := Function.update h.prev c (some link),
               next := Function.update h.next link (some c) } = h' :=
  assign_link_eq_some (f := .prev) (by decide)

/-- `link` is linked behind `p` in the queue of its source. -/
theorem linkSrcBehind_eq_some {link : ℕ} : h.linkSrcBehind p link = some h' ↔
    ∃ c, p = some c ∧ (h.packet c).isSome = true ∧ (h.packet link).isSome = true ∧
      { h with srcNext := Function.update h.srcNext c (some link),
               srcPrev := Function.update h.srcPrev link (some c) } = h' :=
  assign_link_eq_some (f := .srcNext) (by decide)

/-- `link` is linked in front of `p` in the queue of its source. -/
theorem linkSrcAhead_eq_some {link : ℕ} : h.linkSrcAhead p link = some h' ↔
    ∃ c, p = some c ∧ (h.packet c).isSome = true ∧ (h.packet link).isSome = true ∧
      { h with srcPrev := Function.update h.srcPrev c (some link),
               srcNext := Function.update h.srcNext link (some c) } = h' :=
  assign_link_eq_some (f := .srcPrev) (by decide)

/-- All that belongs to the queues of sources is the same. -/
structure SameSources (h h' : PacketLinks) : Prop where
  packet : h'.packet = h.packet
  srcNext : h'.srcNext = h.srcNext
  srcPrev : h'.srcPrev = h.srcPrev

theorem SameSources.refl (h : PacketLinks) : SameSources h h := ⟨rfl, rfl, rfl⟩

theorem SameSources.trans {h'' : PacketLinks} (h₁ : SameSources h h') (h₂ : SameSources h' h'') :
    SameSources h h'' :=
  ⟨h₂.packet.trans h₁.packet, h₂.srcNext.trans h₁.srcNext, h₂.srcPrev.trans h₁.srcPrev⟩

/-- An assignment to a pointer of the global list leaves the queues of the sources alone. -/
theorem sameSources_assign {f : LinkPointer} (hf : f = .prev ∨ f = .next)
    (hset : h.assign p v f = some h') : SameSources h h' := by
  obtain ⟨a, -, -, rfl⟩ := map_deref_eq_some.mp hset
  rcases hf with rfl | rfl
  · exact ⟨rfl, rfl, rfl⟩
  · exact ⟨rfl, rfl, rfl⟩

theorem sameSources_setNext (hset : h.setNext p v = some h') : SameSources h h' :=
  sameSources_assign (.inr rfl) hset

theorem sameSources_setPrev (hset : h.setPrev p v = some h') : SameSources h h' :=
  sameSources_assign (.inl rfl) hset

/-- So does one that is made only if there is such a link. -/
theorem sameSources_assignOf {f : LinkPointer} (hf : f = .prev ∨ f = .next)
    (hset : (if p = none then some h else h.assign p v f) = some h') : SameSources h h' := by
  split_ifs at hset
  · cases hset
    exact .refl h
  · exact sameSources_assign hf hset

theorem sameSources_setNextOf (hset : h.setNextOf p v = some h') : SameSources h h' :=
  sameSources_assignOf (.inr rfl) hset

theorem sameSources_setPrevOf (hset : h.setPrevOf p v = some h') : SameSources h h' :=
  sameSources_assignOf (.inl rfl) hset

/-- Two links are linked to each other in the global list only. -/
theorem sameSources_linkBehind {link : ℕ} (hlink : h.linkBehind p link = some h') :
    SameSources h h' := by
  obtain ⟨h₁, hset₁, hset₂⟩ := Option.bind_eq_some_iff.mp hlink
  exact (sameSources_setNext hset₁).trans (sameSources_setPrev hset₂)

theorem sameSources_linkBehindOf {link : ℕ} (hlink : h.linkBehindOf p link = some h') :
    SameSources h h' := by
  rw [linkBehindOf] at hlink
  split_ifs at hlink
  · cases hlink
    exact .refl h
  · exact sameSources_linkBehind hlink

theorem sameSources_linkAhead {link : ℕ} (hlink : h.linkAhead p link = some h') :
    SameSources h h' := by
  obtain ⟨h₁, hset₁, hset₂⟩ := Option.bind_eq_some_iff.mp hlink
  exact (sameSources_setPrev hset₁).trans (sameSources_setNext hset₂)

/-- A link is taken out of the global list only. -/
theorem sameSources_unlink (hunlink : h.unlink a = some h') : SameSources h h' := by
  obtain ⟨h₁, hset₁, hset₂⟩ := Option.bind_eq_some_iff.mp hunlink
  exact (sameSources_setNextOf hset₁).trans (sameSources_setPrevOf hset₂)

end PacketLinks

/-- The ends of the queue of a source, members of `SyncSourceLink`. -/
structure PacketEnds where
  first : Option ℕ
  last : Option ℕ

/-- The members of `IncomingDataQueue` that hold the reception queue.  Sources that are not
its own belong to another queue. -/
structure ReceptionQueue where
  links : PacketLinks
  fresh : ℕ
  sources : ℕ → PacketEnds
  isMine : ℕ → Bool
  recvFirst : Option ℕ
  recvLast : Option ℕ

namespace ReceptionQueue

/-- An empty queue. -/
def new (isMine : ℕ → Bool) : ReceptionQueue where
  links := ⟨fun _ => none, fun _ => none, fun _ => none, fun _ => none, fun _ => none⟩
  fresh := 0
  sources := fun _ => ⟨none, none⟩
  isMine := isMine
  recvFirst := none
  recvLast := none

/-- `setFirst(fp)` of a source -/
@[simps links fresh recvFirst recvLast]
def setFirst (q : ReceptionQueue) (s : ℕ) (p : Option ℕ) : ReceptionQueue :=
  { q with sources := Function.update q.sources s { q.sources s with first := p } }

/-- `setLast(lp)` of a source -/
@[simps links fresh recvFirst recvLast]
def setLast (q : ReceptionQueue) (s : ℕ) (p : Option ℕ) : ReceptionQueue :=
  { q with sources := Function.update q.sources s { q.sources s with last := p } }

/-- The queue with other links. -/
@[simps]
def setLinks (q : ReceptionQueue) (h : PacketLinks) : ReceptionQueue := { q with links := h }

/-- `recvFirst = p, recvLast = r` -/
@[simps]
def setEnds (q : ReceptionQueue) (p r : Option ℕ) : ReceptionQueue :=
  { q with recvFirst := p, recvLast := r }

/-- `delete` of a link -/
def deleteLink (q : ReceptionQueue) (a : ℕ) : ReceptionQueue := q.setLinks (q.links.delete a)

section Assignments

variable (q : ReceptionQueue) (s : ℕ) (p : Option ℕ)

/-- The ends of the source after `setFirst`. -/
@[simp] theorem setFirst_sources_self :
    (q.setFirst s p).sources s = ⟨p, (q.sources s).last⟩ := Function.update_self ..

/-- `setFirst` changes no other source. -/
theorem setFirst_sources_of_ne {s' : ℕ} (hs' : s' ≠ s) :
    (q.setFirst s p).sources s' = q.sources s' := Function.update_of_ne hs' ..

/-- The ends of the source after `setLast`. -/
@[simp] theorem setLast_sources_self :
    (q.setLast s p).sources s = ⟨(q.sources s).first, p⟩ := Function.update_self ..

/-- `setLast` changes no other source. -/
theorem setLast_sources_of_ne {s' : ℕ} (hs' : s' ≠ s) :
    (q.setLast s p).sources s' = q.sources s' := Function.update_of_ne hs' ..

end Assignments

/-! ## Insertion -/

/-- A link for a packet that has just been received. -/
def newLink (q : ReceptionQueue) (n : WaitingPacket) : ReceptionQueue :=
  { q with links := q.links.new q.fresh n, fresh := q.fresh + 1 }

/-- The packet's place is looked for from the end of the queue of its source.  In the loop
the sequence number is lower than that of the link, so it is never found to be the same. -/
def searchPlace (h : PacketLinks) (seq : BitVec 16) : ℕ → Option ℕ → Option (Option ℕ)
  | _, none => some none
  | 0, some _ => none
  | rounds + 1, some plink =>
      (h.packet plink).bind (fun n =>
        if seq < n.seqNum then searchPlace h seq rounds (h.srcPrev plink) else some (some plink))

/-- The oldest packet of its source. -/
def insertFront (q : ReceptionQueue) (s link : ℕ) : Option ReceptionQueue :=
  let srcFirst := (q.sources s).first
  (q.links.linkSrcAhead srcFirst link).bind (fun h =>
    (h.getPrev srcFirst).bind (fun prevFirst =>
      (h.linkBehindOf prevFirst link).bind (fun h =>
        (h.linkAhead srcFirst link).map (fun h => (q.setLinks h).setFirst s (some link)))))

/-- A packet in the middle of the queue of its source, behind `plink`.  In the global queue it
gets the minimum priority compared to packets from other sources. -/
def insertMiddle (q : ReceptionQueue) (link plink : ℕ) : Option ReceptionQueue :=
  (q.links.getSrcNext (some plink)).bind (fun srcNext =>
    (q.links.linkSrcAhead srcNext link).bind (fun h =>
      (h.getPrev srcNext).bind (fun prev =>
        (h.linkBehind prev link).bind (fun h =>
          (h.linkAhead srcNext link).bind (fun h =>
            (h.linkSrcBehind (some plink) link).map q.setLinks)))))

/-- The only packet of its source goes to the end of the global queue. -/
def insertOnly (q : ReceptionQueue) (s link : ℕ) : Option ReceptionQueue :=
  (q.links.linkBehindOf q.recvLast link).map (fun h =>
    (((q.setLast s (some link)).setFirst s (some link)).setLinks h).setEnds
      (if q.recvFirst = none then some link else q.recvFirst) (some link))

/-- A packet behind the last one of its source goes to the end of the global queue too. -/
def insertLast (q : ReceptionQueue) (s link : ℕ) : Option ReceptionQueue :=
  (q.links.linkSrcBehind (q.sources s).last link).bind (fun h =>
    (h.linkBehind q.recvLast link).map (fun h =>
      ((q.setLast s (some link)).setLinks h).setEnds q.recvFirst (some link)))

/-- A disordered packet: before all others of its source, or behind `plink`. -/
def insertDisordered (q : ReceptionQueue) (s link : ℕ) : Option ℕ → Option ReceptionQueue
  | none => q.insertFront s link
  | some plink => q.insertMiddle link plink

/-- The branches of `insertRecvPacket`, with the last packet of the source. -/
def insertBehind (q : ReceptionQueue) (n : WaitingPacket) (link last : ℕ) :
    Option (Bool × ReceptionQueue) :=
  (q.links.packet last).bind (fun m =>
    if n.seqNum < m.seqNum then
      (searchPlace q.links n.seqNum q.fresh (some last)).bind (fun plink =>
        (q.insertDisordered n.sourceLink link plink).map (fun q => (true, q)))
    -- this ignores duplicate packets
    else if n.seqNum = m.seqNum then some (false, q.deleteLink link)
    else (q.insertLast n.sourceLink link).map (fun q => (true, q)))

/-- `insertRecvPacket(packetLink)`, with the link at the next address. -/
def insertRecvPacket (q : ReceptionQueue) (n : WaitingPacket) : Option (Bool × ReceptionQueue) :=
  match ((q.newLink n).sources n.sourceLink).last with
  | none => ((q.newLink n).insertOnly n.sourceLink q.fresh).map (fun q => (true, q))
  | some last => (q.newLink n).insertBehind n q.fresh last

/-! ## Retrieval -/

/-- A packet is older than asked for, or comes too late. -/
def isOld (h : PacketLinks) (timestamp : BitVec 32) (delayed : ℕ → Bool) (a : ℕ) : Bool :=
  (h.packet a).any (fun n => n.timestamp < timestamp) || delayed a

/-- The `while` loop that counts old packets, along one of the lists: their number, and the
first packet that is not old. -/
def countOld (h : PacketLinks) (next : ℕ → Option ℕ) (old : ℕ → Bool) :
    ℕ → Option ℕ → Option (ℕ × Option ℕ)
  | _, none => some (0, none)
  | 0, some _ => none
  | rounds + 1, some a =>
      (h.packet a).bind (fun _ =>
        if old a then (countOld h next old rounds (next a)).map (fun r => (r.1 + 1, r.2))
        else some (0, some a))

/-- The body of the `for` loop over the old packets of a source: the packet that expires, and
whether there were others beside it. -/
def expireOfSource (q : ReceptionQueue) (s : ℕ) : Option (ℕ × Bool × ReceptionQueue) :=
  (q.links.deref (q.sources s).first).bind (fun l =>
    (q.links.unlink l).map (fun h =>
      (l, (q.links.prev l).isSome || (q.links.next l).isSome,
        ((q.setFirst s (q.links.srcNext l)).setLinks h).deleteLink l)))

/-- The `for` loop, with the packets that expire and the value of `nonempty`. -/
def expireLoopOfSource (s : ℕ) :
    ℕ → Bool → ReceptionQueue → Option (List ℕ × Bool × ReceptionQueue)
  | 0, nonempty, q => some ([], nonempty, q)
  | k + 1, _, q =>
      (q.expireOfSource s).bind (fun r =>
        (expireLoopOfSource s k r.2.1 r.2.2).map (fun e => (r.1 :: e.1, e.2)))

/-- The packet selected is unlinked from the global queue. -/
def unlinkSelected (q : ReceptionQueue) (a : ℕ) : Option ReceptionQueue :=
  (q.links.unlink a).map (fun h =>
    (q.setLinks h).setEnds (if q.links.prev a = none then q.links.next a else q.recvFirst)
      (if q.links.next a = none then q.links.prev a else q.recvLast))

/-- And from the queue of its source.  It is `prev`, not `srcPrev`, that is reset in the packet
behind it. -/
def takeOfSource (q : ReceptionQueue) (s a : ℕ) : Option ReceptionQueue :=
  (q.unlinkSelected a).bind (fun q =>
    if q.links.srcNext a = none then some ((q.setFirst s none).setLast s none)
    else (q.links.setPrev (q.links.srcNext a) none).map (fun h =>
      (q.setFirst s (q.links.srcNext a)).setLinks h))

/-- The end of a source specific query. -/
def finishOfSource (q : ReceptionQueue) (s : ℕ) (timestamp : BitVec 32) (nonempty : Bool) :
    Option (Option ℕ × ReceptionQueue) :=
  match (q.sources s).first with
  | none => some (none, if nonempty then q.setLast s none else (q.setLast s none).setEnds none none)
  | some first =>
      (q.links.packet first).bind (fun n =>
        if timestamp < n.timestamp then
          (q.links.setSrcPrev (some first) none).map (fun h => (none, q.setLinks h))
        else (q.takeOfSource s first).map (fun q => (some first, q)))

/-- The outcome of a query: the packet that is given back, and those that expire. -/
structure Retrieval where
  result : Option ℕ
  expired : List ℕ
  queue : ReceptionQueue

/-- A source specific query. -/
def getWaitingOf (q : ReceptionQueue) (s : ℕ) (timestamp : BitVec 32) (delayed : ℕ → Bool) :
    Option Retrieval :=
  if (q.sources s).first = none then some ⟨none, [], q⟩
  else
    (countOld q.links q.links.srcNext (isOld q.links timestamp delayed) q.fresh
        (q.sources s).first).bind (fun old =>
      (expireLoopOfSource s old.1 false q).bind (fun e =>
        (e.2.2.finishOfSource s timestamp e.2.1).map (fun r => ⟨r.1, e.1, r.2⟩)))

/-- The first packet of all is unlinked from the queue of its source. -/
def unlinkFromSource (q : ReceptionQueue) (a s : ℕ) : Option ReceptionQueue :=
  if q.links.srcNext a = none then some ((q.setFirst s none).setLast s none)
  else (q.links.setSrcPrev (q.links.srcNext a) none).map (fun h =>
    (q.setFirst s (q.links.srcNext a)).setLinks h)

/-- The body of the `for` loop over old packets. -/
def expireFirst (q : ReceptionQueue) : Option (ℕ × ReceptionQueue) :=
  (q.links.deref q.recvFirst).bind (fun l =>
    (q.links.packet l).bind (fun n =>
      ((q.setEnds (q.links.next l) q.recvLast).unlinkFromSource l n.sourceLink).map (fun q =>
        (l, q.deleteLink l))))

/-- The `for` loop. -/
def expireLoop : ℕ → ReceptionQueue → Option (List ℕ × ReceptionQueue)
  | 0, q => some ([], q)
  | k + 1, q => q.expireFirst.bind (fun r => (expireLoop k r.2).map (fun e => (r.1 :: e.1, e.2)))

/-- The packet selected is the first of all. -/
def takeFirst (q : ReceptionQueue) (a s : ℕ) : Option ReceptionQueue :=
  (q.links.setPrevOf (q.links.next a) none).bind (fun h =>
    ((q.setLinks h).setEnds (q.links.next a)
      (if q.links.next a = none then none else q.recvLast)).unlinkFromSource a s)

/-- The end of a source unspecific query; `l` is the first packet that is not old. -/
def finish (q : ReceptionQueue) (timestamp : BitVec 32) (l : Option ℕ) :
    Option (Option ℕ × ReceptionQueue) :=
  match q.recvFirst with
  | none => some (none, q.setEnds none none)
  | some first =>
      (q.links.packet first).bind (fun n =>
        if timestamp < n.timestamp then
          (q.links.setPrev l none).map (fun h => (none, q.setLinks h))
        else (q.takeFirst first n.sourceLink).map (fun q => (some first, q)))

/-- A source unspecific query. -/
def getWaitingOfAll (q : ReceptionQueue) (timestamp : BitVec 32) (delayed : ℕ → Bool) :
    Option Retrieval :=
  (countOld q.links q.links.next (isOld q.links timestamp delayed) q.fresh q.recvFirst).bind
    (fun old =>
      (expireLoop old.1 q).bind (fun e =>
        (e.2.finish timestamp old.2).map (fun r => ⟨r.1, e.1, r.2⟩)))

/-- `getWaiting(timestamp, src)` -/
def getWaiting (q : ReceptionQueue) (timestamp : BitVec 32) (src : Option ℕ) (delayed : ℕ → Bool) :
    Option Retrieval :=
  match src with
  | some s => if q.isMine s then q.getWaitingOf s timestamp delayed else some ⟨none, [], q⟩
  | none => q.getWaitingOfAll timestamp delayed

/-- `getData(stamp, src)`: the link of the packet that is given back is deleted. -/
def getData (q : ReceptionQueue) (stamp : BitVec 32) (src : Option ℕ) (delayed : ℕ → Bool) :
    Option Retrieval :=
  (q.getWaiting stamp src delayed).map (fun r =>
    { r with queue := r.result.elim r.queue r.queue.deleteLink })

/-! ## Purging -/

/-- The loop of `purgeIncomingQueue`, and the packets deleted. -/
def purgeLoop : ℕ → ReceptionQueue → Option (List ℕ × ReceptionQueue)
  | 0, q => if q.recvFirst = none then some ([], q) else none
  | rounds + 1, q =>
      if q.recvFirst = none then some ([], q)
      else
        (q.links.deref q.recvFirst).bind (fun first =>
          (q.links.packet first).bind (fun n =>
            (purgeLoop rounds
            ((((q.setFirst n.sourceLink none).setLast n.sourceLink none).deleteLink
              first).setEnds (q.links.next first) q.recvLast)).map (fun r => (first :: r.1, r.2))))

/-- `purgeIncomingQueue()` -/
def purgeIncomingQueue (q : ReceptionQueue) : Option (List ℕ × ReceptionQueue) :=
  purgeLoop q.fresh q

end ReceptionQueue
