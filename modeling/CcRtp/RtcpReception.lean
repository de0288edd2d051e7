/-
# Reception of RTCP compound packets

Models `QueueRTCPManager::takeInControlPacket` (`src/control.cpp`) from the header check on,
with the functions it calls: `checkSSRCInRTCPPkt`, `onGotSR`, `onGotRR`, `onGotSDES`,
`onGotSDESChunk` and `getBYE`.

The sources of the session are a map from SSRCs here; `MembershipBookkeeping` is how the
source keeps them (`KeptBy.getSourceBySSRC`).  Of the callbacks, `onGotGoodbye` is noted down;
the others are left out, and so is the rescheduling behind a BYE.  The clock stands still while
a compound is taken in.

The functions here are given the compound, and are those of a walk during which nothing else is
received.  `dispatchBYE` can receive other datagrams into the buffer of the compound:
`ReceivingManager` is the manager with this buffer, and `takeInControlPacket_walk` says when the
two do the same.

Every loop is given a number of rounds; a call that needs more is `none`.
-/
import CcRtp.RtcpCompound
import CcRtp.MembershipCalls
import CcRtp.SendingQueue
import CcRtp.WhileLoop

/-! ## The data -/

/-- `SyncSource::State` -/
inductive SyncSourceState : Type where
  | unknown
  | prevalid
  | active
  | inactive
  | leaving
  deriving DecidableEq

/-- The SDES items of a participant or of the application, by `SDESItemType`. -/
abbrev SDESItems := UInt8 → Octets

/-- What RTCP reads and writes of a source and its link.  The `flag` is set if the source has
announced itself and has not said goodbye since. -/
structure ControlSource where
  state : SyncSourceState
  flag : Bool
  participant : Option ℕ
  networkAddress : InetAddress
  dataTransportPort : BitVec 16
  controlTransportPort : BitVec 16
  prevConflict : Option ConflictingTransportAddress
  senderInfo : Option Octets
  receiverInfo : Option Octets
  lastRTCPSRTime : Timeval

/-- A source that has just been created. -/
def ControlSource.new : ControlSource :=
  ⟨.unknown, false, none, 0, 0, 0, none, none, none, ⟨0, 0⟩⟩

/-- `initStats()`, as far as RTCP is concerned. -/
def ControlSource.initStats (s : ControlSource) : ControlSource :=
  { s with flag := false, senderInfo := none, receiverInfo := none, lastRTCPSRTime := ⟨0, 0⟩ }

/-- The members of `QueueRTCPManager` that reception reads and writes.  The participants of
the application are numbered in the order of its list; `goodbyes` are the calls of
`onGotGoodbye` so far, and `clock` is what `gettimeofday` tells. -/
structure QueueRTCPManager where
  sources : BitVec 32 → Option ControlSource
  members : BitVec 32
  localSSRC : BitVec 32
  conflicts : List ConflictingTransportAddress
  participants : ℕ → SDESItems
  participantCount : ℕ
  sendPacketCount : BitVec 32
  ctrlSendCount : BitVec 32
  goodbyes : List (BitVec 32 × Octets)
  clock : Timeval

/-- A difference of the type `size_t`. -/
def sizeSub (a b : ℕ) : ℕ := (a + 2 ^ 64 - b) % 2 ^ 64

namespace QueueRTCPManager

open RTCPPacket

/-- `SDESItemTypeEND`, `SDESItemTypeCNAME` and `SDESItemTypeLast` -/
abbrev sdesItemTypeEND : UInt8 := 0

abbrev sdesItemTypeCNAME : UInt8 := 1

abbrev sdesItemTypeLast : UInt8 := 9

/-! ## Sources and collisions -/

/-- `getSourceBySSRC(ssrc, created)`: whether the source was created. -/
def getSourceBySSRC (m : QueueRTCPManager) (ssrc : BitVec 32) : Bool × QueueRTCPManager :=
  match m.sources ssrc with
  | some _ => (false, m)
  | none =>
      (true, { m with
        sources := Function.update m.sources ssrc (some .new)
        members := m.members + 1 })

/-- The source of an SSRC; one that is not registered would be created. -/
def source (m : QueueRTCPManager) (ssrc : BitVec 32) : ControlSource := (m.sources ssrc).getD .new

/-- Assignments to members of a source. -/
def modifySource (m : QueueRTCPManager) (ssrc : BitVec 32) (f : ControlSource → ControlSource) :
    QueueRTCPManager :=
  { m with sources := Function.update m.sources ssrc (some (f (m.source ssrc))) }

/-- `getHello()`, as far as it changes the source: it has announced itself. -/
def getHello (m : QueueRTCPManager) (ssrc : BitVec 32) : QueueRTCPManager :=
  m.modifySource ssrc (fun s => { s with flag := true })

/-- The time of arrival is recorded as `lastRTCPSRTime`. -/
def recordSRTime (m : QueueRTCPManager) (ssrc : BitVec 32) : QueueRTCPManager :=
  m.modifySource ssrc (fun s => { s with lastRTCPSRTime := m.clock })

/-- A conflicting address is the given one, as far as control packets are concerned. -/
def isControlAddress (na : InetAddress) (tp : BitVec 16) (c : ConflictingTransportAddress) : Bool :=
  c.networkAddress = na ∧ c.controlTransportPort = tp

/-- `searchControlConflict(na, ctp)` -/
def searchControlConflict (m : QueueRTCPManager) (na : InetAddress) (tp : BitVec 16) :
    Option ConflictingTransportAddress :=
  m.conflicts.find? (isControlAddress na tp)

/-- `dispatchBYE(reason)`, as far as it changes the manager, if nothing is received while it backs
off: before a BYE packet to more than fifty members, the number of members is estimated anew.
`ReceivingManager.dispatchBYE` is the function with what it receives. -/
def dispatchBYE (m : QueueRTCPManager) : QueueRTCPManager :=
  if m.sendPacketCount = 0 ∧ m.ctrlSendCount = 0 then m
  else if m.members > 50 then { m with members := 1 }
  else m

/-- A source is heard from another address: if it was the same one as the last time, the packet
is discarded, else the address is taken over. -/
def remoteCollision (m : QueueRTCPManager) (ssrc : BitVec 32) (na : InetAddress)
    (tp : BitVec 16) : Bool × QueueRTCPManager :=
  if (m.source ssrc).prevConflict.any (isControlAddress na tp) then (false, m)
  else
    (true, m.modifySource ssrc (fun s => { s with
      prevConflict := some ⟨na, 0, tp⟩
      controlTransportPort := tp
      networkAddress := na }))

/-- `addConflict`, with the address that a source has. -/
def addConflict (m : QueueRTCPManager) (s : ControlSource) : QueueRTCPManager :=
  { m with
    conflicts := m.conflicts ++
      [⟨s.networkAddress, s.dataTransportPort, s.controlTransportPort⟩] }

/-- The local SSRC is heard from another address.  It is not renewed: `renewLocalSSRC` draws a
new one but does not store it. -/
def localCollision (m : QueueRTCPManager) (ssrc : BitVec 32) (na : InetAddress)
    (tp : BitVec 16) : Bool × QueueRTCPManager :=
  if (m.searchControlConflict na tp).isSome then (false, m)
  else
    -- the port is set, and then to zero
    (true, ((m.addConflict (m.source ssrc)).dispatchBYE).modifySource ssrc (fun s =>
      { s with networkAddress := na, controlTransportPort := 0 }.initStats))

/-- `checkSSRCInRTCPPkt(sourceLink, is_new, network_address, transport_port)` -/
def checkSSRCInRTCPPkt (m : QueueRTCPManager) (ssrc : BitVec 32) (isNew : Bool)
    (na : InetAddress) (tp : BitVec 16) : Bool × QueueRTCPManager :=
  if isNew ∧ ssrc ≠ m.localSSRC then (true, m)
  else if (m.source ssrc).controlTransportPort ≠ tp ∨ (m.source ssrc).networkAddress ≠ na then
    if ssrc ≠ m.localSSRC then m.remoteCollision ssrc na tp else m.localCollision ssrc na tp
  else (true, m)

/-! ## Reports -/

/-- `onGotSR`: the sender info block is kept. -/
def onGotSR (m : QueueRTCPManager) (src : BitVec 32) (buf : Memory) (p : ℕ) : QueueRTCPManager :=
  m.modifySource src (fun s => { s with senderInfo := some (buf.octets (p + 8) 20) })

/-- `onGotRR`: the blocks of a report that comes from the local SSRC are kept, each in place
of the one before. -/
def onGotRR (m : QueueRTCPManager) (src : BitVec 32) (buf : Memory) (p : ℕ) : QueueRTCPManager :=
  (List.range (blockCount buf p).toNat).foldl (fun m i =>
    if m.localSSRC = getSSRC buf p then
      m.modifySource src (fun s =>
        { s with receiverInfo := some (buf.octets (p + 8 + 24 * i + 4) 20) })
    else m) m

/-! ## Source descriptions -/

/-- `RTPApplication::getParticipant(cname)` -/
def getParticipant (m : QueueRTCPManager) (cname : Octets) : Option ℕ :=
  (List.range m.participantCount).find? (fun i => m.participants i sdesItemTypeCNAME = cname)

/-- `new Participant("-")` and `addParticipant` -/
def newParticipant (m : QueueRTCPManager) : QueueRTCPManager :=
  { m with
    participants := Function.update m.participants m.participantCount
      (Function.update (fun _ => []) sdesItemTypeCNAME [45])
    participantCount := m.participantCount + 1 }

/-- `setSDESItem(part, type, value, len)`: the value goes through a C string. -/
def setSDESItem (m : QueueRTCPManager) (part : ℕ) (type : UInt8) (value : Octets) :
    QueueRTCPManager :=
  { m with
    participants := Function.update m.participants part
      (Function.update (m.participants part) type (value.takeWhile (fun c => c ≠ 0))) }

/-- The variables of the loop of `onGotSDESChunk`. -/
structure ChunkState where
  pointer : ℕ
  ended : Bool
  cname : Bool
  part : Option ℕ
  manager : QueueRTCPManager

/-- The participant of a CNAME is looked up, and made if there is none. -/
def identify (m : QueueRTCPManager) (src : BitVec 32) (cname : Octets) : ℕ × QueueRTCPManager :=
  match m.getParticipant cname with
  | some p => (p, m.modifySource src (fun s => { s with participant := some p }))
  | none =>
      (m.participantCount, m.newParticipant.modifySource src (fun s =>
        { s with participant := some m.participantCount }))

/-- The participant of an item: a CNAME tells it if it is not known yet. -/
def itemParticipant (s : ChunkState) (src : BitVec 32) (type : UInt8) (data : Octets) :
    Option ℕ × QueueRTCPManager :=
  if s.part = none ∧ type = sdesItemTypeCNAME then
    (some (s.manager.identify src data).1, (s.manager.identify src data).2)
  else (s.part, s.manager)

/-- An item is stored, and a CNAME makes the source an active one. -/
def storeItem (m : QueueRTCPManager) (part : Option ℕ) (src : BitVec 32) (type : UInt8)
    (data : Octets) : QueueRTCPManager :=
  let m := part.elim m (fun p => m.setSDESItem p type data)
  if type = sdesItemTypeCNAME then m.modifySource src (fun s => { s with state := .active })
  else m

/-- The body of the loop of `onGotSDESChunk`; the chunk is at offset `chunk`.  PRIV is among
the items up to the last type, so its own branch is never reached. -/
def chunkItem (src : BitVec 32) (buf : Memory) (chunk : ℕ) (s : ChunkState) : ChunkState :=
  let type := buf (chunk + s.pointer)
  let len := (buf (chunk + s.pointer + 1)).toNat
  let data := buf.octets (chunk + s.pointer + 2) len
  if type > sdesItemTypeEND ∧ type ≤ sdesItemTypeLast then
    let r := itemParticipant s src type data
    { pointer := s.pointer + 2 + len
      ended := s.ended
      cname := s.cname || type = sdesItemTypeCNAME
      part := r.1
      manager := r.2.storeItem r.1 src type data }
  else if type = sdesItemTypeEND then
    { s with pointer := s.pointer + 1 + (s.pointer + 1) % 4, ended := true }
  else { s with pointer := s.pointer + 1 }

/-- `onGotSDESChunk(source, chunk, len)`: whether there was a CNAME. -/
def onGotSDESChunk (rounds : ℕ) (m : QueueRTCPManager) (src : BitVec 32) (buf : Memory)
    (chunk len : ℕ) : Option (Bool × QueueRTCPManager) :=
  (whileLoop (fun s => s.pointer < len ∧ s.ended = false)
    (fun s => some (chunkItem src buf chunk s)) rounds
    ⟨4, false, false, (m.source src).participant, m⟩).map (fun s => (s.cname, s.manager))

/-- The loop of `onGotSDES`, for the chunks that are left. -/
def chunkLoop (rounds : ℕ) (src : BitVec 32) (buf : Memory) (len : ℕ) :
    ℕ → ℕ → Bool → QueueRTCPManager → Option (Bool × QueueRTCPManager)
  | 0, _, cname, m => some (cname, m)
  | chunks + 1, pointer, cname, m =>
      let chunk := pointer + 4
      let ssrc := BitVec.ofNat 32 (ofBigEndian (buf.octets chunk 4))
      let (_, m) := m.getSourceBySSRC ssrc
      -- the length of the whole packet is taken for that of the chunk
      (onGotSDESChunk rounds m src buf chunk len).bind (fun (found, m) =>
        chunkLoop rounds src buf len chunks (chunk + len) (cname || found) (m.getHello ssrc))

/-- `onGotSDES(source, pkt)`: at least one chunk is looked at. -/
def onGotSDES (rounds : ℕ) (m : QueueRTCPManager) (src : BitVec 32) (buf : Memory) (p : ℕ) :
    Option (Bool × QueueRTCPManager) :=
  chunkLoop rounds src buf (getLength buf p) (max 1 (blockCount buf p).toNat) p false m

/-! ## BYE packets -/

/-- `endpointer` of `getBYE`, a `uint16`: where the reason stands. -/
def endpointer (buf : Memory) (pkt pointer : ℕ) : ℕ :=
  (pointer + 4 + 4 * (blockCount buf pkt).toNat) % 2 ^ 16

/-- The reason for leaving, as the C string that `getBYE` hands on. -/
def byeReason (buf : Memory) (pkt pointer : ℕ) : Octets :=
  if 4 + 4 * (blockCount buf pkt).toNat < getLength buf pkt then
    (buf.octets (endpointer buf pkt pointer + 1)
      (buf (endpointer buf pkt pointer)).toNat).takeWhile (fun c => c ≠ 0)
  else []

/-- `if ( getGoodbye() ) onGotGoodbye(source, reason)`: only a source that has announced itself
says goodbye. -/
def getGoodbye (m : QueueRTCPManager) (ssrc : BitVec 32) (reason : Octets) : QueueRTCPManager :=
  if (m.source ssrc).flag then
    { m.modifySource ssrc (fun s => { s with flag := false }) with
      goodbyes := m.goodbyes ++ [(ssrc, reason)] }
  else m

/-- `BYESource(ssrc)`, for a registered source. -/
def BYESource (m : QueueRTCPManager) : QueueRTCPManager := { m with members := m.members - 1 }

/-- A round of the loop of `getBYE`; every round takes the first SSRC of the packet. -/
def leave (m : QueueRTCPManager) (ssrc : BitVec 32) (reason : Octets) : QueueRTCPManager :=
  (((m.getSourceBySSRC ssrc).2.getGoodbye ssrc reason).BYESource).modifySource ssrc
    (fun s => { s with state := .leaving })

/-- `getBYE(pkt, pointer, len)`: the offset `pointer` afterwards. -/
def getBYE (m : QueueRTCPManager) (buf : Memory) (pkt pointer : ℕ) : ℕ × QueueRTCPManager :=
  if blockCount buf pkt = 0 then (pointer, m)
  else
    (pointer + getLength buf pkt,
      (fun m =>
        m.leave (getSSRC buf pkt) (byeReason buf pkt pointer))^[(blockCount buf pkt).toNat] m)

/-! ## The walk over the compound -/

/-- The variables of `takeInControlPacket`: the offset, the packets looked at so far, and
whether a CNAME was found. -/
structure Walk where
  pointer : ℕ
  visited : List ℕ
  cname : Bool
  manager : QueueRTCPManager

section

variable (rounds : ℕ) (buf : Memory) (len : ℕ) (src : BitVec 32) (na : InetAddress) (tp : BitVec 16)

/-- The source of the first packet, with its address. -/
def registerFirst (m : QueueRTCPManager) : Bool × QueueRTCPManager :=
  match m.getSourceBySSRC src with
  | (true, m) =>
      (true, (m.modifySource src (fun s =>
        { s with controlTransportPort := tp, networkAddress := na })).getHello src)
  | (false, m) =>
      (false, if (m.source src).controlTransportPort = 0 then
          m.modifySource src (fun s => { s with controlTransportPort := tp })
        else m)

/-- The reception time is recorded; and the first packet, if it is a sender report. -/
def firstReport (created : Bool) (m : QueueRTCPManager) : Walk :=
  let m := m.recordSRTime src
  if type buf 0 = tSR then
    let r := m.checkSSRCInRTCPPkt src created na tp
    -- the sender info is taken whatever the check says
    ⟨getLength buf 0, [0], false, (if r.1 then r.2.recordSRTime src else r.2).onGotSR src buf 0⟩
  else ⟨0, [], false, m⟩

/-- The source of the packet is looked up and checked. -/
def checkPacket (w : Walk) : Bool × QueueRTCPManager :=
  let ssrc := getSSRC buf w.pointer
  let (created, m) := w.manager.getSourceBySSRC ssrc
  m.checkSSRCInRTCPPkt ssrc created na tp

/-- On to the next packet. -/
def advance (w : Walk) (cname : Bool) (m : QueueRTCPManager) : Walk :=
  ⟨w.pointer + getLength buf w.pointer, w.visited ++ [w.pointer], cname, m⟩

/-- The body of the loop over receiver reports. -/
def reportBody (w : Walk) : Option Walk :=
  match checkPacket buf na tp w with
  | (true, m) => some (advance buf w w.cname (m.onGotRR src buf w.pointer))
  | (false, m) => some (advance buf w w.cname m)

/-- The body of the loop over SDES and APP packets. -/
def descriptionBody (w : Walk) : Option Walk :=
  match checkPacket buf na tp w with
  | (true, m) =>
      if type buf w.pointer = tSDES then
        (m.onGotSDES rounds src buf w.pointer).map (fun (cname, m) =>
          advance buf w (w.cname || cname) m)
      else some (advance buf w w.cname m)
  | (false, m) => some (advance buf w w.cname m)

/-- The body of the loop over BYE packets.  The packet at `pkt` is looked at in every round. -/
def byeBody (pkt : ℕ) (w : Walk) : Option Walk :=
  match checkPacket buf na tp { w with pointer := pkt } with
  | (true, m) =>
      let r := m.getBYE buf pkt w.pointer
      some { w with pointer := r.1, visited := w.visited ++ [pkt], manager := r.2 }
  | (false, m) => some { w with visited := w.visited ++ [pkt], manager := m }

/-- The three loops. -/
def walkLoops (w : Walk) : Option Walk :=
  (whileLoop (fun w => w.pointer < len ∧ type buf w.pointer = tRR)
    (reportBody buf src na tp) rounds w).bind (fun w =>
      (whileLoop
        (fun w => w.pointer < len ∧ (type buf w.pointer = tSDES ∨ type buf w.pointer = tAPP))
        (descriptionBody rounds buf src na tp) rounds w).bind (fun w =>
          whileLoop (fun w' => w'.pointer < len ∧ type buf w.pointer = tBYE)
            (byeBody buf na tp w.pointer) rounds w))

end

/-- `takeInControlPacket`, for the `len` octets that were received from the given address and
have been decrypted, if no other datagram is received meanwhile. -/
def takeInControlPacket (rounds : ℕ) (m : QueueRTCPManager) (buf : Memory) (len : ℕ)
    (na : InetAddress) (tp : BitVec 16) : Option Walk :=
  (RTCPCompoundHandler.checkCompoundRTCPHeader buf len).bind (fun accepted =>
    if accepted then
      let src := getSSRC buf 0
      let (created, m) := m.registerFirst src na tp
      walkLoops rounds buf len src na tp (firstReport buf src na tp created m)
    else some ⟨0, [], false, m⟩)

/-- The arguments of the call of `onGotRRSRExtension` behind the walk, if there is one: where
the octets stand, and how many they are. -/
def onGotRRSRExtension (len : ℕ) (w : Walk) : Option (ℕ × ℕ) :=
  if w.pointer ≠ len then some (w.pointer, sizeSub len w.pointer) else none

end QueueRTCPManager

/-! ## The sources and the membership table -/

/-- The transport addresses of a source, in the membership table and here. -/
def SyncSourceLink.transport (sl : SyncSourceLink) :
    InetAddress × BitVec 16 × BitVec 16 × Option ConflictingTransportAddress :=
  (sl.networkAddress, sl.dataTransportPort, sl.controlTransportPort, sl.prevConflict)

def ControlSource.transport (s : ControlSource) :
    InetAddress × BitVec 16 × BitVec 16 × Option ConflictingTransportAddress :=
  (s.networkAddress, s.dataTransportPort, s.controlTransportPort, s.prevConflict)

namespace QueueRTCPManager

variable {n : ℕ} [NeZero n]

/-- The sources are those of a membership table that is in order. -/
structure KeptBy (m : QueueRTCPManager) (t : MembershipBookkeeping n)
    (chains : Fin n → List ℕ) : Prop where
  orderly : t.Orderly chains
  listed : ∀ a ssrc, t.links.view SyncSourceLink.id a = some ssrc → ssrc ∈ t.idsFor chains ssrc
  registered : ∀ ssrc, (m.sources ssrc).isSome = true ↔ ssrc ∈ t.idsFor chains ssrc
  transport : ∀ a ssrc s, t.links.view SyncSourceLink.id a = some ssrc →
    m.sources ssrc = some s → t.links.view SyncSourceLink.transport a = some s.transport
  members : t.members = m.members

/-- **The table does to the sources what the map does.** -/
theorem KeptBy.getSourceBySSRC (uninit : ℕ → Bool) {m : QueueRTCPManager}
    {t : MembershipBookkeeping n} {chains : Fin n → List ℕ} (h : m.KeptBy t chains)
    (ssrc : BitVec 32) :
    ∃ a t' chains', t.getSourceBySSRC uninit ssrc = some (a, (m.getSourceBySSRC ssrc).1, t') ∧
      t'.links.view SyncSourceLink.id a = some ssrc ∧
      (m.getSourceBySSRC ssrc).2.KeptBy t' chains' := by
  obtain ⟨a, created, t', chains', hget, hreq⟩ := h.orderly.getSourceBySSRC uninit ssrc
  have hids := hreq.member SyncSourceLink.id (fun _ _ _ => rfl)
  have htransport := hreq.member SyncSourceLink.transport (fun _ _ _ => rfl)
  refine ⟨a, t', chains', ?_⟩
  cases hs : m.sources ssrc with
  | some s =>
      have hmem : ssrc ∈ t.idsFor chains ssrc := by
        rw [← h.registered, hs]
        rfl
      have hold : created = false := by
        rw [← Bool.not_eq_true, hreq.created_iff, not_not]
        exact hmem
      subst hold
      rw [QueueRTCPManager.getSourceBySSRC, hs]
      simp only [Bool.false_eq_true, if_false] at hids htransport
      have hidsFor : ∀ x, x ∈ t'.idsFor chains' x ↔ x ∈ t.idsFor chains x := by
        intro x
        rw [hreq.ids]
        refine or_iff_right_of_imp ?_
        rintro rfl
        exact hmem
      refine ⟨hget, hreq.id_eq, hreq.orderly, ?_, ?_, ?_, ?_⟩
      · intro b x hb
        rw [hidsFor]
        exact h.listed b x (hids ▸ hb)
      · intro x
        rw [hidsFor, h.registered]
      · intro b x s' hb hs'
        rw [htransport]
        exact h.transport b x s' (hids ▸ hb) hs'
      · exact hreq.members.trans h.members
  | none =>
      have hnot : ssrc ∉ t.idsFor chains ssrc := by
        rw [← h.registered, hs]
        exact Bool.false_ne_true
      have hnew : created = true := hreq.created_iff.mpr hnot
      subst hnew
      rw [QueueRTCPManager.getSourceBySSRC, hs]
      simp only [if_true] at hids htransport
      have hsplit : ∀ b x, t'.links.view SyncSourceLink.id b = some x →
          (b = a ∧ x = ssrc) ∨ (b ≠ a ∧ x ≠ ssrc ∧ t.links.view SyncSourceLink.id b = some x) := by
        intro b x hb
        by_cases hba : b = a
        · subst hba
          rw [hreq.id_eq, Option.some_inj] at hb
          exact Or.inl ⟨rfl, hb.symm⟩
        · rw [hids, Function.update_of_ne hba] at hb
          refine Or.inr ⟨hba, ?_, hb⟩
          rintro rfl
          exact hnot (h.listed b x hb)
      refine ⟨hget, hreq.id_eq, hreq.orderly, ?_, ?_, ?_, ?_⟩
      · intro b x hb
        rw [hreq.ids]
        rcases hsplit b x hb with ⟨-, hx⟩ | ⟨-, -, hold⟩
        · exact Or.inl hx
        · exact Or.inr (h.listed b x hold)
      · intro x
        rw [hreq.ids, ← h.registered]
        show (Function.update m.sources ssrc (some .new) x).isSome = true ↔ _
        by_cases hx : x = ssrc
        · rw [hx, Function.update_self]
          exact iff_of_true rfl (Or.inl rfl)
        · rw [Function.update_of_ne hx, or_iff_right hx]
      · intro b x s hb hs'
        replace hs' : Function.update m.sources ssrc (some .new) x = some s := hs'
        rcases hsplit b x hb with ⟨rfl, rfl⟩ | ⟨hba, hx, hold⟩
        · rw [Function.update_self, Option.some_inj] at hs'
          rw [htransport, Function.update_self, ← hs']
          rfl
        · rw [Function.update_of_ne hx] at hs'
          rw [htransport, Function.update_of_ne hba]
          exact h.transport b x s hold hs'
      · show t'.members = m.members + 1
        rw [← h.members]
        exact hreq.members

end QueueRTCPManager
