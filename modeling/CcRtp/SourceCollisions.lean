/-
# Collisions of SSRCs

Models what `takeInDataPacket` (`src/incqueue.cpp`) does to the source of a packet that has
passed decryption: `getSourceBySSRC`, `checkSSRCInIncomingRTPPkt` with the conflict list,
`renewLocalSSRC` and `recordReception`.  The same check for RTCP packets is
`QueueRTCPManager.checkSSRCInRTCPPkt`.

* `drawSSRC_spec` : `renewLocalSSRC` draws an SSRC that nobody uses;
* `local_collision_never_resolved` : but it does not store it, and for data packets the call
  does not even return;
* `flip_flop_iff` : when a source heard from two addresses settles on one of them.
-/
import CcRtp.RtcpReception

/-! ## The data -/

/-- The part of an incoming queue that knows the sources, with what `dispatchBYE` looks at. -/
structure IncomingSources (n : ℕ) where
  table : MembershipBookkeeping n
  localSSRC : BitVec 32
  conflicts : List ConflictingTransportAddress
  policy : ReceptionPolicy
  sendPacketCount : BitVec 32
  ctrlSendCount : BitVec 32

/-! ## The functions of the source -/

/-- A conflicting address is the given one, as far as data packets are concerned. -/
def ConflictingTransportAddress.isDataAddress (c : ConflictingTransportAddress)
    (addr : SocketAddress) : Bool :=
  c.networkAddress = addr.networkAddress ∧ c.dataTransportPort = addr.transportPort

namespace SyncSourceLink

/-- The recorded address for data packets. -/
def dataAddress (sl : SyncSourceLink) : SocketAddress := ⟨sl.networkAddress, sl.dataTransportPort⟩

/-- `setDataTransportPort` and `setNetworkAddress` -/
def setDataAddress (sl : SyncSourceLink) (addr : SocketAddress) : SyncSourceLink :=
  { sl with dataTransportPort := addr.transportPort, networkAddress := addr.networkAddress }

/-- `initStats` -/
def initStats (sl : SyncSourceLink) : SyncSourceLink :=
  { sl with
    obsPacketCount := 0
    obsOctetCount := 0
    maxSeqNum := 0
    initialDataTimestamp := 0
    flag := false
    badSeqNum := BitVec.ofNat 32 (seqNumMod + 1)
    probation := 0
    seqNumAccum := 0 }

/-- The first data packet of a source that is known from RTCP: its port is recorded. -/
def learnPort (sl : SyncSourceLink) (addr : SocketAddress) : SyncSourceLink :=
  if sl.dataTransportPort = 0 then { sl with dataTransportPort := addr.transportPort } else sl

/-- A source is heard from another address: if it was the same one as the last time, the packet
is discarded, else the address is taken over. -/
def remoteCollision (sl : SyncSourceLink) (addr : SocketAddress) : Bool × SyncSourceLink :=
  if sl.prevConflict.any (fun c => c.isDataAddress addr) then (false, sl)
  else
    (true, { sl.setDataAddress addr with
      prevConflict := some ⟨addr.networkAddress, addr.transportPort, 0⟩ })

end SyncSourceLink

/-- `MAXTRIES` of `renewLocalSSRC` -/
abbrev maxTries : ℕ := 20

/-- The loop of `renewLocalSSRC`: numbers are drawn until one is not registered, or often
enough. -/
def drawLoop (isRegistered : BitVec 32 → Option Bool) (random32 : ℕ → BitVec 32) :
    ℕ → ℕ → Option (BitVec 32)
  | 0, _ => none
  | rounds + 1, tries =>
      let newssrc := random32 tries
      if tries + 1 < maxTries then
        (isRegistered newssrc).bind (fun found =>
          if found then drawLoop isRegistered random32 rounds (tries + 1) else some newssrc)
      else some newssrc

/-- The SSRC that `renewLocalSSRC` draws. -/
def drawSSRC (isRegistered : BitVec 32 → Option Bool) (random32 : ℕ → BitVec 32) :
    Option (BitVec 32) :=
  drawLoop isRegistered random32 maxTries 0

/-- `searchDataConflict(na, dtp)`.  The loop does not look for the end of the list: behind it,
a null pointer is followed. -/
def searchDataConflict (addr : SocketAddress) :
    List ConflictingTransportAddress → Option (Option ConflictingTransportAddress)
  | [] => none
  | c :: l => if c.isDataAddress addr then some (some c) else searchDataConflict addr l

namespace IncomingSources

variable {n : ℕ}

/-- A link object with new contents. -/
def setLink (q : IncomingSources n) (a : ℕ) (sl : SyncSourceLink) : IncomingSources n :=
  { q with table := q.table.setLink a sl }

/-- `addConflict`, with the addresses that a source has. -/
def addConflict (q : IncomingSources n) (sl : SyncSourceLink) : IncomingSources n :=
  { q with
    conflicts := q.conflicts ++
      [⟨sl.networkAddress, sl.dataTransportPort, sl.controlTransportPort⟩] }

/-- `dispatchBYE(reason)`, as far as it changes the queue. -/
def dispatchBYE (q : IncomingSources n) : IncomingSources n :=
  if q.sendPacketCount = 0 ∧ q.ctrlSendCount = 0 then q
  else if q.table.members > 50 then { q with table := { q.table with members := 1 } }
  else q

variable [NeZero n] (random32 : ℕ → BitVec 32)

/-- `renewLocalSSRC()`: what is drawn is not stored. -/
def renewLocalSSRC (q : IncomingSources n) : Option (IncomingSources n) :=
  (drawSSRC q.table.isRegistered random32).map (fun _ => q)

/-- The local SSRC is heard from an address that is not in the conflict list. -/
def newCollision (q : IncomingSources n) (a : ℕ) (sl : SyncSourceLink) (addr : SocketAddress) :
    Option (IncomingSources n) :=
  ((q.addConflict sl).dispatchBYE.renewLocalSSRC random32).map (fun q =>
    q.setLink a { ({ sl.setDataAddress addr with controlTransportPort := 0 }.initStats) with
      probation := q.policy.minValidPacketSequence })

/-- `checkSSRCInIncomingRTPPkt(sourceLink, is_new, network_address, transport_port)` -/
def checkSSRCInIncomingRTPPkt (q : IncomingSources n) (a : ℕ) (isNew : Bool)
    (addr : SocketAddress) : Option (Bool × IncomingSources n) :=
  (q.table.links a).bind (fun sl =>
    if isNew ∧ sl.id ≠ q.localSSRC then some (true, q)
    else if sl.dataTransportPort ≠ addr.transportPort ∨ sl.networkAddress ≠ addr.networkAddress then
      if sl.id ≠ q.localSSRC then
        let r := sl.remoteCollision addr
        some (r.1, q.setLink a r.2)
      else
        (searchDataConflict addr q.conflicts).bind (fun
          -- `updateConflict` notes the time
          | some _ => some (false, q)
          | none => (q.newCollision random32 a sl addr).map (fun q => (true, q)))
    else some (true, q))

/-- The source of a data packet, as `takeInDataPacket` gets it, and whether it is new. -/
def sourceOfPacket (uninit : ℕ → Bool) (q : IncomingSources n) (ssrc : BitVec 32)
    (addr : SocketAddress) : Option (ℕ × Bool × IncomingSources n) :=
  (q.table.getSourceBySSRC uninit ssrc).bind (fun (a, created, t) =>
    let f := fun (sl : SyncSourceLink) =>
      -- `getHello` sets the flag
      if created then { (sl.setDataAddress addr).initStats with
        probation := q.policy.minValidPacketSequence
        flag := true }
      else sl.learnPort addr
    (t.modifyLink a f).map (fun t => (a, created, { q with table := t })))

/-- `recordReception`, if the packet has been assigned to the source. -/
def recordReception (q : IncomingSources n) (a : ℕ) (assigned : Bool) (pkt : ReceivedPacket) :
    Option (IncomingSources n) :=
  if assigned then
    (q.table.links a).map (fun sl => q.setLink a (sl.recordReception q.policy pkt).2)
  else some q

/-- `takeInDataPacket` from `getSourceBySSRC` on: the link of the source and what
`checkSSRCInIncomingRTPPkt` says. -/
def takeInDataPacket (uninit : ℕ → Bool) (q : IncomingSources n) (ssrc : BitVec 32)
    (addr : SocketAddress) (pkt : ReceivedPacket) : Option (ℕ × Bool × IncomingSources n) :=
  (q.sourceOfPacket uninit ssrc addr).bind (fun (a, created, q) =>
    (q.checkSSRCInIncomingRTPPkt random32 a created addr).bind (fun (assigned, q) =>
      (q.recordReception a assigned pkt).map (fun q => (a, assigned, q))))

end IncomingSources

/-! ## The local SSRC -/

/-- From some try on. -/
theorem drawLoop_spec {isRegistered : BitVec 32 → Option Bool} {random32 : ℕ → BitVec 32}
    (hreturns : ∀ ssrc, (isRegistered ssrc).isSome = true) (rounds : ℕ) :
    ∀ tries, tries + rounds = maxTries →
      (∃ i, tries ≤ i ∧ i < maxTries ∧ isRegistered (random32 i) = some false) →
      ∃ newssrc, drawLoop isRegistered random32 rounds tries = some newssrc ∧
        isRegistered newssrc = some false := by
  induction rounds with
  | zero =>
      rintro tries htries ⟨i, hle, hlt, -⟩
      omega
  | succ rounds ih =>
      rintro tries htries ⟨i, hle, hlt, hi⟩
      by_cases hmore : tries + 1 < maxTries
      · rw [drawLoop, if_pos hmore]
        obtain ⟨found, hfound⟩ := Option.isSome_iff_exists.mp (hreturns (random32 tries))
        rw [hfound, Option.bind_some]
        cases found with
        | false => exact ⟨random32 tries, rfl, hfound⟩
        | true =>
            have hne : i ≠ tries := by
              rintro rfl
              rw [hi] at hfound
              cases hfound
            exact ih (tries + 1) (by omega) ⟨i, by omega, hlt, hi⟩
      · -- the last try, so this is the one
        have hlast : i = tries := by omega
        rw [drawLoop, if_neg hmore]
        exact ⟨random32 tries, rfl, hlast ▸ hi⟩

/-- **`renewLocalSSRC` draws an SSRC that is not registered**, if there is one among the first
twenty numbers. -/
theorem drawSSRC_spec {isRegistered : BitVec 32 → Option Bool} {random32 : ℕ → BitVec 32}
    (hreturns : ∀ ssrc, (isRegistered ssrc).isSome = true)
    (hfree : ∃ i < maxTries, isRegistered (random32 i) = some false) :
    ∃ newssrc, drawSSRC isRegistered random32 = some newssrc ∧
      isRegistered newssrc = some false := by
  obtain ⟨i, hlt, hi⟩ := hfree
  exact drawLoop_spec hreturns maxTries 0 rfl ⟨i, Nat.zero_le i, hlt, hi⟩

/-- The loop always ends. -/
theorem drawLoop_isSome {isRegistered : BitVec 32 → Option Bool} (random32 : ℕ → BitVec 32)
    (hreturns : ∀ ssrc, (isRegistered ssrc).isSome = true) (rounds : ℕ) :
    ∀ tries, tries + (rounds + 1) = maxTries →
      (drawLoop isRegistered random32 (rounds + 1) tries).isSome = true := by
  induction rounds with
  | zero =>
      intro tries htries
      rw [drawLoop, if_neg (by omega)]
      rfl
  | succ rounds ih =>
      intro tries htries
      rw [drawLoop, if_pos (by omega)]
      obtain ⟨found, hfound⟩ := Option.isSome_iff_exists.mp (hreturns (random32 tries))
      rw [hfound, Option.bind_some]
      cases found with
      | false => rfl
      | true => exact ih (tries + 1) (by omega)

/-- The list of conflicts is searched beyond its end. -/
theorem searchDataConflict_eq_none {addr : SocketAddress}
    {l : List ConflictingTransportAddress} (h : ∀ c ∈ l, c.isDataAddress addr = false) :
    searchDataConflict addr l = none := by
  induction l with
  | nil => rfl
  | cons c l ih =>
      rw [searchDataConflict, h c List.mem_cons_self]
      exact ih (fun d hd => h d (List.mem_cons_of_mem c hd))

namespace IncomingSources

variable {n : ℕ} [NeZero n]

/-- A data packet with the local SSRC comes from an address that is not the recorded one and
not in the conflict list. -/
def IsNewCollision (q : IncomingSources n) (sl : SyncSourceLink) (addr : SocketAddress) : Prop :=
  sl.id = q.localSSRC ∧ sl.dataAddress ≠ addr ∧ ∀ c ∈ q.conflicts, c.isDataAddress addr = false

/-- After the call the local SSRC is another one, and not registered. -/
def Resolved (ssrc : BitVec 32) (r : Option (Bool × IncomingSources n)) : Prop :=
  ∃ assigned q', r = some (assigned, q') ∧ q'.localSSRC ≠ ssrc ∧
    q'.table.isRegistered q'.localSSRC = some false

/-- The addresses are compared member by member. -/
theorem differs_iff {sl : SyncSourceLink} {addr : SocketAddress} :
    (sl.dataTransportPort ≠ addr.transportPort ∨ sl.networkAddress ≠ addr.networkAddress) ↔
      sl.dataAddress ≠ addr := by
  obtain ⟨na, tp⟩ := addr
  rw [SyncSourceLink.dataAddress, ne_eq, ne_eq, ne_eq, SocketAddress.mk.injEq, not_and_or,
    or_comm]

/-- **On a new collision the call does not return.** -/
theorem checkSSRCInIncomingRTPPkt_of_newCollision (random32 : ℕ → BitVec 32)
    {q : IncomingSources n} {a : ℕ} {sl : SyncSourceLink} (hsl : q.table.links a = some sl)
    (isNew : Bool) {addr : SocketAddress} (h : q.IsNewCollision sl addr) :
    q.checkSSRCInIncomingRTPPkt random32 a isNew addr = none := by
  obtain ⟨hid, hdiffers, hnew⟩ := h
  rw [checkSSRCInIncomingRTPPkt, hsl, Option.bind_some, if_neg (fun h => h.2 hid),
    if_pos (differs_iff.mpr hdiffers), if_neg (not_not.mpr hid), searchDataConflict_eq_none hnew]
  rfl

omit [NeZero n] in
theorem localSSRC_dispatchBYE (q : IncomingSources n) : q.dispatchBYE.localSSRC = q.localSSRC := by
  rw [dispatchBYE]
  split_ifs <;> rfl

/-- The branch behind the search would leave the local SSRC, too. -/
theorem localSSRC_of_newCollision {random32 : ℕ → BitVec 32} {q q' : IncomingSources n} {a : ℕ}
    {sl : SyncSourceLink} {addr : SocketAddress}
    (h : q.newCollision random32 a sl addr = some q') : q'.localSSRC = q.localSSRC := by
  obtain ⟨q₁, hq₁, rfl⟩ := Option.map_eq_some_iff.mp h
  obtain ⟨newssrc, -, rfl⟩ := Option.map_eq_some_iff.mp hq₁
  exact localSSRC_dispatchBYE _

end IncomingSources

namespace QueueRTCPManager

/-- The same for RTCP packets: the local SSRC from an unknown address. -/
def IsNewCollision (m : QueueRTCPManager) (addr : SocketAddress) : Prop :=
  ((m.source m.localSSRC).controlTransportPort ≠ addr.transportPort ∨
      (m.source m.localSSRC).networkAddress ≠ addr.networkAddress) ∧
    m.searchControlConflict addr.networkAddress addr.transportPort = none

def Resolved (ssrc : BitVec 32) (m : QueueRTCPManager) : Prop :=
  m.localSSRC ≠ ssrc ∧ m.sources m.localSSRC = none

/-- `renewLocalSSRC()`, with the sources as a map. -/
def renewLocalSSRC (m : QueueRTCPManager) (random32 : ℕ → BitVec 32) : Option QueueRTCPManager :=
  (drawSSRC (fun ssrc => some (m.sources ssrc).isSome) random32).map (fun _ => m)

/-- The branch of a new collision, with every call in its place. -/
def newCollision (m : QueueRTCPManager) (random32 : ℕ → BitVec 32) (addr : SocketAddress) :
    Option QueueRTCPManager :=
  ((m.addConflict (m.source m.localSSRC)).dispatchBYE.renewLocalSSRC random32).map (fun m' =>
    m'.modifySource m.localSSRC (fun s =>
      { s with networkAddress := addr.networkAddress, controlTransportPort := 0 }.initStats))

theorem localSSRC_dispatchBYE (m : QueueRTCPManager) : m.dispatchBYE.localSSRC = m.localSSRC := by
  rw [dispatchBYE]
  split_ifs <;> rfl

/-- **On a new collision `checkSSRCInRTCPPkt` goes through that branch**, whatever is drawn. -/
theorem checkSSRCInRTCPPkt_of_newCollision (random32 : ℕ → BitVec 32) {m : QueueRTCPManager}
    (isNew : Bool) {addr : SocketAddress} (h : m.IsNewCollision addr) :
    m.newCollision random32 addr
      = some (m.checkSSRCInRTCPPkt m.localSSRC isNew addr.networkAddress addr.transportPort).2 := by
  obtain ⟨hdiffers, hnew⟩ := h
  have hdraw : (drawSSRC (fun ssrc => some
      ((m.addConflict (m.source m.localSSRC)).dispatchBYE.sources ssrc).isSome) random32).isSome
      = true :=
    drawLoop_isSome random32 (fun _ => rfl) 19 0 rfl
  obtain ⟨newssrc, hnewssrc⟩ := Option.isSome_iff_exists.mp hdraw
  rw [newCollision, renewLocalSSRC, hnewssrc, checkSSRCInRTCPPkt, if_neg (fun h => h.2 rfl),
    if_pos hdiffers, if_neg (not_not.mpr rfl), localCollision, hnew]
  rfl

/-- The local SSRC stays. -/
theorem localSSRC_of_newCollision {random32 : ℕ → BitVec 32} {m m' : QueueRTCPManager}
    {addr : SocketAddress} (h : m.newCollision random32 addr = some m') :
    m'.localSSRC = m.localSSRC := by
  obtain ⟨m₁, hm₁, rfl⟩ := Option.map_eq_some_iff.mp h
  obtain ⟨newssrc, -, rfl⟩ := Option.map_eq_some_iff.mp hm₁
  exact localSSRC_dispatchBYE _

end QueueRTCPManager

/-- **A collision with the local source is never resolved.**  For every state of the queue,
every data or RTCP packet with the local SSRC from an address that is neither the recorded one
nor in the conflict list, and all numbers that are drawn, the local SSRC after the call is not
another one that is not registered.  For a data packet this is because the call does not
return; behind the search the local SSRC would stay, as it does for an RTCP packet. -/
theorem local_collision_never_resolved {n : ℕ} [NeZero n] (random32 : ℕ → BitVec 32) (isNew : Bool)
    (addr : SocketAddress) :
    (∀ (q : IncomingSources n) (a : ℕ) (sl : SyncSourceLink), q.table.links a = some sl →
      q.IsNewCollision sl addr →
      ¬ IncomingSources.Resolved sl.id (q.checkSSRCInIncomingRTPPkt random32 a isNew addr) ∧
        ∀ q', q.newCollision random32 a sl addr = some q' → q'.localSSRC = sl.id) ∧
    (∀ m : QueueRTCPManager, m.IsNewCollision addr →
      ¬ QueueRTCPManager.Resolved m.localSSRC (m.checkSSRCInRTCPPkt m.localSSRC isNew
          addr.networkAddress addr.transportPort).2 ∧
        m.newCollision random32 addr = some (m.checkSSRCInRTCPPkt m.localSSRC isNew
          addr.networkAddress addr.transportPort).2) := by
  constructor
  · intro q a sl hsl hnew
    refine ⟨?_, fun q' hq' => (IncomingSources.localSSRC_of_newCollision hq').trans hnew.1.symm⟩
    rintro ⟨assigned, q', hret, -⟩
    rw [IncomingSources.checkSSRCInIncomingRTPPkt_of_newCollision random32 hsl isNew hnew] at hret
    cases hret
  · intro m hnew
    have hcall := QueueRTCPManager.checkSSRCInRTCPPkt_of_newCollision random32 isNew hnew
    refine ⟨?_, hcall⟩
    rintro ⟨hne, -⟩
    exact hne (QueueRTCPManager.localSSRC_of_newCollision hcall)

/-- A queue that knows one source. -/
def IncomingSources.single (localSSRC : BitVec 32) (sl : SyncSourceLink) : IncomingSources 1 where
  table :=
    { sourceLinks := fun _ => some 0
      first := some 0
      last := some 0
      members := 1
      activeSenders := 0
      links := fun a => if a = 0 then some sl else none
      fresh := 1 }
  localSSRC := localSSRC
  conflicts := []
  policy := .default
  sendPacketCount := 0
  ctrlSendCount := 0

/-- A source with a known address. -/
def SyncSourceLink.known (ssrc : BitVec 32) (addr : SocketAddress) : SyncSourceLink :=
  (SyncSourceLink.new ssrc false).setDataAddress addr

/-- The same source in the manager. -/
def QueueRTCPManager.single (localSSRC : BitVec 32) (addr : SocketAddress) :
    QueueRTCPManager where
  sources := fun ssrc => if ssrc = localSSRC then some { ControlSource.new with
    networkAddress := addr.networkAddress
    controlTransportPort := addr.transportPort } else none
  members := 1
  localSSRC := localSSRC
  conflicts := []
  participants := fun _ _ => []
  participantCount := 0
  sendPacketCount := 0
  ctrlSendCount := 0
  goodbyes := []
  clock := ⟨0, 0⟩

theorem isNewCollision_single {ssrc : BitVec 32} {addr addr' : SocketAddress} (h : addr ≠ addr') :
    (IncomingSources.single ssrc (.known ssrc addr)).IsNewCollision (.known ssrc addr) addr' :=
  ⟨rfl, h, fun _ hc => absurd hc List.not_mem_nil⟩

/-- The theorem at a queue that knows its own source at one address and hears it from
another. -/
theorem local_collision_never_resolved_single :
    ¬ IncomingSources.Resolved 0x1122 ((IncomingSources.single 0x1122
        (.known 0x1122 ⟨1, 5004⟩)).checkSSRCInIncomingRTPPkt (fun i => BitVec.ofNat 32 i) 0 false
          ⟨2, 5004⟩) ∧
      ¬ QueueRTCPManager.Resolved 0x1122 ((QueueRTCPManager.single 0x1122
        ⟨1, 5004⟩).checkSSRCInRTCPPkt 0x1122 false 2 5004).2 := by
  obtain ⟨hdata, hcontrol⟩ := local_collision_never_resolved (n := 1) (fun i => BitVec.ofNat 32 i)
    false ⟨2, 5004⟩
  exact ⟨(hdata _ 0 _ rfl (isNewCollision_single (by decide))).1,
    (hcontrol (QueueRTCPManager.single 0x1122 ⟨1, 5004⟩) ⟨by decide, rfl⟩).1⟩

/-- The first number drawn is free, and yet the data call does not return and the RTCP call
leaves the local SSRC. -/
theorem local_collision_keeps_ssrc :
    (IncomingSources.single 0x1122 (.known 0x1122 ⟨1, 5004⟩)).table.isRegistered 7 = some false ∧
      (QueueRTCPManager.single 0x1122 ⟨1, 5004⟩).sources 7 = none ∧
      ¬ IncomingSources.Resolved 0x1122 ((IncomingSources.single 0x1122
        (.known 0x1122 ⟨1, 5004⟩)).checkSSRCInIncomingRTPPkt (fun _ => 7) 0 false ⟨2, 5004⟩) ∧
      (QueueRTCPManager.single 0x1122 ⟨1, 5004⟩).newCollision (fun _ => 7) ⟨2, 5004⟩
        = some ((QueueRTCPManager.single 0x1122 ⟨1, 5004⟩).checkSSRCInRTCPPkt 0x1122
          false 2 5004).2 ∧
      ¬ QueueRTCPManager.Resolved 0x1122 ((QueueRTCPManager.single 0x1122
        ⟨1, 5004⟩).checkSSRCInRTCPPkt 0x1122 false 2 5004).2 := by
  refine ⟨by decide, by decide, ?_, ?_, fun h => h.1 rfl⟩
  · rintro ⟨assigned, q', hret, -⟩
    rw [IncomingSources.checkSSRCInIncomingRTPPkt_of_newCollision (fun _ => 7) rfl false
      (isNewCollision_single (by decide))] at hret
    cases hret
  · have hnew : (QueueRTCPManager.single 0x1122 ⟨1, 5004⟩).IsNewCollision ⟨2, 5004⟩ :=
      ⟨by decide, rfl⟩
    exact QueueRTCPManager.checkSSRCInRTCPPkt_of_newCollision (fun _ => 7) false hnew

/-! ## Other sources -/

namespace SyncSourceLink

/-- What happens to the link of another source that is known, when a packet of it arrives. -/
def hear (policy : ReceptionPolicy) (sl : SyncSourceLink) (addr : SocketAddress)
    (pkt : ReceivedPacket) : Bool × SyncSourceLink :=
  let sl := sl.learnPort addr
  let r := if sl.dataAddress ≠ addr then sl.remoteCollision addr else (true, sl)
  (r.1, if r.1 then (r.2.recordReception policy pkt).2 else r.2)

/-- No address changes when a reception is recorded. -/
theorem transport_recordReception (policy : ReceptionPolicy) (sl : SyncSourceLink)
    (pkt : ReceivedPacket) : (sl.recordReception policy pkt).2.transport = sl.transport := by
  have hvalidate : (sl.validate policy pkt.seqNum).2.transport = sl.transport := by
    unfold validate initSequence
    simp only
    split_ifs <;> rfl
  rw [recordReception]
  cases hv : sl.validate policy pkt.seqNum with
  | mk valid sl₁ =>
      rw [hv] at hvalidate
      cases valid with
      | false => exact hvalidate
      | true =>
          dsimp only
          split_ifs <;> exact hvalidate

variable (policy : ReceptionPolicy) {sl : SyncSourceLink} {addr : SocketAddress}

/-- The address of the link, and the last conflict. -/
theorem dataAddress_of_transport {sl' : SyncSourceLink} (h : sl'.transport = sl.transport) :
    sl'.dataAddress = sl.dataAddress ∧ sl'.prevConflict = sl.prevConflict := by
  rw [transport, transport, Prod.mk.injEq, Prod.mk.injEq, Prod.mk.injEq] at h
  obtain ⟨hna, hport, -, hconflict⟩ := h
  rw [dataAddress, dataAddress, hna, hport]
  exact ⟨rfl, hconflict⟩

theorem learnPort_of_ne (h : sl.dataTransportPort ≠ 0) : sl.learnPort addr = sl := if_neg h

/-- A packet from the recorded address. -/
theorem hear_same (h : sl.dataAddress = addr) (pkt : ReceivedPacket) :
    (sl.hear policy addr pkt).1 = true ∧ (sl.hear policy addr pkt).2.transport = sl.transport := by
  have hlearn : sl.learnPort addr = sl := by
    subst h
    rw [learnPort]
    split_ifs
    · rfl
    · rfl
  rw [hear]
  dsimp only
  rw [hlearn, if_neg (not_not.mpr h)]
  exact ⟨rfl, transport_recordReception policy sl pkt⟩

/-- A packet from another address that is the last conflict. -/
theorem hear_repeated (hport : sl.dataTransportPort ≠ 0) (hne : sl.dataAddress ≠ addr)
    (hconflict : sl.prevConflict.any (fun c => c.isDataAddress addr) = true)
    (pkt : ReceivedPacket) :
    sl.hear policy addr pkt = (false, sl) := by
  rw [hear, learnPort_of_ne hport, if_pos hne, remoteCollision, if_pos hconflict]
  rfl

/-- A packet from another address that is not the last conflict. -/
theorem hear_takeover (hport : sl.dataTransportPort ≠ 0) (hne : sl.dataAddress ≠ addr)
    (hconflict : sl.prevConflict.any (fun c => c.isDataAddress addr) = false)
    (pkt : ReceivedPacket) :
    (sl.hear policy addr pkt).1 = true ∧ (sl.hear policy addr pkt).2.dataAddress = addr ∧
      (sl.hear policy addr pkt).2.prevConflict
        = some ⟨addr.networkAddress, addr.transportPort, 0⟩ := by
  rw [hear]
  dsimp only
  rw [learnPort_of_ne hport, if_pos hne, remoteCollision, if_neg (ne_true_of_eq_false hconflict)]
  exact ⟨rfl, dataAddress_of_transport (transport_recordReception policy _ pkt)⟩

/-- Only the last conflict is ever rejected. -/
theorem hear_accepts (hconflict : sl.prevConflict.any (fun c => c.isDataAddress addr) = false)
    (pkt : ReceivedPacket) : (sl.hear policy addr pkt).1 = true := by
  have hlearn : (sl.learnPort addr).prevConflict = sl.prevConflict := by
    rw [learnPort]
    split_ifs <;> rfl
  rw [hear]
  dsimp only
  split_ifs with hsame
  · rw [remoteCollision, hlearn, if_neg (ne_true_of_eq_false hconflict)]
  · rfl

/-- The lists of the table do not change. -/
theorem hear_frame (policy : ReceptionPolicy) (sl : SyncSourceLink) (addr : SocketAddress)
    (pkt : ReceivedPacket) :
    (sl.hear policy addr pkt).2.id = sl.id ∧
      (sl.hear policy addr pkt).2.nextCollis = sl.nextCollis := by
  have hlearn : (sl.learnPort addr).id = sl.id ∧
      (sl.learnPort addr).nextCollis = sl.nextCollis := by
    rw [learnPort]
    split_ifs <;> exact ⟨rfl, rfl⟩
  have hcollision : ((sl.learnPort addr).remoteCollision addr).2.id = sl.id ∧
      ((sl.learnPort addr).remoteCollision addr).2.nextCollis = sl.nextCollis := by
    rw [remoteCollision]
    split_ifs <;> exact hlearn
  have hrecord : ∀ sl' : SyncSourceLink, sl'.id = sl.id ∧ sl'.nextCollis = sl.nextCollis →
      (sl'.recordReception policy pkt).2.id = sl.id ∧
        (sl'.recordReception policy pkt).2.nextCollis = sl.nextCollis := by
    intro sl' h'
    obtain ⟨hid, hnext, -⟩ := recordReception_frame policy sl' pkt
    exact ⟨hid.trans h'.1, hnext.trans h'.2⟩
  rw [hear]
  dsimp only
  split_ifs
  · exact hrecord _ hcollision
  · exact hcollision
  · exact hrecord _ hlearn
  · exact hlearn

end SyncSourceLink

namespace IncomingSources

open MembershipBookkeeping

variable {n : ℕ} [NeZero n] {q : IncomingSources n} {chains : Fin n → List ℕ} {a : ℕ}
  {sl : SyncSourceLink}

omit [NeZero n] in
@[simp] theorem links_setLink (q : IncomingSources n) (a : ℕ) (sl : SyncSourceLink) :
    (q.setLink a sl).table.links a = some sl := Function.update_self ..

omit [NeZero n] in
theorem setLink_setLink (q : IncomingSources n) (a : ℕ) (sl sl' : SyncSourceLink) :
    (q.setLink a sl).setLink a sl' = q.setLink a sl' := by
  rw [setLink, setLink, setLink, MembershipBookkeeping.setLink, MembershipBookkeeping.setLink,
    MembershipBookkeeping.setLink, Heap.write, Heap.write, Heap.write, Function.update_idem]

/-- A known source that is not the local one. -/
structure Knows (q : IncomingSources n) (chains : Fin n → List ℕ) (a : ℕ) (sl : SyncSourceLink) :
    Prop where
  table : Table q.table chains
  mem : a ∈ chains (hash sl.id)
  link : q.table.links a = some sl
  remote : sl.id ≠ q.localSSRC

/-- It stays known when members of the link change. -/
theorem Knows.setLink (h : q.Knows chains a sl) {sl' : SyncSourceLink} (hid : sl'.id = sl.id)
    (hnext : sl'.nextCollis = sl.nextCollis) : (q.setLink a sl').Knows chains a sl' where
  table := h.table.congr (Heap.view_write_of_eq h.link hnext) (Heap.view_write_of_eq h.link hid)
    rfl rfl
  mem := hid ▸ h.mem
  link := links_setLink q a sl'
  remote := hid ▸ h.remote

/-- **A packet of a known source** does to the queue what `hear` does to the link. -/
theorem Knows.takeInDataPacket (h : q.Knows chains a sl) (random32 : ℕ → BitVec 32)
    (uninit : ℕ → Bool) (addr : SocketAddress) (pkt : ReceivedPacket) :
    q.takeInDataPacket random32 uninit sl.id addr pkt
      = some (a, (sl.hear q.policy addr pkt).1, q.setLink a (sl.hear q.policy addr pkt).2) := by
  have hidOf : q.table.idOf a = sl.id := idOf_eq h.link
  have hget : q.table.getSourceBySSRC uninit sl.id = some (a, false, q.table) := by
    rw [← hidOf]
    exact h.table.getSourceBySSRC_of_mem uninit (hidOf ▸ h.mem)
  have hsource : q.sourceOfPacket uninit sl.id addr
      = some (a, false, q.setLink a (sl.learnPort addr)) := by
    rw [sourceOfPacket, hget, Option.bind_some]
    dsimp only
    rw [modifyLink_eq h.link]
    rfl
  have hid : (sl.learnPort addr).id = sl.id := by
    rw [SyncSourceLink.learnPort]
    split_ifs <;> rfl
  have hremote : sl.id ≠ (q.setLink a (sl.learnPort addr)).localSSRC := h.remote
  rw [IncomingSources.takeInDataPacket, hsource, Option.bind_some]
  dsimp only
  rw [checkSSRCInIncomingRTPPkt, links_setLink, Option.bind_some, hid, SyncSourceLink.hear]
  rw [if_neg (fun hnew => Bool.false_ne_true hnew.1)]
  dsimp only
  by_cases hdiffers : (sl.learnPort addr).dataAddress ≠ addr
  · rw [if_pos (differs_iff.mpr hdiffers), if_pos hdiffers, if_pos hremote, Option.bind_some]
    dsimp only
    rw [recordReception, setLink_setLink]
    split_ifs
    · rw [links_setLink, Option.map_some, Option.map_some, setLink_setLink]
      rfl
    · rfl
  · rw [if_neg (mt differs_iff.mp hdiffers), if_neg hdiffers, Option.bind_some]
    dsimp only
    rw [recordReception, if_pos rfl, links_setLink, Option.map_some, Option.map_some,
      setLink_setLink]
    rfl

end IncomingSources

/-! ## Whole runs -/

/-- A data packet of the source under watch. -/
structure Arrival where
  address : SocketAddress
  packet : ReceivedPacket

/-- What can be seen of an arrival: where the packet came from, whether it was accepted by
`checkSSRCInIncomingRTPPkt`, and the address recorded afterwards. -/
structure Observation where
  address : SocketAddress
  accepted : Bool
  recorded : SocketAddress

/-- How often the recorded address changes. -/
def changes : SocketAddress → List Observation → ℕ
  | _, [] => 0
  | recorded, o :: l => (if o.recorded = recorded then 0 else 1) + changes o.recorded l

/-- Once the recorded address is another one, every packet from `A` is rejected. -/
def RejectsAbandoned (A : SocketAddress) : SocketAddress → List Observation → Prop
  | _, [] => True
  | recorded, o :: l =>
      (recorded ≠ A → o.address = A → o.accepted = false) ∧ RejectsAbandoned A o.recorded l

/-- A source known at `A` does not flip-flop: its address changes at most once, and after the
change nothing is accepted from `A`. -/
def Settles (A : SocketAddress) (out : List Observation) : Prop :=
  changes A out ≤ 1 ∧ RejectsAbandoned A A out

/-- The packets of a source, one after the other, as its link sees them. -/
def SyncSourceLink.hearAll (policy : ReceptionPolicy) :
    SyncSourceLink → List Arrival → List Observation
  | _, [] => []
  | sl, p :: l =>
      let r := sl.hear policy p.address p.packet
      ⟨p.address, r.1, r.2.dataAddress⟩ :: hearAll policy r.2 l

/-- The packets of a source, one after the other. -/
def IncomingSources.receiveAll {n : ℕ} [NeZero n] (random32 : ℕ → BitVec 32) (uninit : ℕ → Bool)
    (ssrc : BitVec 32) : IncomingSources n → List Arrival → Option (List Observation)
  | _, [] => some []
  | q, p :: l =>
      (q.takeInDataPacket random32 uninit ssrc p.address p.packet).bind (fun (a, accepted, q) =>
        (q.table.links a).bind (fun sl =>
          (receiveAll random32 uninit ssrc q l).map (fun out =>
            ⟨p.address, accepted, sl.dataAddress⟩ :: out)))

/-- **A run of the queue is one of the link.** -/
theorem IncomingSources.Knows.receiveAll {n : ℕ} [NeZero n] (random32 : ℕ → BitVec 32)
    (uninit : ℕ → Bool) {chains : Fin n → List ℕ} {a : ℕ} (l : List Arrival) :
    ∀ {q : IncomingSources n} {sl : SyncSourceLink}, q.Knows chains a sl →
      q.receiveAll random32 uninit sl.id l = some (sl.hearAll q.policy l) := by
  induction l with
  | nil => exact fun _ => rfl
  | cons p l ih =>
      intro q sl h
      obtain ⟨hid, hnext⟩ := sl.hear_frame q.policy p.address p.packet
      have hrest := ih (h.setLink hid hnext)
      rw [hid] at hrest
      rw [IncomingSources.receiveAll, h.takeInDataPacket, Option.bind_some]
      dsimp only
      rw [links_setLink, Option.bind_some, hrest]
      rfl

namespace SyncSourceLink

variable (policy : ReceptionPolicy) {A B : SocketAddress}

/-- While the conflict with `B` is remembered, nothing changes. -/
theorem hearAll_of_prevConflict (hne : A ≠ B) (hport : A.transportPort ≠ 0) (l : List Arrival) :
    ∀ {sl : SyncSourceLink}, sl.dataAddress = A →
      sl.prevConflict.any (fun c => c.isDataAddress B) = true →
      (∀ p ∈ l, p.address = A ∨ p.address = B) →
      changes A (sl.hearAll policy l) = 0 ∧ RejectsAbandoned A A (sl.hearAll policy l) := by
  induction l with
  | nil => exact fun _ _ _ => ⟨rfl, trivial⟩
  | cons p l ih =>
      intro sl haddr hconflict hl
      -- the link stays in the state of the induction hypothesis
      have hstep : (sl.hear policy p.address p.packet).2.dataAddress = A ∧
          (sl.hear policy p.address p.packet).2.prevConflict = sl.prevConflict := by
        rcases hl p List.mem_cons_self with hp | hp
        · have hkeep := dataAddress_of_transport
            (hear_same policy (haddr.trans hp.symm) p.packet).2
          exact ⟨hkeep.1.trans haddr, hkeep.2⟩
        · have hport' : sl.dataTransportPort ≠ 0 := by
            rw [← haddr] at hport
            exact hport
          rw [hear_repeated policy hport' (by rwa [haddr, hp]) (by rwa [hp])]
          exact ⟨haddr, rfl⟩
      obtain ⟨hA, hB⟩ := hstep
      obtain ⟨hchanges, hrejects⟩ := ih hA (hB ▸ hconflict)
        (fun p' hp' => hl p' (List.mem_cons_of_mem p hp'))
      rw [hearAll]
      constructor
      · rw [changes, hA, if_pos rfl, hchanges]
      · exact ⟨fun h => absurd rfl h, hA ▸ hrejects⟩

/-- After the change to `B`, nothing may arrive from `A`. -/
theorem hearAll_of_changed (hne : A ≠ B) (l : List Arrival) :
    ∀ {sl : SyncSourceLink}, sl.dataAddress = B →
      sl.prevConflict.any (fun c => c.isDataAddress A) = false →
      (∀ p ∈ l, p.address = A ∨ p.address = B) →
      (RejectsAbandoned A B (sl.hearAll policy l) → ∀ p ∈ l, p.address ≠ A) ∧
      ((∀ p ∈ l, p.address ≠ A) →
        changes B (sl.hearAll policy l) = 0 ∧ RejectsAbandoned A B (sl.hearAll policy l)) := by
  induction l with
  | nil =>
      intro sl _ _ _
      exact ⟨fun _ p hp => absurd hp List.not_mem_nil, fun _ => ⟨rfl, trivial⟩⟩
  | cons p l ih =>
      intro sl haddr hconflict hl
      by_cases hp : p.address = A
      · -- the packet is accepted
        have haccepted : (sl.hear policy p.address p.packet).1 = true :=
          hear_accepts policy (by rwa [hp]) p.packet
        constructor
        · rintro ⟨hreject, -⟩
          have hfalse : (sl.hear policy p.address p.packet).1 = false := hreject hne.symm hp
          rw [haccepted] at hfalse
          cases hfalse
        · exact fun h => absurd hp (h p List.mem_cons_self)
      · have hB : p.address = B := (hl p List.mem_cons_self).resolve_left hp
        have hkeep := dataAddress_of_transport
          (hear_same policy (haddr.trans hB.symm) p.packet).2
        have haddr' := hkeep.1.trans haddr
        obtain ⟨hnone, hsettled⟩ := ih haddr' (hkeep.2 ▸ hconflict)
          (fun p' hp' => hl p' (List.mem_cons_of_mem p hp'))
        have hfirst : B ≠ A → p.address = A →
          (sl.hear policy p.address p.packet).1 = false := fun _ h => absurd h hp
        rw [hearAll, changes, RejectsAbandoned, haddr', if_pos rfl, Nat.zero_add,
          List.forall_mem_cons, and_iff_right hp, and_iff_right hfirst]
        exact ⟨hnone, hsettled⟩

/-- **The runs of a source without a remembered conflict with `B`.** -/
theorem settles_iff (hne : A ≠ B) (hport : A.transportPort ≠ 0) (l : List Arrival) :
    ∀ {sl : SyncSourceLink}, sl.dataAddress = A →
      sl.prevConflict.any (fun c => c.isDataAddress B) = false →
      (∀ p ∈ l, p.address = A ∨ p.address = B) →
      (Settles A (sl.hearAll policy l) ↔
        l.Pairwise (fun p p' => ¬ (p.address = B ∧ p'.address = A))) := by
  induction l with
  | nil => exact fun _ _ _ => iff_of_true ⟨Nat.zero_le 1, trivial⟩ List.Pairwise.nil
  | cons p l ih =>
      intro sl haddr hconflict hl
      have hl' : ∀ p' ∈ l, p'.address = A ∨ p'.address = B :=
        fun p' hp' => hl p' (List.mem_cons_of_mem p hp')
      rw [List.pairwise_cons, hearAll]
      rcases hl p List.mem_cons_self with hp | hp
      · -- nothing has happened yet
        have hkeep := dataAddress_of_transport
          (hear_same policy (haddr.trans hp.symm) p.packet).2
        have haddr' := hkeep.1.trans haddr
        have hfirst : ∀ p' ∈ l, ¬ (p.address = B ∧ p'.address = A) := by
          rintro p' - ⟨hB, -⟩
          exact hne (hp.symm.trans hB)
        rw [and_iff_right hfirst, ← ih haddr' (hkeep.2 ▸ hconflict) hl', Settles, Settles, changes,
          RejectsAbandoned]
        dsimp only
        rw [haddr', if_pos rfl, Nat.zero_add, and_iff_right (fun h => absurd rfl h)]
      · -- the change
        have hport' : sl.dataTransportPort ≠ 0 := by
          rw [← haddr] at hport
          exact hport
        obtain ⟨-, haddr', hprev⟩ := hear_takeover policy hport'
          (show sl.dataAddress ≠ p.address by rwa [haddr, hp]) (by rwa [hp]) p.packet
        have hconflict' : (sl.hear policy p.address p.packet).2.prevConflict.any
            (fun c => c.isDataAddress A) = false := by
          rw [hprev, hp, Option.any_some, ConflictingTransportAddress.isDataAddress,
            decide_eq_false_iff_not]
          rintro ⟨hna, htp⟩
          apply hne
          obtain ⟨na, tp⟩ := A
          exact (SocketAddress.mk.injEq .. ▸ ⟨hna, htp⟩ : B = ⟨na, tp⟩).symm
        obtain ⟨hnone, hsettled⟩ := hearAll_of_changed policy hne l (haddr'.trans hp)
          hconflict' hl'
        rw [Settles, changes, RejectsAbandoned]
        dsimp only
        rw [haddr'.trans hp, if_neg hne.symm, and_iff_right (fun h => absurd rfl h)]
        constructor
        · rintro ⟨-, hrejects⟩
          have hA := hnone hrejects
          exact ⟨fun p' hp' h => hA p' hp' h.2,
            List.pairwise_of_forall_mem_list (fun _ _ p' hp' h => hA p' hp' h.2)⟩
        · rintro ⟨hA, -⟩
          obtain ⟨hchanges, hrejects⟩ := hsettled (fun p' hp' h => hA p' hp' ⟨hp, h⟩)
          exact ⟨by rw [hchanges], hrejects⟩

end SyncSourceLink

/-- **When a source heard from two addresses settles.**  Let a source that is not the local one
be known at `A`, and let its data packets come in any order from only two addresses `A` and `B`.
All calls return.  The recorded address changes at most once, and after the change every packet
from `A` is rejected, if and only if `B` is the conflict remembered at the start, or no packet
from `A` comes after one from `B`.  (Port 0 stands for a data address that is not known.) -/
theorem flip_flop_iff {n : ℕ} [NeZero n] (random32 : ℕ → BitVec 32) (uninit : ℕ → Bool)
    {q : IncomingSources n} {chains : Fin n → List ℕ} {a : ℕ} {sl : SyncSourceLink}
    (hq : q.Knows chains a sl) {A B : SocketAddress} (hA : sl.dataAddress = A)
    (hport : A.transportPort ≠ 0) (hne : A ≠ B) {l : List Arrival}
    (hl : ∀ p ∈ l, p.address = A ∨ p.address = B) :
    ∃ out, q.receiveAll random32 uninit sl.id l = some out ∧
      (Settles A out ↔ sl.prevConflict.any (fun c => c.isDataAddress B) = true ∨
        l.Pairwise (fun p p' => ¬ (p.address = B ∧ p'.address = A))) := by
  refine ⟨sl.hearAll q.policy l, hq.receiveAll random32 uninit l, ?_⟩
  cases hconflict : sl.prevConflict.any (fun c => c.isDataAddress B) with
  | true =>
      obtain ⟨hchanges, hrejects⟩ := SyncSourceLink.hearAll_of_prevConflict q.policy
        hne hport l hA hconflict hl
      exact iff_of_true ⟨by rw [hchanges]; exact Nat.zero_le 1, hrejects⟩ (Or.inl rfl)
  | false =>
      rw [SyncSourceLink.settles_iff q.policy hne hport l hA hconflict hl]
      exact (or_iff_right Bool.false_ne_true).symm

/-- The single source is known. -/
theorem IncomingSources.knows_single {localSSRC : BitVec 32} {sl : SyncSourceLink}
    (hremote : sl.id ≠ localSSRC) (hnext : sl.nextCollis = none) :
    (IncomingSources.single localSSRC sl).Knows (fun _ => [0]) 0 sl where
  table := by
    refine ⟨fun _ => segment_singleton.mpr ⟨rfl, congrArg some hnext⟩,
      fun _ => List.pairwise_singleton .., fun i _ _ => Subsingleton.elim _ i, ?_⟩
    intro a ha
    exact if_neg (Nat.ne_of_gt ha)
  mem := List.mem_singleton_self 0
  link := rfl
  remote := hremote

/-- The theorem at a source that moves from one address to another. -/
theorem flip_flop_moves :
    ∃ out, (IncomingSources.single 0x1122 (.known 0x3344 ⟨1, 5004⟩)).receiveAll (fun _ => 7)
        (fun _ => false) 0x3344 [⟨⟨1, 5004⟩, ⟨1, 4, 0⟩⟩, ⟨⟨2, 5004⟩, ⟨2, 4, 160⟩⟩] = some out ∧
      Settles ⟨1, 5004⟩ out := by
  have hknows : (IncomingSources.single 0x1122 (.known 0x3344 ⟨1, 5004⟩)).Knows (fun _ => [0]) 0
      (.known 0x3344 ⟨1, 5004⟩) := IncomingSources.knows_single (by decide) rfl
  obtain ⟨out, hout, hiff⟩ := flip_flop_iff (fun _ => 7) (fun _ => false) hknows rfl (by decide)
    (show (⟨1, 5004⟩ : SocketAddress) ≠ ⟨2, 5004⟩ by decide)
    (l := [⟨⟨1, 5004⟩, ⟨1, 4, 0⟩⟩, ⟨⟨2, 5004⟩, ⟨2, 4, 160⟩⟩]) (by decide)
  exact ⟨out, hout, hiff.mpr (Or.inr (by decide))⟩

/-- **A packet from the abandoned address is accepted**, and the source moves back to it. -/
theorem flip_flop_accepted :
    (IncomingSources.single 0x1122 (.known 0x3344 ⟨1, 5004⟩)).receiveAll (fun _ => 7)
        (fun _ => false) 0x3344 [⟨⟨2, 5004⟩, ⟨1, 4, 0⟩⟩, ⟨⟨1, 5004⟩, ⟨2, 4, 160⟩⟩]
      = some [⟨⟨2, 5004⟩, true, ⟨2, 5004⟩⟩, ⟨⟨1, 5004⟩, true, ⟨1, 5004⟩⟩] ∧
    ¬ Settles ⟨1, 5004⟩ [⟨⟨2, 5004⟩, true, ⟨2, 5004⟩⟩, ⟨⟨1, 5004⟩, true, ⟨1, 5004⟩⟩] := by
  constructor
  · rfl
  · rintro ⟨hchanges, -⟩
    exact absurd hchanges (by decide)
