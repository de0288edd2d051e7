/-
# Reception of RTCP with the back-off of `dispatchBYE`

A new collision of the local SSRC makes `checkSSRCInRTCPPkt` call `dispatchBYE`, in the middle of
the walk over a compound.  If there are more than fifty members, `dispatchBYE` backs off, and
`getOnlyBye` (`src/control.cpp`) receives the datagrams that arrive meanwhile.  It receives them
into `rtcpRecvBuffer`, where the compound stands, so the walk goes on over other octets.

`ReceivingManager` is the manager with this buffer and with the datagrams that the back-offs will
receive.  Its functions are those of `QueueRTCPManager`, but each of them reads what is in the
buffer at that time.

* `takeInControlPacket_walk` : a compound during which nothing is received is taken in as the
  functions of `QueueRTCPManager` take it in;
* `reception_finishes_iff`, `bye_processing_iff`, `walk_visits_longest_prefix` : what this means
  for the end of the reception, for BYE packets and for the packets that are visited;
* `overwritten_walk_skips_packet` : a datagram that arrives in a back-off.
-/
import CcRtp.RtcpReports
import CcRtp.RtcpGoodbye
import CcRtp.RtcpSending

open RTCPPacket

/-- The manager with its receive buffer.  `arrivals` are the datagrams that the next back-offs
receive, one list for each of them; the back-offs behind the end of it receive nothing.  What
arrives at other times is not among them. -/
structure ReceivingManager where
  manager : QueueRTCPManager
  rtcpRecvBuffer : Memory
  arrivals : List (List Octets)

namespace ReceivingManager

open QueueRTCPManager

/-! ## The back-off -/

/-- The loop of `getOnlyBye` over the packets of a datagram of `len` octets: the first source of
every BYE packet says goodbye and is discounted.  Every packet has four octets at least, so `len`
rounds are enough. -/
def onlyByes (buf : Memory) (len : ℕ) : ℕ → ℕ → QueueRTCPManager → QueueRTCPManager
  | 0, _, m => m
  | rounds + 1, pointer, m =>
      if pointer < len then
        onlyByes buf len rounds (pointer + getLength buf pointer)
          (if type buf pointer = tBYE then
            ((m.getSourceBySSRC (getSSRC buf pointer)).2.getGoodbye
              (getSSRC buf pointer) []).BYESource
          else m)
      else m

/-- `getOnlyBye()`, for a datagram that it receives.  It is not decrypted. -/
def getOnlyBye (r : ReceivingManager) (datagram : Octets) : Option ReceivingManager :=
  let buf := r.rtcpRecvBuffer.put 0 datagram
  (RTCPCompoundHandler.checkCompoundRTCPHeader buf datagram.length).map (fun accepted =>
    { r with
      rtcpRecvBuffer := buf
      manager :=
        if accepted then onlyByes buf datagram.length datagram.length 0 r.manager
        else r.manager })

/-- `dispatchBYE(reason)`, as far as it changes the manager and its buffer: nothing is sent
unless something has been sent before, and with more than fifty members it backs off first. -/
def dispatchBYE (r : ReceivingManager) : Option ReceivingManager :=
  if r.manager.sendPacketCount = 0 ∧ r.manager.ctrlSendCount = 0 then some r
  else if r.manager.members > 50 then
    (r.arrivals.headD []).foldlM getOnlyBye
      { r with manager := { r.manager with members := 1 }, arrivals := r.arrivals.tail }
  else some r

/-! ## The check -/

/-- The local SSRC is heard from another address. -/
def localCollision (r : ReceivingManager) (ssrc : BitVec 32) (na : InetAddress)
    (tp : BitVec 16) : Option (Bool × ReceivingManager) :=
  if (r.manager.searchControlConflict na tp).isSome then some (false, r)
  else
    (dispatchBYE { r with manager := r.manager.addConflict (r.manager.source ssrc) }).map (fun r =>
      (true, { r with
        manager := r.manager.modifySource ssrc (fun s =>
          { s with networkAddress := na, controlTransportPort := 0 }.initStats) }))

/-- `checkSSRCInRTCPPkt(sourceLink, is_new, network_address, transport_port)` -/
def checkSSRCInRTCPPkt (r : ReceivingManager) (ssrc : BitVec 32) (isNew : Bool)
    (na : InetAddress) (tp : BitVec 16) : Option (Bool × ReceivingManager) :=
  if isNew ∧ ssrc ≠ r.manager.localSSRC then some (true, r)
  else if (r.manager.source ssrc).controlTransportPort ≠ tp ∨
      (r.manager.source ssrc).networkAddress ≠ na then
    if ssrc ≠ r.manager.localSSRC then
      let c := r.manager.remoteCollision ssrc na tp
      some (c.1, { r with manager := c.2 })
    else r.localCollision ssrc na tp
  else some (true, r)

/-- The source of the packet at `pkt` is looked up and checked. -/
def checkPacket (na : InetAddress) (tp : BitVec 16) (r : ReceivingManager) (pkt : ℕ) :
    Option (Bool × ReceivingManager) :=
  let ssrc := getSSRC r.rtcpRecvBuffer pkt
  let (created, m) := r.manager.getSourceBySSRC ssrc
  checkSSRCInRTCPPkt { r with manager := m } ssrc created na tp

/-! ## The walk -/

/-- The variables of `takeInControlPacket`. -/
structure LiveWalk where
  pointer : ℕ
  visited : List ℕ
  cname : Bool
  receiver : ReceivingManager

section

variable (rounds len : ℕ) (src : BitVec 32) (na : InetAddress) (tp : BitVec 16)

/-- The reception time is recorded; and the first packet, if it is a sender report. -/
def firstReport (created : Bool) (r : ReceivingManager) : Option LiveWalk :=
  let r := { r with manager := r.manager.recordSRTime src }
  if type r.rtcpRecvBuffer 0 = tSR then
    (r.checkSSRCInRTCPPkt src created na tp).map (fun (ok, r) =>
      ⟨getLength r.rtcpRecvBuffer 0, [0], false, { r with
        manager := (if ok then r.manager.recordSRTime src else r.manager).onGotSR src
          r.rtcpRecvBuffer 0 }⟩)
  else some ⟨0, [], false, r⟩

/-- On to the next packet, by the length that the buffer tells now. -/
def advance (w : LiveWalk) (cname : Bool) (r : ReceivingManager) : LiveWalk :=
  ⟨w.pointer + getLength r.rtcpRecvBuffer w.pointer, w.visited ++ [w.pointer], cname, r⟩

/-- The body of the loop over receiver reports. -/
def reportBody (w : LiveWalk) : Option LiveWalk :=
  (checkPacket na tp w.receiver w.pointer).map (fun (ok, r) =>
    advance w w.cname (if ok then
      { r with manager := r.manager.onGotRR src r.rtcpRecvBuffer w.pointer } else r))

/-- The body of the loop over SDES and APP packets. -/
def descriptionBody (w : LiveWalk) : Option LiveWalk :=
  (checkPacket na tp w.receiver w.pointer).bind (fun (ok, r) =>
    if ok ∧ type r.rtcpRecvBuffer w.pointer = tSDES then
      (r.manager.onGotSDES rounds src r.rtcpRecvBuffer w.pointer).map (fun (cname, m) =>
        advance w (w.cname || cname) { r with manager := m })
    else some (advance w w.cname r))

/-- The body of the loop over BYE packets. -/
def byeBody (pkt : ℕ) (w : LiveWalk) : Option LiveWalk :=
  (checkPacket na tp w.receiver pkt).map (fun (ok, r) =>
    if ok then
      let s := r.manager.getBYE r.rtcpRecvBuffer pkt w.pointer
      ⟨s.1, w.visited ++ [pkt], w.cname, { r with manager := s.2 }⟩
    else ⟨w.pointer, w.visited ++ [pkt], w.cname, r⟩)

/-- The loops over reports and over SDES and APP packets. -/
def walkReports (w : LiveWalk) : Option LiveWalk :=
  (whileLoop
    (fun w => w.pointer < len ∧ type w.receiver.rtcpRecvBuffer w.pointer = tRR)
    (reportBody src na tp) rounds w).bind (fun w =>
      whileLoop
        (fun w => w.pointer < len ∧ (type w.receiver.rtcpRecvBuffer w.pointer = tSDES ∨
          type w.receiver.rtcpRecvBuffer w.pointer = tAPP))
        (descriptionBody rounds src na tp) rounds w)

/-- The loop over BYE packets. -/
def walkByes (w : LiveWalk) : Option LiveWalk :=
  whileLoop
    (fun w' => w'.pointer < len ∧ type w'.receiver.rtcpRecvBuffer w.pointer = tBYE)
    (byeBody na tp w.pointer) rounds w

/-- The walk over an accepted compound, up to the loop over BYE packets. -/
def walkToByes (r : ReceivingManager) : Option LiveWalk :=
  let src := getSSRC r.rtcpRecvBuffer 0
  let (created, m) := r.manager.registerFirst src na tp
  (firstReport src na tp created { r with manager := m }).bind (walkReports rounds len src na tp)

/-- `takeInControlPacket`, for the `len` octets in the buffer that were received from the given
address and have been decrypted. -/
def takeInControlPacket (r : ReceivingManager) : Option LiveWalk :=
  (RTCPCompoundHandler.checkCompoundRTCPHeader r.rtcpRecvBuffer len).bind (fun accepted =>
    if accepted then
      (r.walkToByes rounds len na tp).bind (walkByes rounds len na tp)
    else some ⟨0, [], false, r⟩)

end

end ReceivingManager

namespace QueueRTCPManager

variable {m m' : QueueRTCPManager} {buf : Memory} {rounds : ℕ} {src : BitVec 32}
  {na : InetAddress} {tp : BitVec 16} {w w' : Walk}

/-! ## What a back-off depends on -/

/-- If there is a new collision afterwards there was one before, and nothing has been sent
meanwhile. -/
structure NoNewCollision (na : InetAddress) (tp : BitVec 16) (m m' : QueueRTCPManager) : Prop where
  localSSRC : m'.localSSRC = m.localSSRC
  sendCounts : m'.sendCounts = m.sendCounts
  newCollision : m'.NewCollision na tp → m.NewCollision na tp

/-- The look for collisions counts no packet as sent. -/
theorem sendCounts_checkSSRCInRTCPPkt (m : QueueRTCPManager) (ssrc : BitVec 32) (isNew : Bool)
    (na : InetAddress) (tp : BitVec 16) :
    (m.checkSSRCInRTCPPkt ssrc isNew na tp).2.sendCounts = m.sendCounts := by
  rcases m.checkSSRCInRTCPPkt_cases ssrc isNew na tp with hsame | ⟨-, hremote⟩ | ⟨-, hrenewed⟩
  · rw [hsame]
  · rw [hremote]
    rfl
  · rw [hrenewed]
    have hbye : (m.addConflict (m.source ssrc)).dispatchBYE.sendCounts = m.sendCounts := by
      unfold dispatchBYE
      split_ifs <;> rfl
    exact hbye

/-- Nor does the one in front of a packet. -/
theorem sendCounts_checkPacket (buf : Memory) (na : InetAddress) (tp : BitVec 16) (w : Walk) :
    (checkPacket buf na tp w).2.sendCounts = w.manager.sendCounts :=
  (sendCounts_checkSSRCInRTCPPkt _ _ _ na tp).trans
    (w.manager.introduces_getSourceBySSRC _).sendCounts

/-- Nor does a receiver report. -/
theorem sendCounts_onGotRR (m : QueueRTCPManager) (src : BitVec 32) (buf : Memory) (p : ℕ) :
    (m.onGotRR src buf p).sendCounts = m.sendCounts := by
  rw [onGotRR_eq]
  split_ifs <;> rfl

/-- Nor does registering the source. -/
theorem sendCounts_registerFirst (m : QueueRTCPManager) (src : BitVec 32) (na : InetAddress)
    (tp : BitVec 16) : (m.registerFirst src na tp).2.sendCounts = m.sendCounts := by
  cases hs : m.sources src with
  | none =>
      rw [registerFirst_of_none hs]
      exact (m.introduces_getSourceBySSRC src).sendCounts
  | some s =>
      rw [registerFirst_of_some hs]
      split_ifs <;> rfl

/-- A round of each of the loops. -/
theorem noNewCollision_reportBody (h : reportBody buf src na tp w = some w') :
    NoNewCollision na tp w.manager w'.manager := by
  have hrestarts := restartsFor_reportBody h
  refine ⟨hrestarts.localSSRC, ?_, hrestarts.newCollision⟩
  rw [reportBody_eq, Option.some_inj] at h
  subst h
  dsimp only [advance]
  split_ifs
  · rw [sendCounts_onGotRR, sendCounts_checkPacket]
  · exact sendCounts_checkPacket buf na tp w

/-- A round over the descriptions makes no new collisions. -/
theorem noNewCollision_descriptionBody (h : descriptionBody rounds buf src na tp w = some w') :
    NoNewCollision na tp w.manager w'.manager := by
  have hrestarts := restartsFor_descriptionBody (fun _ => ()) h
  refine ⟨hrestarts.localSSRC, ?_, hrestarts.newCollision⟩
  rw [descriptionBody_eq] at h
  split_ifs at h
  · obtain ⟨⟨cname, m'⟩, hsdes, rfl⟩ := Option.map_eq_some_iff.mp h
    exact (introduces_chunkLoop _ hsdes).sendCounts.trans (sendCounts_checkPacket buf na tp w)
  · cases h
    exact sendCounts_checkPacket buf na tp w

/-- A round over the BYE packets makes none either. -/
theorem noNewCollision_byeBody {pkt : ℕ} (h : byeBody buf na tp pkt w = some w') :
    NoNewCollision na tp w.manager w'.manager := by
  have hrestarts := restartsFor_byeBody (fun _ => ()) h
  refine ⟨hrestarts.localSSRC, ?_, hrestarts.newCollision⟩
  have hcheck := sendCounts_checkPacket buf na tp { w with pointer := pkt }
  rw [byeBody_eq, Option.some_inj] at h
  subst h
  split_ifs
  · exact (introduces_getBYE _ buf pkt w.pointer).sendCounts.trans hcheck
  · exact hcheck

/-- The first report. -/
theorem noNewCollision_firstReport (buf : Memory) (m : QueueRTCPManager) (src : BitVec 32)
    (na : InetAddress) (tp : BitVec 16) :
    NoNewCollision na tp (m.registerFirst src na tp).2
      (firstReport buf src na tp (m.registerFirst src na tp).1
        (m.registerFirst src na tp).2).manager := by
  have hrestarts := restartsFor_firstReport buf m src na tp
  refine ⟨hrestarts.localSSRC, ?_, hrestarts.newCollision⟩
  have hcheck := sendCounts_checkSSRCInRTCPPkt ((m.registerFirst src na tp).2.recordSRTime src)
    src (m.registerFirst src na tp).1 na tp
  unfold firstReport
  split_ifs
  · dsimp only [onGotSR]
    split_ifs
    · exact hcheck
    · exact hcheck
  · rfl

end QueueRTCPManager

namespace ReceivingManager

open QueueRTCPManager

variable {r r' : ReceivingManager} {buf : Memory} {len rounds : ℕ} {src ssrc : BitVec 32}
  {na : InetAddress} {tp : BitVec 16} {l : List (BitVec 32)} {w w' : LiveWalk}

/-! ## Nothing is received -/

/-- The buffer is untouched, and no more is to arrive than before. -/
structure Untouched (r r' : ReceivingManager) : Prop where
  rtcpRecvBuffer : r'.rtcpRecvBuffer = r.rtcpRecvBuffer
  arrivals : ∀ a ∈ r'.arrivals, a ∈ r.arrivals

theorem Untouched.refl (r : ReceivingManager) : Untouched r r := ⟨rfl, fun _ => id⟩

/-- Packets with the given SSRCs lead to no back-off that receives a datagram. -/
def QuietFor (na : InetAddress) (tp : BitVec 16) (l : List (BitVec 32)) (r : ReceivingManager) :
    Prop :=
  r.manager.sendCounts ≠ (0, 0) → r.manager.NewCollision na tp → r.manager.localSSRC ∈ l →
    ∀ a ∈ r.arrivals, a = []

/-- What holds for the datagrams to come holds for fewer of them. -/
theorem QuietFor.mono (h : r.QuietFor na tp l)
    (hmanager : NoNewCollision na tp r.manager r'.manager)
    (harrivals : ∀ a ∈ r'.arrivals, a ∈ r.arrivals) : r'.QuietFor na tp l := by
  intro hsent hnew hmem a ha
  rw [hmanager.sendCounts] at hsent
  rw [hmanager.localSSRC] at hmem
  exact h hsent (hmanager.newCollision hnew) hmem a (harrivals a ha)

/-- A back-off that receives nothing. -/
theorem dispatchBYE_of_quiet
    (h : r.manager.sendCounts ≠ (0, 0) → ∀ a ∈ r.arrivals, a = []) :
    ∃ r', r.dispatchBYE = some r' ∧ r'.manager = r.manager.dispatchBYE ∧ Untouched r r' := by
  rw [dispatchBYE, QueueRTCPManager.dispatchBYE]
  split_ifs with hsent hmembers
  · exact ⟨r, rfl, rfl, .refl r⟩
  · have hnone : r.arrivals.headD [] = [] := by
      have hall := h (fun hzero => hsent (Prod.mk.inj hzero))
      cases harrivals : r.arrivals with
      | nil => rfl
      | cons a arrivals => exact hall a (harrivals ▸ List.mem_cons_self)
    rw [hnone]
    exact ⟨_, rfl, rfl, rfl, fun a ha => List.mem_of_mem_tail ha⟩
  · exact ⟨r, rfl, rfl, .refl r⟩

/-- **The check, if nothing is received.** -/
theorem checkSSRCInRTCPPkt_of_quiet (h : r.QuietFor na tp l) (hssrc : ssrc ∈ l) (isNew : Bool) :
    ∃ r', r.checkSSRCInRTCPPkt ssrc isNew na tp
        = some ((r.manager.checkSSRCInRTCPPkt ssrc isNew na tp).1, r') ∧
      r'.manager = (r.manager.checkSSRCInRTCPPkt ssrc isNew na tp).2 ∧ Untouched r r' := by
  rw [checkSSRCInRTCPPkt, QueueRTCPManager.checkSSRCInRTCPPkt]
  split_ifs with hcreated hmismatch hremote
  · exact ⟨r, rfl, rfl, .refl r⟩
  · exact ⟨_, rfl, rfl, rfl, fun _ => id⟩
  · push Not at hremote
    subst hremote
    rw [localCollision, QueueRTCPManager.localCollision]
    split_ifs with hconflict
    · exact ⟨r, rfl, rfl, .refl r⟩
    · have hnew : r.manager.NewCollision na tp := ⟨hmismatch, Bool.eq_false_iff.mpr hconflict⟩
      obtain ⟨r₁, hr₁, hmanager, hsame⟩ := dispatchBYE_of_quiet
        (r := { r with manager := r.manager.addConflict (r.manager.source r.manager.localSSRC) })
        (fun hsent => h hsent hnew hssrc)
      rw [hr₁]
      refine ⟨_, rfl, ?_, hsame.rtcpRecvBuffer, hsame.arrivals⟩
      dsimp only
      rw [hmanager]
  · exact ⟨r, rfl, rfl, .refl r⟩

/-- A packet whose SSRC is on the list is checked as if nothing was received. -/
theorem checkPacket_of_quiet (h : r.QuietFor na tp l) {v : Walk} (hv : v.manager = r.manager)
    (hssrc : getSSRC r.rtcpRecvBuffer v.pointer ∈ l) :
    ∃ arrivals, checkPacket na tp r v.pointer
        = some ((QueueRTCPManager.checkPacket r.rtcpRecvBuffer na tp v).1,
          ⟨(QueueRTCPManager.checkPacket r.rtcpRecvBuffer na tp v).2, r.rtcpRecvBuffer, arrivals⟩) ∧
      ∀ a ∈ arrivals, a ∈ r.arrivals := by
  obtain ⟨m, buf, arrivals⟩ := r
  cases hv
  set ssrc := getSSRC buf v.pointer with hpkt
  have hfound : QuietFor na tp l ⟨(v.manager.getSourceBySSRC ssrc).2, buf, arrivals⟩ := by
    refine h.mono ⟨?_, ?_, ?_⟩ (fun _ => id)
    · exact (v.manager.sameAddresses_getSourceBySSRC ssrc).localSSRC
    · exact (v.manager.introduces_getSourceBySSRC ssrc).sendCounts
    · exact ((v.manager.sameAddresses_getSourceBySSRC ssrc).newCollision_iff na tp).mp
  obtain ⟨⟨m', buf', arrivals'⟩, hr', hmanager, hsame⟩ :=
    checkSSRCInRTCPPkt_of_quiet hfound hssrc (v.manager.getSourceBySSRC ssrc).1
  cases hmanager
  cases hsame.rtcpRecvBuffer
  exact ⟨arrivals', hr', hsame.arrivals⟩

/-! ## The walk if nothing is received -/

/-- What the functions of `QueueRTCPManager` have of a walk. -/
def LiveWalk.walk (w : LiveWalk) : Walk := ⟨w.pointer, w.visited, w.cname, w.receiver.manager⟩

/-- The walk comes to the same as without a buffer of its own, which is untouched. -/
def ComesTo (r : ReceivingManager) (o : Option LiveWalk) (o' : Option Walk) : Prop :=
  o.map LiveWalk.walk = o' ∧ ∀ w, o = some w → Untouched r w.receiver

/-- Both walks have come to the same place. -/
theorem comesTo_some {v : Walk} (hview : w.walk = v) (hsame : Untouched r w.receiver) :
    ComesTo r (some w) (some v) := by
  refine ⟨congrArg some hview, fun w' hw' => ?_⟩
  cases hw'
  exact hsame

/-- A round over the reports, if the back-off is quiet. -/
theorem reportBody_of_quiet (h : w.receiver.QuietFor na tp l)
    (hssrc : getSSRC w.receiver.rtcpRecvBuffer w.pointer ∈ l) (src : BitVec 32) :
    ComesTo w.receiver (reportBody src na tp w)
      (QueueRTCPManager.reportBody w.receiver.rtcpRecvBuffer src na tp w.walk) := by
  obtain ⟨arrivals, hr, ha⟩ := checkPacket_of_quiet h (v := w.walk) rfl hssrc
  replace hr : checkPacket na tp w.receiver w.pointer = _ := hr
  rw [reportBody, hr, reportBody_eq]
  generalize QueueRTCPManager.checkPacket w.receiver.rtcpRecvBuffer na tp w.walk = c
  obtain ⟨ok, m⟩ := c
  cases ok with
  | true => exact comesTo_some rfl ⟨rfl, ha⟩
  | false => exact comesTo_some rfl ⟨rfl, ha⟩

/-- A round over the descriptions, if the back-off is quiet. -/
theorem descriptionBody_of_quiet (h : w.receiver.QuietFor na tp l)
    (hssrc : getSSRC w.receiver.rtcpRecvBuffer w.pointer ∈ l) (rounds : ℕ) (src : BitVec 32) :
    ComesTo w.receiver (descriptionBody rounds src na tp w)
      (QueueRTCPManager.descriptionBody rounds w.receiver.rtcpRecvBuffer src na tp w.walk) := by
  obtain ⟨arrivals, hr, ha⟩ := checkPacket_of_quiet h (v := w.walk) rfl hssrc
  replace hr : checkPacket na tp w.receiver w.pointer = _ := hr
  rw [descriptionBody, hr, descriptionBody_eq]
  generalize QueueRTCPManager.checkPacket w.receiver.rtcpRecvBuffer na tp w.walk = c
  obtain ⟨ok, m⟩ := c
  show ComesTo w.receiver (if ok = true ∧ type w.receiver.rtcpRecvBuffer w.pointer = tSDES then _
    else _) (if ok = true ∧ type w.receiver.rtcpRecvBuffer w.pointer = tSDES then _ else _)
  split_ifs
  · refine ⟨?_, ?_⟩
    · rw [Option.map_map]
      rfl
    · intro w' hw'
      obtain ⟨c, -, rfl⟩ := Option.map_eq_some_iff.mp hw'
      exact ⟨rfl, ha⟩
  · exact comesTo_some rfl ⟨rfl, ha⟩

/-- A round over the BYE packets, if the back-off is quiet. -/
theorem byeBody_of_quiet (h : w.receiver.QuietFor na tp l) {pkt : ℕ}
    (hssrc : getSSRC w.receiver.rtcpRecvBuffer pkt ∈ l) :
    ComesTo w.receiver (byeBody na tp pkt w)
      (QueueRTCPManager.byeBody w.receiver.rtcpRecvBuffer na tp pkt w.walk) := by
  obtain ⟨arrivals, hr, ha⟩ :=
    checkPacket_of_quiet h (v := { w.walk with pointer := pkt }) rfl hssrc
  replace hr : checkPacket na tp w.receiver pkt = _ := hr
  rw [byeBody, hr, byeBody_eq]
  generalize QueueRTCPManager.checkPacket w.receiver.rtcpRecvBuffer na tp
    { w.walk with pointer := pkt } = c
  obtain ⟨ok, m⟩ := c
  cases ok with
  | true => exact comesTo_some rfl ⟨rfl, ha⟩
  | false => exact comesTo_some rfl ⟨rfl, ha⟩

/-- What holds in every round: the compound is in the buffer, and the packets to come receive
nothing. -/
structure Calm (buf : Memory) (na : InetAddress) (tp : BitVec 16) (l : List (BitVec 32))
    (r : ReceivingManager) : Prop where
  rtcpRecvBuffer : r.rtcpRecvBuffer = buf
  quiet : r.QuietFor na tp l

/-- A step that receives nothing keeps it calm. -/
theorem Calm.next (h : Calm buf na tp l r) (hmanager : NoNewCollision na tp r.manager r'.manager)
    (hsame : Untouched r r') : Calm buf na tp l r' :=
  ⟨hsame.rtcpRecvBuffer.trans h.rtcpRecvBuffer, h.quiet.mono hmanager hsame.arrivals⟩

/-- **A loop over packets of some types**, if nothing is received. -/
theorem packetLoop_of_quiet (types : UInt8 → Bool) {cond : Walk → Bool}
    {body : Walk → Option Walk} {live : LiveWalk → Bool} {liveBody : LiveWalk → Option LiveWalk}
    (hlive : ∀ w, live w = true ↔
      w.pointer < len ∧ types (type w.receiver.rtcpRecvBuffer w.pointer) = true)
    (hcond : ∀ w, cond w = true ↔ w.pointer < len ∧ types (type buf w.pointer) = true)
    (hstep : ∀ w w', body w = some w' → w'.pointer = w.pointer + getLength buf w.pointer ∧
      NoNewCollision na tp w.manager w'.manager)
    (hbody : ∀ w : LiveWalk, Calm buf na tp l w.receiver → getSSRC buf w.pointer ∈ l →
      ComesTo w.receiver (liveBody w) (body w.walk))
    (hcalm : Calm buf na tp l w.receiver)
    (hl : ∀ p ∈ passedPackets buf len types w.pointer, getSSRC buf p ∈ l) (rounds : ℕ) :
    (whileLoop live liveBody rounds w).map LiveWalk.walk = whileLoop cond body rounds w.walk ∧
      ∀ w', whileLoop live liveBody rounds w = some w' → Calm buf na tp l w'.receiver := by
  set Inv : LiveWalk → Prop := fun v => Calm buf na tp l v.receiver ∧
    ∀ p ∈ passedPackets buf len types v.pointer, getSSRC buf p ∈ l with hInv
  have hround : ∀ v, Inv v → live v = true →
      (liveBody v).map LiveWalk.walk = body v.walk ∧ ∀ v', liveBody v = some v' → Inv v' := by
    rintro v ⟨hv, hpassed⟩ hgo
    rw [hlive, hv.rtcpRecvBuffer] at hgo
    rw [passedPackets_of_true hgo] at hpassed
    obtain ⟨hview, hsame⟩ := hbody v hv (hpassed _ List.mem_cons_self)
    refine ⟨hview, fun v' hv' => ?_⟩
    rw [hv', Option.map_some] at hview
    obtain ⟨hpointer, hmanager⟩ := hstep v.walk v'.walk hview.symm
    refine ⟨hv.next hmanager (hsame v' hv'), ?_⟩
    rw [show v'.pointer = v.pointer + getLength buf v.pointer from hpointer]
    exact fun p hp => hpassed p (List.mem_cons_of_mem _ hp)
  constructor
  · refine whileLoop_map LiveWalk.walk Inv (fun v hv => ?_) hround rounds w ⟨hcalm, hl⟩
    rw [Bool.eq_iff_iff, hlive, hcond, hv.1.rtcpRecvBuffer]
    rfl
  · intro w' hw'
    exact (whileLoop_invariant Inv (fun v v' hv hgo hv' => (hround v hv hgo).2 v' hv') rounds
      ⟨hcalm, hl⟩ hw').1.1

/-- The loop over reports. -/
theorem reportLoop_of_quiet (hcalm : Calm buf na tp l w.receiver)
    (hl : ∀ p ∈ passedPackets buf len (fun t => t = tRR) w.pointer, getSSRC buf p ∈ l)
    (rounds : ℕ) (src : BitVec 32) :
    (whileLoop (fun w => w.pointer < len ∧ type w.receiver.rtcpRecvBuffer w.pointer = tRR)
        (reportBody src na tp) rounds w).map LiveWalk.walk
        = whileLoop (fun w => w.pointer < len ∧ type buf w.pointer = tRR)
          (QueueRTCPManager.reportBody buf src na tp) rounds w.walk ∧
      ∀ w', whileLoop
          (fun w => w.pointer < len ∧ type w.receiver.rtcpRecvBuffer w.pointer = tRR)
          (reportBody src na tp) rounds w = some w' → Calm buf na tp l w'.receiver := by
  refine packetLoop_of_quiet (fun t => t = tRR) (fun w => ?_) (fun w => ?_)
    (fun w w' hw => ?_) (fun w hw hmem => ?_) hcalm hl rounds
  · rw [decide_eq_true_iff, decide_eq_true_iff]
  · rw [decide_eq_true_iff, decide_eq_true_iff]
  · exact ⟨(goesOn_of_reportBody hw).pointer, noNewCollision_reportBody hw⟩
  · have hround := reportBody_of_quiet hw.quiet (hw.rtcpRecvBuffer.symm ▸ hmem) src
    rwa [hw.rtcpRecvBuffer] at hround

/-- The loop over SDES and APP packets. -/
theorem descriptionLoop_of_quiet (hcalm : Calm buf na tp l w.receiver)
    (hl : ∀ p ∈ passedPackets buf len (fun t => t = tSDES ∨ t = tAPP) w.pointer,
      getSSRC buf p ∈ l) (rounds : ℕ) (src : BitVec 32) :
    (whileLoop
        (fun w => w.pointer < len ∧ (type w.receiver.rtcpRecvBuffer w.pointer = tSDES ∨
          type w.receiver.rtcpRecvBuffer w.pointer = tAPP))
        (descriptionBody rounds src na tp) rounds w).map LiveWalk.walk
        = whileLoop
          (fun w => w.pointer < len ∧ (type buf w.pointer = tSDES ∨ type buf w.pointer = tAPP))
          (QueueRTCPManager.descriptionBody rounds buf src na tp) rounds w.walk ∧
      ∀ w', whileLoop
          (fun w => w.pointer < len ∧ (type w.receiver.rtcpRecvBuffer w.pointer = tSDES ∨
            type w.receiver.rtcpRecvBuffer w.pointer = tAPP))
          (descriptionBody rounds src na tp) rounds w = some w' →
        Calm buf na tp l w'.receiver := by
  refine packetLoop_of_quiet (fun t => t = tSDES ∨ t = tAPP) (fun w => ?_) (fun w => ?_)
    (fun w w' hw => ?_) (fun w hw hmem => ?_) hcalm hl rounds
  · rw [decide_eq_true_iff, decide_eq_true_iff]
  · rw [decide_eq_true_iff, decide_eq_true_iff]
  · exact ⟨(goesOn_of_descriptionBody hw).pointer, noNewCollision_descriptionBody hw⟩
  · have hround := descriptionBody_of_quiet hw.quiet (hw.rtcpRecvBuffer.symm ▸ hmem) rounds src
    rwa [hw.rtcpRecvBuffer] at hround

/-- The loop over BYE packets. -/
theorem walkByes_of_quiet (hcalm : Calm buf na tp l w.receiver)
    (hl : w.pointer < len → type buf w.pointer = tBYE → getSSRC buf w.pointer ∈ l) (rounds : ℕ) :
    (walkByes rounds len na tp w).map LiveWalk.walk
        = QueueRTCPManager.walkByes rounds buf len na tp w.walk ∧
      ∀ w', walkByes rounds len na tp w = some w' → Calm buf na tp l w'.receiver := by
  set pkt := w.pointer with hpkt
  by_cases hbye : pkt < len ∧ type buf pkt = tBYE
  · have hround : ∀ v : LiveWalk, Calm buf na tp l v.receiver →
        (byeBody na tp pkt v).map LiveWalk.walk
            = QueueRTCPManager.byeBody buf na tp pkt v.walk ∧
          ∀ v', byeBody na tp pkt v = some v' → Calm buf na tp l v'.receiver := by
      intro v hv
      have hssrc : getSSRC v.receiver.rtcpRecvBuffer pkt ∈ l :=
        hv.rtcpRecvBuffer ▸ hl hbye.1 hbye.2
      obtain ⟨hview, hsame⟩ := byeBody_of_quiet hv.quiet hssrc
      rw [hv.rtcpRecvBuffer] at hview
      refine ⟨hview, fun v' hv' => ?_⟩
      rw [hv', Option.map_some] at hview
      exact hv.next (noNewCollision_byeBody hview.symm) (hsame v' hv')
    constructor
    · refine whileLoop_map LiveWalk.walk (fun v => Calm buf na tp l v.receiver) (fun v hv => ?_)
        (fun v hv _ => hround v hv) rounds w hcalm
      rw [hv.rtcpRecvBuffer]
      rfl
    · intro w' hw'
      exact (whileLoop_invariant (fun v : LiveWalk => Calm buf na tp l v.receiver)
        (fun v v' hv _ hv' => (hround v hv).2 v' hv') rounds hcalm hw').1
  · have hstop : walkByes rounds len na tp w = some w := by
      refine whileLoop_of_false ?_ rounds
      refine decide_eq_false ?_
      rw [hcalm.rtcpRecvBuffer]
      exact hbye
    rw [hstop, walkByes_of_not w.walk hbye]
    refine ⟨rfl, fun w' hw' => ?_⟩
    cases hw'
    exact hcalm

/-- The SSRCs of the packets that are checked. -/
def checkedSSRCs (buf : Memory) (len : ℕ) : List (BitVec 32) :=
  getSSRC buf 0 :: (checkedPackets buf len).map (getSSRC buf)

/-- The SSRC of a packet that is checked. -/
theorem mem_checkedSSRCs {p : ℕ} (h : p ∈ checkedPackets buf len) :
    getSSRC buf p ∈ checkedSSRCs buf len :=
  List.mem_cons_of_mem _ (List.mem_map_of_mem h)

/-- **No other datagram is received in the walk.**  `dispatchBYE` backs off at most if something
has been sent and a packet has the local SSRC, which is in a new collision; in this case nothing
arrives meanwhile. -/
def Undisturbed (r : ReceivingManager) (len : ℕ) (na : InetAddress) (tp : BitVec 16) : Prop :=
  r.manager.sendCounts ≠ (0, 0) →
    r.manager.CollisionBegins na tp (getSSRC r.rtcpRecvBuffer 0) →
    r.manager.localSSRC ∈ checkedSSRCs r.rtcpRecvBuffer len → ∀ a ∈ r.arrivals, a = []

/-- The first report. -/
theorem firstReport_of_quiet (h : r.QuietFor na tp l) (hsrc : src ∈ l) (created : Bool) :
    ∃ w, firstReport src na tp created r = some w ∧
      w.walk = QueueRTCPManager.firstReport r.rtcpRecvBuffer src na tp created r.manager ∧
      Untouched r w.receiver := by
  have htimed : QuietFor na tp l { r with manager := r.manager.recordSRTime src } := by
    refine h.mono ⟨rfl, rfl, ?_⟩ (fun _ => id)
    exact ((r.manager.sameAddresses_recordSRTime src).newCollision_iff na tp).mp
  rw [firstReport, QueueRTCPManager.firstReport]
  by_cases hsr : type r.rtcpRecvBuffer 0 = tSR
  · obtain ⟨⟨m, buf, arrivals⟩, hr, hmanager, hsame⟩ :=
      checkSSRCInRTCPPkt_of_quiet htimed hsrc created
    cases hmanager
    cases hsame.rtcpRecvBuffer
    dsimp only
    rw [if_pos hsr, if_pos hsr, hr]
    exact ⟨_, rfl, rfl, rfl, hsame.arrivals⟩
  · dsimp only
    rw [if_neg hsr, if_neg hsr]
    exact ⟨_, rfl, rfl, rfl, fun _ => id⟩

/-- **The walk up to the BYE packets**, if nothing is received. -/
theorem walkToByes_of_undisturbed (h : r.Undisturbed len na tp) (rounds : ℕ) :
    (r.walkToByes rounds len na tp).map LiveWalk.walk
        = QueueRTCPManager.walkReports rounds r.rtcpRecvBuffer len
          (getSSRC r.rtcpRecvBuffer 0) na tp
          (QueueRTCPManager.firstReport r.rtcpRecvBuffer (getSSRC r.rtcpRecvBuffer 0) na tp
            (r.manager.registerFirst (getSSRC r.rtcpRecvBuffer 0) na tp).1
            (r.manager.registerFirst (getSSRC r.rtcpRecvBuffer 0) na tp).2) ∧
      ∀ w, r.walkToByes rounds len na tp = some w →
        Calm r.rtcpRecvBuffer na tp (checkedSSRCs r.rtcpRecvBuffer len) w.receiver := by
  obtain ⟨m, buf, arrivals⟩ := r
  dsimp only
  set src := getSSRC buf 0 with hsrc
  set l := checkedSSRCs buf len with hl
  -- the first packet
  have hquiet : QuietFor na tp l ⟨(m.registerFirst src na tp).2, buf, arrivals⟩ := by
    intro hsent hnew hmem
    refine h ?_ ((m.newCollision_registerFirst src na tp).mp hnew) ?_
    · rwa [← m.sendCounts_registerFirst src na tp]
    · rwa [← (m.registerFirst_spec src na tp).1]
  obtain ⟨w₀, hw₀, hview₀, hsame₀⟩ :=
    firstReport_of_quiet hquiet List.mem_cons_self (m.registerFirst src na tp).1
  have hpointer₀ : w₀.pointer = if type buf 0 = tSR then getLength buf 0 else 0 :=
    (congrArg Walk.pointer hview₀).trans (firstReport_walk buf src na tp _ _).1
  have hcalm₀ : Calm buf na tp l w₀.receiver := by
    refine (Calm.mk rfl hquiet).next ?_ hsame₀
    rw [show w₀.receiver.manager = _ from congrArg Walk.manager hview₀]
    exact m.noNewCollision_firstReport buf src na tp
  -- the reports
  have hreports : ∀ p ∈ passedPackets buf len (fun t => t = tRR) w₀.pointer, getSSRC buf p ∈ l := by
    intro p hp
    rw [hpointer₀] at hp
    exact mem_checkedSSRCs (List.mem_append_left _ (List.mem_append_left _ hp))
  obtain ⟨hview₁, hcalm₁⟩ := reportLoop_of_quiet hcalm₀ hreports rounds src
  have hto : walkToByes rounds len na tp ⟨m, buf, arrivals⟩
      = walkReports rounds len src na tp w₀ := by
    show (firstReport src na tp (m.registerFirst src na tp).1
      ⟨(m.registerFirst src na tp).2, buf, arrivals⟩).bind (walkReports rounds len src na tp) = _
    rw [hw₀, Option.bind_some]
  rw [hto, ← hview₀, walkReports, QueueRTCPManager.walkReports, ← hview₁]
  cases hw₁ : whileLoop (fun w : LiveWalk => decide (w.pointer < len ∧
      type w.receiver.rtcpRecvBuffer w.pointer = tRR)) (reportBody src na tp) rounds w₀ with
  | none => exact ⟨rfl, fun w hw => by cases hw⟩
  | some w₁ =>
      -- SDES and APP packets
      rw [hw₁, Option.map_some] at hview₁
      have hpointer₁ : w₁.pointer = passPackets buf len (fun t => t = tRR) w₀.pointer :=
        (reportLoop_spec hview₁.symm).1
      refine descriptionLoop_of_quiet (hcalm₁ w₁ hw₁) ?_ rounds src
      intro p hp
      rw [hpointer₁, hpointer₀] at hp
      exact mem_checkedSSRCs (List.mem_append_left _ (List.mem_append_right _ hp))

/-- **A compound during which nothing is received** is taken in as the functions of
`QueueRTCPManager` take it in, and stays in the buffer. -/
theorem takeInControlPacket_walk (h : r.Undisturbed len na tp) (rounds : ℕ) :
    (r.takeInControlPacket rounds len na tp).map LiveWalk.walk
        = r.manager.takeInControlPacket rounds r.rtcpRecvBuffer len na tp ∧
      ∀ w, r.takeInControlPacket rounds len na tp = some w →
        w.receiver.rtcpRecvBuffer = r.rtcpRecvBuffer := by
  cases hcheck : RTCPCompoundHandler.checkCompoundRTCPHeader r.rtcpRecvBuffer len with
  | none =>
      rw [takeInControlPacket, QueueRTCPManager.takeInControlPacket, hcheck]
      exact ⟨rfl, fun w hw => by cases hw⟩
  | some accepted =>
      cases accepted with
      | false =>
          rw [takeInControlPacket, QueueRTCPManager.takeInControlPacket, hcheck]
          refine ⟨rfl, fun w hw => ?_⟩
          cases hw
          rfl
      | true =>
          have htake : r.takeInControlPacket rounds len na tp
              = (r.walkToByes rounds len na tp).bind (walkByes rounds len na tp) := by
            rw [takeInControlPacket, hcheck]
            rfl
          obtain ⟨hview, hcalm⟩ := walkToByes_of_undisturbed h rounds
          rw [htake, takeInControlPacket_eq rounds r.manager na tp hcheck, walkLoops_eq_bind,
            ← hview]
          cases hw : r.walkToByes rounds len na tp with
          | none => exact ⟨rfl, fun w hw' => by cases hw'⟩
          | some w =>
              rw [hw, Option.map_some] at hview
              have hpointer : w.pointer = byeOffset r.rtcpRecvBuffer len := by
                have hp := pointer_walkReports hview.symm
                rw [(firstReport_walk r.rtcpRecvBuffer _ na tp _ _).1] at hp
                exact hp
              have hchecked : w.pointer < len → type r.rtcpRecvBuffer w.pointer = tBYE →
                  getSSRC r.rtcpRecvBuffer w.pointer ∈ checkedSSRCs r.rtcpRecvBuffer len := by
                intro hlt hbye
                rw [hpointer] at hlt hbye ⊢
                refine mem_checkedSSRCs (List.mem_append_right _ ?_)
                rw [if_pos ⟨hlt, hbye⟩]
                exact List.mem_singleton_self _
              obtain ⟨hview', hcalm'⟩ := walkByes_of_quiet (hcalm w hw) hchecked rounds
              exact ⟨hview', fun w' hw' => (hcalm' w' hw').rtcpRecvBuffer⟩

/-! ## The end of the reception -/

/-- **When reception ends.**  A compound that passes the header check, and during which no other
datagram is received, is processed in finitely many rounds, unless the first packet behind the
reports, SDES and APP packets is a BYE packet without blocks or in a repeating collision. -/
theorem reception_finishes_iff (r : ReceivingManager) (len : ℕ) (na : InetAddress)
    (tp : BitVec 16)
    (haccept : RTCPCompoundHandler.checkCompoundRTCPHeader r.rtcpRecvBuffer len = some true)
    (hundisturbed : r.Undisturbed len na tp) :
    (∃ rounds, (r.takeInControlPacket rounds len na tp).isSome = true) ↔
      (byeOffset r.rtcpRecvBuffer len < len →
        type r.rtcpRecvBuffer (byeOffset r.rtcpRecvBuffer len) = tBYE →
        blockCount r.rtcpRecvBuffer (byeOffset r.rtcpRecvBuffer len) ≠ 0 ∧
          ¬ r.manager.CollisionRepeats na tp (getSSRC r.rtcpRecvBuffer 0)
            (getSSRC r.rtcpRecvBuffer (byeOffset r.rtcpRecvBuffer len))) := by
  have hends := takeInControlPacket_ends_iff r.manager r.rtcpRecvBuffer len na tp haccept
  simp only [← (takeInControlPacket_walk hundisturbed _).1, Option.isSome_map] at hends
  rw [hends]
  constructor
  · intro hno hlt hbye
    exact ⟨fun hzero => hno ⟨hlt, hbye, Or.inl hzero⟩,
      fun hrepeats => hno ⟨hlt, hbye, Or.inr hrepeats⟩⟩
  · rintro hends ⟨hlt, hbye, hzero | hrepeats⟩
    · exact (hends hlt hbye).1 hzero
    · exact (hends hlt hbye).2 hrepeats

/-- A session of fifty-one sources that has sent a packet.  Its local SSRC is 1. -/
def crowded : QueueRTCPManager :=
  { alone with
    sources := fun x => if x < 51 then
      some { ControlSource.new with networkAddress := 4, controlTransportPort := 4004 } else none
    members := 51
    sendPacketCount := 1 }

/-- A receiver report of source 1 and a BYE packet of source 7. -/
def ownReportAndBye : Memory :=
  .ofOctets [0x80, 201, 0, 1, 0, 0, 0, 1, 0x81, 203, 0, 1, 0, 0, 0, 7]

/-- The back-off receives nothing. -/
theorem undisturbed_of_nothing (m : QueueRTCPManager) (buf : Memory) (len : ℕ) (na : InetAddress)
    (tp : BitVec 16) : Undisturbed ⟨m, buf, [[]]⟩ len na tp :=
  fun _ _ _ _ ha => List.mem_singleton.mp ha

/-- The theorem at a compound that leads to a back-off, in which nothing is received. -/
theorem reception_finishes_iff_ownReportAndBye :
    RTCPCompoundHandler.checkCompoundRTCPHeader ownReportAndBye 16 = some true ∧
      Undisturbed ⟨crowded, ownReportAndBye, [[]]⟩ 16 5 5005 ∧
      ((∃ rounds,
          (takeInControlPacket rounds 16 5 5005 ⟨crowded, ownReportAndBye, [[]]⟩).isSome = true) ↔
        (byeOffset ownReportAndBye 16 < 16 →
          type ownReportAndBye (byeOffset ownReportAndBye 16) = tBYE →
          blockCount ownReportAndBye (byeOffset ownReportAndBye 16) ≠ 0 ∧
            ¬ crowded.CollisionRepeats 5 5005 (getSSRC ownReportAndBye 0)
              (getSSRC ownReportAndBye (byeOffset ownReportAndBye 16)))) :=
  ⟨by decide, undisturbed_of_nothing _ _ 16 5 5005,
    reception_finishes_iff ⟨crowded, ownReportAndBye, [[]]⟩ 16 5 5005 (by decide)
      (undisturbed_of_nothing _ _ 16 5 5005)⟩

/-- The offset of a BYE packet behind a receiver report. -/
theorem byeOffset_of_report (hlen : 0 < len) (hreport : type buf 0 = tRR)
    (hbye : type buf (getLength buf 0) = tBYE) : byeOffset buf len = getLength buf 0 := by
  have hfirst : (if type buf 0 = tSR then getLength buf 0 else 0) = 0 := by
    rw [hreport]
    exact if_neg (by decide)
  have hstop : ∀ types : UInt8 → Bool, types tBYE = false →
      passPackets buf len types (getLength buf 0) = getLength buf 0 := by
    intro types htypes
    rw [passPackets, if_neg]
    rintro ⟨-, htype⟩
    rw [hbye, htypes] at htype
    cases htype
  rw [byeOffset, hfirst, passPackets.eq_def _ _ _ 0, if_pos ⟨hlen, decide_eq_true hreport⟩,
    Nat.zero_add, hstop _ (by decide), hstop _ (by decide)]

/-- A receiver report and a BYE packet that names nobody. -/
def reportAndEmptyBye : Memory := .ofOctets [0x80, 201, 0, 1, 0, 0, 0, 7, 0x80, 203, 0, 0]

/-- The compound passes the header check, and reception of it never ends. -/
theorem reception_hangs_on_empty_bye :
    RTCPCompoundHandler.checkCompoundRTCPHeader reportAndEmptyBye 12 = some true ∧
      ¬ ∃ rounds,
        (takeInControlPacket rounds 12 5 5005 ⟨alone, reportAndEmptyBye, []⟩).isSome = true := by
  have haccept : RTCPCompoundHandler.checkCompoundRTCPHeader reportAndEmptyBye 12 = some true := by
    decide
  have hundisturbed : Undisturbed ⟨alone, reportAndEmptyBye, []⟩ 12 5 5005 :=
    fun _ _ _ a ha => absurd ha List.not_mem_nil
  have hoffset : byeOffset reportAndEmptyBye 12 = 8 :=
    byeOffset_of_report (by decide) (by decide) (by decide)
  refine ⟨haccept, ?_⟩
  rintro ⟨rounds, hsome⟩
  rw [← Option.isSome_map (f := LiveWalk.walk), (takeInControlPacket_walk hundisturbed rounds).1]
    at hsome
  refine (takeInControlPacket_ends_iff _ _ _ _ _ haccept).mp ⟨rounds, hsome⟩ ?_
  dsimp only
  rw [hoffset]
  exact ⟨by decide, by decide, Or.inl (by decide)⟩

/-! ## The BYE packets -/

/-- **BYE processing, exactly.**  Let a BYE packet list sources, with the list inside the packet.
For every manager, `getBYE` makes these sources leave, and only these, reports and counts each
of them once and goes on behind the packet, if and only if the packet lists one source and this
is not leaving already.  And let an accepted compound, during which no other datagram is received,
have such packets behind its reports, SDES and APP packets: `takeInControlPacket` processes each of
them, in order, if and only if there is one, which ends the compound, lists one source that is not
leaving already, and passes the SSRC check. -/
theorem bye_processing_iff (r : ReceivingManager) (na : InetAddress) (tp : BitVec 16) :
    (∀ (buf : Memory) (pkt pointer : ℕ), ListsSources buf pkt →
      (SaidGoodbye r.manager (byeSSRCs buf pkt) (r.manager.getBYE buf pkt pointer).2 ∧
          (r.manager.getBYE buf pkt pointer).1 = pointer + getLength buf pkt ↔
        (blockCount buf pkt).toNat = 1 ∧
          (r.manager.source (getSSRC buf pkt)).state ≠ .leaving)) ∧
    ∀ len, len + 2 ^ 18 < 2 ^ 32 →
      RTCPCompoundHandler.checkCompoundRTCPHeader r.rtcpRecvBuffer len = some true →
      r.Undisturbed len na tp → ∀ rounds, 2 ^ 18 + len ≤ rounds →
        ∃ w, r.walkToByes rounds len na tp = some w ∧ w.pointer = byeOffset r.rtcpRecvBuffer len ∧
          ∀ os q, os ≠ [] → Stretch r.rtcpRecvBuffer (fun t => t = tBYE) w.pointer os q → q ≤ len →
            (∀ p ∈ os, ListsSources r.rtcpRecvBuffer p) →
              ((∃ w', r.takeInControlPacket rounds len na tp = some w' ∧
                  w'.visited = w.visited ++ os ∧ w'.pointer = q ∧
                  ByesProcessed r.rtcpRecvBuffer na tp w.receiver.manager os
                    w'.receiver.manager) ↔
                os = [w.pointer] ∧ q = len ∧
                  ¬ w.receiver.manager.Repeats na tp (getSSRC r.rtcpRecvBuffer w.pointer) ∧
                  (blockCount r.rtcpRecvBuffer w.pointer).toNat = 1 ∧
                  (w.receiver.manager.source (getSSRC r.rtcpRecvBuffer w.pointer)).state
                    ≠ .leaving) := by
  constructor
  · intro buf pkt pointer hlists
    have hpointer := r.manager.getBYE_pointer buf pkt pointer
    rw [if_neg hlists.blocks] at hpointer
    rw [and_iff_left hpointer]
    exact getBYE_said_iff r.manager hlists pointer
  · intro len hlen haccept hundisturbed rounds hrounds
    obtain ⟨ps, hps, hne⟩ := exists_splits_of_accepted hlen haccept
    obtain ⟨sr, rr, sd, rest, hdivided⟩ := exists_divided ps
    obtain ⟨v, hv, -⟩ := walkReports_divided hdivided hps hne (getSSRC r.rtcpRecvBuffer 0) na tp
      (r.manager.registerFirst (getSSRC r.rtcpRecvBuffer 0) na tp).1
      (r.manager.registerFirst (getSSRC r.rtcpRecvBuffer 0) na tp).2 hrounds
    have hview := (walkToByes_of_undisturbed hundisturbed rounds).1
    rw [hv] at hview
    obtain ⟨w, hw, rfl⟩ := Option.map_eq_some_iff.mp hview
    have hpointer := pointer_walkReports hv
    rw [(firstReport_walk r.rtcpRecvBuffer _ na tp _ _).1] at hpointer
    refine ⟨w, hw, hpointer, fun os q hos hstretch hq hlists => ?_⟩
    have hbyes := walkByes_processed_iff (w := w.walk) hstretch hos hq hlists
      (show 1 ≤ rounds by omega) na tp
    have htake := (takeInControlPacket_walk hundisturbed rounds).1
    rw [takeInControlPacket_eq rounds r.manager na tp haccept, walkLoops_eq_bind, hv,
      Option.bind_some] at htake
    rw [← htake] at hbyes
    refine Iff.trans ⟨?_, ?_⟩ hbyes
    · rintro ⟨w', hw', hprocessed⟩
      exact ⟨w'.walk, Option.map_eq_some_iff.mpr ⟨w', hw', rfl⟩, hprocessed⟩
    · rintro ⟨v', hv', hprocessed⟩
      obtain ⟨w', hw', rfl⟩ := Option.map_eq_some_iff.mp hv'
      exact ⟨w', hw', hprocessed⟩

/-- The theorem at a BYE packet of source 7, and at the compound that leads to a back-off. -/
theorem bye_processing_iff_ownReportAndBye :
    (SaidGoodbye crowded (byeSSRCs ownReportAndBye 8) (crowded.getBYE ownReportAndBye 8 8).2 ∧
        (crowded.getBYE ownReportAndBye 8 8).1 = 8 + getLength ownReportAndBye 8 ↔
      (blockCount ownReportAndBye 8).toNat = 1 ∧
        (crowded.source (getSSRC ownReportAndBye 8)).state ≠ .leaving) ∧
    ∃ w : LiveWalk, w.pointer = 8 ∧
      ((∃ w', takeInControlPacket (2 ^ 18 + 16) 16 5 5005 ⟨crowded, ownReportAndBye, [[]]⟩
            = some w' ∧
          w'.visited = w.visited ++ [8] ∧ w'.pointer = 16 ∧
          ByesProcessed ownReportAndBye 5 5005 w.receiver.manager [8] w'.receiver.manager) ↔
        [8] = [w.pointer] ∧ 16 = 16 ∧
          ¬ w.receiver.manager.Repeats 5 5005 (getSSRC ownReportAndBye w.pointer) ∧
          (blockCount ownReportAndBye w.pointer).toNat = 1 ∧
          (w.receiver.manager.source (getSSRC ownReportAndBye w.pointer)).state ≠ .leaving) := by
  obtain ⟨hsaid, hprocessed⟩ := bye_processing_iff ⟨crowded, ownReportAndBye, [[]]⟩ 5 5005
  refine ⟨hsaid ownReportAndBye 8 8 (by decide), ?_⟩
  obtain ⟨w, -, hpointer, hiff⟩ := hprocessed 16 (by decide) (by decide)
    (undisturbed_of_nothing _ _ 16 5 5005) _ (le_refl (2 ^ 18 + 16))
  replace hpointer : w.pointer = 8 :=
    hpointer.trans (byeOffset_of_report (by decide) (by decide) (by decide))
  refine ⟨w, hpointer, hiff [8] 16 (by decide) ?_ le_rfl (by decide)⟩
  rw [hpointer]
  exact ⟨rfl, by decide, (by decide : 8 + getLength ownReportAndBye 8 = 16)⟩

/-! ## The packets that are visited -/

/-- **The walk over a compound without BYE packets.**  Let a compound pass the header check, and
let no other datagram be received during it; let `pre` be the longest prefix of its packets that
consists of one optional sender report, of receiver reports, and of SDES and APP packets.  If the
packet behind it is not a BYE packet, `takeInControlPacket` visits the packets of the prefix, in
order and where they stand, and hands what is left to `onGotRRSRExtension`, which it does not call
if nothing is left. -/
theorem walk_visits_longest_prefix (r : ReceivingManager) {len : ℕ}
    (hlen : len + 2 ^ 18 < 2 ^ 32) (na : InetAddress) (tp : BitVec 16)
    (haccept : RTCPCompoundHandler.checkCompoundRTCPHeader r.rtcpRecvBuffer len = some true)
    (hundisturbed : r.Undisturbed len na tp) :
    ∃ pre rest, Splits (r.rtcpRecvBuffer.octets 0 len) (pre ++ rest) ∧
      LongestWalkable pre (pre ++ rest) ∧
      ((∀ p, rest.head? = some p → typeOf p ≠ tBYE) →
        ∃ rounds w, r.takeInControlPacket rounds len na tp = some w ∧
          w.visited = offsets 0 pre ∧
          onGotRRSRExtension len w.walk
            = (if rest = [] then none else some (pre.flatten.length, rest.flatten.length)) ∧
          w.receiver.rtcpRecvBuffer.octets pre.flatten.length rest.flatten.length
            = rest.flatten) := by
  obtain ⟨pre, rest, hsplits, hlongest, hvisits⟩ :=
    r.manager.takeInControlPacket_visits r.rtcpRecvBuffer hlen na tp haccept
  refine ⟨pre, rest, hsplits, hlongest, fun hbye => ?_⟩
  obtain ⟨rounds, v, hv, hvisited, hextension, hrest⟩ := hvisits hbye
  obtain ⟨hview, hbuffer⟩ := takeInControlPacket_walk hundisturbed rounds
  rw [hv] at hview
  obtain ⟨w, hw, rfl⟩ := Option.map_eq_some_iff.mp hview
  refine ⟨rounds, w, hw, hvisited, hextension, ?_⟩
  rw [hbuffer w hw]
  exact hrest

/-- Receiver reports of the sources 1 and 7. -/
def twoReports : Memory := .ofOctets [0x80, 201, 0, 1, 0, 0, 0, 1, 0x80, 201, 0, 1, 0, 0, 0, 7]

/-- The theorem at two reports, the first of which leads to a back-off. -/
theorem walk_visits_longest_prefix_twoReports :
    ∃ pre rest, Splits (twoReports.octets 0 16) (pre ++ rest) ∧ LongestWalkable pre (pre ++ rest) ∧
      ((∀ p, rest.head? = some p → typeOf p ≠ tBYE) →
        ∃ rounds w, takeInControlPacket rounds 16 5 5005 ⟨crowded, twoReports, [[]]⟩ = some w ∧
          w.visited = offsets 0 pre ∧
          onGotRRSRExtension 16 w.walk
            = (if rest = [] then none else some (pre.flatten.length, rest.flatten.length)) ∧
          w.receiver.rtcpRecvBuffer.octets pre.flatten.length rest.flatten.length
            = rest.flatten) :=
  walk_visits_longest_prefix ⟨crowded, twoReports, [[]]⟩ (by decide) 5 5005 (by decide)
    (undisturbed_of_nothing _ _ 16 5 5005)

/-- A receiver report of source 9 that is as long as the two reports. -/
def longReport : Octets := [0x80, 201, 0, 3, 0, 0, 0, 9, 0, 0, 0, 0, 0, 0, 0, 0]

/-- **A datagram that arrives in the back-off.**  It takes the place of the two reports when the
walk is at the first of them, so the second one is not visited. -/
theorem overwritten_walk_skips_packet :
    RTCPCompoundHandler.checkCompoundRTCPHeader twoReports 16 = some true ∧
      ∃ pre, Splits (twoReports.octets 0 16) pre ∧ LongestWalkable pre pre ∧
        offsets 0 pre = [0, 8] ∧
        ¬ ∃ rounds w, takeInControlPacket rounds 16 5 5005
            ⟨crowded, twoReports, [[longReport]]⟩ = some w ∧
          w.visited = offsets 0 pre := by
  refine ⟨by decide, [twoReports.octets 0 8, twoReports.octets 8 8], ?_, ?_, by decide, ?_⟩
  · exact ⟨by decide, by decide⟩
  · refine ⟨List.prefix_rfl, ⟨[], [twoReports.octets 0 8, twoReports.octets 8 8], [], rfl, ?_⟩,
      fun pre hpre _ => hpre.length_le⟩
    exact ⟨by decide, by decide, by decide, by decide⟩
  · rintro ⟨rounds, w, hw, hvisited⟩
    have hskips : (takeInControlPacket rounds 16 5 5005 ⟨crowded, twoReports, [[longReport]]⟩).map
        LiveWalk.visited = if rounds = 0 then none else some [0] := by
      match rounds with
      | 0 => decide
      | 1 => decide
      | rounds + 2 => rfl
    rw [hw, Option.map_some, hvisited] at hskips
    split_ifs at hskips
    exact absurd hskips (by decide)

end ReceivingManager
