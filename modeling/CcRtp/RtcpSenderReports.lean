/-
# Sender reports and the time of their arrival

Behind `if ( checkSSRCInRTCPPkt(...) )` in `QueueRTCPManager::takeInControlPacket`
(`src/control.cpp`) stands one statement only, the time of arrival; the call of `onGotSR` behind
it is always made.  And the time of arrival is recorded before, for the source of every compound,
whether it begins with a sender report or with a receiver report.  `packReportBlocks` takes the
middle of the NTP timestamp from the sender info, and the delay from the time.

* `rejected_report_ignored_iff` : when a sender report that fails the check has no effect;
* `DescribesLastReport` : sender info and time belong to the last sender report;
* `describesLastReport_receiveNext` : when a compound keeps this;
* `delay_of_last_report_iff` : the same for runs.
-/
import CcRtp.RtcpReports
import CcRtp.RtcpSending

/-! ## The report block of a source -/

/-- The lower half of a word. -/
theorem toNat_low (x : BitVec 32) : (x &&& 0xFFFF).toNat = x.toNat % 2 ^ 16 := by
  rw [BitVec.toNat_and]
  exact Nat.and_two_pow_sub_one_eq_mod x.toNat 16

/-- The upper half. -/
theorem toNat_high (x : BitVec 32) : ((x &&& 0xFFFF0000) >>> 16).toNat = x.toNat / 2 ^ 16 := by
  have hx := x.isLt
  rw [BitVec.ushiftRight_and_distrib, BitVec.toNat_and, BitVec.toNat_ushiftRight,
    Nat.shiftRight_eq_div_pow]
  refine (Nat.and_two_pow_sub_one_eq_mod (x.toNat / 2 ^ 16) 16).trans ?_
  omega

/-- The lower half of a word, and the upper half of another one. -/
theorem toNat_middle (x y : BitVec 32) :
    (((x &&& 0x0FFFF) <<< 16) + ((y &&& 0xFFFF0000) >>> 16)).toNat
      = x.toNat % 2 ^ 16 * 2 ^ 16 + y.toNat / 2 ^ 16 := by
  have hlow := y.isLt
  rw [BitVec.toNat_add, BitVec.toNat_shiftLeft, toNat_low, toNat_high, Nat.shiftLeft_eq]
  omega

namespace ReportedSource

/-- **`lsr`** is the middle of the NTP timestamp of the sender report that has been kept. -/
theorem bigEndian_lsr (r : ReportedSource) (buf : Memory)
    (h : r.senderInfo = some (buf.octets 8 20)) : bigEndian 4 r.lsr.toNat = buf.octets 10 4 := by
  have hmsw : slice (buf.octets 8 20) 0 4 = buf.octets 8 2 ++ buf.octets 10 2 := by
    rw [show 20 = 4 + 16 from rfl, Memory.octets_add,
      slice_append_left _ _ (Memory.length_octets _ _ _).symm]
    exact Memory.octets_add buf 8 2 2
  have hlsw : slice (buf.octets 8 20) 4 4 = buf.octets 12 2 ++ buf.octets 14 2 := by
    rw [show 20 = 4 + 4 + 12 from rfl, Memory.octets_add, Memory.octets_add,
      slice_append_mid _ _ _ (Memory.length_octets _ _ _).symm (Memory.length_octets _ _ _).symm]
    exact Memory.octets_add buf 12 2 2
  have hmiddle : buf.octets 10 4 = buf.octets 10 2 ++ buf.octets 12 2 :=
    Memory.octets_add buf 10 2 2
  have hfour := fun l : Octets => ofBigEndian_lt l
  have h8 := hfour (buf.octets 8 2)
  have h10 := hfour (buf.octets 10 2)
  have h12 := hfour (buf.octets 12 2)
  have h14 := hfour (buf.octets 14 2)
  rw [Memory.length_octets] at h8 h10 h12 h14
  have hvalue : r.lsr.toNat = ofBigEndian (buf.octets 10 4) := by
    rw [lsr, h, Option.elim_some, hmsw, hlsw, toNat_middle, hmiddle, ofBigEndian_append,
      ofBigEndian_append, ofBigEndian_append, BitVec.toNat_ofNat, BitVec.toNat_ofNat]
    simp only [Memory.length_octets]
    omega
  have hround := bigEndian_ofBigEndian (buf.octets 10 4)
  rw [Memory.length_octets] at hround
  rw [hvalue, hround]

/-- The end of the block that `packReportBlocks` puts for the source. -/
theorem slice_block (r : ReportedSource) (now : Timeval) :
    slice (r.block now) 16 8 = bigEndian 4 r.lsr.toNat ++ bigEndian 4 (r.dlsr now).toNat := by
  rw [block, List.append_assoc (_ ++ bigEndian 4 r.jitter.toNat)]
  exact slice_append_right _ _ (by simp) (by simp)

end ReportedSource

namespace QueueRTCPManager

open RTCPPacket

variable {m m' : QueueRTCPManager} {buf : Memory} {len rounds : ℕ} {src : BitVec 32}
  {na : InetAddress} {tp : BitVec 16} {w : Walk}

/-! ## A compound as a whole -/

/-- **The sender reports behind a compound.** -/
theorem sent_takeInControlPacket (m : QueueRTCPManager)
    (haccept : RTCPCompoundHandler.checkCompoundRTCPHeader buf len = some true)
    (hw : m.takeInControlPacket rounds buf len na tp = some w) :
    ∃ w₀, w₀ = firstReport buf (getSSRC buf 0) na tp (m.registerFirst (getSSRC buf 0) na tp).1
        (m.registerFirst (getSSRC buf 0) na tp).2 ∧
      w.manager.localSSRC = m.localSSRC ∧
      ∀ x, (w.manager.source x).reports.sent
        = if x = m.localSSRC ∧ x ∈ (checkedPackets buf len).map (getSSRC buf) ∧
            w₀.manager.NewCollision na tp then (none, ⟨0, 0⟩)
          else if x = getSSRC buf 0 then
            (if type buf 0 = tSR then some (buf.octets 8 20)
              else (m.source (getSSRC buf 0)).senderInfo, m.clock)
          else (m.source x).reports.sent := by
  rw [takeInControlPacket_eq rounds m na tp haccept] at hw
  refine ⟨_, rfl, ?_⟩
  have hrestart := restartsFor_walkLoops (firstReport_walk buf _ na tp _ _).1 hw
  obtain ⟨hlocal, -, -⟩ := newCollision_firstReport buf m (getSSRC buf 0) na tp _ rfl
  refine ⟨hrestart.localSSRC.trans hlocal, fun x => ?_⟩
  rw [hrestart.reports x, sent_firstReport, hlocal]
  rfl

/-! ## Sender reports that fail the check -/

/-- **Rejected sender reports, exactly.**  Let an accepted compound begin with a sender report for
which `checkSSRCInRTCPPkt` returns false.  In every session, `takeInControlPacket` leaves the sender
info and the time of the last sender report of every source as they were if and only if the
rejected report is the one that is stored, with the time it has arrived now, and no later packet
makes the local source begin anew, or this has no sender info. -/
theorem rejected_report_ignored_iff (m : QueueRTCPManager) (buf : Memory) (len : ℕ)
    (na : InetAddress) (tp : BitVec 16)
    (haccept : RTCPCompoundHandler.checkCompoundRTCPHeader buf len = some true)
    (hsr : type buf 0 = tSR)
    (hreject : (((m.registerFirst (getSSRC buf 0) na tp).2.recordSRTime
      (getSSRC buf 0)).checkSSRCInRTCPPkt (getSSRC buf 0)
        (m.registerFirst (getSSRC buf 0) na tp).1 na tp).1 = false)
    (rounds : ℕ) (w : Walk) (hw : m.takeInControlPacket rounds buf len na tp = some w) :
    (∀ x, (w.manager.source x).senderInfo = (m.source x).senderInfo ∧
        (w.manager.source x).lastRTCPSRTime = (m.source x).lastRTCPSRTime) ↔
      (m.source (getSSRC buf 0)).senderInfo = some (buf.octets 8 20) ∧
        (m.source (getSSRC buf 0)).lastRTCPSRTime = m.clock ∧
        (m.NewCollision na tp → m.localSSRC ∈ (checkedPackets buf len).map (getSSRC buf) →
          (m.source m.localSSRC).senderInfo = none ∧
            (m.source m.localSSRC).lastRTCPSRTime = ⟨0, 0⟩) := by
  obtain ⟨w₀, hw₀, hlocal, hsent⟩ := m.sent_takeInControlPacket haccept hw
  obtain ⟨-, hback, hforth⟩ := newCollision_firstReport buf m (getSSRC buf 0) na tp w₀ hw₀
  obtain ⟨hlocal₁, hconflicts, -⟩ := m.registerFirst_spec (getSSRC buf 0) na tp
  set src := getSSRC buf 0 with hsrc
  -- a rejected report of the local source is in a known conflict
  have hknown : src = m.localSSRC → ¬ m.NewCollision na tp := by
    intro heq hnew
    have hsearch := known_of_rejected hreject (heq.trans hlocal₁.symm)
    have hsame : ((m.registerFirst src na tp).2.recordSRTime src).searchControlConflict na tp
        = m.searchControlConflict na tp := congrArg (List.find? (isControlAddress na tp)) hconflicts
    rw [hsame, hnew.2] at hsearch
    cases hsearch
  have hnew : w₀.manager.NewCollision na tp ↔ m.NewCollision na tp := by
    constructor
    · exact fun h => (hback h).1
    · intro h
      exact hforth (fun _ heq => hknown heq h) ⟨h, fun heq => hknown heq.1.symm h⟩
  have hpair : ∀ x, ((w.manager.source x).senderInfo = (m.source x).senderInfo ∧
      (w.manager.source x).lastRTCPSRTime = (m.source x).lastRTCPSRTime) ↔
        (w.manager.source x).reports.sent = (m.source x).reports.sent :=
    fun x => Prod.mk.injEq _ _ _ _ ▸ Iff.rfl
  simp only [hpair, hsent, hnew, if_pos hsr]
  constructor
  · intro h
    have hself := h src
    rw [if_neg (fun hr => hknown hr.1 hr.2.2), if_pos rfl] at hself
    obtain ⟨hinfo, htime⟩ := Prod.mk.inj hself
    refine ⟨hinfo.symm, htime.symm, fun hcollision hmem => ?_⟩
    have hanew := h m.localSSRC
    rw [if_pos ⟨rfl, hmem, hcollision⟩] at hanew
    obtain ⟨hinfo', htime'⟩ := Prod.mk.inj hanew
    exact ⟨hinfo'.symm, htime'.symm⟩
  · rintro ⟨hinfo, htime, hanew⟩ x
    split_ifs with hr hx
    · obtain ⟨rfl, hmem, hcollision⟩ := hr
      obtain ⟨hinfo', htime'⟩ := hanew hcollision hmem
      exact (Prod.ext hinfo' htime').symm
    · subst hx
      exact (Prod.ext hinfo htime).symm
    · rfl

/-- A session that has heard source 7 from another address, and since then from this one. -/
def heardBoth : QueueRTCPManager :=
  { alone with sources := Function.update (fun _ => none) 7 (some { ControlSource.new with
      networkAddress := 9
      controlTransportPort := 5005
      prevConflict := some ⟨5, 0, 5005⟩ }) }

/-- A sender report of source 7, with an NTP timestamp of seven seconds. -/
def reportOfSeven : Memory :=
  .ofOctets [0x80, 200, 0, 6, 0, 0, 0, 7, 0, 0, 0, 7, 0, 0, 0, 0, 0, 0, 0, 0, 0, 0, 0,
    1, 0, 0, 0, 1]

theorem exists_heardBoth : ∃ w, heardBoth.takeInControlPacket 0 reportOfSeven 28 5 5005 = some w :=
  Option.isSome_iff_exists.mp (by decide)

/-- The theorem at a sender report from the address of a repeating collision. -/
theorem rejected_report_ignored_iff_heardBoth :
    ∃ w, heardBoth.takeInControlPacket 0 reportOfSeven 28 5 5005 = some w ∧
      ((∀ x, (w.manager.source x).senderInfo = (heardBoth.source x).senderInfo ∧
          (w.manager.source x).lastRTCPSRTime = (heardBoth.source x).lastRTCPSRTime) ↔
        (heardBoth.source (getSSRC reportOfSeven 0)).senderInfo = some (reportOfSeven.octets 8 20) ∧
          (heardBoth.source (getSSRC reportOfSeven 0)).lastRTCPSRTime = heardBoth.clock ∧
          (heardBoth.NewCollision 5 5005 →
            heardBoth.localSSRC ∈ (checkedPackets reportOfSeven 28).map (getSSRC reportOfSeven) →
            (heardBoth.source heardBoth.localSSRC).senderInfo = none ∧
              (heardBoth.source heardBoth.localSSRC).lastRTCPSRTime = ⟨0, 0⟩)) := by
  obtain ⟨w, hw⟩ := exists_heardBoth
  exact ⟨w, hw,
    rejected_report_ignored_iff heardBoth reportOfSeven 28 5 5005 (by decide) (by decide)
    (by decide) 0 w hw⟩

/-- **A rejected sender report is stored.** -/
theorem rejected_report_stored :
    RTCPCompoundHandler.checkCompoundRTCPHeader reportOfSeven 28 = some true ∧
      type reportOfSeven 0 = tSR ∧
      (((heardBoth.registerFirst 7 5 5005).2.recordSRTime 7).checkSSRCInRTCPPkt 7
        (heardBoth.registerFirst 7 5 5005).1 5 5005).1 = false ∧
      ∃ w, heardBoth.takeInControlPacket 0 reportOfSeven 28 5 5005 = some w ∧
        (w.manager.source 7).senderInfo ≠ (heardBoth.source 7).senderInfo := by
  refine ⟨by decide, by decide, by decide, ?_⟩
  have hstored : (heardBoth.takeInControlPacket 0 reportOfSeven 28 5 5005).map
      (fun w => (w.manager.source 7).senderInfo) = some (some (reportOfSeven.octets 8 20)) := by
    decide
  obtain ⟨w, hw, hinfo⟩ := Option.map_eq_some_iff.mp hstored
  refine ⟨w, hw, fun h => ?_⟩
  exact absurd (hinfo.symm.trans h) (by decide)

/-! ## The delay since the last sender report -/

/-- The compounds are taken in and noted down. -/
abbrev receiveNext (rounds : ℕ) (s : QueueRTCPManager × List ReceivedCompound)
    (c : ReceivedCompound) : Option (QueueRTCPManager × List ReceivedCompound) :=
  receiveNoting (fun _ c => [c]) rounds s c

/-- The compound is accepted and begins with a sender report of the source. -/
def SendsReport (x : BitVec 32) (c : ReceivedCompound) : Prop :=
  RTCPCompoundHandler.checkCompoundRTCPHeader c.buf c.len = some true ∧ type c.buf 0 = tSR ∧
    getSSRC c.buf 0 = x

instance (x : BitVec 32) (c : ReceivedCompound) : Decidable (SendsReport x c) :=
  inferInstanceAs (Decidable (_ ∧ _))

/-- The last compound that began with a sender report of the source. -/
def lastSenderReport (history : List ReceivedCompound) (x : BitVec 32) : Option ReceivedCompound :=
  (history.filter (SendsReport x)).getLast?

theorem lastSenderReport_concat (history : List ReceivedCompound) (c : ReceivedCompound)
    (x : BitVec 32) :
    lastSenderReport (history ++ [c]) x
      = if SendsReport x c then some c else lastSenderReport history x := by
  rw [lastSenderReport, List.filter_append]
  split_ifs with h
  · rw [List.filter_singleton, decide_eq_true h, cond_true, List.getLast?_concat]
  · rw [List.filter_singleton, decide_eq_false h, cond_false, List.append_nil]
    rfl

/-- **Sender info and time belong together**: what is kept of a source is the last sender report it
has sent, and the time when this arrived. -/
def KeepsLastReport (s : QueueRTCPManager × List ReceivedCompound) : Prop :=
  ∀ x info, (s.1.source x).senderInfo = some info → ∃ c, lastSenderReport s.2 x = some c ∧
    info = c.buf.octets 8 20 ∧ (s.1.source x).lastRTCPSRTime = c.time

/-- **The report blocks describe one sender report**: what `packReportBlocks` puts as `lsr` for a
source that has sent a sender report is the middle of the NTP timestamp of the last one, and what
it puts as `dlsr` is the time since this arrived. -/
def DescribesLastReport (s : QueueRTCPManager × List ReceivedCompound) : Prop :=
  KeepsLastReport s ∧ ∀ x, (s.1.source x).senderInfo ≠ none →
    ∃ c, lastSenderReport s.2 x = some c ∧ ∀ r : ReportedSource,
      (r.senderInfo, r.lastRTCPSRTime) = (s.1.source x).reports.sent →
      ∀ now, slice (r.computeStats.block now) 16 8 = c.buf.octets 10 4
        ++ bigEndian 4 (timevalIntervalTo65536 (timersub now c.time)).toNat

theorem describesLastReport_iff_keeps (s : QueueRTCPManager × List ReceivedCompound) :
    DescribesLastReport s ↔ KeepsLastReport s := by
  refine ⟨And.left, fun h => ⟨h, fun x hsome => ?_⟩⟩
  obtain ⟨info, hinfo⟩ := Option.ne_none_iff_exists'.mp hsome
  obtain ⟨c, hc, rfl, htime⟩ := h x info hinfo
  refine ⟨c, hc, fun r hr now => ?_⟩
  obtain ⟨hrinfo, hrtime⟩ := Prod.mk.inj hr
  have hkept : r.computeStats.senderInfo = some (c.buf.octets 8 20) := hrinfo.trans hinfo
  have hdlsr : r.computeStats.dlsr now = timevalIntervalTo65536 (timersub now c.time) := by
    rw [ReportedSource.dlsr, hkept, Option.elim_some]
    exact congrArg (fun t => timevalIntervalTo65536 (timersub now t)) (hrtime.trans htime)
  rw [ReportedSource.slice_block, ReportedSource.bigEndian_lsr _ _ hkept, hdlsr]

/-- The compound does not separate the two: if it begins with a receiver report, its source has no
sender info, or the time of this is the same, or it is the local one, which begins anew. -/
def LeavesTime (m : QueueRTCPManager) (c : ReceivedCompound) : Prop :=
  RTCPCompoundHandler.checkCompoundRTCPHeader c.buf c.len = some true → type c.buf 0 = tRR →
    (m.source (getSSRC c.buf 0)).senderInfo = none ∨
      (m.source (getSSRC c.buf 0)).lastRTCPSRTime = c.time ∨
      (getSSRC c.buf 0 = m.localSSRC ∧
        m.CollisionBegins c.networkAddress c.transportPort (getSSRC c.buf 0))

/-- The first packet of an accepted compound is checked again, if it is a receiver report. -/
theorem getSSRC_mem_checkedPackets (hlen : 0 < len) (hrr : type buf 0 = tRR) :
    getSSRC buf 0 ∈ (checkedPackets buf len).map (getSSRC buf) := by
  have hsr : ¬ type buf 0 = tSR := by
    rw [hrr]
    decide
  refine List.mem_map_of_mem (List.mem_append_left _ (List.mem_append_left _ ?_))
  rw [if_neg hsr, passedPackets, if_pos ⟨hlen, decide_eq_true hrr⟩]
  exact List.mem_cons_self

section Receive

variable {c : ReceivedCompound} {s : QueueRTCPManager × List ReceivedCompound} {x : BitVec 32}
  {info : Octets}

/-- **What is kept of a source behind a compound**, if anything is. -/
theorem kept_receive (haccept : RTCPCompoundHandler.checkCompoundRTCPHeader c.buf c.len = some true)
    (hr : receive rounds m c = some m') (hinfo : (m'.source x).senderInfo = some info) :
    (some info, (m'.source x).lastRTCPSRTime)
      = if x = getSSRC c.buf 0 then
          (if type c.buf 0 = tSR then some (c.buf.octets 8 20)
            else (m.source (getSSRC c.buf 0)).senderInfo, c.time)
        else (m.source x).reports.sent := by
  obtain ⟨w, hw, rfl⟩ := Option.map_eq_some_iff.mp hr
  obtain ⟨w₀, -, -, hsent⟩ := sent_takeInControlPacket _ haccept hw
  have hx := hsent x
  by_cases hrestart : x = m.localSSRC ∧ x ∈ (checkedPackets c.buf c.len).map (getSSRC c.buf) ∧
      w₀.manager.NewCollision c.networkAddress c.transportPort
  · rw [if_pos hrestart] at hx
    exact absurd (hinfo.symm.trans (Prod.mk.inj hx).1) (Option.some_ne_none info)
  · rw [if_neg hrestart] at hx
    rw [← hinfo]
    exact hx

/-- **A receiver report at the front** changes the time of its source, unless this is the local one
and begins anew. -/
theorem sent_of_receiverReport
    (haccept : RTCPCompoundHandler.checkCompoundRTCPHeader c.buf c.len = some true)
    (hrr : type c.buf 0 = tRR) (hr : receive rounds m c = some m') :
    (m'.source (getSSRC c.buf 0)).reports.sent
      = if getSSRC c.buf 0 = m.localSSRC ∧
            m.CollisionBegins c.networkAddress c.transportPort (getSSRC c.buf 0) then (none, ⟨0, 0⟩)
        else ((m.source (getSSRC c.buf 0)).senderInfo, c.time) := by
  obtain ⟨w, hw, rfl⟩ := Option.map_eq_some_iff.mp hr
  obtain ⟨w₀, hw₀, -, hsent⟩ := sent_takeInControlPacket _ haccept hw
  obtain ⟨hpos, -⟩ := first_of_accepted (by have := c.short; omega) haccept
  have hmem := getSSRC_mem_checkedPackets hpos hrr
  have hnotsr : ¬ type c.buf 0 = tSR := by
    rw [hrr]
    decide
  obtain ⟨-, hback, hforth⟩ := newCollision_firstReport c.buf _ _ c.networkAddress
    c.transportPort w₀ hw₀
  rw [hsent, if_neg hnotsr, if_pos rfl]
  refine if_congr (and_congr_right (fun _ => ?_)) rfl rfl
  rw [and_iff_right hmem]
  exact ⟨hback, hforth (fun hsr => absurd hsr hnotsr)⟩

/-- A sender report at the front comes with its time. -/
theorem keepsLastReport_of_senderReport (h : KeepsLastReport s)
    (haccept : RTCPCompoundHandler.checkCompoundRTCPHeader c.buf c.len = some true)
    (hsr : type c.buf 0 = tSR) (hr : receive rounds s.1 c = some m') :
    KeepsLastReport (m', s.2 ++ [c]) := by
  intro x info hinfo
  have hx := kept_receive haccept hr hinfo
  rw [lastSenderReport_concat]
  by_cases hsrc : x = getSSRC c.buf 0
  · rw [if_pos hsrc, if_pos hsr, Prod.mk.injEq, Option.some_inj] at hx
    rw [if_pos ⟨haccept, hsr, hsrc.symm⟩]
    exact ⟨c, rfl, hx⟩
  · rw [if_neg hsrc] at hx
    obtain ⟨hinfo', htime⟩ := Prod.mk.inj hx
    rw [if_neg (fun hsends => hsrc hsends.2.2.symm), htime]
    exact h x info hinfo'.symm

/-- A receiver report at the front. -/
theorem keepsLastReport_of_receiverReport_iff (h : KeepsLastReport s)
    (haccept : RTCPCompoundHandler.checkCompoundRTCPHeader c.buf c.len = some true)
    (hrr : type c.buf 0 = tRR) (hr : receive rounds s.1 c = some m') :
    KeepsLastReport (m', s.2 ++ [c]) ↔ LeavesTime s.1 c := by
  have hnotsr : ¬ type c.buf 0 = tSR := by
    rw [hrr]
    decide
  have hlast : ∀ x, lastSenderReport (s.2 ++ [c]) x = lastSenderReport s.2 x := fun x => by
    rw [lastSenderReport_concat, if_neg (fun hsends => hnotsr hsends.2.1)]
  constructor
  · intro hkeeps _ _
    cases hinfo : (s.1.source (getSSRC c.buf 0)).senderInfo with
    | none => exact Or.inl rfl
    | some info =>
        right
        rw [or_iff_not_imp_right]
        intro hstays
        -- the source has the time of the compound now, and the sender info of before
        have hafter := sent_of_receiverReport haccept hrr hr
        rw [if_neg hstays] at hafter
        obtain ⟨hinfo', htime'⟩ := Prod.mk.inj hafter
        obtain ⟨c', hc', -, htime⟩ := h _ info hinfo
        obtain ⟨c'', hc'', -, htime''⟩ := hkeeps _ info (hinfo'.trans hinfo)
        rw [hlast, hc', Option.some_inj] at hc''
        subst hc''
        exact htime.trans (htime''.symm.trans htime')
  · intro hleaves x info hinfo
    have hx := kept_receive haccept hr hinfo
    rw [hlast]
    by_cases hsrc : x = getSSRC c.buf 0
    · rw [if_pos hsrc, if_neg hnotsr, Prod.mk.injEq] at hx
      rw [hsrc] at hinfo ⊢
      obtain ⟨c', hc', hinfo', htime'⟩ := h _ info hx.1.symm
      refine ⟨c', hc', hinfo', ?_⟩
      rcases hleaves haccept hrr with hnone | htime | hanew
      · exact absurd (hx.1.trans hnone) (Option.some_ne_none info)
      · rw [← htime', htime, ← hsrc]
        exact hx.2
      · -- the local source would have begun anew
        have hafter := sent_of_receiverReport haccept hrr hr
        rw [if_pos hanew] at hafter
        exact absurd (hinfo.symm.trans (Prod.mk.inj hafter).1) (Option.some_ne_none info)
    · rw [if_neg hsrc] at hx
      obtain ⟨hinfo', htime⟩ := Prod.mk.inj hx
      rw [htime]
      exact h x info hinfo'.symm

/-- **One compound.**  The report blocks go on to describe the last sender reports if and only if
the compound leaves the time of its source alone. -/
theorem describesLastReport_receiveNext {t : QueueRTCPManager × List ReceivedCompound}
    (h : DescribesLastReport s) (ht : receiveNext rounds s c = some t) :
    DescribesLastReport t ↔ LeavesTime s.1 c := by
  rw [describesLastReport_iff_keeps] at h ⊢
  obtain ⟨m', hm', rfl⟩ := Option.map_eq_some_iff.mp ht
  by_cases haccept : RTCPCompoundHandler.checkCompoundRTCPHeader c.buf c.len = some true
  · obtain ⟨-, hsr | hrr⟩ := first_of_accepted (by have := c.short; omega) haccept
    · refine iff_of_true (keepsLastReport_of_senderReport h haccept hsr hm') (fun _ hrr => ?_)
      rw [hsr] at hrr
      exact absurd hrr (by decide)
    · exact keepsLastReport_of_receiverReport_iff h haccept hrr hm'
  · -- a compound that is not accepted
    rw [receive_of_rejected hm' haccept]
    refine iff_of_true (fun x info hinfo => ?_) (fun haccept' => absurd haccept' haccept)
    rw [lastSenderReport_concat, if_neg (fun hsends => haccept hsends.1)]
    exact h x info hinfo

end Receive

/-- **LSR and DLSR, exactly.**  In every run of compounds that are taken in, from a session in which
no source has sender info, the report blocks describe the last sender reports in every state
reached if and only if no compound that begins with a receiver report changes the time of a source
with sender info. -/
theorem delay_of_last_report_iff (rounds : ℕ) (m : QueueRTCPManager)
    (hnone : ∀ x, (m.source x).senderInfo = none) (l : List ReceivedCompound)
    (hreturns : AlongRun (partialStep (receiveNext rounds))
      (fun s c => ∀ t ∈ s, (receiveNext rounds t c).isSome = true) (some (m, [])) l) :
    AlongRun (partialStep (receiveNext rounds))
        (fun s c => ∃ t, partialStep (receiveNext rounds) s c = some t ∧ DescribesLastReport t)
        (some (m, [])) l ↔
      AlongRun (partialStep (receiveNext rounds)) (fun s c => ∀ t ∈ s, LeavesTime t.1 c)
        (some (m, [])) l := by
  have hstart : DescribesLastReport (m, []) := by
    rw [describesLastReport_iff_keeps]
    intro x info hinfo
    exact absurd (hinfo.symm.trans (hnone x)) (Option.some_ne_none info)
  refine alongRun_partial_iff (fun s c hs hreturn => ?_) hstart hreturns
  obtain ⟨t, ht⟩ := Option.isSome_iff_exists.mp hreturn
  have hiff := describesLastReport_receiveNext hs ht
  exact ⟨t, ht, hiff, hiff.mpr⟩

/-- A sender report of source 7 at one second, and a receiver report of it at five. -/
def senderThenReceiver : List ReceivedCompound :=
  [⟨reportOfSeven, 28, 5, 5005, ⟨1, 0⟩, by decide⟩,
    ⟨.ofOctets [0x80, 201, 0, 1, 0, 0, 0, 7], 8, 5, 5005, ⟨5, 0⟩, by decide⟩]

/-- The theorem at these compounds. -/
theorem delay_of_last_report_iff_senderThenReceiver :
    AlongRun (partialStep (receiveNext 1))
        (fun s c => ∃ t, partialStep (receiveNext 1) s c = some t ∧ DescribesLastReport t)
        (some (alone, [])) senderThenReceiver ↔
      AlongRun (partialStep (receiveNext 1)) (fun s c => ∀ t ∈ s, LeavesTime t.1 c)
        (some (alone, [])) senderThenReceiver := by
  refine delay_of_last_report_iff 1 alone (fun _ => rfl) senderThenReceiver ?_
  decide

/-- **The delay is that of another compound** than the sender report. -/
theorem delay_of_other_compound :
    ∃ t, senderThenReceiver.foldl (partialStep (receiveNext 1)) (some (alone, [])) = some t ∧
      (t.1.source 7).senderInfo = some (reportOfSeven.octets 8 20) ∧
      (lastSenderReport t.2 7).map (fun c => c.time.sec) = some 1 ∧
      (t.1.source 7).lastRTCPSRTime.sec = 5 ∧ ¬ DescribesLastReport t := by
  have hrun : (senderThenReceiver.foldl (partialStep (receiveNext 1)) (some (alone, []))).map
      (fun t => ((t.1.source 7).senderInfo, (lastSenderReport t.2 7).map (fun c => c.time.sec),
        (t.1.source 7).lastRTCPSRTime.sec)) =
        some (some (reportOfSeven.octets 8 20), some 1, 5) := by
    decide
  obtain ⟨t, ht, hvalues⟩ := Option.map_eq_some_iff.mp hrun
  simp only [Prod.mk.injEq] at hvalues
  obtain ⟨hinfo, hlast, htime⟩ := hvalues
  refine ⟨t, ht, hinfo, hlast, htime, fun h => ?_⟩
  obtain ⟨c, hc, -, hsame⟩ := h.1 7 _ hinfo
  rw [hc, Option.map_some, Option.some_inj, ← hsame, htime] at hlast
  exact absurd hlast (by decide)

end QueueRTCPManager
