/-
# Receiver reports about the local source

A receiver report has blocks about sources that its sender receives.  `QueueRTCPManager::onGotRR`
(`src/control.cpp`) is to keep the last block about the local source with the sender of the report.
It compares the sender of the report with the local SSRC, where the source of the block is meant,
and it keeps the block with the source that the compound begins with.

* `lastReport` : what is to be kept;
* `KeepsLastBlocks` : the compounds that are processed as they should be;
* `recordsReports_receive` : one compound;
* `receiver_info_of_last_report` : runs of such compounds.
-/
import CcRtp.RtcpReports

/-- A receiver report: who has sent it, and its blocks, each with the source that it is about. -/
structure ReceiverReport where
  sender : BitVec 32
  blocks : List (BitVec 32 × Octets)

/-! ## The purpose of receiver reports -/

/-- The last block about a source in the reports of a sender. -/
def lastReport (about : BitVec 32) (history : List ReceiverReport) (sender : BitVec 32) :
    Option Octets :=
  (((history.filter (fun r => r.sender = sender)).flatMap
    (fun r => r.blocks.filter (fun b => b.1 = about))).getLast?).map Prod.snd

theorem lastReport_append (l x : BitVec 32) (history reports : List ReceiverReport) :
    lastReport l (history ++ reports) x = (lastReport l reports x).or (lastReport l history x) := by
  rw [lastReport, List.filter_append, List.flatMap_append, List.getLast?_append]
  unfold lastReport
  cases ((reports.filter (fun r => r.sender = x)).flatMap
    (fun r => r.blocks.filter (fun b => b.1 = l))).getLast? <;> rfl

/-- A report without blocks about the source. -/
theorem lastReport_of_forall {l : BitVec 32} {r : ReceiverReport} (h : ∀ b ∈ r.blocks, b.1 ≠ l)
    (x : BitVec 32) : lastReport l [r] x = none := by
  have hblocks : r.blocks.filter (fun b => b.1 = l) = [] := by
    rw [List.filter_eq_nil_iff]
    intro b hb
    exact decide_eq_true_iff.not.mpr (h b hb)
  rw [lastReport, List.filter_singleton]
  cases decide (r.sender = x) with
  | false => rfl
  | true =>
      rw [cond_true, List.flatMap_singleton, hblocks]
      rfl

/-- A report of another sender. -/
theorem lastReport_of_ne {l x : BitVec 32} {r : ReceiverReport} (h : r.sender ≠ x) :
    lastReport l [r] x = none := by
  rw [lastReport, List.filter_singleton, decide_eq_false h]
  rfl

/-- A report whose last block is about the source. -/
theorem lastReport_of_getLast? {l : BitVec 32} {r : ReceiverReport} {b : BitVec 32 × Octets}
    (h : r.blocks.getLast? = some b) (hb : b.1 = l) : lastReport l [r] r.sender = some b.2 := by
  obtain ⟨blocks, hblocks⟩ := List.getLast?_eq_some_iff.mp h
  rw [lastReport, List.filter_singleton, decide_eq_true rfl, cond_true, List.flatMap_singleton,
    hblocks, List.filter_append, List.filter_singleton, decide_eq_true hb, cond_true,
    List.getLast?_concat]
  rfl

namespace QueueRTCPManager

open RTCPPacket

variable {m m' m'' : QueueRTCPManager} {buf : Memory} {len rounds p : ℕ} {src : BitVec 32}
  {na : InetAddress} {tp : BitVec 16} {w w' : Walk} {c : ReceivedCompound}

/-! ## The reports of a compound -/

/-- The receiver report at an offset. -/
def receiverReport (buf : Memory) (p : ℕ) : ReceiverReport where
  sender := getSSRC buf p
  blocks := (List.range (blockCount buf p).toNat).map (fun i =>
    (BitVec.ofNat 32 (ofBigEndian (buf.octets (p + 8 + 24 * i) 4)),
      buf.octets (p + 8 + 24 * i + 4) 20))

instance (m : QueueRTCPManager) (na : InetAddress) (tp : BitVec 16) (src ssrc : BitVec 32) :
    Decidable (m.CollisionRepeats na tp src ssrc) := inferInstanceAs (Decidable (_ ∧ _))

/-- The offsets of the receiver reports at the front, behind a sender report. -/
def reportOffsets (buf : Memory) (len : ℕ) : List ℕ :=
  passedPackets buf len (fun t => t = tRR) (if type buf 0 = tSR then getLength buf 0 else 0)

/-- The check of the packet at an offset succeeds. -/
def passesCheck (m : QueueRTCPManager) (c : ReceivedCompound) (p : ℕ) : Bool :=
  ¬ m.CollisionRepeats c.networkAddress c.transportPort (getSSRC c.buf 0) (getSSRC c.buf p)

/-- The receiver reports of an accepted compound that pass the check. -/
def acceptedReports (m : QueueRTCPManager) (c : ReceivedCompound) : List ReceiverReport :=
  if RTCPCompoundHandler.checkCompoundRTCPHeader c.buf c.len = some true then
    ((reportOffsets c.buf c.len).filter (m.passesCheck c)).map (receiverReport c.buf)
  else []

/-- The report is kept as it should be: it has no blocks about the local source, and none at all
if this has sent it, or this has sent it and the compound, and the last block is about it. -/
def KeepsLastBlock (l src : BitVec 32) (r : ReceiverReport) : Prop :=
  ((∀ b ∈ r.blocks, b.1 ≠ l) ∧ (r.sender = l → r.blocks = [])) ∨
    (r.sender = l ∧ src = l ∧ r.blocks.getLast?.map Prod.fst = some l)

instance (l src : BitVec 32) (r : ReceiverReport) : Decidable (KeepsLastBlock l src r) :=
  inferInstanceAs (Decidable (_ ∨ _))

theorem getLast?_receiverReport (buf : Memory) (p : ℕ) {b : BitVec 32 × Octets}
    (h : (receiverReport buf p).blocks.getLast? = some b) :
    (blockCount buf p).toNat ≠ 0 ∧
      b.2 = buf.octets (p + 8 + 24 * ((blockCount buf p).toNat - 1) + 4) 20 := by
  rw [receiverReport] at h
  cases hn : (blockCount buf p).toNat with
  | zero =>
      rw [hn] at h
      cases h
  | succ n =>
      rw [hn, List.range_succ, List.map_append, List.map_singleton, List.getLast?_concat,
        Option.some_inj] at h
      exact ⟨Nat.succ_ne_zero n, h ▸ rfl⟩

theorem blocks_receiverReport_eq_nil (h : (receiverReport buf p).blocks = []) :
    (blockCount buf p).toNat = 0 := by
  rw [receiverReport, List.map_eq_nil_iff, List.range_eq_nil] at h
  exact h

/-- **One report** that is kept as it should be. -/
theorem receiverInfo_onGotRR (h : KeepsLastBlock m.localSSRC src (receiverReport buf p))
    (x : BitVec 32) :
    ((m.onGotRR src buf p).source x).receiverInfo
      = (lastReport m.localSSRC [receiverReport buf p] x).or (m.source x).receiverInfo := by
  rw [onGotRR_eq]
  rcases h with ⟨hnone, hempty⟩ | ⟨hsender, hsrc, habout⟩
  · rw [lastReport_of_forall hnone, Option.none_or, if_neg]
    rintro ⟨hsender, hblocks⟩
    exact hblocks (blocks_receiverReport_eq_nil (hempty hsender.symm))
  · obtain ⟨b, hlast, hb⟩ := Option.map_eq_some_iff.mp habout
    obtain ⟨hblocks, hvalue⟩ := getLast?_receiverReport buf p hlast
    rw [if_pos ⟨hsender.symm, hblocks⟩]
    by_cases hx : x = src
    · rw [hx, source_modifySource_self, hsrc, ← hsender, hsender, ← hsender,
        lastReport_of_getLast? hlast (hb.trans hsender.symm), Option.some_or, hvalue]
    · rw [source_modifySource_of_ne m hx, lastReport_of_ne, Option.none_or]
      exact fun heq => hx (heq.symm.trans (hsender.trans hsrc.symm))

/-! ## A compound as a whole -/

/-- The local source has no receiver info to lose if it can begin anew. -/
structure Guarded (na : InetAddress) (tp : BitVec 16) (l : BitVec 32) (ssrcs : List (BitVec 32))
    (begins : Prop) (m : QueueRTCPManager) : Prop where
  localSSRC : m.localSSRC = l
  newCollision : m.NewCollision na tp → begins
  safe : begins → l ∈ ssrcs → (m.source l).receiverInfo = none

/-- Nothing is lost in a check. -/
theorem Guarded.restartsFor {l : BitVec 32} {ssrcs k : List (BitVec 32)} {begins : Prop}
    (h : Guarded na tp l ssrcs begins m)
    (hrestarts : RestartsFor SourceReports.receiverInfo na tp k m m') (hk : ∀ x ∈ k, x ∈ ssrcs) :
    Guarded na tp l ssrcs begins m' ∧
      ∀ x, (m'.source x).receiverInfo = (m.source x).receiverInfo := by
  have hsame : ∀ x, (m'.source x).receiverInfo = (m.source x).receiverInfo := by
    intro x
    have hx : (m'.source x).receiverInfo = if x = m.localSSRC ∧ x ∈ k ∧ m.NewCollision na tp
        then none else (m.source x).receiverInfo := hrestarts.reports x
    rw [hx]
    split_ifs with hlost
    · obtain ⟨hlocal, hmem, hnew⟩ := hlost
      rw [h.localSSRC] at hlocal
      subst hlocal
      exact (h.safe (h.newCollision hnew) (hk x hmem)).symm
    · rfl
  refine ⟨⟨hrestarts.localSSRC.trans h.localSSRC,
    fun hnew => h.newCollision (hrestarts.newCollision hnew), fun hbegins hmem => ?_⟩, hsame⟩
  rw [hsame]
  exact h.safe hbegins hmem

/-- **The loop over receiver reports**, if all that pass the check are kept as they should be. -/
theorem receiverInfo_reportLoop {l : BitVec 32} {ssrcs : List (BitVec 32)} {begins : Prop}
    (ok : ℕ → Bool) (os : List ℕ) (hos : passedPackets buf len (fun t => t = tRR) w.pointer = os)
    (hguard : Guarded na tp l ssrcs begins w.manager)
    (hssrcs : ∀ p ∈ os, getSSRC buf p ∈ ssrcs)
    (hok : ∀ p, ok p = true ↔ ¬ w.manager.Repeats na tp (getSSRC buf p))
    (hkeep : ∀ p ∈ os, ok p = true → KeepsLastBlock l src (receiverReport buf p) ∧
      (begins → l ∈ ssrcs → ∀ b ∈ (receiverReport buf p).blocks, b.1 ≠ l))
    (h : whileLoop (fun w => w.pointer < len ∧ type buf w.pointer = tRR)
      (reportBody buf src na tp) rounds w = some w') :
    Guarded na tp l ssrcs begins w'.manager ∧ ∀ x, (w'.manager.source x).receiverInfo
      = (lastReport l ((os.filter ok).map (receiverReport buf)) x).or
          (w.manager.source x).receiverInfo := by
  have hloop := whileLoop_passed (fun t => t = tRR) os
    (fun done v => Guarded na tp l ssrcs begins v.manager ∧
      SameCollisions na tp w.manager v.manager ∧
      ∀ x, (v.manager.source x).receiverInfo
        = (lastReport l ((done.filter ok).map (receiverReport buf)) x).or
            (w.manager.source x).receiverInfo)
    (fun w => by rw [decide_eq_true_iff, decide_eq_true_iff])
    (fun done v v' hp hv hv' => ?_) rounds [] (fun p hp => hos ▸ hp)
    ⟨hguard, .refl _, fun _ => rfl⟩ h
  · rw [hos] at hloop
    exact ⟨hloop.1, hloop.2.2⟩
  · obtain ⟨hguard, hsame, hinfo⟩ := hv
    have hgoes := goesOn_of_reportBody hv'
    refine ⟨hgoes.pointer, ?_⟩
    have hpassed : ok v.pointer = true ↔ (checkPacket buf na tp v).1 = true := by
      rw [hok, (checkPacket_spec buf na tp v).1, hsame]
    obtain ⟨hguard₁, hsame₁⟩ := hguard.restartsFor
      (restartsFor_checkPacket SourceReports.receiverInfo buf na tp v)
      (fun x hx => List.mem_singleton.mp hx ▸ hssrcs _ hp)
    rw [reportBody_eq, Option.some_inj] at hv'
    have hnext := congrArg Walk.manager hv'.symm
    set m₁ := (checkPacket buf na tp v).2 with hm₁
    by_cases hokay : ok v.pointer = true
    · obtain ⟨hlast, hnone⟩ := hkeep _ hp hokay
      rw [if_pos (hpassed.mp hokay)] at hnext
      change v'.manager = m₁.onGotRR src buf v.pointer at hnext
      have hkept := receiverInfo_onGotRR (hguard₁.localSSRC.symm ▸ hlast)
      rw [hguard₁.localSSRC] at hkept
      have haddresses := m₁.sameAddresses_onGotRR src buf v.pointer
      refine ⟨⟨?_, ?_, ?_⟩, hsame.trans hgoes.collisions, ?_⟩
      · rw [hnext]
        exact haddresses.localSSRC.trans hguard₁.localSSRC
      · rw [hnext, haddresses.newCollision_iff]
        exact hguard₁.newCollision
      · intro hbegins hmem
        rw [hnext, hkept, lastReport_of_forall (hnone hbegins hmem), Option.none_or]
        exact hguard₁.safe hbegins hmem
      · intro x
        rw [hnext, hkept, hsame₁, hinfo, List.filter_append, List.filter_singleton, hokay,
          cond_true, List.map_append, List.map_singleton, lastReport_append, Option.or_assoc]
    · rw [if_neg (fun h => hokay (hpassed.mpr h))] at hnext
      change v'.manager = m₁ at hnext
      rw [Bool.not_eq_true] at hokay
      refine ⟨hnext ▸ hguard₁, hsame.trans hgoes.collisions, fun x => ?_⟩
      rw [hnext, hsame₁, hinfo, List.filter_append, List.filter_singleton, hokay, cond_false,
        List.append_nil]

/-- **The compounds that are processed as they should be**: every report that is accepted is kept as
it should be, and where the local source begins anew it has no receiver info, nor is there a report
about it. -/
structure KeepsLastBlocks (m : QueueRTCPManager) (c : ReceivedCompound) : Prop where
  reports : ∀ r ∈ m.acceptedReports c, KeepsLastBlock m.localSSRC (getSSRC c.buf 0) r
  collision : m.CollisionBegins c.networkAddress c.transportPort (getSSRC c.buf 0) →
    m.localSSRC ∈ getSSRC c.buf 0 :: (checkedPackets c.buf c.len).map (getSSRC c.buf) →
    (m.source m.localSSRC).receiverInfo = none ∧
      ∀ r ∈ m.acceptedReports c, ∀ b ∈ r.blocks, b.1 ≠ m.localSSRC

/-- **One compound** keeps the last blocks about the local source. -/
theorem receiverInfo_receive (h : KeepsLastBlocks m c) (hr : receive rounds m c = some m') :
    m'.localSSRC = m.localSSRC ∧ ∀ x, (m'.source x).receiverInfo
      = (lastReport m.localSSRC (m.acceptedReports c) x).or (m.source x).receiverInfo := by
  by_cases haccept : RTCPCompoundHandler.checkCompoundRTCPHeader c.buf c.len = some true
  · obtain ⟨w, hw, rfl⟩ := Option.map_eq_some_iff.mp hr
    rw [takeInControlPacket_eq rounds _ c.networkAddress c.transportPort haccept, walkLoops_eq_bind]
      at hw
    obtain ⟨w₂, h₂, h₃⟩ := Option.bind_eq_some_iff.mp hw
    obtain ⟨w₁, h₁, h₂'⟩ := Option.bind_eq_some_iff.mp h₂
    have hreports := h.reports
    have hcollision := h.collision
    rw [acceptedReports, if_pos haccept] at hreports hcollision ⊢
    set src := getSSRC c.buf 0 with hsrc
    set mc : QueueRTCPManager := { m with clock := c.time } with hmc
    set ssrcs := src :: (checkedPackets c.buf c.len).map (getSSRC c.buf) with hssrcs
    obtain ⟨hpointer, hsame⟩ := firstReport_spec c.buf mc c.networkAddress c.transportPort src
    have hp₂ : w₂.pointer = byeOffset c.buf c.len := by
      rw [pointer_walkReports h₂, hpointer]
      rfl
    -- the first packet
    have hkept := fun x => kept_registerFirst ControlSource.receiverInfo (fun _ _ _ _ => rfl) mc src
      c.networkAddress c.transportPort x
    have hregistered : Guarded c.networkAddress c.transportPort m.localSSRC ssrcs
        (m.CollisionBegins c.networkAddress c.transportPort src)
        (mc.registerFirst src c.networkAddress c.transportPort).2 := by
      refine ⟨(mc.registerFirst_spec src _ _).1, (mc.newCollision_registerFirst src _ _).mp, ?_⟩
      intro hb hmem
      rw [hkept]
      exact (hcollision hb hmem).1
    obtain ⟨hguard₀, hinfo₀⟩ := hregistered.restartsFor
      (restartsFor_firstReport c.buf mc src c.networkAddress c.transportPort)
      (fun x hx => by
        split_ifs at hx
        · exact List.mem_singleton.mp hx ▸ List.mem_cons_self
        · cases hx)
    -- the receiver reports
    have hmem : ∀ p ∈ reportOffsets c.buf c.len, getSSRC c.buf p ∈ ssrcs := fun p hp =>
      List.mem_cons_of_mem _ (List.mem_map_of_mem
        (List.mem_append_left _ (List.mem_append_left _ hp)))
    obtain ⟨hguard₁, hinfo₁⟩ :=
      receiverInfo_reportLoop (m.passesCheck c) (reportOffsets c.buf c.len)
      (by rw [hpointer]; rfl) hguard₀ hmem (fun p => by
        rw [hsame, repeats_registerFirst, passesCheck, decide_eq_true_iff]
        rfl) (fun p hp hp' => by
        have hr := List.mem_map_of_mem (f := receiverReport c.buf) (List.mem_filter.mpr ⟨hp, hp'⟩)
        exact ⟨hreports _ hr, fun hb hl => (hcollision hb hl).2 _ hr⟩) h₁
    -- the other packets
    have hp₁ := (reportLoop_spec h₁).1
    rw [hpointer] at hp₁
    obtain ⟨hguard₂, hinfo₂⟩ := hguard₁.restartsFor
      (restartsFor_descriptionLoop SourceReports.receiverInfo h₂') (fun x hx => by
        rw [hp₁] at hx
        refine List.mem_cons_of_mem _ ?_
        rw [checkedPackets, List.map_append, List.map_append]
        exact List.mem_append_left _ (List.mem_append_right _ hx))
    obtain ⟨hguard₃, hinfo₃⟩ := hguard₂.restartsFor
      (restartsFor_walkByes SourceReports.receiverInfo h₃) (fun x hx => by
        rw [hp₂] at hx
        refine List.mem_cons_of_mem _ ?_
        rw [checkedPackets, List.map_append]
        exact List.mem_append_right _ hx)
    refine ⟨hguard₃.localSSRC, fun x => ?_⟩
    rw [hinfo₃, hinfo₂, hinfo₁, hinfo₀, hkept]
    rfl
  · rw [receive_of_rejected hr haccept, acceptedReports, if_neg haccept]
    exact ⟨rfl, fun x => rfl⟩

/-! ## Runs -/

/-- The compounds are taken in, and the receiver reports that pass the check are noted down. -/
abbrev receiveReports (rounds : ℕ) (s : QueueRTCPManager × List ReceiverReport)
    (c : ReceivedCompound) : Option (QueueRTCPManager × List ReceiverReport) :=
  receiveNoting acceptedReports rounds s c

/-- **The receiver infos are recorded**: what is kept of each source is the last block about the
local source in the reports it has sent, and nothing if there was none. -/
def RecordsReports (s : QueueRTCPManager × List ReceiverReport) : Prop :=
  ∀ x, (s.1.source x).receiverInfo = lastReport s.1.localSSRC s.2 x

theorem recordsReports_receive {s t : QueueRTCPManager × List ReceiverReport}
    (h : RecordsReports s) (hkeeps : KeepsLastBlocks s.1 c)
    (ht : receiveReports rounds s c = some t) :
    RecordsReports t := by
  obtain ⟨m', hm', rfl⟩ := Option.map_eq_some_iff.mp ht
  obtain ⟨hlocal, hinfo⟩ := receiverInfo_receive hkeeps hm'
  intro x
  rw [hinfo, h x, hlocal, lastReport_append]

/-- **Receiver reports about the local source.**  In every run of compounds that are processed as
they should be, from a session in which no source has receiver info, the receiver info of each
source is, in every state reached, the last block about the local source in the reports it has sent
that passed the check. -/
theorem receiver_info_of_last_report (rounds : ℕ) (m : QueueRTCPManager)
    (hnone : ∀ x, (m.source x).receiverInfo = none) (l : List ReceivedCompound)
    (hkeeps : AlongRun (partialStep (receiveReports rounds))
      (fun s c => ∀ t ∈ s, KeepsLastBlocks t.1 c) (some (m, [])) l) :
    AlongRun (partialStep (receiveReports rounds))
      (fun s c => ∀ t ∈ partialStep (receiveReports rounds) s c, RecordsReports t)
        (some (m, [])) l := by
  have hstep : ∀ (s : Option (QueueRTCPManager × List ReceiverReport)) (c : ReceivedCompound),
      (∀ t ∈ s, RecordsReports t) → (∀ t ∈ s, KeepsLastBlocks t.1 c) →
      (∀ t ∈ partialStep (receiveReports rounds) s c, RecordsReports t) ∧
        ∀ t ∈ partialStep (receiveReports rounds) s c, RecordsReports t := by
    intro s c hs hc
    refine and_self_iff.mpr (fun t ht => ?_)
    obtain ⟨s', hs', ht'⟩ := Option.bind_eq_some_iff.mp ht
    exact recordsReports_receive (hs s' hs') (hc s' hs') ht'
  have hstart : ∀ t ∈ some (m, ([] : List ReceiverReport)), RecordsReports t := by
    rintro t ⟨⟩
    exact hnone
  exact alongRun_of_invariant hstep hstart hkeeps

/-- The offsets in a compound that is one receiver report. -/
theorem reportOffsets_single (hpos : 0 < len) (htype : type buf 0 = tRR)
    (hlen : getLength buf 0 = len) :
    reportOffsets buf len = [0] := by
  have hsr : ¬ type buf 0 = tSR := by
    rw [htype]
    decide
  rw [reportOffsets, if_neg hsr, passedPackets, if_pos ⟨hpos, decide_eq_true htype⟩, hlen,
    passedPackets, if_neg (fun h => absurd h.1 (by omega))]

/-- A receiver report of source 7, with a block about the given source. -/
def reportAbout (ssrc : UInt8) : ReceivedCompound where
  buf := .ofOctets ([0x81, 201, 0, 7, 0, 0, 0, 7, 0, 0, 0, ssrc] ++ List.replicate 20 5)
  len := 32
  networkAddress := 5
  transportPort := 5005
  time := ⟨1, 0⟩
  short := by decide

/-- A compound that is one report, of another source and about others, is processed as it should
be. -/
theorem keepsLastBlocks_of_single (hoffsets : reportOffsets c.buf c.len = [0])
    (hsender : getSSRC c.buf 0 ≠ m.localSSRC)
    (hblocks : m.localSSRC ∉ (receiverReport c.buf 0).blocks.map Prod.fst)
    (hnone : (m.source m.localSSRC).receiverInfo = none) : KeepsLastBlocks m c := by
  have habout : ∀ b ∈ (receiverReport c.buf 0).blocks, b.1 ≠ m.localSSRC := by
    rintro b hb heq
    exact hblocks (heq ▸ List.mem_map_of_mem hb)
  have hreport : ∀ r ∈ m.acceptedReports c, r = receiverReport c.buf 0 := by
    intro r hr
    rw [acceptedReports, hoffsets] at hr
    split_ifs at hr with haccept
    · obtain ⟨p, hp, rfl⟩ := List.mem_map.mp hr
      rw [List.mem_singleton.mp (List.mem_filter.mp hp).1]
    · cases hr
  constructor
  · intro r hr
    rw [hreport r hr]
    exact Or.inl ⟨habout, fun heq => absurd heq hsender⟩
  · intro _ _
    refine ⟨hnone, fun r hr => ?_⟩
    rw [hreport r hr]
    exact habout

/-- The theorem at two reports about other sources. -/
theorem receiver_info_of_last_report_two :
    AlongRun (partialStep (receiveReports 1))
      (fun s c => ∀ t ∈ partialStep (receiveReports 1) s c, RecordsReports t) (some (alone, []))
      [reportAbout 9, reportAbout 8] := by
  have hfirst : KeepsLastBlocks alone (reportAbout 9) :=
    keepsLastBlocks_of_single (reportOffsets_single (by decide) (by decide) (by decide))
      (by decide) (by decide) rfl
  have hstate : (receive 1 alone (reportAbout 9)).map
      (fun m => (m.localSSRC, (m.source m.localSSRC).receiverInfo)) = some (1, none) := by
    decide
  refine receiver_info_of_last_report 1 alone (fun _ => rfl) _ ⟨?_, ?_, trivial⟩
  · rintro t ⟨⟩
    exact hfirst
  · intro t ht
    change receiveReports 1 (alone, []) (reportAbout 9) = some t at ht
    obtain ⟨m', hm', rfl⟩ := Option.map_eq_some_iff.mp ht
    rw [hm', Option.map_some, Option.some_inj] at hstate
    obtain ⟨hlocal, hnone⟩ := Prod.mk.inj hstate
    have hoffsets : reportOffsets (reportAbout 8).buf (reportAbout 8).len = [0] :=
      reportOffsets_single (by decide) (by decide) (by decide)
    refine keepsLastBlocks_of_single hoffsets ?_ ?_ hnone
    · rw [hlocal]
      decide
    · rw [hlocal]
      decide

/-- **A report about the local source is not recorded.** -/
theorem report_about_local_not_recorded :
    ∃ t, receiveReports 1 (alone, []) (reportAbout 1) = some t ∧
      t.2 = [⟨7, [(alone.localSSRC, List.replicate 20 5)]⟩] ∧ ¬ RecordsReports t := by
  have haccepted : alone.acceptedReports (reportAbout 1) = [⟨7, [(1, List.replicate 20 5)]⟩] := by
    rw [acceptedReports, if_pos (by decide),
      reportOffsets_single (by decide) (by decide) (by decide)]
    rfl
  have hkept : (receive 1 alone (reportAbout 1)).map
      (fun m => (m.localSSRC, (m.source 7).receiverInfo)) = some (1, none) := by
    decide
  obtain ⟨m', hm', hvalues⟩ := Option.map_eq_some_iff.mp hkept
  obtain ⟨hlocal, hinfo⟩ := Prod.mk.inj hvalues
  have hnoted : receiveReports 1 (alone, []) (reportAbout 1)
      = some (m', [⟨7, [(1, List.replicate 20 5)]⟩]) := by
    rw [← haccepted]
    exact congrArg (Option.map fun m => (m, [] ++ alone.acceptedReports (reportAbout 1))) hm'
  refine ⟨_, hnoted, rfl, fun h => ?_⟩
  have hnone : (m'.source 7).receiverInfo
      = lastReport m'.localSSRC [⟨7, [(1, List.replicate 20 5)]⟩] 7 := h 7
  rw [hinfo, hlocal] at hnone
  exact absurd hnone (by decide)

end QueueRTCPManager
