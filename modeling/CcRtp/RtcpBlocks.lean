/-
# The sources of the report blocks

`dispatchControlPacket` calls `packReportBlocks` for each of the reports that it puts into a
compound (`src/control.cpp`).  Every call walks over the list of the members from
`getFirst()` on.  So the blocks of one report name the first members of the list, and a
further report begins with those that the first one has named already.

* `packed` : what one call puts into the compound;
* `block_sources_iff` : the blocks of a compound name the first members, each of them once,
  exactly if there are fewer than 31 members or no room for a further report.
-/
import CcRtp.RtcpSending

/-! ## The blocks of one report -/

/-- The condition under which `packReportBlocks` puts another block, as the `j`-th one. -/
abbrev HasRoom (available len j : ℕ) : Prop := len < sizeSub available 24 ∧ j < 31

/-- The SSRC of the report block at an offset. -/
def blockSSRC (buf : Memory) (p : ℕ) : BitVec 32 := BitVec.ofNat 32 (ofBigEndian (buf.octets p 4))

/-- `packReportBlocks` has put `k` blocks from the `j`-th on, for the first members of the
list, as many as there was room for. -/
structure Packed (reports available : ℕ) (sources : List ReportedSource) (j len : ℕ)
    (buf : Memory) (r : PackedBlocks) (k : ℕ) : Prop where
  blocks : r.blocks = j + k
  length : r.len = len + 24 * k
  ids : r.sources.map ReportedSource.id = sources.map ReportedSource.id
  below : Memory.SameBelow (reports + 24 * j) buf r.buf
  behind : Memory.SameFrom (reports + 24 * (j + k)) buf r.buf
  ssrcs : (List.range k).map (fun i => blockSSRC r.buf (reports + 24 * (j + i)))
    = (sources.map ReportedSource.id).take k
  le : k ≤ sources.length
  room : ∀ i < k, HasRoom available (len + 24 * i) (j + i)
  full : k = sources.length ∨ ¬ HasRoom available (len + 24 * k) (j + k)

theorem ReportedSource.length_block (s : ReportedSource) (now : Timeval) :
    (s.block now).length = 24 := by
  simp [ReportedSource.block]

/-- A block begins with the SSRC of its source. -/
theorem blockSSRC_put (buf : Memory) (p : ℕ) (s : ReportedSource) (now : Timeval) :
    blockSSRC (buf.put p (s.block now)) p = s.id := by
  have hread := Memory.octets_put_self buf p (s.block now)
  have hsplit := Memory.octets_add (buf.put p (s.block now)) p 4 20
  rw [s.length_block, hsplit] at hread
  have hid :=
    (List.append_inj (hread.trans (by simp only [ReportedSource.block, List.append_assoc]; rfl :
    s.block now = bigEndian 4 s.id.toNat ++ _)) (by simp)).1
  rw [blockSSRC, hid, ofBigEndian_bigEndian 4 _ s.id.isLt, BitVec.ofNat_toNat, BitVec.setWidth_eq]

/-- Nothing is put. -/
theorem packed_none {reports available : ℕ} {sources : List ReportedSource} {j len : ℕ}
    {buf : Memory} (h : sources = [] ∨ ¬ HasRoom available len j) :
    Packed reports available sources j len buf ⟨j, len, buf, sources⟩ 0 where
  blocks := rfl
  length := rfl
  ids := rfl
  below := .refl _ _
  behind := fun _ _ => rfl
  ssrcs := rfl
  le := Nat.zero_le _
  room := fun _ hi => absurd hi (Nat.not_lt_zero _)
  full := h.imp (fun h => by rw [h]; rfl) (fun h => h)

/-- **The blocks of one report** name the first members of the list. -/
theorem packed (clock : ℕ → Timeval) (reports available : ℕ) (sources : List ReportedSource) :
    ∀ (j len : ℕ) (buf : Memory), len + 24 * (31 - j) < 2 ^ 16 →
      ∃ k, Packed reports available sources j len buf
        (packReportBlocks clock reports available sources j len buf) k := by
  induction sources with
  | nil =>
      intro j len buf _
      exact ⟨0, packed_none (Or.inl rfl)⟩
  | cons s rest ih =>
      intro j len buf hlen
      unfold packReportBlocks
      split_ifs with hroom
      · have hmod : (len + 24) % 2 ^ 16 = len + 24 := Nat.mod_eq_of_lt (by omega)
        set block := s.computeStats.block (clock (reports + 24 * j)) with hblock
        have hlength : block.length = 24 := s.computeStats.length_block _
        obtain ⟨k, h⟩ :=
          ih (j + 1) ((len + 24) % 2 ^ 16) (buf.put (reports + 24 * j) block) (by omega)
        rw [hmod] at h ⊢
        have hfirst : blockSSRC (packReportBlocks clock reports available rest (j + 1) (len + 24)
            (buf.put (reports + 24 * j) block)).buf (reports + 24 * j) = s.id := by
          unfold blockSSRC
          rw [h.below.octets (by omega)]
          exact blockSSRC_put buf _ s.computeStats _
        refine ⟨k + 1, ?_, ?_, ?_, ?_, ?_, ?_, ?_, ?_, ?_⟩
        · rw [← Nat.add_assoc, Nat.add_right_comm]
          exact h.blocks
        · rw [show len + 24 * (k + 1) = len + 24 + 24 * k by omega]
          exact h.length
        · rw [List.map_cons, List.map_cons, h.ids]
          rfl
        · exact (Memory.sameBelow_put buf block le_rfl).trans (h.below.mono (by omega))
        · exact (Memory.sameFrom_put buf block (by omega)).trans (h.behind.mono (by omega))
        · rw [List.range_succ_eq_map, List.map_cons, List.map_map, List.map_cons,
            List.take_succ_cons, ← h.ssrcs]
          refine congrArg₂ List.cons hfirst (List.map_congr_left ?_)
          intro i _
          rw [Function.comp_apply, show j + Nat.succ i = j + 1 + i by omega]
        · exact Nat.succ_le_succ h.le
        · intro i hi
          rcases i with _ | i
          · exact hroom
          · have hnext := h.room i (by omega)
            rw [show len + 24 * (i + 1) = len + 24 + 24 * i by omega,
              show j + (i + 1) = j + 1 + i by omega]
            exact hnext
        · rw [show len + 24 * (k + 1) = len + 24 + 24 * k by omega,
            show j + (k + 1) = j + 1 + k by omega]
          exact h.full.imp_left (congrArg Nat.succ)
      · exact ⟨0, packed_none (Or.inr hroom)⟩

/-- There are never more than 31 blocks in a report. -/
theorem Packed.le_thirtyOne {reports available len k : ℕ} {sources : List ReportedSource}
    {buf : Memory} {r : PackedBlocks} (h : Packed reports available sources 0 len buf r k) :
    k ≤ 31 := by
  by_contra hk
  have hroom := (h.room 31 (by omega)).2
  omega

/-! ## The blocks of a compound -/

namespace ControlSender

variable (s : ControlSender) (clock : ℕ → Timeval) (stamps : Stamps) (stale : Memory)

/-- The sources in the blocks that are put into the report of a draft. -/
def packedSSRCs (available : ℕ) (d : ReportDraft) : List (BitVec 32) :=
  let r := packReportBlocks clock d.reports available d.sources 0 d.len d.buf
  (List.range r.blocks).map (fun i => blockSSRC r.buf (d.reports + 24 * i))

/-- The drafts with which the rounds of the loop of (B) begin. -/
def rounds : List ReportDraft :=
  let d := s.beginReports stamps stale
  let available := s.available d.len
  d :: (whileStates (fun d => decide (d.len < available ∧ d.another = true))
    (fun d => some (s.packReport clock available d)) (2 ^ 16)
    (s.packReport clock available d)).filter
      (fun d => decide (d.len < available ∧ d.another = true))

/-- The sources in all report blocks of the compound, in the order in which these are put. -/
def blockSources : List (BitVec 32) :=
  (s.rounds clock stamps stale).flatMap (packedSSRCs clock (s.available s.firstLength))

/-- The members of the list. -/
def memberSSRCs : List (BitVec 32) := s.sources.map ReportedSource.id

variable {s clock stamps stale}

/-- The sources of one report are the first members of the list. -/
theorem packedSSRCs_eq {available k : ℕ} {d : ReportDraft}
    (h : Packed d.reports available d.sources 0 d.len d.buf
      (packReportBlocks clock d.reports available d.sources 0 d.len d.buf) k) :
    packedSSRCs clock available d = (d.sources.map ReportedSource.id).take k := by
  unfold packedSSRCs
  dsimp only
  rw [h.blocks, Nat.zero_add, ← h.ssrcs]
  refine List.map_congr_left ?_
  intro i _
  rw [Nat.zero_add]

/-- The draft behind the first round. -/
def secondDraft (s : ControlSender) (clock : ℕ → Timeval) (stamps : Stamps) (stale : Memory) :
    ReportDraft :=
  s.packReport clock (s.available s.firstLength) (s.beginReports stamps stale)

/-- The loop goes on behind the first round. -/
def Again (s : ControlSender) : Prop :=
  31 ≤ s.sources.length ∧ s.firstLength + 776 < s.available s.firstLength

instance (s : ControlSender) : Decidable s.Again := inferInstanceAs (Decidable (_ ∧ _))

/-- The first round puts the blocks of a report. -/
theorem packed_first (s : ControlSender) (clock : ℕ → Timeval) (stamps : Stamps) (stale : Memory) :
    ∃ k, Packed (s.beginReports stamps stale).reports (s.available s.firstLength)
      (s.beginReports stamps stale).sources 0 (s.beginReports stamps stale).len
      (s.beginReports stamps stale).buf
      (packReportBlocks clock (s.beginReports stamps stale).reports (s.available s.firstLength)
        (s.beginReports stamps stale).sources 0 (s.beginReports stamps stale).len
        (s.beginReports stamps stale).buf) k := by
  apply packed
  rw [(s.beginReports_spec stamps stale).1]
  rcases s.firstLength_cases with h | h <;> omega

/-- **A round of the loop**, with the number of the blocks that it puts: a further report is
begun behind 31 blocks, if there is room as it seems. -/
theorem packReport_cases (s : ControlSender) {clock : ℕ → Timeval} {available k : ℕ}
    {d : ReportDraft} (h : Packed d.reports available d.sources 0 d.len d.buf
      (packReportBlocks clock d.reports available d.sources 0 d.len d.buf) k) :
    (s.packReport clock available d).sources.map ReportedSource.id
        = d.sources.map ReportedSource.id ∧
      ((k = 31 ∧ d.len + 24 * k < sizeSub available 32 ∧
          (s.packReport clock available d).another = true ∧
          (s.packReport clock available d).len = (d.len + 24 * k + 8) % 2 ^ 16 ∧
          (s.packReport clock available d).reports = d.len + 24 * k + 8) ∨
        (¬ (k = 31 ∧ d.len + 24 * k < sizeSub available 32) ∧
          (s.packReport clock available d).another = false ∧
          (s.packReport clock available d).len = d.len + 24 * k)) := by
  have hblocks := h.blocks.trans (Nat.zero_add k)
  rw [← h.length, ← hblocks]
  unfold packReport
  dsimp only
  split_ifs with hanother
  · exact ⟨h.ids, Or.inl ⟨hanother.1, hanother.2, rfl, rfl, rfl⟩⟩
  · exact ⟨h.ids, Or.inr ⟨hanother, rfl, rfl⟩⟩

/-- **The second round.**  It comes about exactly if 31 blocks have been put and there is room;
the list of the members is the same as before. -/
theorem second_round (s : ControlSender) (clock : ℕ → Timeval) (stamps : Stamps) (stale : Memory) :
    ((s.secondDraft clock stamps stale).len < s.available s.firstLength ∧
        (s.secondDraft clock stamps stale).another = true ↔ s.Again) ∧
      (s.Again → (s.secondDraft clock stamps stale).len = s.firstLength + 752 ∧
        (s.secondDraft clock stamps stale).reports = s.firstLength + 752 ∧
        (s.secondDraft clock stamps stale).sources.map ReportedSource.id = s.memberSSRCs) := by
  obtain ⟨k, h⟩ := s.packed_first clock stamps stale
  obtain ⟨hids, hround⟩ := s.packReport_cases h
  obtain ⟨hlen, -, -, -, hsources⟩ := s.beginReports_spec stamps stale
  have hmax : s.available s.firstLength < 2 ^ 16 := BitVec.isLt _
  have hsmall : s.firstLength ≤ 28 := by
    rcases s.firstLength_cases with hb | hb <;> omega
  have hle := h.le
  have hk := h.le_thirtyOne
  have hfull := h.full
  unfold HasRoom sizeSub at hfull
  rw [hsources] at hids hle hfull
  rw [hlen] at hround hfull
  unfold secondDraft Again
  rcases hround with ⟨h31, hroom, hanother, hlength, hreports⟩ | ⟨hroom, hanother, -⟩
  · unfold sizeSub at hroom
    rw [hlength, hanother, hreports]
    refine ⟨?_, fun _ => ⟨by omega, by omega, hids⟩⟩
    constructor
    · rintro ⟨hlt, -⟩
      omega
    · rintro ⟨-, hlt⟩
      exact ⟨by omega, rfl⟩
  · -- with 31 members and room, there would be 31 blocks
    have hnot : ¬ (31 ≤ s.sources.length ∧ s.firstLength + 776 < s.available s.firstLength) := by
      rintro ⟨hmany, hlt⟩
      apply hroom
      unfold sizeSub
      omega
    rw [hanother]
    refine ⟨?_, fun hagain => absurd hagain hnot⟩
    constructor
    · rintro ⟨-, hagain⟩
      cases hagain
    · intro hagain
      exact absurd hagain hnot

/-- A prefix of the list that begins again has a source twice. -/
theorem not_nodup_of_take_take {α : Type*} {l : List α} {j k : ℕ} (hj : 0 < j) (hk : 0 < k)
    (hl : l ≠ []) (rest : List α) : ¬ (l.take j ++ (l.take k ++ rest)).Nodup := by
  intro h
  obtain ⟨a, l, rfl⟩ := List.exists_cons_of_ne_nil hl
  obtain ⟨j, rfl⟩ := Nat.exists_eq_succ_of_ne_zero hj.ne'
  obtain ⟨k, rfl⟩ := Nat.exists_eq_succ_of_ne_zero hk.ne'
  rw [List.take_succ_cons, List.take_succ_cons] at h
  have hdisjoint := List.disjoint_of_nodup_append h
  exact hdisjoint List.mem_cons_self (List.mem_append_left rest List.mem_cons_self)

/-- The sources of the first report, and those of the further rounds. -/
theorem blockSources_split (s : ControlSender) (clock : ℕ → Timeval) (stamps : Stamps)
    (stale : Memory) {k : ℕ} (h : Packed (s.beginReports stamps stale).reports
      (s.available s.firstLength) (s.beginReports stamps stale).sources 0
      (s.beginReports stamps stale).len (s.beginReports stamps stale).buf
      (packReportBlocks clock (s.beginReports stamps stale).reports (s.available s.firstLength)
        (s.beginReports stamps stale).sources 0 (s.beginReports stamps stale).len
        (s.beginReports stamps stale).buf) k) :
    ∃ rest, s.blockSources clock stamps stale = s.memberSSRCs.take k ++
      (if s.Again then
        packedSSRCs clock (s.available s.firstLength) (s.secondDraft clock stamps stale) ++ rest
      else []) := by
  obtain ⟨hlen, -, -, -, hsources⟩ := s.beginReports_spec stamps stale
  have hcond := (s.second_round clock stamps stale).1
  have hfirst : packedSSRCs clock (s.available s.firstLength) (s.beginReports stamps stale)
      = s.memberSSRCs.take k := by
    rw [packedSSRCs_eq h, hsources]
    rfl
  have hstates : s.rounds clock stamps stale = s.beginReports stamps stale ::
      (whileStates (fun d => decide (d.len < s.available s.firstLength ∧ d.another = true))
        (fun d => some (s.packReport clock (s.available s.firstLength) d)) (65535 + 1)
        (s.secondDraft clock stamps stale)).filter
          (fun d => decide (d.len < s.available s.firstLength ∧ d.another = true)) := by
    unfold rounds secondDraft
    dsimp only
    rw [hlen, show 2 ^ 16 = 65535 + 1 from rfl]
  unfold blockSources
  rw [hstates, whileStates, List.flatMap_cons, hfirst, List.filter_cons]
  by_cases hagain : s.Again
  · rw [if_pos (decide_eq_true (hcond.mpr hagain)), List.flatMap_cons]
    simp only [if_pos hagain]
    exact ⟨_, rfl⟩
  · have hstop := decide_eq_false (fun hgo => hagain (hcond.mp hgo))
    simp only [if_neg hagain]
    rw [hstop, if_neg Bool.false_ne_true, if_neg Bool.false_ne_true]
    exact ⟨[], rfl⟩

/-- **A further report repeats** the first member of the list. -/
theorem not_nodup_of_again (s : ControlSender) (clock : ℕ → Timeval) (stamps : Stamps)
    (stale : Memory) (hagain : s.Again) : ¬ (s.blockSources clock stamps stale).Nodup := by
  obtain ⟨hlen, -, -, -, hsources⟩ := s.beginReports_spec stamps stale
  obtain ⟨k, h⟩ := s.packed_first clock stamps stale
  obtain ⟨rest, hsplit⟩ := s.blockSources_split clock stamps stale h
  obtain ⟨hlength, -, hids⟩ := (s.second_round clock stamps stale).2 hagain
  have hbase : s.firstLength ≤ 28 := by
    rcases s.firstLength_cases with hb | hb <;> omega
  obtain ⟨k', h'⟩ := packed clock (s.secondDraft clock stamps stale).reports
    (s.available s.firstLength) (s.secondDraft clock stamps stale).sources 0
    (s.secondDraft clock stamps stale).len (s.secondDraft clock stamps stale).buf (by omega)
  rw [hsplit, if_pos hagain, packedSSRCs_eq h', hids]
  obtain ⟨hmany, hroom⟩ := hagain
  have hcount : (s.secondDraft clock stamps stale).sources.length = s.sources.length := by
    have hmap := congrArg List.length hids
    rwa [List.length_map, memberSSRCs, List.length_map] at hmap
  have hmax : s.available s.firstLength < 2 ^ 16 := BitVec.isLt _
  have hfull := h.full
  have hfull' := h'.full
  unfold HasRoom sizeSub at hfull hfull'
  rw [hsources, hlen] at hfull
  apply not_nodup_of_take_take
  · omega
  · omega
  · intro hnil
    have hzero := congrArg List.length hnil
    rw [memberSSRCs, List.length_map, List.length_nil] at hzero
    omega

/-- **The sources of the report blocks** of a compound are the first members of the list, each
of them once, exactly if there are fewer than 31 members or no room for a further report. -/
theorem block_sources_iff (s : ControlSender) (clock : ℕ → Timeval) (stamps : Stamps)
    (stale : Memory) (hnodup : s.memberSSRCs.Nodup) :
    (s.blockSources clock stamps stale).Nodup ∧
        (∃ k, s.blockSources clock stamps stale = s.memberSSRCs.take k) ↔
      s.sources.length < 31 ∨ s.available s.firstLength ≤ s.firstLength + 776 := by
  have hagain : (s.sources.length < 31 ∨ s.available s.firstLength ≤ s.firstLength + 776) ↔
      ¬ s.Again := by
    unfold Again
    omega
  rw [hagain]
  constructor
  · rintro ⟨hdistinct, -⟩ hmore
    exact s.not_nodup_of_again clock stamps stale hmore hdistinct
  · intro hstop
    obtain ⟨k, h⟩ := s.packed_first clock stamps stale
    obtain ⟨rest, hsplit⟩ := s.blockSources_split clock stamps stale h
    rw [hsplit, if_neg hstop, List.append_nil]
    exact ⟨hnodup.sublist (List.take_sublist k _), k, rfl⟩

/-- A source that has been heard once. -/
def heardSource (ssrc : BitVec 32) : ReportedSource where
  id := ssrc
  maxSeqNum := 1
  seqNumAccum := 0
  baseSeqNum := 1
  obsPacketCount := 1
  extendedMaxSeqNum := 1
  cumulativePacketLost := 0
  fractionLost := 0
  expectedPrior := 0
  receivedPrior := 0
  jitter := 0
  senderInfo := none
  lastRTCPSRTime := ⟨0, 0⟩

/-- NAME is one of the items that take turns. -/
theorem schedulable_name : (2 : UInt8) ≤ 2 ∧ (2 : UInt8) ≤ 8 := by decide

/-- A listener with so many members, which have the first SSRCs. -/
def listener (members : ℕ) : ControlSender where
  localSSRC := 7000
  pathMTU := 1500
  lastSendPacketCount := 0
  sendPacketCount := 0
  sendOctetCount := 0
  ctrlSendCount := 0
  sources := (List.range members).map (fun i => heardSource (BitVec.ofNat 32 i))
  items := fun _ => []
  nextScheduledSDESItem := 2
  schedulable := schedulable_name

/-- Two members are named once. -/
theorem block_sources_iff_listener :
    ((listener 2).blockSources (fun _ => ⟨0, 0⟩) ⟨0, 0, 0⟩ (fun _ => 0)).Nodup ∧
      ∃ k, (listener 2).blockSources (fun _ => ⟨0, 0⟩) ⟨0, 0, 0⟩ (fun _ => 0)
        = (listener 2).memberSSRCs.take k :=
  (block_sources_iff (listener 2) (fun _ => ⟨0, 0⟩) ⟨0, 0, 0⟩ (fun _ => 0) (by decide)).mpr
    (Or.inl (by decide))

/-- With 31 members and the default path MTU, the first member is named again. -/
theorem block_sources_repeated :
    (listener 31).memberSSRCs.Nodup ∧
      ¬ ((listener 31).blockSources (fun _ => ⟨0, 0⟩) ⟨0, 0, 0⟩ (fun _ => 0)).Nodup := by
  refine ⟨by decide, ?_⟩
  apply not_nodup_of_again
  decide

end ControlSender
