/-
# The size of a compound

`rtcpSendBuffer` has the path MTU as its size.  `dispatchControlPacket` computes the space for
report blocks once, with room for the CNAME and 100 octets more, and does not look at the size
again: neither `packSDES` nor `protect` do (`src/control.cpp`).

Here a compound is measured, with the space computations as they are in `uint16`, and with the
trailer that `protect` appends.

* `size_of_compound` : how long a compound is, for the default path MTU, and that nothing is
  written behind it;
* `protect_buffer` : what `protect` writes is the index and the tag, behind the compound;
* `fits_buffer_iff` : all of it lies in the buffer exactly if there are fewer than 31 members,
  or the source description is short enough.
-/
import CcRtp.RtcpBlocks
import CcRtp.Srtcp

/-! ## What is written behind an offset -/

namespace Draft

variable {d : Draft}

theorem len_push (l : Octets) (hmax : d.len + l.length < 2 ^ 16) :
    (d.push l).len = d.len + l.length :=
  Nat.mod_eq_of_lt hmax

theorem sameFrom_push (l : Octets) (hmax : d.len + l.length < 2 ^ 16) :
    Memory.SameFrom (d.push l).len d.buf (d.push l).buf := by
  rw [len_push l hmax]
  exact Memory.sameFrom_put d.buf l le_rfl

/-- Two writes at the end. -/
theorem sameFrom_push_push (l l' : Octets) (hmax : d.len + l.length + l'.length < 2 ^ 16) :
    d.len ≤ ((d.push l).push l').len ∧
      Memory.SameFrom ((d.push l).push l').len d.buf ((d.push l).push l').buf := by
  have hlen := d.len_push l (by omega)
  have hnext := (d.push l).len_push l' (by omega)
  exact ⟨by omega, ((d.sameFrom_push l (by omega)).mono (by omega)).trans
    ((d.push l).sameFrom_push l' (by omega))⟩

end Draft

namespace ControlSender

open RTCPPacket QueueRTCPManager

variable {s : ControlSender} {clock : ℕ → Timeval} {stamps : Stamps} {stale : Memory} {d : Draft}

/-! ## The reports -/

theorem sameFrom_beginReports (s : ControlSender) (stamps : Stamps) (stale : Memory) :
    Memory.SameFrom s.firstLength stale (s.beginReports stamps stale).buf := by
  unfold firstLength beginReports
  split_ifs
  · have hinfo : (s.senderInfo stamps).length = 20 := by simp [senderInfo]
    exact (sameFrom_setHeader stale (by omega) tSR s.localSSRC).trans
      (Memory.sameFrom_put _ _ (by omega))
  · exact sameFrom_setHeader stale (by omega) tRR s.localSSRC

/-- **A round of the loop** writes nothing behind what it has put. -/
theorem sameFrom_packReport (s : ControlSender) {available k : ℕ} {d : ReportDraft}
    (h : Packed d.reports available d.sources 0 d.len d.buf
      (packReportBlocks clock d.reports available d.sources 0 d.len d.buf) k)
    (hpkt : d.pkt + 8 ≤ d.len) (hreports : d.reports = d.len)
    (hmax : d.len + 24 * k + 8 < 2 ^ 16) :
    Memory.SameFrom (s.packReport clock available d).len d.buf
      (s.packReport clock available d).buf := by
  have hlength := h.length
  have hbehind := h.behind
  rw [Nat.zero_add, hreports] at hbehind
  unfold packReport
  dsimp only
  rw [hreports] at hlength ⊢
  set r := packReportBlocks clock d.len available d.sources 0 d.len d.buf
  have hfields : Memory.SameFrom r.len d.buf (setLength
      (setBlockCount r.buf d.pkt (BitVec.ofNat 5 r.blocks)) d.pkt
      ((r.len - d.prevlen) / 4 - 1)) := by
    have hblocks := hbehind.mono (show d.len + 24 * k ≤ r.len by omega)
    exact (hblocks.trans (sameFrom_setBlockCount _ (by omega) _)).trans
      (sameFrom_setLength _ (by omega) _)
  split_ifs
  · have hmod : (r.len + 8) % 2 ^ 16 = r.len + 8 := by omega
    dsimp only
    rw [hmod]
    exact (hfields.mono (by omega)).trans (sameFrom_setHeader _ le_rfl tRR s.localSSRC)
  · exact hfields

/-- The length of the reports, for the default path MTU: with fewer than 31 members there is one
report with a block for each of them, else a further one with as many blocks as fit. -/
def reportsLength (s : ControlSender) : ℕ :=
  if s.sources.length < 31 then s.firstLength + 24 * s.sources.length
  else s.firstLength + 752
    + 24 * ((613 - 2 * s.firstLength - (s.items sdesItemTypeCNAME).length) / 24)

/-- The loop behind the first round. -/
theorem packReports_eq (s : ControlSender) (clock : ℕ → Timeval) (stamps : Stamps)
    (stale : Memory) :
    s.packReports clock stamps stale = whileLoop
      (fun d => d.len < s.available s.firstLength ∧ d.another = true)
      (fun d => some (s.packReport clock (s.available s.firstLength) d)) (2 ^ 16)
      (s.secondDraft clock stamps stale) := by
  unfold packReports secondDraft
  dsimp only
  rw [(s.beginReports_spec stamps stale).1]

/-- The draft of the first round: one report, or a full one and the header of the second. -/
theorem secondDraft_spec (s : ControlSender) (clock : ℕ → Timeval) (stamps : Stamps)
    (stale : Memory)
    (hmtu : s.pathMTU = 1500) (hcname : (s.items sdesItemTypeCNAME).length ≤ 255) :
    (s.Again ↔ 31 ≤ s.sources.length) ∧
      (¬ s.Again → (s.secondDraft clock stamps stale).len
        = s.firstLength + 24 * s.sources.length) ∧
      Memory.SameFrom (s.secondDraft clock stamps stale).len stale
        (s.secondDraft clock stamps stale).buf := by
  obtain ⟨hlen, hreports, -, hpkt, hsources⟩ := s.beginReports_spec stamps stale
  obtain ⟨k, h⟩ := s.packed_first clock stamps stale
  have havailable := s.available_eq hmtu hcname
  have hsmall := s.firstLength_cases
  have hk := h.le_thirtyOne
  have hle := h.le
  have hfull := h.full
  have hround := (s.packReport_cases h).2
  have hbehind := s.sameFrom_packReport h (by rw [hpkt, hlen]; omega) (hreports.trans hlen.symm)
    (by rw [hlen]; omega)
  unfold HasRoom sizeSub at hfull
  rw [hsources] at hle hfull
  rw [hlen] at hfull hround
  unfold Again secondDraft
  refine ⟨by omega, ?_, ?_⟩
  · intro hfew
    rcases hround with ⟨h31, -⟩ | ⟨-, -, hlength⟩
    · omega
    · rw [hlength]
      omega
  · refine Memory.SameFrom.trans ((s.sameFrom_beginReports stamps stale).mono ?_) hbehind
    rcases hround with ⟨-, -, -, hlength, -⟩ | ⟨-, -, hlength⟩
    · rw [hlength, Nat.mod_eq_of_lt (by omega)]
      omega
    · omega

/-- The second round, when there is one: as many blocks as fit, and no further report. -/
theorem lastDraft_spec (s : ControlSender) (clock : ℕ → Timeval) (stamps : Stamps) (stale : Memory)
    (hmtu : s.pathMTU = 1500) (hcname : (s.items sdesItemTypeCNAME).length ≤ 255)
    (hagain : s.Again) :
    let d := s.packReport clock (s.available s.firstLength) (s.secondDraft clock stamps stale)
    d.another = false ∧
      d.len = s.firstLength + 752
        + 24 * ((613 - 2 * s.firstLength - (s.items sdesItemTypeCNAME).length) / 24) ∧
      Memory.SameFrom d.len (s.secondDraft clock stamps stale).buf d.buf := by
  obtain ⟨hcond, hsecond⟩ := s.second_round clock stamps stale
  obtain ⟨hlen, hreports, hids⟩ := hsecond hagain
  have havailable := s.available_eq hmtu hcname
  have hsmall := s.firstLength_cases
  -- the header that the first round has begun
  have hopen : Open s (s.secondDraft clock stamps stale) := by
    have hfirst := (s.beginReports_spec stamps stale).1
    rcases packReport_spec (s.open_beginReports stamps stale)
      (show 32 ≤ s.available s.firstLength ∧ s.available s.firstLength < 2 ^ 16 from
        ⟨by omega, BitVec.isLt _⟩) (by omega) clock with ⟨-, hopen, -⟩ | ⟨hend, -⟩
    · exact hopen
    · have hgo := (hcond.mpr hagain).2
      unfold secondDraft at hgo
      rw [hend] at hgo
      cases hgo
  obtain ⟨k, h⟩ := packed clock (s.secondDraft clock stamps stale).reports
    (s.available s.firstLength) (s.secondDraft clock stamps stale).sources 0
    (s.secondDraft clock stamps stale).len (s.secondDraft clock stamps stale).buf (by omega)
  have hcount : (s.secondDraft clock stamps stale).sources.length = s.sources.length := by
    have hmap := congrArg List.length hids
    rwa [List.length_map, memberSSRCs, List.length_map] at hmap
  obtain ⟨hmany, -⟩ := hagain
  have hk := h.le_thirtyOne
  have hfull := h.full
  have hround := (s.packReport_cases h).2
  have hbehind := s.sameFrom_packReport h hopen.len (hreports.trans hlen.symm) (by omega)
  -- fewer than 31 blocks fit
  have hlast : 0 < k → s.firstLength + 752 + 24 * (k - 1) < s.available s.firstLength - 24 := by
    intro hpos
    have hroom := (h.room (k - 1) (by omega)).1
    unfold sizeSub at hroom
    omega
  unfold HasRoom sizeSub at hfull
  rw [hlen] at hfull hround
  rcases hround with ⟨h31, -⟩ | ⟨-, hanother, hlength⟩
  · omega
  · refine ⟨hanother, ?_, hbehind⟩
    rw [hlength]
    omega

/-- **The size of the reports.** -/
theorem size_of_reports (s : ControlSender) (clock : ℕ → Timeval) (stamps : Stamps) (stale : Memory)
    (hmtu : s.pathMTU = 1500) (hcname : (s.items sdesItemTypeCNAME).length ≤ 255) :
    ∃ d, s.packReports clock stamps stale = some d ∧ d.len = s.reportsLength ∧
      Memory.SameFrom d.len stale d.buf := by
  obtain ⟨hcond, hsecond⟩ := s.second_round clock stamps stale
  obtain ⟨hmany, hfew, hfirst⟩ := s.secondDraft_spec clock stamps stale hmtu hcname
  rw [packReports_eq]
  unfold reportsLength
  by_cases hagain : s.Again
  · obtain ⟨hend, hlength, hlast⟩ := s.lastDraft_spec clock stamps stale hmtu hcname hagain
    have hle := (hsecond hagain).1
    refine ⟨s.packReport clock (s.available s.firstLength) (s.secondDraft clock stamps stale),
      ?_, ?_, (hfirst.mono (by omega)).trans hlast⟩
    · refine Eq.trans (whileLoop_of_true ?_ ?_ 65535) (whileLoop_of_false ?_ _)
      · exact decide_eq_true (hcond.mpr hagain)
      · rfl
      · refine decide_eq_false ?_
        rintro ⟨-, hgo⟩
        rw [hend] at hgo
        cases hgo
    · rw [hlength, if_neg (by rw [not_lt]; exact hmany.mp hagain)]
  · refine ⟨s.secondDraft clock stamps stale, whileLoop_of_false ?_ _, ?_, hfirst⟩
    · exact decide_eq_false (fun hgo => hagain (hcond.mp hgo))
    · rw [hfew hagain, if_pos (by rw [← not_le, ← hmany]; exact hagain)]

/-! ## The source description -/

/-- The length of the items that are sent: the CNAME, and the item whose turn it is. -/
def chunkLength (s : ControlSender) : ℕ :=
  2 + (s.items sdesItemTypeCNAME).length +
    if s.scheduleSDESItem = sdesItemTypeEND then 0
    else 2 + (s.itemLen s.scheduleSDESItem).toNat

/-- The length of the source description: eight octets, the items, and one to four zeros. -/
def descriptionLength (s : ControlSender) : ℕ := (s.chunkLength + 12) / 4 * 4

theorem length_flatMap_chunkItems (s : ControlSender) :
    (s.chunkItems.flatMap sdesItemOctets).length = s.chunkLength := by
  unfold chunkItems chunkLength
  split_ifs
  · simp [sdesItemOctets]
    omega
  · simp [sdesItemOctets, length_sentItem]
    omega

theorem sameFrom_packItem (s : ControlSender) (hmax : d.len + 257 < 2 ^ 16) :
    d.len ≤ (s.packItem d).len ∧ Memory.SameFrom (s.packItem d).len d.buf (s.packItem d).buf := by
  unfold packItem
  dsimp only
  split_ifs
  · apply Draft.sameFrom_push_push
    have hlen := (s.itemLen s.scheduleSDESItem).toNat_lt
    rw [length_sentItem, List.length_cons, List.length_singleton]
    omega
  · exact ⟨le_rfl, fun _ _ => rfl⟩

theorem sameFrom_packEnd (hmax : d.len + 5 < 2 ^ 16) :
    Memory.SameFrom (packEnd d).len d.buf (packEnd d).buf := by
  unfold packEnd
  dsimp only
  split_ifs
  · exact d.sameFrom_push _ (by rw [List.length_singleton]; omega)
  · refine (Draft.sameFrom_push_push _ _ ?_).2
    rw [List.length_singleton, List.length_replicate]
    omega

/-- **The size of the source description.** -/
theorem size_of_description (s : ControlSender) (d : Draft)
    (hcname : (s.items sdesItemTypeCNAME).length ≤ 255) (hwhole : d.len % 4 = 0)
    (hmax : d.len + 526 < 2 ^ 16) :
    (s.packSDES d).len = d.len + s.descriptionLength ∧
      Memory.SameFrom (s.packSDES d).len d.buf (s.packSDES d).buf := by
  have hcnameItem : s.getSDESItem sdesItemTypeCNAME = s.items sdesItemTypeCNAME := by
    rw [getSDESItem, if_pos (by decide)]
  have hlength := s.length_chunkItems hcname
  have hchunk := s.length_flatMap_chunkItems
  have hhead := (s.beginSDES_spec (show d.len + 10 < 2 ^ 16 by omega)).1
  have hb : (s.beginSDES d).len = d.len + 10 := hhead.1
  have hbegun : Memory.SameFrom (d.len + 10) d.buf (s.beginSDES d).buf := by
    have hheader := (sameFrom_setHeader d.buf le_rfl tSDES s.localSSRC).trans
      (sameFrom_setBlockCount (setHeader d.buf d.len tSDES s.localSSRC)
        (show d.len < d.len + 8 by omega) 1)
    exact (hheader.mono (by omega)).trans (Memory.sameFrom_put _ _ le_rfl)
  have hcnamePut := hhead.push (s.items sdesItemTypeCNAME) (by
    rw [List.length_append, List.length_cons, List.length_singleton]
    omega)
  have hc := (s.beginSDES d).len_push (s.items sdesItemTypeCNAME) (by omega)
  have hcBehind := (s.beginSDES d).sameFrom_push (s.items sdesItemTypeCNAME) (by omega)
  unfold packSDES descriptionLength
  rw [hcnameItem]
  set c := (s.beginSDES d).push (s.items sdesItemTypeCNAME)
  have hitems := holds_items hcnamePut (by omega)
  have hi := hitems.1
  obtain ⟨hle, hiBehind⟩ := s.sameFrom_packItem (show c.len + 257 < 2 ^ 16 by omega)
  obtain ⟨k, hk, hk', hend, hfour⟩ := holds_packEnd hitems (by omega)
  have he := hend.1
  have heBehind := sameFrom_packEnd (show (s.packItem c).len + 5 < 2 ^ 16 by omega)
  rw [List.length_append, List.length_replicate] at he
  generalize packEnd (s.packItem c) = e at hend hfour he heBehind
  dsimp only
  refine ⟨by omega, ?_⟩
  have hall := (((hbegun.mono (by omega)).trans (hcBehind.mono (by omega))).trans
    (hiBehind.mono (by omega))).trans heBehind
  exact hall.trans (sameFrom_setLength e.buf (by omega) _)

/-! ## The compound -/

/-- **The size of a compound**, for the default path MTU, as numbers without any wrap; nothing
is written behind it. -/
theorem size_of_compound (s : ControlSender) (clock : ℕ → Timeval) (stamps : Stamps)
    (stale : Memory)
    (hmtu : s.pathMTU = 1500) (hcname : (s.items sdesItemTypeCNAME).length ≤ 255) :
    ∃ c, s.dispatchControlPacket clock stamps stale = some c ∧ c.sdes = s.reportsLength ∧
      c.len = s.reportsLength + s.descriptionLength ∧ Memory.SameFrom c.len stale c.buf ∧
      8 ≤ c.len ∧ c.len < 2 ^ 15 := by
  obtain ⟨d, hd, hlen, hbehind⟩ := s.size_of_reports clock stamps stale hmtu hcname
  have hsmall := s.firstLength_cases
  have hchunk := s.length_chunkItems hcname
  rw [length_flatMap_chunkItems] at hchunk
  have hreports : 8 ≤ s.reportsLength ∧ s.reportsLength % 4 = 0 ∧ s.reportsLength ≤ 1500 := by
    unfold reportsLength
    split_ifs with hfew
    · omega
    · omega
  obtain ⟨hsdes, hall⟩ := s.size_of_description ⟨d.buf, d.len⟩ hcname (by dsimp only; omega)
    (by dsimp only; omega)
  have hdescription : s.descriptionLength ≤ 526 := by
    unfold descriptionLength
    omega
  have hcompound : s.dispatchControlPacket clock stamps stale
      = some ⟨(s.packSDES ⟨d.buf, d.len⟩).buf, (s.packSDES ⟨d.buf, d.len⟩).len, d.begun, d.len,
          s.reported d.sources⟩ := by
    unfold dispatchControlPacket
    rw [hd, Option.map_some]
  dsimp only at hsdes hall
  generalize s.packSDES ⟨d.buf, d.len⟩ = e at hcompound hsdes hall
  have hle : d.len ≤ e.len := by omega
  refine ⟨_, hcompound, hlen, ?_, (hbehind.mono hle).trans hall, ?_, ?_⟩
  · dsimp only
    rw [hsdes, hlen]
  · dsimp only
    omega
  · dsimp only
    omega

end ControlSender

/-! ## The trailer -/

namespace Memory

variable {buf : Memory} {p n : ℕ}

theorem drop_octets (buf : Memory) (p : ℕ) {k n : ℕ} (h : k ≤ n) :
    (buf.octets p n).drop k = buf.octets (p + k) (n - k) := by
  obtain ⟨m, rfl⟩ := Nat.exists_eq_add_of_le h
  rw [octets_add, Nat.add_sub_cancel_left, List.drop_left' (length_octets _ _ _)]

/-- Octets that are there already need not be written. -/
theorem put_append_octets (buf : Memory) (p : ℕ) (l : Octets) (n : ℕ) :
    buf.put p (l ++ buf.octets (p + l.length) n) = buf.put p l := by
  funext i
  by_cases hlow : p + l.length ≤ i
  · rw [put_of_ge buf l hlow]
    by_cases hhigh : i < p + l.length + n
    · rw [put, if_pos (by rw [List.length_append, length_octets]; omega),
        List.getD_append_right _ _ _ _ (by omega)]
      have hread := buf.ofOctets_octets (p := p + l.length) (show i - p - l.length < n by omega)
      rw [ofOctets] at hread
      rw [hread, show p + l.length + (i - p - l.length) = i by omega]
    · rw [put_of_ge _ _ (by rw [List.length_append, length_octets]; omega)]
  · by_cases hp : p ≤ i
    · rw [put, if_pos (by rw [List.length_append]; omega), put, if_pos (by omega),
        List.getD_append _ _ _ _ (by omega)]
    · rw [put_of_lt _ _ (by omega), put_of_lt _ _ (by omega)]

/-- Reading back the end of what was written. -/
theorem octets_put_append (buf : Memory) (p : ℕ) (l l' : Octets) :
    (buf.put p (l ++ l')).octets (p + l.length) l'.length = l' := by
  have hread := octets_put_self buf p (l ++ l')
  rw [List.length_append, octets_add] at hread
  exact (List.append_inj hread (length_octets _ _ _)).2

end Memory

/-- `protect` for the compound in the send buffer.  It is shown the compound and 24 octets behind
it, as index and tag take no more; the buffer afterwards. -/
def Compound.protect (P : Primitives) (srtcpIndex : BitVec 32) (pcc : CryptoContextCtrl)
    (c : Compound) : Option Memory :=
  (QueueRTCPManager.protect P srtcpIndex (c.buf.octets 0 (c.len + 24)) c.len pcc).map
    (fun r => c.buf.put 0 r.2.1)

/-- **What `protect` writes** behind a compound is the index and a tag. -/
theorem Compound.protect_buffer (P : Primitives) (index : BitVec 32) {ctx : CryptoContextCtrl}
    (hkeyed : ctx.keys.Keyed) {c : Compound} (hlen : 8 ≤ c.len) (hmax : c.len < 2 ^ 15) :
    ∃ buf msg, c.protect P index ctx = some buf ∧
      Memory.SameFrom (c.len + 4 + ctx.getTagLength) c.buf buf ∧
      buf.octets c.len (4 + ctx.getTagLength)
        = bigEndian 4 (QueueRTCPManager.withEFlag index).toNat ++ ctx.keys.macTag P msg := by
  have htag : ctx.getTagLength ≤ 20 := ctx.tagLength_le
  set hdr := c.buf.octets 0 8 with hhdr
  set data := c.buf.octets 8 (c.len - 8) with hdata
  set room := c.buf.octets c.len 24 with hroom
  have hhdrlen : hdr.length = 8 := Memory.length_octets _ _ _
  have hdatalen : data.length = c.len - 8 := Memory.length_octets _ _ _
  have hroomlen : room.length = 24 := Memory.length_octets _ _ _
  have hsplit : c.buf.octets 0 (c.len + 24) = hdr ++ data ++ room := by
    rw [hhdr, hdata, hroom, Memory.octets_add, show c.len = 8 + (c.len - 8) by omega,
      Memory.octets_add, Nat.zero_add, Nat.zero_add, Nat.add_sub_cancel_left]
  have htotal : hdr.length + data.length = c.len := by omega
  obtain ⟨out, blocks, hout, houtlen, -⟩ := SessionKeys.transform_transform (P := P) hkeyed
    (CryptoContextCtrl.cmIv ctx.kS (QueueRTCPManager.senderSSRC hdr) (index.setWidth 64))
    (CryptoContextCtrl.f8Iv (data ++ room) (index.setWidth 64))
    (show ctx.keys.CounterMode → data.length < 2 ^ 20 from fun _ => by omega)
  have hprotect := QueueRTCPManager.protect_eq hkeyed hhdrlen (by omega) hout houtlen
  set index' := bigEndian 4 (QueueRTCPManager.withEFlag index).toNat with hindex
  set tag := ctx.keys.macTag P (hdr ++ out ++ index') with htagdef
  have htaglen : tag.length = ctx.getTagLength := SessionKeys.length_macTag hkeyed _
  have hindexlen : index'.length = 4 := length_bigEndian _ _
  have hfront : (hdr ++ out).length = c.len := by
    rw [List.length_append]
    omega
  have htrailer : (index' ++ tag).length = 4 + ctx.getTagLength := by
    rw [List.length_append]
    omega
  have hwritten : (hdr ++ out ++ (index' ++ tag)).length = c.len + 4 + ctx.getTagLength := by
    rw [List.length_append, hfront, htrailer, Nat.add_assoc]
  -- what is left of the room is written back as it was
  have hbuf : c.protect P index ctx = some (c.buf.put 0 (hdr ++ out ++ (index' ++ tag))) := by
    have hrest : room.drop (4 + ctx.getTagLength) = c.buf.octets
        (0 + (hdr ++ out ++ (index' ++ tag)).length) (24 - (4 + ctx.getTagLength)) := by
      rw [hroom, Memory.drop_octets _ _ (by omega), hwritten, Nat.zero_add, Nat.add_assoc]
    rw [Compound.protect, hsplit, ← htotal, hprotect, Option.map_some, hrest,
      List.append_assoc (hdr ++ out) index' tag, Memory.put_append_octets]
  refine ⟨_, hdr ++ out ++ index', hbuf, ?_, ?_⟩
  · exact Memory.sameFrom_put _ _ (by rw [hwritten]; omega)
  · have hread := c.buf.octets_put_append 0 (hdr ++ out) (index' ++ tag)
    rwa [hfront, htrailer, Nat.zero_add] at hread

/-- A context that only authenticates. -/
def CryptoContextCtrl.macOnly (tagLength : ℕ) (h : tagLength ≤ 20) : CryptoContextCtrl :=
  { CryptoContextCtrl.new 0 0 .null .sha1Hmac [] [] 0 0 0 tagLength h with
    macCtx := some (.sha1Hmac []) }

/-- Primitives whose tags are known. -/
def Primitives.ones : Primitives where
  aes := fun _ b => b
  twofish := fun _ b => b
  hmacSha1 := fun _ _ _ => 1
  macSkein := fun _ _ _ _ => 1

namespace ControlSender

open QueueRTCPManager

/-- The space computations for a compound are those of numbers, and whatever is written for it,
by `dispatchControlPacket` and, with a tag of the given length, by `protect`, lies within the
1500 octets of the buffer. -/
structure FitsBuffer (s : ControlSender) (tagLength : ℕ) : Prop where
  space : s.available s.firstLength
    + (28 + s.firstLength + (6 + (s.items sdesItemTypeCNAME).length) + 100) = s.pathMTU.toNat
  room : 32 ≤ s.available s.firstLength
  written : ∀ clock stamps stale, ∃ c, s.dispatchControlPacket clock stamps stale = some c ∧
    c.sdes = s.reportsLength ∧ c.len = s.reportsLength + s.descriptionLength ∧
    Memory.SameFrom 1500 stale c.buf ∧
    ∀ P index ctx, CryptoContextCtrl.getTagLength ctx = tagLength → ctx.keys.Keyed →
      ∃ buf, c.protect P index ctx = some buf ∧ Memory.SameFrom 1500 stale buf

variable {s : ControlSender} {tagLength : ℕ}

/-- A compound that is short enough, with its trailer, fits. -/
theorem fitsBuffer_of_le (hmtu : s.pathMTU = 1500)
    (hcname : (s.items sdesItemTypeCNAME).length ≤ 255)
    (hle : s.reportsLength + s.descriptionLength + 4 + tagLength ≤ 1500) :
    s.FitsBuffer tagLength where
  space := by
    rw [hmtu]
    exact s.available_eq hmtu hcname
  room := by
    have havailable := s.available_eq hmtu hcname
    have hsmall := s.firstLength_cases
    omega
  written := by
    intro clock stamps stale
    obtain ⟨c, hc, hsdes, hlen, hbehind, hlow, hhigh⟩ :=
      s.size_of_compound clock stamps stale hmtu hcname
    refine ⟨c, hc, hsdes, hlen, hbehind.mono (by omega), ?_⟩
    intro P index ctx htag hkeyed
    obtain ⟨buf, -, hbuf, htrailer, -⟩ := Compound.protect_buffer P index hkeyed hlow hhigh
    exact ⟨buf, hbuf, (hbehind.mono (by omega)).trans (htrailer.mono (by omega))⟩

/-- The last octet that `protect` writes may be any: here it is 1. -/
theorem exists_protect_last (htag : tagLength ≤ 20) {c : Compound} (hlen : 8 ≤ c.len)
    (hmax : c.len < 2 ^ 15) :
    ∃ P index ctx buf, CryptoContextCtrl.getTagLength ctx = tagLength ∧ ctx.keys.Keyed ∧
      c.protect P index ctx = some buf ∧ buf (c.len + (3 + tagLength)) = 1 := by
  have hkeyed : (CryptoContextCtrl.macOnly tagLength htag).keys.Keyed :=
    ⟨fun h => absurd rfl h, fun h => absurd rfl h.ealg_ne_null, fun _ => rfl⟩
  obtain ⟨buf, msg, hbuf, -, hread⟩ := Compound.protect_buffer .ones 1 hkeyed hlen hmax
  refine ⟨.ones, 1, .macOnly tagLength htag, buf, rfl, hkeyed, hbuf, ?_⟩
  have hones : (CryptoContextCtrl.macOnly tagLength htag).keys.macTag .ones msg
      = List.replicate tagLength 1 := by
    show (List.ofFn (fun _ : Fin 20 => (1 : UInt8))).take tagLength = _
    rw [List.ofFn_const, List.take_replicate, Nat.min_eq_left htag]
  have hlast := buf.ofOctets_octets (p := c.len) (n := 4 + tagLength)
    (show 3 + tagLength < 4 + tagLength by omega)
  have htaglen : (CryptoContextCtrl.macOnly tagLength htag).getTagLength = tagLength := rfl
  rw [htaglen, hones] at hread
  have hindex : bigEndian 4 (withEFlag 1).toNat = [128, 0, 0, 1] := by decide
  rw [← hlast, hread, hindex]
  cases tagLength with
  | zero => rfl
  | succ n =>
      unfold Memory.ofOctets
      rw [List.getD_append_right _ _ _ _ (by rw [List.length_cons, List.length_cons,
        List.length_cons, List.length_singleton]; omega), List.getD_replicate _ (by
        rw [List.length_cons, List.length_cons, List.length_cons, List.length_singleton]
        omega)]

/-- A compound that fits is short enough. -/
theorem FitsBuffer.le (h : s.FitsBuffer tagLength) (hmtu : s.pathMTU = 1500)
    (hcname : (s.items sdesItemTypeCNAME).length ≤ 255) (htag : tagLength ≤ 20) :
    s.reportsLength + s.descriptionLength + 4 + tagLength ≤ 1500 := by
  by_contra hlong
  obtain ⟨c, hc, -, hlen, -, hlow, hhigh⟩ :=
    s.size_of_compound (fun _ => ⟨0, 0⟩) ⟨0, 0, 0⟩ (fun _ => 0) hmtu hcname
  obtain ⟨c', hc', -, -, -, hwritten⟩ := h.written (fun _ => ⟨0, 0⟩) ⟨0, 0, 0⟩ (fun _ => 0)
  rw [hc, Option.some_inj] at hc'
  obtain ⟨P, index, ctx, buf, hctx, hkeyed, hbuf, hone⟩ := exists_protect_last htag hlow hhigh
  obtain ⟨buf', hbuf', hzero⟩ := hwritten P index ctx hctx hkeyed
  rw [← hc', hbuf, Option.some_inj] at hbuf'
  have hlast : (1 : UInt8) = 0 := by
    rw [← hone, hbuf']
    exact hzero (c.len + (3 + tagLength)) (by omega)
  exact absurd hlast (by decide)

/-- **The compound fits the buffer**, with index and tag behind it, exactly if there are fewer
than 31 members, or what is left by the report blocks is enough for the items. -/
theorem fits_buffer_iff (hmtu : s.pathMTU = 1500)
    (hcname : (s.items sdesItemTypeCNAME).length ≤ 255) (htag : tagLength ≤ 20) :
    s.FitsBuffer tagLength ↔ s.sources.length < 31 ∨
      s.firstLength + 752
        + 24 * ((613 - 2 * s.firstLength - (s.items sdesItemTypeCNAME).length) / 24)
        + (s.chunkLength + 12) / 4 * 4 + 4 + tagLength ≤ 1500 := by
  have hsmall := s.firstLength_cases
  have hchunk := s.length_chunkItems hcname
  rw [length_flatMap_chunkItems] at hchunk
  have hlength : (s.sources.length < 31 ∨ s.firstLength + 752
        + 24 * ((613 - 2 * s.firstLength - (s.items sdesItemTypeCNAME).length) / 24)
        + (s.chunkLength + 12) / 4 * 4 + 4 + tagLength ≤ 1500) ↔
      s.reportsLength + s.descriptionLength + 4 + tagLength ≤ 1500 := by
    unfold reportsLength descriptionLength
    split_ifs with hfew
    · exact iff_of_true (Or.inl hfew) (by omega)
    · exact or_iff_right hfew
  rw [hlength]
  constructor
  · intro hfits
    exact hfits.le hmtu hcname htag
  · exact fitsBuffer_of_le hmtu hcname

/-- A compound for two members fits, with a tag of ten octets. -/
theorem fits_buffer_iff_listener : (listener 2).FitsBuffer 10 :=
  (fits_buffer_iff (s := listener 2) rfl (by decide) (by decide)).mpr (Or.inl (by decide))

/-- A listener with so many members and a NAME of 255 octets. -/
def longNamed (members : ℕ) : ControlSender :=
  { listener members with items := fun type => if type = 2 then List.replicate 255 65 else [] }

set_option maxRecDepth 4000 in
/-- **Behind the buffer.**  With 31 members and such a NAME, the compound alone has 1604 octets. -/
theorem longNamed_behind_buffer :
    (∃ c, (longNamed 31).dispatchControlPacket (fun _ => ⟨0, 0⟩) ⟨0, 0, 0⟩ (fun _ => 0) = some c ∧
      c.len = 1604) ∧ ¬ (longNamed 31).FitsBuffer 10 := by
  constructor
  · obtain ⟨c, hc, -, hlen, -⟩ := (longNamed 31).size_of_compound (fun _ => ⟨0, 0⟩) ⟨0, 0, 0⟩
      (fun _ => 0) rfl (by decide)
    exact ⟨c, hc, hlen⟩
  · intro hfits
    exact absurd (hfits.le rfl (by decide) (by decide)) (by decide)

end ControlSender
