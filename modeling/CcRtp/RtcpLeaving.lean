/-
# Leaving a session

Models the compound that `QueueRTCPManager::dispatchBYE` (`src/control.cpp`) builds when a
member leaves: an empty receiver report, and a BYE packet with the reason.  The zeros behind the
reason are one to four, and the length octet of the BYE packet counts them too.  The padding bit
of the BYE packet is not written.

* `dispatchBYE_packets` : the two packets, and where their octets lie;
* `byeReason_dispatchBYE` : what `getBYE` makes of the reason;
* `bye_round_trip_iff` : it is the reason that was given, unless this has 255 octets.
-/
import CcRtp.RtcpGoodbye
import CcRtp.RtcpBlocks

namespace RTCPPacket

variable {buf buf' : Memory} {p q : ℕ}

theorem getSSRC_setSSRC (buf : Memory) (p : ℕ) (ssrc : BitVec 32) :
    getSSRC (setSSRC buf p ssrc) p = ssrc := by
  have hread := Memory.octets_put_self buf (p + 4) (bigEndian 4 ssrc.toNat)
  rw [length_bigEndian] at hread
  unfold getSSRC setSSRC
  rw [hread, ofBigEndian_bigEndian 4 _ ssrc.isLt, BitVec.ofNat_toNat, BitVec.setWidth_eq]

theorem getSSRC_of_sameBelow (hsame : Memory.SameBelow q buf buf') (hq : p + 8 ≤ q) :
    getSSRC buf' p = getSSRC buf p := by
  unfold getSSRC
  rw [hsame.octets (by omega)]

theorem sameBelow_setLength (buf : Memory) (hq : q ≤ p + 2) (words : ℕ) :
    Memory.SameBelow q buf (setLength buf p words) :=
  Memory.sameBelow_put _ _ hq

end RTCPPacket

namespace ControlSender

open RTCPPacket

/-! ## The compound -/

/-- The empty RR, and the head of the BYE packet behind it. -/
def byeHeads (s : ControlSender) (stale : Memory) : Memory :=
  let buf := setLength (setBlockCount (setHeader stale 0 tRR s.localSSRC) 0 0) 0 (8 / 4 - 1)
  setSSRC (setType (setBlockCount (setVersion buf 8 2) 8 1) 8 tBYE) 8 s.localSSRC

/-- `padlen`, behind a reason of the length. -/
def padlen (length : ℕ) : ℕ := 4 - (17 + length - 8) % 4

/-- `dispatchBYE(reason)`: the compound that is built. -/
def dispatchBYE (s : ControlSender) (reason : Octets) (stale : Memory) : Draft :=
  let text := reason.takeWhile (fun c => c ≠ 0)
  let length := UInt8.ofNat text.length
  let len := 17 + length.toNat
  let padlen := padlen length.toNat
  let buf := (s.byeHeads stale).put 16 [length]
  let buf := buf.put 17 (text.take length.toNat)
  let buf := buf.put len (List.replicate padlen 0)
  let buf := buf.put 16 [length + UInt8.ofNat padlen]
  ⟨setLength buf 8 ((len + padlen - 8) / 4 - 1), len + padlen⟩

variable {s : ControlSender} {stale : Memory} {reason : Octets}

theorem padlen_spec (length : ℕ) :
    1 ≤ padlen length ∧ padlen length ≤ 4 ∧ (9 + length + padlen length) % 4 = 0 := by
  unfold padlen
  omega

/-- The heads of the packets, and the reason with its length octet. -/
def byeOctets (s : ControlSender) (stale : Memory) (reason : Octets) : Memory :=
  ((((s.byeHeads stale).put 16 [UInt8.ofNat reason.length]).put 17 reason).put
    (17 + reason.length) (List.replicate (padlen reason.length) 0)).put 16
      [UInt8.ofNat (reason.length + padlen reason.length)]

/-- The compound for a reason that the length octet can tell. -/
theorem dispatchBYE_eq (s : ControlSender) (stale : Memory) (hnul : 0 ∉ reason)
    (hlen : reason.length ≤ 255) :
    s.dispatchBYE reason stale
      = ⟨setLength (s.byeOctets stale reason) 8
        ((9 + reason.length + padlen reason.length) / 4 - 1),
          17 + reason.length + padlen reason.length⟩ := by
  have hnat : (UInt8.ofNat reason.length).toNat = reason.length := by
    rw [UInt8.toNat_ofNat', Nat.mod_eq_of_lt (by omega)]
  unfold dispatchBYE byeOctets
  dsimp only
  rw [takeWhile_of_nul_free hnul, hnat, List.take_length, ← UInt8.ofNat_add,
    show 17 + reason.length + padlen reason.length - 8
      = 9 + reason.length + padlen reason.length by omega]

/-- What is behind the heads of the packets is written there alone. -/
theorem byeOctets_spec (s : ControlSender) (stale : Memory) (reason : Octets) :
    Memory.SameBelow 16 (s.byeHeads stale) (s.byeOctets stale reason) ∧
      Memory.SameFrom (17 + reason.length + padlen reason.length) (s.byeHeads stale)
        (s.byeOctets stale reason) ∧
      s.byeOctets stale reason 16 = UInt8.ofNat (reason.length + padlen reason.length) ∧
      (s.byeOctets stale reason).octets 17 (reason.length + padlen reason.length)
        = reason ++ List.replicate (padlen reason.length) 0 := by
  unfold byeOctets
  set zeros := List.replicate (padlen reason.length) (0 : UInt8)
  have hzeros : zeros.length = padlen reason.length := List.length_replicate
  set b₁ := (s.byeHeads stale).put 16 [UInt8.ofNat reason.length]
  set b₂ := b₁.put 17 reason
  set b₃ := b₂.put (17 + reason.length) zeros
  refine ⟨?_, ?_, RTCPPacket.put_singleton_self _ _ _, ?_⟩
  · have h₁ : Memory.SameBelow 16 (s.byeHeads stale) b₁ := Memory.sameBelow_put _ _ le_rfl
    have h₂ : Memory.SameBelow 16 b₁ b₂ := Memory.sameBelow_put _ _ (by omega)
    have h₃ : Memory.SameBelow 16 b₂ b₃ := Memory.sameBelow_put _ _ (by omega)
    exact ((h₁.trans h₂).trans h₃).trans (Memory.sameBelow_put _ _ le_rfl)
  · have h₁ : Memory.SameFrom (17 + reason.length + padlen reason.length) (s.byeHeads stale) b₁ :=
      Memory.sameFrom_put _ _ (by rw [List.length_singleton]; omega)
    have h₂ : Memory.SameFrom (17 + reason.length + padlen reason.length) b₁ b₂ :=
      Memory.sameFrom_put _ _ (by omega)
    have h₃ : Memory.SameFrom (17 + reason.length + padlen reason.length) b₂ b₃ :=
      Memory.sameFrom_put _ _ (by omega)
    exact ((h₁.trans h₂).trans h₃).trans
      (Memory.sameFrom_put _ _ (by rw [List.length_singleton]; omega))
  · have hreason : b₃.octets 17 reason.length = reason := by
      rw [(Memory.sameBelow_put b₂ zeros le_rfl).octets le_rfl]
      exact Memory.octets_put_self b₁ 17 reason
    have hpad : b₃.octets (17 + reason.length) (padlen reason.length) = zeros := by
      rw [← hzeros]
      exact Memory.octets_put_self b₂ (17 + reason.length) zeros
    rw [Memory.octets_put_of_ge _ _ (by rw [List.length_singleton]), Memory.octets_add, hreason,
      hpad]

/-- The empty RR. -/
theorem byeHeads_report (s : ControlSender) (stale : Memory) :
    Begun (s.byeHeads stale) 0 tRR ∧ blockCount (s.byeHeads stale) 0 = 0 ∧
      getSSRC (s.byeHeads stale) 0 = s.localSSRC ∧ getLength (s.byeHeads stale) 0 = 8 := by
  unfold byeHeads
  dsimp only
  set header := setHeader stale 0 tRR s.localSSRC with hheader
  set report := setLength (setBlockCount header 0 0) 0 (8 / 4 - 1) with hreport
  have hbehind : Memory.SameBelow 8 report
      (setSSRC (setType (setBlockCount (setVersion report 8 2) 8 1) 8 tBYE) 8 s.localSSRC) := by
    have hversion : Memory.SameBelow 8 report (setVersion report 8 2) :=
      Memory.sameBelow_put _ _ le_rfl
    have hcount := hversion.trans (Memory.sameBelow_put (setVersion report 8 2)
      [setBitField (setVersion report 8 2 8) 0 (1 : BitVec 5)] le_rfl)
    have htype := hcount.trans (Memory.sameBelow_put (setBlockCount (setVersion report 8 2) 8 1)
      [tBYE] (show 8 ≤ 8 + 1 by omega))
    exact htype.trans (Memory.sameBelow_put _ (bigEndian 4 s.localSSRC.toNat) (by omega))
  have hbegun : Begun report 0 tRR :=
    ((begun_setHeader stale 0 tRR s.localSSRC).setBlockCount 0).setLength _
  have hcount : blockCount report 0 = 0 := by
    unfold blockCount
    rw [hreport, setLength, Memory.put_of_lt _ _ (by omega)]
    exact blockCount_setBlockCount header 0 0
  have hssrc : getSSRC report 0 = s.localSSRC := by
    have hfirst : getSSRC header 0 = s.localSSRC := getSSRC_setSSRC _ 0 s.localSSRC
    unfold getSSRC at hfirst ⊢
    rw [hreport, setLength, Memory.octets_put_of_ge _ _ (by rw [length_bigEndian]), setBlockCount,
      Memory.octets_put_of_ge _ _ (by rw [List.length_singleton]; omega)]
    exact hfirst
  refine ⟨hbegun.of_sameBelow hbehind (by omega), ?_, ?_, ?_⟩
  · unfold blockCount at hcount ⊢
    rw [hbehind 0 (by omega)]
    exact hcount
  · rw [getSSRC_of_sameBelow hbehind (by omega), hssrc]
  · rw [getLength_of_sameBelow hbehind (by omega), hreport, getLength_setLength _ _ (by decide)]

/-- The head of the BYE packet. -/
theorem byeHeads_bye (s : ControlSender) (stale : Memory) :
    version (s.byeHeads stale) 8 = 2 ∧ type (s.byeHeads stale) 8 = tBYE ∧
      blockCount (s.byeHeads stale) 8 = 1 ∧ getSSRC (s.byeHeads stale) 8 = s.localSSRC := by
  unfold byeHeads
  dsimp only
  set report := setLength (setBlockCount (setHeader stale 0 tRR s.localSSRC) 0 0) 0 (8 / 4 - 1)
  have hfirst : setSSRC (setType (setBlockCount (setVersion report 8 2) 8 1) 8 tBYE) 8 s.localSSRC 8
      = setBitField (setBitField (report 8) 6 (2 : BitVec 2)) 0 (1 : BitVec 5) := by
    rw [setSSRC, Memory.put_of_lt _ _ (by omega), setType, Memory.put_of_lt _ _ (by omega),
      setBlockCount, put_singleton_self, setVersion, put_singleton_self]
  refine ⟨?_, ?_, ?_, getSSRC_setSSRC _ _ _⟩
  · rw [version, hfirst, bitField_setBitField_of_disjoint _ _ _ (by omega) (by omega),
      bitField_setBitField _ _ _ (by omega)]
  · rw [RTCPPacket.type, setSSRC, Memory.put_of_lt _ _ (by omega), setType, put_singleton_self]
  · rw [blockCount, hfirst, bitField_setBitField _ _ _ (by omega)]

/-- The heads are sixteen octets. -/
theorem sameFrom_byeHeads (s : ControlSender) (stale : Memory) :
    Memory.SameFrom 16 stale (s.byeHeads stale) := by
  unfold byeHeads
  dsimp only
  set report := setLength (setBlockCount (setHeader stale 0 tRR s.localSSRC) 0 0) 0 (8 / 4 - 1)
  have hreport : Memory.SameFrom 16 stale report :=
    ((sameFrom_setHeader stale (by omega) tRR s.localSSRC).trans
      (sameFrom_setBlockCount _ (by omega) 0)).trans (sameFrom_setLength _ (by omega) _)
  have hversion : Memory.SameFrom 16 stale (setVersion report 8 2) :=
    hreport.trans (Memory.sameFrom_put report _ (by rw [List.length_singleton]; omega))
  have hcount := hversion.trans (sameFrom_setBlockCount _ (show 8 < 16 by omega) 1)
  have htype := hcount.trans (Memory.sameFrom_put _ [tBYE]
    (show 8 + 1 + [tBYE].length ≤ 16 by decide))
  exact htype.trans (Memory.sameFrom_put _ (bigEndian 4 s.localSSRC.toNat)
    (by rw [length_bigEndian]))

/-- **The packets of the compound**: an empty RR and a BYE packet, all of it in the buffer. -/
structure ByePackets (s : ControlSender) (stale : Memory) (d : Draft) : Prop where
  inside : d.len ≤ 500 ∧ Memory.SameFrom 500 stale d.buf
  report : Begun d.buf 0 tRR
  reportCount : blockCount d.buf 0 = 0
  reportSSRC : getSSRC d.buf 0 = s.localSSRC
  reportLength : getLength d.buf 0 = 8
  bye : version d.buf 8 = 2 ∧ type d.buf 8 = tBYE
  byeCount : blockCount d.buf 8 = 1
  byeSSRC : getSSRC d.buf 8 = s.localSSRC
  byeLength : 8 + getLength d.buf 8 = d.len

theorem dispatchBYE_packets (s : ControlSender) (stale : Memory) (hnul : 0 ∉ reason)
    (hlen : reason.length ≤ 255) : ByePackets s stale (s.dispatchBYE reason stale) := by
  obtain ⟨hbelow, hbehind, -, -⟩ := s.byeOctets_spec stale reason
  obtain ⟨hreport, hreportCount, hreportSSRC, hreportLength⟩ := s.byeHeads_report stale
  obtain ⟨hversion, htype, hcount, hssrc⟩ := s.byeHeads_bye stale
  obtain ⟨hpad, hpad', hfour⟩ := padlen_spec reason.length
  rw [s.dispatchBYE_eq stale hnul hlen]
  set words := (9 + reason.length + padlen reason.length) / 4 - 1
  have hten : Memory.SameBelow 10 (s.byeHeads stale)
      (setLength (s.byeOctets stale reason) 8 words) :=
    (hbelow.mono (by omega)).trans (sameBelow_setLength _ le_rfl _)
  refine ⟨⟨by dsimp only; omega, ?_⟩, ?_, ?_, ?_, ?_, ⟨?_, ?_⟩, ?_, ?_, ?_⟩
  · exact (((s.sameFrom_byeHeads stale).mono (by omega)).trans (hbehind.mono (by omega))).trans
      (sameFrom_setLength _ (by omega) _)
  · exact hreport.of_sameBelow hten (by omega)
  · exact (congrArg (fun b => bitField b 0 5) (hten 0 (by omega))).trans hreportCount
  · exact (getSSRC_of_sameBelow hten (by omega)).trans hreportSSRC
  · exact (getLength_of_sameBelow hten (by omega)).trans hreportLength
  · exact (congrArg (fun b => bitField b 6 2) (hten 8 (by omega))).trans hversion
  · exact (hten 9 (by omega)).trans htype
  · exact (congrArg (fun b => bitField b 0 5) (hten 8 (by omega))).trans hcount
  · unfold getSSRC at hssrc ⊢
    dsimp only
    rw [setLength, Memory.octets_put_of_ge _ _ (by rw [length_bigEndian]),
      hbelow.octets (by omega)]
    exact hssrc
  · dsimp only
    rw [getLength_setLength _ _ (show words < 2 ^ 16 by omega)]
    omega

/-! ## The reason -/

/-- The reason is read up to the zeros behind it. -/
theorem takeWhile_nul (hnul : 0 ∉ reason) {k : ℕ} (hk : 1 ≤ k) :
    (reason ++ List.replicate k 0).takeWhile (fun c => c ≠ 0) = reason := by
  obtain ⟨k, rfl⟩ := Nat.exists_eq_succ_of_ne_zero (Nat.ne_of_gt hk)
  rw [List.takeWhile_append_of_pos (ne_nul_of_nul_free hnul), List.replicate_succ,
    List.takeWhile_cons_of_neg (by decide), List.append_nil]

/-- **What `getBYE` makes of the reason**: the length octet has wrapped for 255 octets. -/
theorem byeReason_dispatchBYE (s : ControlSender) (stale : Memory) (hnul : 0 ∉ reason)
    (hlen : reason.length ≤ 255) :
    QueueRTCPManager.byeReason (s.dispatchBYE reason stale).buf 8 8
      = if reason.length ≤ 254 then reason else reason.take 3 := by
  have hpackets := s.dispatchBYE_packets stale hnul hlen
  have hcount := hpackets.byeCount
  have hlength := hpackets.byeLength
  obtain ⟨-, -, hoctet, hread⟩ := s.byeOctets_spec stale reason
  obtain ⟨hpad, hpad', hfour⟩ := padlen_spec reason.length
  unfold QueueRTCPManager.byeReason QueueRTCPManager.endpointer
  rw [hcount]
  rw [s.dispatchBYE_eq stale hnul hlen] at hlength ⊢
  dsimp only at hlength ⊢
  have hone : ((1 : BitVec 5)).toNat = 1 := rfl
  rw [hone, if_pos (by omega), show (8 + 4 + 4 * 1) % 2 ^ 16 = 16 from rfl, setLength,
    Memory.put_of_ge _ _ (by rw [length_bigEndian]; omega),
    Memory.octets_put_of_ge _ _ (by rw [length_bigEndian]; omega), hoctet, UInt8.toNat_ofNat']
  split_ifs with hshort
  · rw [Nat.mod_eq_of_lt (by omega), hread]
    exact takeWhile_nul hnul hpad
  · have hfirst : (s.byeOctets stale reason).octets 17 3 = reason.take 3 := by
      rw [show reason.length + padlen reason.length =
        3 + (reason.length + padlen reason.length - 3) by
        omega, Memory.octets_add] at hread
      have htake := congrArg (List.take 3) hread
      rwa [List.take_left' (Memory.length_octets _ _ _), List.take_append_of_le_length (by omega)]
        at htake
    rw [show (reason.length + padlen reason.length) % 2 ^ 8 = 3 by omega, hfirst]
    exact takeWhile_of_nul_free fun hmem => hnul (List.mem_of_mem_take hmem)

/-- **Leaving with a reason**: the compound is an empty RR and a BYE packet, and `getBYE` hands
the reason on, if the source has announced itself to the receiver. -/
structure SaysReason (s : ControlSender) (reason : Octets) (stale : Memory) : Prop where
  packets : ByePackets s stale (s.dispatchBYE reason stale)
  goodbye : ∀ m : QueueRTCPManager, (m.source s.localSSRC).flag = true →
    (m.getBYE (s.dispatchBYE reason stale).buf 8 8).2.goodbyes
      = m.goodbyes ++ [(s.localSSRC, reason)]

/-- The goodbye that `getBYE` hands on. -/
theorem goodbyes_dispatchBYE (s : ControlSender) (stale : Memory) (hnul : 0 ∉ reason)
    (hlen : reason.length ≤ 255) {m : QueueRTCPManager}
    (hflag : (m.source s.localSSRC).flag = true) :
    (m.getBYE (s.dispatchBYE reason stale).buf 8 8).2.goodbyes
      = m.goodbyes ++ [(s.localSSRC, if reason.length ≤ 254 then reason else reason.take 3)] := by
  have hpackets := s.dispatchBYE_packets stale hnul hlen
  have hlists : QueueRTCPManager.ListsSources (s.dispatchBYE reason stale).buf 8 := by
    have hlength := hpackets.byeLength
    have hcount : (blockCount (s.dispatchBYE reason stale).buf 8).toNat = 1 := by
      rw [hpackets.byeCount]
      rfl
    have hlong : 18 ≤ (s.dispatchBYE reason stale).len := by
      rw [s.dispatchBYE_eq stale hnul hlen]
      have hpad := (padlen_spec reason.length).1
      dsimp only
      omega
    unfold QueueRTCPManager.ListsSources
    rw [hcount]
    exact ⟨le_rfl, by omega⟩
  have hleft := (m.left_getBYE hlists 8).goodbyes
  rw [hpackets.byeSSRC, if_pos hflag, s.byeReason_dispatchBYE stale hnul hlen] at hleft
  exact hleft

/-- A source that has said hello has announced itself. -/
theorem flag_getHello (m : QueueRTCPManager) (ssrc : BitVec 32) :
    ((m.getHello ssrc).source ssrc).flag = true :=
  congrArg ControlSource.flag (m.source_modifySource_self ssrc (fun s => { s with flag := true }))

/-- A reason of 255 octets is cut to three. -/
theorem not_saysReason (s : ControlSender) (stale : Memory) (hnul : 0 ∉ reason)
    (hlen : reason.length = 255) : ¬ s.SaysReason reason stale := by
  intro h
  have hflag := flag_getHello QueueRTCPManager.alone s.localSSRC
  have hgoodbye := h.goodbye _ hflag
  rw [s.goodbyes_dispatchBYE stale hnul (by omega) hflag, if_neg (by omega)] at hgoodbye
  have hcut := congrArg Prod.snd (List.cons.inj (List.append_cancel_left hgoodbye)).1
  have hlength := congrArg List.length hcut
  rw [List.length_take] at hlength
  dsimp only at hlength
  omega

/-- **The reason for leaving comes back** exactly if it has at most 254 octets. -/
theorem bye_round_trip_iff (s : ControlSender) (reason : Octets) (stale : Memory)
    (hnul : 0 ∉ reason) (hlen : reason.length ≤ 255) :
    s.SaysReason reason stale ↔ reason.length ≤ 254 := by
  constructor
  · intro h
    by_contra hlong
    exact s.not_saysReason stale hnul (by omega) h
  · intro hshort
    refine ⟨s.dispatchBYE_packets stale hnul hlen, ?_⟩
    intro m hflag
    have hgoodbye := s.goodbyes_dispatchBYE stale hnul hlen hflag
    rwa [if_pos hshort] at hgoodbye

/-- A short reason comes back. -/
theorem bye_round_trip_iff_short : (listener 0).SaysReason [98, 121, 101] (fun _ => 255) :=
  (bye_round_trip_iff (listener 0) [98, 121, 101] (fun _ => 255) (by decide) (by decide)).mpr
    (by decide)

/-- A reason of 255 letters does not. -/
theorem long_reason_cut :
    ¬ (listener 0).SaysReason (List.replicate 255 65) (fun _ => 0) := by
  apply not_saysReason
  · intro hmem
    exact absurd (List.eq_of_mem_replicate hmem) (by decide)
  · exact List.length_replicate

end ControlSender
