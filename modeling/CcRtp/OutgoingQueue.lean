/-
# `OutgoingDataQueue`: segmentation, packets and protection

Models `putData` and `sendImmediate` of `src/outqueue.cpp` with the registry of crypto
contexts.  Both cut the data into segments, make a packet of each one with the next
sequence number, and protect it if there is a context for the local SSRC.  `putData` first
makes such a context from the template registered under SSRC 0, if there is one, and
appends the packet to the sending queue; `sendImmediate` hands it to the network.

The contexts are shared objects in the source: what `protect` does to one is seen by every
later lookup, so it is stored back in its place in the registry.

* `protect_counterMode` : the blocks that one packet hands to the block cipher, and what
  becomes of the rollover counter;
* `getOutQueueCryptoContext_storeContext` : the stored context is found again;
* `OutgoingDataQueue.performAll_continues` : along every run of calls the packets carry
  successive indices.
-/
import CcRtp.Srtp
import CcRtp.KeyDerivation

open CryptoContext

/-- The members of the queue that the two functions read and write, and the packets in
the sending queue. -/
structure OutgoingDataQueue where
  localSSRC : BitVec 32
  sendSeq : BitVec 16
  sendSources : Fin 16 → BitVec 32
  sendCC : BitVec 16
  paddinglen : UInt8
  marked : Bool
  payloadType : BitVec 7
  initialTimestamp : BitVec 32
  maxSendSegmentSize : ℕ
  cryptoContexts : List CryptoContext
  sendQueue : List OutgoingRTPPkt

/-- A packet as it leaves, and if it was protected, the index and the blocks that were
handed to the block cipher. -/
structure SentPacket where
  packet : OutgoingRTPPkt
  protection : Option (BitVec 64 × List Block)

/-- The blocks that the packet cost. -/
def SentPacket.blocks (s : SentPacket) : List Block := s.protection.elim [] Prod.snd

/-! ## The functions of the source -/

namespace OutgoingDataQueue

variable (P : Primitives)

/-- `getOutQueueCryptoContext(ssrc)` -/
def getOutQueueCryptoContext (q : OutgoingDataQueue) (ssrc : BitVec 32) : Option CryptoContext :=
  q.cryptoContexts.find? (fun cc => cc.ssrcCtx = ssrc)

/-- `setOutQueueCryptoContext(cc)`: the first context of the same SSRC is taken out, the
new one appended. -/
def setOutQueueCryptoContext (q : OutgoingDataQueue) (cc : CryptoContext) : OutgoingDataQueue :=
  { q with
    cryptoContexts := q.cryptoContexts.eraseP (fun c => c.ssrcCtx = cc.ssrcCtx) ++ [cc] }

/-- The registry after a call on a context that was found in it. -/
def storeContext (q : OutgoingDataQueue) (cc : CryptoContext) : OutgoingDataQueue :=
  { q with
    cryptoContexts := q.cryptoContexts.set
      (q.cryptoContexts.findIdx (fun c => c.ssrcCtx = cc.ssrcCtx)) cc }

/-- The contributing sources of the next packet: none, or fifteen. -/
def csrcs (q : OutgoingDataQueue) : List (BitVec 32) :=
  if q.sendCC ≠ 0 then (List.ofFn q.sendSources).take 15 else []

/-- The packet of a segment, before it is protected.  Only the first packet of the data
gets the marker. -/
def buildPacket (q : OutgoingDataQueue) (pcc : Option CryptoContext) (stamp : BitVec 32)
    (segment : Octets) (first : Bool) : OutgoingRTPPkt :=
  let packet := if q.sendCC ≠ 0 then OutgoingRTPPkt.withCsrcs q.csrcs segment q.paddinglen pcc
    else OutgoingRTPPkt.plain segment q.paddinglen pcc
  packet.fillHeader q.payloadType q.sendSeq (stamp + q.initialTimestamp) q.localSSRC
    (first && q.marked)

/-- The rest of the loop body that both functions share: the packet is built and, with a
context, protected. -/
def sendSegment (q : OutgoingDataQueue) (pcc : Option CryptoContext) (stamp : BitVec 32)
    (segment : Octets) (first : Bool) : Option (SentPacket × OutgoingDataQueue) :=
  let packet := q.buildPacket pcc stamp segment first
  -- the sequence number is used up whether or not the packet is protected
  let q := { q with
    sendSeq := q.sendSeq + 1
    marked := if first && q.marked then false else q.marked }
  match pcc with
  | none => some (⟨packet, none⟩, q)
  | some cc =>
      (packet.protect P q.localSSRC cc).map (fun (p, cc', blocks) =>
        (⟨p, some (joinIndex cc.roc packet.cachedSeqNum, blocks)⟩, q.storeContext cc'))

/-- What `putData` does when there is no context for the local SSRC: one is made from the
template of SSRC 0. -/
def ensureContext (q : OutgoingDataQueue) : Option OutgoingDataQueue :=
  match q.getOutQueueCryptoContext q.localSSRC with
  | some _ => some q
  | none =>
      match q.getOutQueueCryptoContext 0 with
      | none => some q
      | some template =>
          -- with rollover counter, key derivation rate and index 0
          ((template.newCryptoContextForSSRC q.localSSRC 0 0).deriveSrtpKeys P 0).map
            q.setOutQueueCryptoContext

/-- The body of the loop of `putData`. -/
def putSegment (q : OutgoingDataQueue) (stamp : BitVec 32) (segment : Octets) (first : Bool) :
    Option (SentPacket × OutgoingDataQueue) :=
  (q.ensureContext P).bind (fun q =>
    (q.sendSegment P (q.getOutQueueCryptoContext q.localSSRC) stamp segment first).map
      (fun (s, q) => (s, { q with sendQueue := q.sendQueue ++ [s.packet] })))

/-- The body of the loop of `sendImmediate`; the packet goes to `dispatchImmediate`. -/
def immediateSegment (q : OutgoingDataQueue) (stamp : BitVec 32) (segment : Octets)
    (first : Bool) : Option (SentPacket × OutgoingDataQueue) :=
  q.sendSegment P (q.getOutQueueCryptoContext q.localSSRC) stamp segment first

/-- The loop over the segments.  Every round takes at least one octet, so as many rounds as
there are octets are enough; only with a segment size of zero the loop does not end. -/
def segmentLoop (body : OutgoingDataQueue → Octets → Bool →
    Option (SentPacket × OutgoingDataQueue)) :
    ℕ → Octets → Bool → OutgoingDataQueue → Option (List SentPacket × OutgoingDataQueue)
  | _, [], _, q => some ([], q)
  | 0, _ :: _, _, _ => none
  | rounds + 1, data, first, q =>
      let step := if data.length > q.maxSendSegmentSize then q.maxSendSegmentSize
        else data.length
      -- the rest is cut with whatever the queue holds after this round
      (body q (data.take step) first).bind (fun (s, q) =>
        (segmentLoop body rounds (data.drop step) false q).map (fun (l, q) => (s :: l, q)))

/-- `putData(stamp, data, datalen)`: the packets put into the sending queue. -/
def putData (q : OutgoingDataQueue) (stamp : BitVec 32) (data : Octets) :
    Option (List SentPacket × OutgoingDataQueue) :=
  segmentLoop (fun q => q.putSegment P stamp) data.length data true q

/-- `sendImmediate(stamp, data, datalen)`: the packets sent. -/
def sendImmediate (q : OutgoingDataQueue) (stamp : BitVec 32) (data : Octets) :
    Option (List SentPacket × OutgoingDataQueue) :=
  segmentLoop (fun q => q.immediateSegment P stamp) data.length data true q

end OutgoingDataQueue

/-- A call of the application: one of the two send functions, or a change of what the next
packets look like. -/
inductive SendCall : Type where
  | putData (stamp : BitVec 32) (data : Octets)
  | sendImmediate (stamp : BitVec 32) (data : Octets)
  | setMark (mark : Bool)
  | setPadding (paddinglen : UInt8)
  | setMaxSendSegmentSize (size : ℕ)
  | setPayloadType (pt : BitVec 7)

namespace OutgoingDataQueue

variable (P : Primitives)

/-- One call: the packets it produces. -/
def perform (q : OutgoingDataQueue) : SendCall → Option (List SentPacket × OutgoingDataQueue)
  | .putData stamp data => q.putData P stamp data
  | .sendImmediate stamp data => q.sendImmediate P stamp data
  | .setMark mark => some ([], { q with marked := mark })
  | .setPadding paddinglen => some ([], { q with paddinglen := paddinglen })
  | .setMaxSendSegmentSize size => some ([], { q with maxSendSegmentSize := size })
  | .setPayloadType pt => some ([], { q with payloadType := pt })

/-- One call after the other: all packets, in order. -/
def performAll : OutgoingDataQueue → List SendCall → Option (List SentPacket × OutgoingDataQueue)
  | q, [] => some ([], q)
  | q, call :: calls =>
      (q.perform P call).bind (fun (l, q) =>
        (performAll q calls).map (fun (l', q) => (l ++ l', q)))

end OutgoingDataQueue

/-! ## The registry -/

/-- An entry that is found, replaced in its place, is found again. -/
theorem find?_set_findIdx {α : Type*} {p : α → Bool} {l : List α} {x y : α}
    (h : l.find? p = some x) (hy : p y = true) : (l.set (l.findIdx p) y).find? p = some y := by
  induction l with
  | nil => cases h
  | cons a l ih =>
      rw [List.find?_cons] at h
      cases ha : p a with
      | true =>
          rw [List.findIdx_cons, ha, cond_true, List.set_cons_zero, List.find?_cons, hy]
      | false =>
          rw [ha] at h
          rw [List.findIdx_cons, ha, cond_false, List.set_cons_succ, List.find?_cons, ha]
          exact ih h

namespace OutgoingDataQueue

/-- **A stored context is found again.** -/
theorem getOutQueueCryptoContext_storeContext {q : OutgoingDataQueue} {ssrc : BitVec 32}
    {cc cc' : CryptoContext} (h : q.getOutQueueCryptoContext ssrc = some cc)
    (hssrc : cc'.ssrcCtx = ssrc) :
    (q.storeContext cc').getOutQueueCryptoContext ssrc = some cc' := by
  subst hssrc
  exact find?_set_findIdx h (decide_eq_true rfl)

/-- The context that is found belongs to the SSRC. -/
theorem ssrcCtx_of_getOutQueueCryptoContext {q : OutgoingDataQueue} {ssrc : BitVec 32}
    {cc : CryptoContext} (h : q.getOutQueueCryptoContext ssrc = some cc) : cc.ssrcCtx = ssrc := by
  have hp := List.find?_some h
  exact of_decide_eq_true hp

end OutgoingDataQueue

/-! ## One packet in counter mode -/

/-- The octets of the packet that are encrypted: payload and padding. -/
def RTPPacket.encryptedSize (p : RTPPacket) : BitVec 32 :=
  p.payloadSize + if p.isPadded then BitVec.ofNat 32 p.getPaddingSize.toNat else 0

/-- The blocks of a counter-mode key stream under one index, or none without a key. -/
def UsesBlocks (K : SessionKeys) (ssrc : BitVec 32) (index : BitVec 64) (blocks : List Block) :
    Prop :=
  blocks = [] ∨ ∃ n < 2 ^ 20, blocks = ctrBlocks (cmIv K.kS ssrc index) n

/-- In counter mode the transform hands the blocks of the key stream to the cipher. -/
theorem SessionKeys.transform_blocks {P : Primitives} {K : SessionKeys} (hcm : K.CounterMode)
    {ssrc : BitVec 32} {index : BitVec 64} {f8Iv : Block} {data out : Octets} {blocks : List Block}
    (hlen : data.length < 2 ^ 20)
    (h : K.transform P (cmIv K.kS ssrc index) f8Iv data = some (out, blocks)) :
    UsesBlocks K ssrc index blocks := by
  rw [transform_counterMode P hcm] at h
  obtain ⟨c, -, hc⟩ := Option.bind_eq_some_iff.mp h
  cases hk : c.key with
  | none =>
      rw [SrtpSymCrypto.ctrEncrypt, hk] at hc
      cases hc
      exact Or.inl rfl
  | some k =>
      rw [c.ctrEncrypt_eq_some P hk data _ hlen] at hc
      cases hc
      exact Or.inr ⟨data.length, hlen, rfl⟩

/-- Keyed contexts always give a tag. -/
theorem SessionKeys.Keyed.authenticate_isSome {P : Primitives} {K : SessionKeys} (h : K.Keyed)
    (msg old : Octets) : (K.authenticate P msg old).isSome = true := by
  unfold SessionKeys.authenticate
  split_ifs with haalg
  · rfl
  · rw [Option.isSome_map]
    exact h.mac haalg

/-- **`protect` in counter mode**: the blocks belong to the index of the packet, and the
rollover counter goes up behind sequence number 65535.  With all keys there it returns. -/
theorem protect_counterMode {P : Primitives} {cc : CryptoContext} (hcm : cc.keys.CounterMode)
    {p : OutgoingRTPPkt} (hshort : p.encryptedSize.toNat < 2 ^ 20) (ssrc : BitVec 32) :
    (cc.keys.Keyed → (p.protect P ssrc cc).isSome = true) ∧
      ∀ p' cc' blocks, p.protect P ssrc cc = some (p', cc', blocks) →
        UsesBlocks cc.keys ssrc (joinIndex cc.roc p.cachedSeqNum) blocks ∧
        cc' = if p.cachedSeqNum = 0xFFFF then cc.setRoc (cc.roc + 1) else cc := by
  set data := slice p.buffer p.hdrSize.toNat p.encryptedSize.toNat with hdata
  have hlen : data.length < 2 ^ 20 := by
    rw [hdata, slice, List.length_take]
    omega
  have henc : cc.srtpEncrypt P p (joinIndex cc.roc p.cachedSeqNum) ssrc
      = (cc.keys.transform P (cmIv cc.kS ssrc (joinIndex cc.roc p.cachedSeqNum))
          (f8Iv p.buffer cc.roc) data).map (fun r => (p.setbuffer r.1 p.hdrSize.toNat, r.2)) := rfl
  rw [OutgoingRTPPkt.protect, henc]
  constructor
  · intro hkeyed
    obtain ⟨out, blocks, hout, -, -⟩ := SessionKeys.transform_transform (P := P) hkeyed
      (cmIv cc.kS ssrc (joinIndex cc.roc p.cachedSeqNum)) (f8Iv p.buffer cc.roc) (fun _ => hlen)
    rw [hout, Option.map_some, Option.bind_some, Option.isSome_map]
    exact hkeyed.authenticate_isSome _ _
  · intro p' cc' blocks h
    obtain ⟨⟨p₁, blocks₁⟩, h₁, h₂⟩ := Option.bind_eq_some_iff.mp h
    obtain ⟨⟨out, blocks₂⟩, htrans, heq⟩ := Option.map_eq_some_iff.mp h₁
    obtain ⟨tag, -, hres⟩ := Option.map_eq_some_iff.mp h₂
    cases heq
    cases hres
    exact ⟨SessionKeys.transform_blocks hcm hlen htrans, rfl⟩

/-! ## The packet of a segment -/

/-- What decides about the sizes of packets. -/
structure PacketShape where
  paddinglen : UInt8
  maxSendSegmentSize : ℕ
  csrcCount : ℕ

namespace PacketShape

/-- The payload and padding octets of the packet of a segment of `n` octets. -/
def encryptedOctets (s : PacketShape) (n : ℕ) : ℕ :=
  n + RTPPacket.paddingOctets s.paddinglen (12 + 4 * s.csrcCount + n)

/-- Every packet for `n` octets of data has less than `2^20` octets of payload and padding:
the packets with a full segment, and the last one. -/
def FitsData (s : PacketShape) (n : ℕ) : Prop :=
  1 ≤ s.maxSendSegmentSize ∧
    (s.maxSendSegmentSize ≤ n → s.encryptedOctets s.maxSendSegmentSize < 2 ^ 20) ∧
    (0 < n % s.maxSendSegmentSize → s.encryptedOctets (n % s.maxSendSegmentSize) < 2 ^ 20)

instance (s : PacketShape) (n : ℕ) : Decidable (s.FitsData n) :=
  inferInstanceAs (Decidable (_ ∧ _ ∧ _))

/-- The condition on a call. -/
def Fits (s : PacketShape) : SendCall → Prop
  | .putData _ data => s.FitsData data.length
  | .sendImmediate _ data => s.FitsData data.length
  | _ => True

instance (s : PacketShape) : (call : SendCall) → Decidable (s.Fits call)
  | .putData _ data => inferInstanceAs (Decidable (s.FitsData data.length))
  | .sendImmediate _ data => inferInstanceAs (Decidable (s.FitsData data.length))
  | .setMark _ => .isTrue trivial
  | .setPadding _ => .isTrue trivial
  | .setMaxSendSegmentSize _ => .isTrue trivial
  | .setPayloadType _ => .isTrue trivial

/-- The shape after a call. -/
def after (s : PacketShape) : SendCall → PacketShape
  | .setPadding paddinglen => { s with paddinglen := paddinglen }
  | .setMaxSendSegmentSize size => { s with maxSendSegmentSize := size }
  | _ => s

/-- The next segment fits, and so does the data behind it. -/
theorem FitsData.segment {s : PacketShape} {n : ℕ} (h : s.FitsData n) (hn : 0 < n) :
    s.encryptedOctets (min n s.maxSendSegmentSize) < 2 ^ 20 ∧
      0 < min n s.maxSendSegmentSize ∧ s.FitsData (n - min n s.maxSendSegmentSize) := by
  obtain ⟨hpos, hfull, hlast⟩ := h
  by_cases hle : s.maxSendSegmentSize ≤ n
  · rw [Nat.min_eq_right hle]
    refine ⟨hfull hle, hpos, hpos, fun _ => hfull hle, ?_⟩
    rw [← Nat.mod_eq_sub_mod hle]
    exact hlast
  · have hlt : n < s.maxSendSegmentSize := Nat.lt_of_not_le hle
    rw [Nat.mod_eq_of_lt hlt] at hlast
    rw [Nat.min_eq_left hlt.le, Nat.sub_self]
    refine ⟨hlast hn, hn, hpos, fun h0 => ?_, fun h0 => ?_⟩
    · omega
    · rw [Nat.zero_mod] at h0
      omega

end PacketShape

namespace OutgoingDataQueue

/-- The shape of the next packets. -/
def shape (q : OutgoingDataQueue) : PacketShape where
  paddinglen := q.paddinglen
  maxSendSegmentSize := q.maxSendSegmentSize
  csrcCount := q.csrcs.length

theorem length_csrcs_le (q : OutgoingDataQueue) : q.csrcs.length ≤ 15 := by
  unfold csrcs
  split_ifs
  · rw [List.length_take]
    omega
  · exact Nat.zero_le 15

/-- Both constructors give the packet with the sources of the queue. -/
theorem buildPacket_eq (q : OutgoingDataQueue) (pcc : Option CryptoContext) (stamp : BitVec 32)
    (segment : Octets) (first : Bool)
    (hlt : 12 + 4 * q.csrcs.length + q.shape.encryptedOctets segment.length
      + RTPPacket.srtpOctets pcc < 2 ^ 32) :
    q.buildPacket pcc stamp segment first
      = (OutgoingRTPPkt.withCsrcs q.csrcs segment q.paddinglen pcc).fillHeader q.payloadType
          q.sendSeq (stamp + q.initialTimestamp) q.localSSRC (first && q.marked) := by
  unfold buildPacket
  split_ifs with hcc
  · rfl
  · have hnil : q.csrcs = [] := by rw [csrcs, if_neg hcc]
    have hcount : q.shape.csrcCount = 0 := by rw [shape, hnil]; rfl
    rw [hnil]
    rw [PacketShape.encryptedOctets, hcount, hnil, List.length_nil] at hlt
    rw [OutgoingRTPPkt.plain_eq segment q.paddinglen pcc rfl rfl (by
      show 12 + segment.length + RTPPacket.paddingOctets q.shape.paddinglen
        (12 + segment.length) + _ < _
      rw [show 12 + 4 * 0 + segment.length = 12 + segment.length by omega] at hlt
      omega)]

/-- **What is encrypted of a packet** are its payload and its padding. -/
theorem toNat_encryptedSize_buildPacket (q : OutgoingDataQueue) (pcc : Option CryptoContext)
    (stamp : BitVec 32) (segment : Octets) (first : Bool)
    (hlt : 12 + 4 * q.csrcs.length + q.shape.encryptedOctets segment.length
      + RTPPacket.srtpOctets pcc < 2 ^ 32) :
    (q.buildPacket pcc stamp segment first).encryptedSize.toNat
      = q.shape.encryptedOctets segment.length := by
  rw [q.buildPacket_eq pcc stamp segment first hlt]
  unfold PacketShape.encryptedOctets at hlt ⊢
  set n := 12 + 4 * q.csrcs.length + segment.length with hn
  have hshape : 12 + 4 * q.shape.csrcCount + segment.length = n := rfl
  have hpad : q.shape.paddinglen = q.paddinglen := rfl
  rw [hshape, hpad] at hlt ⊢
  set k := RTPPacket.paddingOctets q.paddinglen n with hk
  have hbuild := OutgoingRTPPkt.withCsrcs_eq q.csrcs segment q.paddinglen pcc hn hk (by omega)
  rw [OutgoingRTPPkt.fillHeader_eq _ (by rw [hbuild]), hbuild]
  set o := OutgoingRTPPkt.firstOctet (q.paddinglen ≠ 0) (BitVec.ofNat 4 q.csrcs.length) with ho
  set o' := OutgoingRTPPkt.secondOctet q.payloadType (first && q.marked) with ho'
  set fixed := OutgoingRTPPkt.fixedHeader o o' q.sendSeq (stamp + q.initialTimestamp) q.localSSRC
    with hfixed
  have hflag : ∀ rest, RTPPacket.headerField (fixed ++ rest) 0 5 1
      = BitVec.ofBool (q.paddinglen ≠ 0) := by
    intro rest
    exact OutgoingRTPPkt.bitField_firstOctet_padding _ _
  rw [RTPPacket.encryptedSize, RTPPacket.isPadded]
  simp only [hflag]
  by_cases hzero : q.paddinglen = 0
  · have hk0 : k = 0 := by rw [hk, RTPPacket.paddingOctets, if_pos hzero]
    simp only [hzero, hk0, ne_eq, not_true_eq_false, decide_false]
    rw [if_neg (by decide), add_zero, BitVec.toNat_ofNat]
    omega
  · have hbounds := RTPPacket.paddingOctets_bounds hzero n
    rw [← hk] at hbounds
    have hlen : (fixed ++ (OutgoingRTPPkt.csrcOctets q.csrcs ++ segment)).length = n := by
      rw [List.length_append, List.length_append, hfixed, OutgoingRTPPkt.length_fixedHeader,
        OutgoingRTPPkt.length_csrcOctets]
      omega
    simp only [hzero, ne_eq, not_false_eq_true, decide_true]
    rw [if_pos (by decide), RTPPacket.toNat_getPaddingSize
      (fixed ++ (OutgoingRTPPkt.csrcOctets q.csrcs ++ segment))
      (List.replicate (RTPPacket.srtpOctets pcc) 0) hbounds.1 hbounds.2]
    · rw [← BitVec.ofNat_add, BitVec.toNat_ofNat]
      omega
    · rw [RTPPacket.padding, if_neg hzero, ← hk]
      simp only [List.append_assoc]
    · rw [hlen, BitVec.toNat_ofNat]
      omega

end OutgoingDataQueue

/-! ## Runs -/

/-- The packets carry the indices from `i` on, modulo `2^48`, and each one uses the blocks
of its own index. -/
def CarryIndices (K : SessionKeys) (ssrc : BitVec 32) (i : ℕ) (sent : List SentPacket) : Prop :=
  ∀ n s, sent[n]? = some s →
    ∃ blocks, s.protection = some (BitVec.ofNat 64 ((i + n) % 2 ^ 48), blocks) ∧
      UsesBlocks K ssrc (BitVec.ofNat 64 ((i + n) % 2 ^ 48)) blocks

theorem CarryIndices.append {K : SessionKeys} {ssrc : BitVec 32} {i : ℕ}
    {sent sent' : List SentPacket} (h : CarryIndices K ssrc i sent)
    (h' : CarryIndices K ssrc (i + sent.length) sent') :
    CarryIndices K ssrc i (sent ++ sent') := by
  intro n s hs
  rcases Nat.lt_or_ge n sent.length with hlt | hge
  · rw [List.getElem?_append_left hlt] at hs
    exact h n s hs
  · rw [List.getElem?_append_right hge] at hs
    have hnext := h' (n - sent.length) s hs
    rw [show i + sent.length + (n - sent.length) = i + n by omega] at hnext
    exact hnext

namespace OutgoingDataQueue

/-- The queue's next packet gets the index `i`: there is a context for its SSRC with the
keys `K`, and the rollover counter and the next sequence number make up `i`. -/
def At (q : OutgoingDataQueue) (K : SessionKeys) (ssrc : BitVec 32) (i : ℕ) : Prop :=
  q.localSSRC = ssrc ∧ ∃ cc, q.getOutQueueCryptoContext ssrc = some cc ∧ cc.keys = K ∧
    cc.roc.toNat * 2 ^ 16 + q.sendSeq.toNat = i % 2 ^ 48

/-- **What is proved of every call and loop**: from index `i` on it produces packets with
successive indices, leaves the queue at the next index with the shape `shape`, and returns
if the keys are there. -/
structure Continues (K : SessionKeys) (ssrc : BitVec 32) (i : ℕ) (shape : PacketShape)
    (r : Option (List SentPacket × OutgoingDataQueue)) : Prop where
  isSome : K.Keyed → r.isSome = true
  spec : ∀ sent q, r = some (sent, q) →
    CarryIndices K ssrc i sent ∧ q.At K ssrc (i + sent.length) ∧ q.shape = shape

variable {P : Primitives} {K : SessionKeys} {ssrc : BitVec 32} {i : ℕ} {q : OutgoingDataQueue}

/-- Nothing produced, nothing changed. -/
theorem Continues.nil {shape : PacketShape} (hat : q.At K ssrc i) (hshape : q.shape = shape) :
    Continues K ssrc i shape (some ([], q)) := by
  refine ⟨fun _ => rfl, fun sent q' h => ?_⟩
  cases h
  refine ⟨fun n s hs => ?_, hat, hshape⟩
  cases hs

/-- **Composition**: one part after the other. -/
theorem Continues.bind {shape shape' : PacketShape}
    {r : Option (List SentPacket × OutgoingDataQueue)} (h : Continues K ssrc i shape r)
    {f : OutgoingDataQueue → Option (List SentPacket × OutgoingDataQueue)}
    (hf : ∀ q j, q.At K ssrc j → q.shape = shape → Continues K ssrc j shape' (f q)) :
    Continues K ssrc i shape'
      (r.bind (fun (l, q) => (f q).map (fun (l', q) => (l ++ l', q)))) := by
  constructor
  · intro hkeyed
    obtain ⟨⟨l, q⟩, hr⟩ := Option.isSome_iff_exists.mp (h.isSome hkeyed)
    obtain ⟨-, hat, hshape⟩ := h.spec l q hr
    rw [hr, Option.bind_some, Option.isSome_map]
    exact (hf q _ hat hshape).isSome hkeyed
  · intro sent q' hres
    obtain ⟨⟨l, q⟩, hr, hrest⟩ := Option.bind_eq_some_iff.mp hres
    obtain ⟨⟨l', q''⟩, hfq, heq⟩ := Option.map_eq_some_iff.mp hrest
    cases heq
    obtain ⟨hl, hat, hshape⟩ := h.spec l q hr
    obtain ⟨hl', hat', hshape'⟩ := (hf q _ hat hshape).spec l' q' hfq
    refine ⟨hl.append hl', ?_, hshape'⟩
    rw [List.length_append, ← Nat.add_assoc]
    exact hat'

/-- **One segment** sent with the context that the queue holds for its SSRC. -/
theorem sendSegment_continues (hcm : K.CounterMode) (hat : q.At K ssrc i) (stamp : BitVec 32)
    {segment : Octets} (hfits : q.shape.encryptedOctets segment.length < 2 ^ 20) (first : Bool) :
    Continues K ssrc i q.shape
      ((q.sendSegment P (q.getOutQueueCryptoContext q.localSSRC) stamp segment first).map
        (fun (s, q) => ([s], q))) := by
  obtain ⟨rfl, cc, hcc, rfl, hindex⟩ := hat
  have h15 := q.length_csrcs_le
  have htag := cc.tagLength_le
  have hsrtp : RTPPacket.srtpOctets (some cc) = cc.tagLength := rfl
  set packet := q.buildPacket (some cc) stamp segment first with hpacket
  have hseq : packet.cachedSeqNum = q.sendSeq := rfl
  have hshort : packet.encryptedSize.toNat < 2 ^ 20 := by
    rw [hpacket, q.toNat_encryptedSize_buildPacket _ stamp segment first (by rw [hsrtp]; omega)]
    exact hfits
  obtain ⟨hreturns, hspec⟩ := protect_counterMode (P := P) hcm hshort q.localSSRC
  rw [hcc, sendSegment]
  simp only [← hpacket]
  constructor
  · intro hkeyed
    rw [Option.isSome_map, Option.isSome_map]
    exact hreturns hkeyed
  · intro sent q' hres
    obtain ⟨⟨s, q₁⟩, h₁, heq⟩ := Option.map_eq_some_iff.mp hres
    obtain ⟨⟨p', cc', blocks⟩, hprot, heq'⟩ := Option.map_eq_some_iff.mp h₁
    cases heq
    cases heq'
    obtain ⟨hblocks, hcc'⟩ := hspec p' cc' blocks hprot
    rw [hseq] at hcc' hblocks ⊢
    have hjoin : joinIndex cc.roc q.sendSeq = BitVec.ofNat 64 (i % 2 ^ 48) := by
      apply BitVec.eq_of_toNat_eq
      rw [toNat_joinIndex, BitVec.toNat_ofNat, hindex]
      omega
    have hssrc : cc'.ssrcCtx = q.localSSRC := by
      rw [hcc', ← ssrcCtx_of_getOutQueueCryptoContext hcc]
      split_ifs <;> rfl
    have hkeys : cc'.keys = cc.keys := by
      rw [hcc']
      split_ifs <;> rfl
    have hroc : cc'.roc = if q.sendSeq = 0xFFFF then cc.roc + 1 else cc.roc := by
      rw [hcc']
      split_ifs <;> rfl
    rw [hjoin] at hblocks ⊢
    refine ⟨?_, ⟨rfl, cc', getOutQueueCryptoContext_storeContext hcc hssrc, hkeys, ?_⟩, rfl⟩
    · intro n s hs
      cases n with
      | zero =>
          cases hs
          exact ⟨blocks, rfl, hblocks⟩
      | succ n => cases hs
    · rw [hroc]
      exact succ_roc_seq hindex

/-- With a context in the registry, `putData` does not touch the template. -/
theorem ensureContext_of_at (hat : q.At K ssrc i) : q.ensureContext P = some q := by
  obtain ⟨rfl, cc, hcc, -, -⟩ := hat
  rw [ensureContext, hcc]

/-- The body of `putData`. -/
theorem putSegment_continues (hcm : K.CounterMode) (hat : q.At K ssrc i) (stamp : BitVec 32)
    {segment : Octets} (hfits : q.shape.encryptedOctets segment.length < 2 ^ 20) (first : Bool) :
    Continues K ssrc i q.shape
      ((q.putSegment P stamp segment first).map (fun (s, q) => ([s], q))) := by
  have hsend := sendSegment_continues (P := P) hcm hat stamp hfits first
  rw [putSegment, ensureContext_of_at hat, Option.bind_some]
  constructor
  · intro hkeyed
    have hsome := hsend.isSome hkeyed
    rw [Option.isSome_map] at hsome ⊢
    rw [Option.isSome_map]
    exact hsome
  · intro sent q' hres
    obtain ⟨⟨s, q₁⟩, h₁, heq⟩ := Option.map_eq_some_iff.mp hres
    obtain ⟨⟨s', q₂⟩, h₂, heq'⟩ := Option.map_eq_some_iff.mp h₁
    cases heq
    cases heq'
    -- the sending queue is not looked at by anything else
    exact hsend.spec [_] q₂ (by rw [h₂]; rfl)

/-- **The loop over the segments**, for a body that sends one. -/
theorem segmentLoop_continues
    {body : OutgoingDataQueue → Octets → Bool → Option (SentPacket × OutgoingDataQueue)}
    (hbody : ∀ q i segment first, q.At K ssrc i →
      q.shape.encryptedOctets segment.length < 2 ^ 20 →
      Continues K ssrc i q.shape ((body q segment first).map (fun (s, q) => ([s], q))))
    (rounds : ℕ) :
    ∀ {data : Octets} {first : Bool} {q : OutgoingDataQueue} {i : ℕ}, data.length ≤ rounds →
      q.At K ssrc i → q.shape.FitsData data.length →
      Continues K ssrc i q.shape (segmentLoop body rounds data first q) := by
  induction rounds with
  | zero =>
      intro data first q i hle hat _
      rw [List.eq_nil_of_length_eq_zero (Nat.le_zero.mp hle), segmentLoop]
      exact Continues.nil hat rfl
  | succ rounds ih =>
      intro data first q i hle hat hfits
      cases hdata : data with
      | nil =>
          rw [segmentLoop]
          exact Continues.nil hat rfl
      | cons x rest =>
          rw [← hdata]
          have hpos : 0 < data.length := by rw [hdata]; exact Nat.zero_lt_succ _
          obtain ⟨hseg, hstep, hrest⟩ := hfits.segment hpos
          have hmin : (if data.length > q.maxSendSegmentSize then q.maxSendSegmentSize
              else data.length) = min data.length q.shape.maxSendSegmentSize := by
            show _ = min data.length q.maxSendSegmentSize
            split_ifs <;> omega
          have hloop : segmentLoop body (rounds + 1) data first q
              = ((body q (data.take (min data.length q.shape.maxSendSegmentSize)) first).map
                  (fun (s, q) => ([s], q))).bind (fun (l, q') =>
                    (segmentLoop body rounds
                      (data.drop (min data.length q.shape.maxSendSegmentSize)) false q').map
                        (fun (l', q'') => (l ++ l', q''))) := by
            rw [← hmin, hdata, segmentLoop]
            · cases body q _ first <;> rfl
            · intro hnil
              cases hnil
          rw [hloop]
          refine Continues.bind (hbody q i _ first hat ?_) ?_
          · rw [List.length_take, Nat.min_eq_left (Nat.min_le_left _ _)]
            exact hseg
          · intro q' j hat' hshape'
            have hnext : Continues K ssrc j q'.shape (segmentLoop body rounds
                (data.drop (min data.length q.shape.maxSendSegmentSize)) false q') :=
              ih (by rw [List.length_drop]; omega) hat'
                (by rw [List.length_drop, hshape']; exact hrest)
            rw [hshape'] at hnext
            exact hnext

/-- **One call.** -/
theorem perform_continues (hcm : K.CounterMode) (hat : q.At K ssrc i) {call : SendCall}
    (hfits : q.shape.Fits call) :
    Continues K ssrc i (q.shape.after call) (q.perform P call) := by
  cases call with
  | putData stamp data =>
      exact segmentLoop_continues
        (fun q i segment first hat hseg => putSegment_continues hcm hat stamp hseg first)
        data.length le_rfl hat hfits
  | sendImmediate stamp data =>
      exact segmentLoop_continues
        (fun q i segment first hat hseg => sendSegment_continues hcm hat stamp hseg first)
        data.length le_rfl hat hfits
  | setMark mark => exact Continues.nil hat rfl
  | setPadding paddinglen => exact Continues.nil hat rfl
  | setMaxSendSegmentSize size => exact Continues.nil hat rfl
  | setPayloadType pt => exact Continues.nil hat rfl

/-- **A whole run of calls.** -/
theorem performAll_continues (hcm : K.CounterMode) (calls : List SendCall) :
    ∀ {q : OutgoingDataQueue} {i : ℕ}, q.At K ssrc i →
      AlongRun PacketShape.after PacketShape.Fits q.shape calls →
      Continues K ssrc i (calls.foldl PacketShape.after q.shape) (q.performAll P calls) := by
  induction calls with
  | nil =>
      intro q i hat _
      exact Continues.nil hat rfl
  | cons call calls ih =>
      intro q i hat hfits
      rw [performAll]
      refine Continues.bind (f := fun q => q.performAll P calls)
        (perform_continues hcm hat hfits.1) ?_
      intro q' j hat' hshape'
      rw [List.foldl_cons, ← hshape']
      exact ih hat' (hshape' ▸ hfits.2)

end OutgoingDataQueue
