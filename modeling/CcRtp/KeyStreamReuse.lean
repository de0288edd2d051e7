/-
# No key stream is used twice by a sender

The counter-mode blocks of an SRTP sender are determined by the session salt, the SSRC, the
packet index and the block counter.  Octets 8 to 13 of a block hold the index XORed with
the salt and the last two the counter, so blocks of different packets differ as long as the
indices do.

* `cmIv_index_inj` : a block tells the index it was made for;
* `no_keystream_reuse` : along every run of an outgoing queue with fewer than `2^48`
  packets the indices are successive and all blocks are pairwise distinct.
-/
import CcRtp.OutgoingQueue

namespace CryptoContext

/-- The octets of the initial vector that hold the index. -/
theorem cmIv_index (kS : Octets) (ssrc : BitVec 32) (index : BitVec 64) (d : ℕ) (hd : d < 6) :
    cmIv kS ssrc index ⟨13 - d, by omega⟩
      = UInt8.ofNat (index.toNat / 256 ^ d) ^^^ kS.getD (13 - d) 0 := by
  unfold cmIv
  simp only
  rw [if_neg (by omega), if_neg (by omega), if_pos (by omega),
    show 13 - (13 - d) = d by omega, ofNat_ushiftRight, octetAt]

/-- **A block tells the index it was made for.** -/
theorem cmIv_index_inj {kS : Octets} {ssrc : BitVec 32} {i i' : ℕ} (hi : i < 2 ^ 48)
    (hi' : i' < 2 ^ 48) {c c' : BitVec 16}
    (h : setCounter (cmIv kS ssrc (BitVec.ofNat 64 i)) c
      = setCounter (cmIv kS ssrc (BitVec.ofNat 64 i')) c') : i = i' := by
  have hwide : i % 2 ^ 64 = i := Nat.mod_eq_of_lt (by omega)
  have hwide' : i' % 2 ^ 64 = i' := Nat.mod_eq_of_lt (by omega)
  have hoctet : ∀ d, d < 6 → i / 256 ^ d % 256 = i' / 256 ^ d % 256 := by
    intro d hd
    have hb := congrFun h ⟨13 - d, by omega⟩
    rw [setCounter_of_lt _ _ _ (by show 13 - d < 14; omega),
      setCounter_of_lt _ _ _ (by show 13 - d < 14; omega), cmIv_index _ _ _ d hd,
      cmIv_index _ _ _ d hd, UInt8.xor_left_inj] at hb
    have hn := congrArg UInt8.toNat hb
    rw [UInt8.toNat_ofNat', UInt8.toNat_ofNat', BitVec.toNat_ofNat, BitVec.toNat_ofNat, hwide,
      hwide'] at hn
    exact hn
  have h0 := hoctet 0 (by omega)
  have h1 := hoctet 1 (by omega)
  have h2 := hoctet 2 (by omega)
  have h3 := hoctet 3 (by omega)
  have h4 := hoctet 4 (by omega)
  have h5 := hoctet 5 (by omega)
  omega

end CryptoContext

open CryptoContext

/-- Under one index no block is used twice. -/
theorem UsesBlocks.nodup {K : SessionKeys} {ssrc : BitVec 32} {index : BitVec 64}
    {blocks : List Block} (h : UsesBlocks K ssrc index blocks) : blocks.Nodup := by
  rcases h with rfl | ⟨n, hn, rfl⟩
  · exact List.nodup_nil
  · exact ctrBlocks_nodup _ hn

/-- A block that is used is the initial vector of the index with some counter. -/
theorem UsesBlocks.exists_counter {K : SessionKeys} {ssrc : BitVec 32} {index : BitVec 64}
    {blocks : List Block} (h : UsesBlocks K ssrc index blocks) {b : Block} (hb : b ∈ blocks) :
    ∃ c, b = setCounter (cmIv K.kS ssrc index) c := by
  rcases h with rfl | ⟨n, -, rfl⟩
  · cases hb
  · rw [ctrBlocks, counterBlocks, List.mem_map] at hb
    obtain ⟨c, -, rfl⟩ := hb
    exact ⟨_, rfl⟩

/-- Under different indices no block is used by both. -/
theorem UsesBlocks.disjoint {K : SessionKeys} {ssrc : BitVec 32} {i i' : ℕ} (hi : i < 2 ^ 48)
    (hi' : i' < 2 ^ 48) (hne : i ≠ i') {blocks blocks' : List Block}
    (h : UsesBlocks K ssrc (BitVec.ofNat 64 i) blocks)
    (h' : UsesBlocks K ssrc (BitVec.ofNat 64 i') blocks') : List.Disjoint blocks blocks' := by
  intro b hb hb'
  obtain ⟨c, hc⟩ := h.exists_counter hb
  obtain ⟨c', hc'⟩ := h'.exists_counter hb'
  exact hne (cmIv_index_inj hi hi' (hc.symm.trans hc'))

/-- **Successive indices, distinct blocks.** -/
theorem CarryIndices.nodup {K : SessionKeys} {ssrc : BitVec 32} {i : ℕ} {sent : List SentPacket}
    (h : CarryIndices K ssrc i sent) (hlen : sent.length < 2 ^ 48) :
    (sent.flatMap SentPacket.blocks).Nodup := by
  have huses : ∀ n (hn : n < sent.length),
      UsesBlocks K ssrc (BitVec.ofNat 64 ((i + n) % 2 ^ 48)) sent[n].blocks := by
    intro n hn
    obtain ⟨blocks, hprot, hblocks⟩ := h n sent[n] (List.getElem?_eq_getElem hn)
    rw [SentPacket.blocks, hprot]
    exact hblocks
  rw [List.nodup_flatMap]
  constructor
  · intro s hs
    obtain ⟨n, hn, rfl⟩ := List.getElem_of_mem hs
    exact (huses n hn).nodup
  · rw [List.pairwise_iff_getElem]
    intro n m hn hm hlt
    -- fewer than `2^48` packets: the two indices differ modulo `2^48`
    have hne : (i + n) % 2 ^ 48 ≠ (i + m) % 2 ^ 48 := by omega
    exact UsesBlocks.disjoint (Nat.mod_lt _ (by decide)) (Nat.mod_lt _ (by decide)) hne
      (huses n hn) (huses m hm)

/-- **No key stream reuse.**  An outgoing queue has a counter-mode context registered for
its SSRC.  For every run of `putData` and `sendImmediate` calls, with changes of marker,
padding, segment size and payload type between them, in which the packets have less than
`2^20` octets of payload and padding: with session keys in place the run returns; and if it
produces fewer than `2^48` packets, the `n`-th one is protected under the initial index
plus `n` modulo `2^48`, and all blocks handed to the block cipher are pairwise distinct. -/
theorem no_keystream_reuse (P : Primitives) {q : OutgoingDataQueue} {cc : CryptoContext}
    (hcc : q.getOutQueueCryptoContext q.localSSRC = some cc) (hcm : cc.keys.CounterMode)
    (calls : List SendCall)
    (hfits : AlongRun PacketShape.after PacketShape.Fits q.shape calls) :
    (cc.keys.Keyed → (q.performAll P calls).isSome = true) ∧
      ∀ sent q', q.performAll P calls = some (sent, q') → sent.length < 2 ^ 48 →
        (∀ n s, sent[n]? = some s → ∃ blocks, s.protection
          = some (BitVec.ofNat 64
              ((cc.roc.toNat * 2 ^ 16 + q.sendSeq.toNat + n) % 2 ^ 48), blocks)) ∧
        (sent.flatMap SentPacket.blocks).Nodup := by
  have hroc := cc.roc.isLt
  have hseq := q.sendSeq.isLt
  have hat : q.At cc.keys q.localSSRC (cc.roc.toNat * 2 ^ 16 + q.sendSeq.toNat) := by
    refine ⟨rfl, cc, hcc, rfl, ?_⟩
    rw [Nat.mod_eq_of_lt (by omega)]
  have hrun := OutgoingDataQueue.performAll_continues (P := P) hcm calls hat hfits
  refine ⟨hrun.isSome, fun sent q' hres hlen => ?_⟩
  obtain ⟨hcarry, -, -⟩ := hrun.spec sent q' hres
  refine ⟨fun n s hs => ?_, hcarry.nodup hlen⟩
  obtain ⟨blocks, hprot, -⟩ := hcarry n s hs
  exact ⟨blocks, hprot⟩

/-- A queue right before a sequence-number wrap, for concrete runs: segments of four
octets, and a keyed AES counter-mode context. -/
def OutgoingDataQueue.sample : OutgoingDataQueue where
  localSSRC := 0x1122
  sendSeq := 65535
  sendSources := fun _ => 0
  sendCC := 0
  paddinglen := 0
  marked := true
  payloadType := 0
  initialTimestamp := 0
  maxSendSegmentSize := 4
  cryptoContexts := [(CryptoContext.aesCmSha1 0x1122 0).keyed]
  sendQueue := []

/-- The theorem at a run over the wrap, with a change of the padding between the calls. -/
theorem no_keystream_reuse_wrap :
    (OutgoingDataQueue.sample.performAll .additive
        [.putData 0 [1, 2, 3, 4, 5, 6], .setPadding 8, .sendImmediate 160 [7]]).isSome = true ∧
      ∀ sent q', OutgoingDataQueue.sample.performAll .additive
          [.putData 0 [1, 2, 3, 4, 5, 6], .setPadding 8, .sendImmediate 160 [7]]
          = some (sent, q') →
        sent.length < 2 ^ 48 → (sent.flatMap SentPacket.blocks).Nodup := by
  obtain ⟨hreturns, hruns⟩ := no_keystream_reuse .additive
    (show OutgoingDataQueue.sample.getOutQueueCryptoContext 0x1122 = some _ from rfl) (Or.inl rfl)
    [.putData 0 [1, 2, 3, 4, 5, 6], .setPadding 8, .sendImmediate 160 [7]] (by decide)
  exact ⟨hreturns (by decide), fun sent q' hres hlen => (hruns sent q' hres hlen).2⟩
