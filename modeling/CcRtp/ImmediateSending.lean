/-
# Immediate and queued sending

`sendImmediate` and `putData` of `OutgoingDataQueue` are copies of each other, except that
`putData` makes a crypto context from the template registered under SSRC 0 when there is none
for the local SSRC.

* `putLoop_eq` : as long as `putData` has no use for a template, it puts into the queue what
  `sendImmediate` would send;
* `sending_ne_of_needsTemplate` : otherwise it leaves one more context in the registry;
* `immediate_sending_agrees_iff` : so the two agree exactly if no template is needed.
-/
import CcRtp.OutgoingQueue

namespace OutgoingDataQueue

variable {P : Primitives} {q q' : OutgoingDataQueue} {stamp : BitVec 32}

/-- What a call sends, octet for octet with the SRTP trailers, and what it leaves: sequence
number, marker and contexts. -/
def sending (r : List SentPacket × OutgoingDataQueue) :
    List Octets × BitVec 16 × Bool × List CryptoContext :=
  (r.1.map (fun s => s.packet.rawPacketSrtp), r.2.sendSeq, r.2.marked, r.2.cryptoContexts)

/-- There is a context for the local SSRC, or no template to make one from. -/
def NeedsNoTemplate (q : OutgoingDataQueue) : Prop :=
  (q.getOutQueueCryptoContext q.localSSRC).isSome = true ∨ q.getOutQueueCryptoContext 0 = none

instance (q : OutgoingDataQueue) : Decidable q.NeedsNoTemplate :=
  inferInstanceAs (Decidable (_ ∨ _))

theorem ensureContext_of_needsNoTemplate (h : q.NeedsNoTemplate) : q.ensureContext P = some q := by
  rw [ensureContext]
  cases hlocal : q.getOutQueueCryptoContext q.localSSRC with
  | some cc => rfl
  | none =>
      rcases h with h | h
      · rw [hlocal] at h
        cases h
      · rw [h]

/-- The queue with other packets waiting. -/
def withQueue (q : OutgoingDataQueue) (l : List OutgoingRTPPkt) : OutgoingDataQueue :=
  { q with sendQueue := l }

/-- Nothing but `putData` looks at the packets waiting. -/
theorem sendSegment_withQueue (q : OutgoingDataQueue) (l : List OutgoingRTPPkt)
    (pcc : Option CryptoContext) (segment : Octets) (first : Bool) :
    (q.withQueue l).sendSegment P pcc stamp segment first
      = (q.sendSegment P pcc stamp segment first).map (fun r => (r.1, r.2.withQueue l)) := by
  cases pcc with
  | none => rfl
  | some cc =>
      rw [sendSegment, sendSegment]
      dsimp only
      rw [Option.map_map]
      rfl

/-- What `protect` does to a context leaves its SSRC. -/
theorem ssrcCtx_of_protect {p p' : OutgoingRTPPkt} {ssrc : BitVec 32} {cc cc' : CryptoContext}
    {blocks : List Block} (h : p.protect P ssrc cc = some (p', cc', blocks)) :
    cc'.ssrcCtx = cc.ssrcCtx := by
  rw [OutgoingRTPPkt.protect] at h
  obtain ⟨⟨p₁, blocks₁⟩, -, h₂⟩ := Option.bind_eq_some_iff.mp h
  obtain ⟨tag, -, hres⟩ := Option.map_eq_some_iff.mp h₂
  cases hres
  split_ifs <;> rfl

/-- What one segment leaves of the registry: a context may be replaced by itself in another
state. -/
theorem sendSegment_spec {segment : Octets} {first : Bool} {s : SentPacket}
    (h : q.sendSegment P (q.getOutQueueCryptoContext q.localSSRC) stamp segment first
      = some (s, q')) :
    q'.localSSRC = q.localSSRC ∧ q'.maxSendSegmentSize = q.maxSendSegmentSize ∧
      q'.cryptoContexts.length = q.cryptoContexts.length ∧
      (q.NeedsNoTemplate → q'.NeedsNoTemplate) := by
  cases hlocal : q.getOutQueueCryptoContext q.localSSRC with
  | none =>
      rw [hlocal, sendSegment] at h
      obtain ⟨-, rfl⟩ := Prod.mk.inj (Option.some.inj h)
      exact ⟨rfl, rfl, rfl, id⟩
  | some cc =>
      rw [hlocal, sendSegment] at h
      obtain ⟨⟨p', cc', blocks⟩, hprot, heq⟩ := Option.map_eq_some_iff.mp h
      cases heq
      refine ⟨rfl, rfl, List.length_set, fun _ => Or.inl ?_⟩
      have hssrc : cc'.ssrcCtx = q.localSSRC :=
        (ssrcCtx_of_protect hprot).trans (ssrcCtx_of_getOutQueueCryptoContext hlocal)
      have hfound := getOutQueueCryptoContext_storeContext hlocal hssrc
      exact Option.isSome_iff_exists.mpr ⟨cc', hfound⟩

/-- One segment. -/
theorem putSegment_eq (h : q.NeedsNoTemplate) (l : List OutgoingRTPPkt) (segment : Octets)
    (first : Bool) :
    (q.withQueue l).putSegment P stamp segment first
      = (q.immediateSegment P stamp segment first).map (fun r =>
          (r.1, r.2.withQueue (l ++ [r.1.packet]))) := by
  have hneeds : (q.withQueue l).NeedsNoTemplate := h
  rw [putSegment, ensureContext_of_needsNoTemplate hneeds, Option.bind_some, sendSegment_withQueue,
    Option.map_map]
  rfl

/-- The size of the next segment. -/
def step (q : OutgoingDataQueue) (data : Octets) : ℕ :=
  if data.length > q.maxSendSegmentSize then q.maxSendSegmentSize else data.length

/-- A round of the loop over the segments. -/
theorem segmentLoop_succ
    (body : OutgoingDataQueue → Octets → Bool → Option (SentPacket × OutgoingDataQueue))
    {data : Octets} (hdata : data ≠ []) (rounds : ℕ) (first : Bool) (q : OutgoingDataQueue) :
    segmentLoop body (rounds + 1) data first q
      = (body q (data.take (q.step data)) first).bind (fun r =>
          (segmentLoop body rounds (data.drop (q.step data)) false r.2).map (fun r' =>
            (r.1 :: r'.1, r'.2))) := by
  cases data with
  | nil => exact absurd rfl hdata
  | cons x data => rfl

/-- **The loop of `putData` and that of `sendImmediate`** make the same packets if no template
is needed. -/
theorem putLoop_eq (stamp : BitVec 32) (rounds : ℕ) :
    ∀ (data : Octets) (first : Bool) (q : OutgoingDataQueue) (l : List OutgoingRTPPkt),
      q.NeedsNoTemplate →
      segmentLoop (fun q => q.putSegment P stamp) rounds data first (q.withQueue l)
        = (segmentLoop (fun q => q.immediateSegment P stamp) rounds data first q).map (fun r =>
            (r.1, r.2.withQueue (l ++ r.1.map SentPacket.packet))) := by
  induction rounds with
  | zero =>
      intro data first q l h
      cases data with
      | nil => rw [segmentLoop, segmentLoop, Option.map_some, List.map_nil, List.append_nil]
      | cons x data => rfl
  | succ rounds ih =>
      intro data first q l h
      by_cases hdata : data = []
      · rw [hdata, segmentLoop, segmentLoop, Option.map_some, List.map_nil, List.append_nil]
      · rw [segmentLoop_succ _ hdata, segmentLoop_succ _ hdata]
        have hstep : (q.withQueue l).step data = q.step data := rfl
        rw [hstep, putSegment_eq h]
        cases hseg : q.immediateSegment P stamp (data.take (q.step data)) first with
        | none => rfl
        | some r =>
            obtain ⟨-, -, -, hkeep⟩ := sendSegment_spec hseg
            simp only [Option.map_some, Option.bind_some]
            rw [ih _ false r.2 _ (hkeep h), Option.map_map, Option.map_map]
            congr 1
            funext r'
            simp only [Function.comp_apply, List.map_cons, List.append_assoc, List.singleton_append]

/-- Without a template needed `putData` puts into the queue what `sendImmediate` sends. -/
theorem putData_of_needsNoTemplate (h : q.NeedsNoTemplate) (stamp : BitVec 32) (data : Octets) :
    q.putData P stamp data = (q.sendImmediate P stamp data).map (fun r =>
      (r.1, r.2.withQueue (q.sendQueue ++ r.1.map SentPacket.packet))) :=
  putLoop_eq stamp data.length data true q q.sendQueue h

/-! ## With a template -/

/-- The context made from a template is one more in the registry. -/
theorem ensureContext_of_needsTemplate (h : ¬ q.NeedsNoTemplate)
    (hq : q.ensureContext P = some q') :
    q'.NeedsNoTemplate ∧ q'.cryptoContexts.length = q.cryptoContexts.length + 1 := by
  rw [NeedsNoTemplate, not_or, Bool.not_eq_true, Option.isSome_eq_false_iff,
    Option.isNone_iff_eq_none] at h
  obtain ⟨hlocal, htemplate⟩ := h
  obtain ⟨template, htemplate⟩ := Option.ne_none_iff_exists'.mp htemplate
  rw [ensureContext, hlocal, htemplate] at hq
  obtain ⟨cc, hcc, rfl⟩ := Option.map_eq_some_iff.mp hq
  have hssrc : cc.ssrcCtx = q.localSSRC := by
    obtain ⟨m, -, rfl⟩ := Option.map_eq_some_iff.mp hcc
    rfl
  have hnone : ∀ c ∈ q.cryptoContexts, ¬ decide (c.ssrcCtx = cc.ssrcCtx) = true := by
    intro c hc
    rw [hssrc]
    exact List.find?_eq_none.mp hlocal c hc
  have hregistry : (q.setOutQueueCryptoContext cc).cryptoContexts = q.cryptoContexts ++ [cc] := by
    rw [setOutQueueCryptoContext, List.eraseP_of_forall_not hnone]
  constructor
  · refine Or.inl ?_
    show ((q.setOutQueueCryptoContext cc).cryptoContexts.find? _).isSome = true
    rw [hregistry, List.find?_isSome]
    exact ⟨cc, List.mem_append_right _ List.mem_cons_self, decide_eq_true hssrc⟩
  · rw [hregistry, List.length_append, List.length_singleton]

theorem maxSendSegmentSize_of_ensureContext (h : q.ensureContext P = some q') :
    q'.maxSendSegmentSize = q.maxSendSegmentSize := by
  rw [ensureContext] at h
  cases hlocal : q.getOutQueueCryptoContext q.localSSRC with
  | some cc =>
      rw [hlocal] at h
      cases h
      rfl
  | none =>
      cases htemplate : q.getOutQueueCryptoContext 0 with
      | none =>
          rw [hlocal, htemplate] at h
          cases h
          rfl
      | some template =>
          rw [hlocal, htemplate] at h
          obtain ⟨cc, -, rfl⟩ := Option.map_eq_some_iff.mp h
          rfl

/-- With a template needed, `putData` makes the context first and then goes on as without. -/
theorem putData_of_needsTemplate (h : ¬ q.NeedsNoTemplate) (stamp : BitVec 32) {data : Octets}
    (hdata : data ≠ []) :
    q.putData P stamp data = (q.ensureContext P).bind (fun q => q.putData P stamp data) := by
  obtain ⟨n, hn⟩ := Nat.exists_eq_succ_of_ne_zero (fun h => hdata (List.eq_nil_of_length_eq_zero h))
  rw [putData, hn, segmentLoop_succ _ hdata, putSegment]
  cases hensure : q.ensureContext P with
  | none => rfl
  | some q₁ =>
      obtain ⟨hneeds, -⟩ := ensureContext_of_needsTemplate h hensure
      have hsize : q₁.step data = q.step data := by
        rw [step, step, maxSendSegmentSize_of_ensureContext hensure]
      rw [Option.bind_some, Option.bind_some, putData, hn, segmentLoop_succ _ hdata, putSegment,
        ensureContext_of_needsNoTemplate hneeds, Option.bind_some, hsize]

/-- The loop of `sendImmediate` leaves as many contexts as there are. -/
theorem length_immediateLoop (stamp : BitVec 32) (rounds : ℕ) :
    ∀ (data : Octets) (first : Bool) (q : OutgoingDataQueue)
    (r : List SentPacket × OutgoingDataQueue),
      segmentLoop (fun q => q.immediateSegment P stamp) rounds data first q = some r →
      r.2.cryptoContexts.length = q.cryptoContexts.length := by
  induction rounds with
  | zero =>
      intro data first q r h
      cases data with
      | nil =>
          cases h
          rfl
      | cons x data => cases h
  | succ rounds ih =>
      intro data first q r h
      by_cases hdata : data = []
      · rw [hdata, segmentLoop] at h
        cases h
        rfl
      · rw [segmentLoop_succ _ hdata] at h
        obtain ⟨⟨s, q'⟩, hseg, hrest⟩ := Option.bind_eq_some_iff.mp h
        obtain ⟨r', hr', rfl⟩ := Option.map_eq_some_iff.mp hrest
        obtain ⟨-, -, hlen, -⟩ := sendSegment_spec hseg
        exact (ih _ _ _ _ hr').trans hlen

/-- Without a context nothing can fail in the loop of `sendImmediate`. -/
theorem immediateLoop_isSome (stamp : BitVec 32) (rounds : ℕ) :
    ∀ (data : Octets) (first : Bool) (q : OutgoingDataQueue),
      1 ≤ q.maxSendSegmentSize → q.getOutQueueCryptoContext q.localSSRC = none →
      data.length ≤ rounds →
      (segmentLoop (fun q => q.immediateSegment P stamp) rounds data first q).isSome = true := by
  induction rounds with
  | zero =>
      intro data first q _ _ hle
      rw [List.eq_nil_of_length_eq_zero (Nat.le_zero.mp hle)]
      rfl
  | succ rounds ih =>
      intro data first q hpos hnone hle
      by_cases hdata : data = []
      · rw [hdata]
        rfl
      · have hlen : 0 < data.length := List.length_pos_iff.mpr hdata
        have hstep : 1 ≤ q.step data := by
          rw [step]
          split_ifs
          · exact hpos
          · exact hlen
        rw [segmentLoop_succ _ hdata, immediateSegment, hnone, sendSegment]
        rw [Option.bind_some, Option.isSome_map]
        refine ih _ _ _ hpos hnone ?_
        rw [List.length_drop]
        omega

/-- **With a template needed the two differ**: not even the contexts are as many. -/
theorem sending_ne_of_needsTemplate (hsize : 1 ≤ q.maxSendSegmentSize)
    (hneeds : ¬ q.NeedsNoTemplate)
    (stamp : BitVec 32) {data : Octets} (hdata : data ≠ []) :
    (q.sendImmediate P stamp data).map sending ≠ (q.putData P stamp data).map sending := by
  intro heq
  have hnone : q.getOutQueueCryptoContext q.localSSRC = none := by
    rw [← Option.not_isSome_iff_eq_none]
    exact fun hsome => hneeds (Or.inl hsome)
  obtain ⟨r, hr⟩ := Option.isSome_iff_exists.mp (immediateLoop_isSome (P := P) stamp data.length
    data true q hsize hnone le_rfl)
  have hsent : q.sendImmediate P stamp data = some r := hr
  rw [hsent, putData_of_needsTemplate hneeds stamp hdata] at heq
  obtain ⟨r', hr', heq'⟩ := Option.map_eq_some_iff.mp heq.symm
  obtain ⟨q₁, hensure, hput⟩ := Option.bind_eq_some_iff.mp hr'
  obtain ⟨hneeds₁, hlen₁⟩ := ensureContext_of_needsTemplate hneeds hensure
  rw [putData_of_needsNoTemplate hneeds₁] at hput
  obtain ⟨r₁, hr₁, rfl⟩ := Option.map_eq_some_iff.mp hput
  have hcontexts := congrArg (fun x => x.2.2.2.length) heq'
  have hlen := length_immediateLoop stamp data.length data true q r hr
  have hlen' := length_immediateLoop stamp data.length data true q₁ r₁ hr₁
  simp only [sending, withQueue] at hcontexts
  omega

end OutgoingDataQueue

open OutgoingDataQueue

/-- **Immediate and queued sending agree exactly if no template is needed.**  For every state
of the queue with a segment size of one at least and every stamp and data, `sendImmediate`
sends octet for octet the packets that `putData` would put into the queue, and both leave the
same sequence number, marker and crypto contexts, if and only if there are no data, there is a
context for the local SSRC, or there is none for SSRC 0. -/
theorem immediate_sending_agrees_iff (P : Primitives) {q : OutgoingDataQueue}
    (hsize : 1 ≤ q.maxSendSegmentSize) (stamp : BitVec 32) (data : Octets) :
    (q.sendImmediate P stamp data).map sending = (q.putData P stamp data).map sending ↔
      data = [] ∨ (q.getOutQueueCryptoContext q.localSSRC).isSome = true ∨
        q.getOutQueueCryptoContext 0 = none := by
  by_cases hneeds : q.NeedsNoTemplate
  · refine iff_of_true ?_ (Or.inr hneeds)
    rw [putData_of_needsNoTemplate hneeds, Option.map_map]
    rfl
  · by_cases hdata : data = []
    · refine iff_of_true ?_ (Or.inl hdata)
      rw [hdata]
      rfl
    · exact iff_of_false (sending_ne_of_needsTemplate hsize hneeds stamp hdata)
        (not_or.mpr ⟨hdata, hneeds⟩)

/-- A queue with one context in its registry. -/
def OutgoingDataQueue.withContext (cc : CryptoContext) : OutgoingDataQueue where
  localSSRC := 0x1122
  sendSeq := 7
  sendSources := fun _ => 0
  sendCC := 0
  paddinglen := 0
  marked := false
  payloadType := 0
  initialTimestamp := 0
  maxSendSegmentSize := 4
  cryptoContexts := [cc]
  sendQueue := []

/-- The theorem at a queue with a context for the local SSRC. -/
theorem immediate_sending_agrees_keyed :
    ((withContext (CryptoContext.aesCmSha1 0x1122 0).keyed).sendImmediate .additive 160
        [1, 2, 3, 4, 5]).map sending
      = ((withContext (CryptoContext.aesCmSha1 0x1122 0).keyed).putData .additive 160
        [1, 2, 3, 4, 5]).map sending :=
  (immediate_sending_agrees_iff .additive (by decide) 160 [1, 2, 3, 4, 5]).mpr (Or.inr (Or.inl rfl))

/-- With only the template of SSRC 0, `putData` makes packets with a tag of ten octets, and
`sendImmediate` sends them without. -/
theorem immediate_sending_unprotected :
    ((withContext (CryptoContext.aesCmSha1 0 0)).putData .additive 160 [1, 2, 3, 4, 5]).map
        (fun r => r.1.map (fun s => s.packet.rawPacketSrtp.length)) = some [26, 23] ∧
      ((withContext (CryptoContext.aesCmSha1 0 0)).sendImmediate .additive 160 [1, 2, 3, 4, 5]).map
        (fun r => r.1.map (fun s => s.packet.rawPacketSrtp.length)) = some [16, 13] ∧
      ((withContext (CryptoContext.aesCmSha1 0 0)).sendImmediate .additive 160
          [1, 2, 3, 4, 5]).map sending
        ≠ ((withContext (CryptoContext.aesCmSha1 0 0)).putData .additive 160
          [1, 2, 3, 4, 5]).map sending := by
  refine ⟨by decide, by decide, ?_⟩
  exact sending_ne_of_needsTemplate (by decide) (by decide) 160 (by decide)
