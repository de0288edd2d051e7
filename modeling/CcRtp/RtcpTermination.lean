/-
# When RTCP reception ends

The loops of `takeInControlPacket` over reports and over SDES and APP packets go on to the
next packet in every round.  The loop over BYE packets goes on only inside `getBYE`, and only
if the packet has a block count; and `getBYE` is not called if `checkSSRCInRTCPPkt` says that
a collision repeats.

* `Repeats` : the check would fail; nothing that reception does changes that;
* `passPackets` : the offset behind packets of given types;
* `takeInControlPacket_ends_iff` : reception ends unless the first packet behind the reports and
  descriptions is a BYE packet without blocks or in a repeating collision.
-/
import CcRtp.RtcpReception

namespace QueueRTCPManager

open RTCPPacket

variable {m m' m'' : QueueRTCPManager} {na : InetAddress} {tp : BitVec 16} {src ssrc : BitVec 32}

/-! ## Repeating collisions -/

/-- The packets of the source come from another address than before, and not for the first
time: `checkSSRCInRTCPPkt` fails. -/
def Repeats (m : QueueRTCPManager) (na : InetAddress) (tp : BitVec 16) (ssrc : BitVec 32) : Prop :=
  ((m.source ssrc).controlTransportPort ≠ tp ∨ (m.source ssrc).networkAddress ≠ na) ∧
    if ssrc = m.localSSRC then (m.searchControlConflict na tp).isSome = true
    else (m.source ssrc).prevConflict.any (isControlAddress na tp) = true

instance : Decidable (m.Repeats na tp ssrc) := inferInstanceAs (Decidable (_ ∧ _))

/-- The same sources are in a repeating collision. -/
def SameCollisions (na : InetAddress) (tp : BitVec 16) (m m' : QueueRTCPManager) : Prop :=
  ∀ ssrc, m'.Repeats na tp ssrc ↔ m.Repeats na tp ssrc

theorem SameCollisions.refl (m : QueueRTCPManager) : SameCollisions na tp m m := fun _ => Iff.rfl

theorem SameCollisions.trans (h₁ : SameCollisions na tp m m') (h₂ : SameCollisions na tp m' m'') :
    SameCollisions na tp m m'' := fun ssrc => (h₂ ssrc).trans (h₁ ssrc)

/-- What the check looks at in a source. -/
def addresses (s : ControlSource) :
    InetAddress × BitVec 16 × Option ConflictingTransportAddress :=
  (s.networkAddress, s.controlTransportPort, s.prevConflict)

/-- What the check looks at is the same. -/
structure SameAddresses (m m' : QueueRTCPManager) : Prop where
  localSSRC : m'.localSSRC = m.localSSRC
  conflicts : m'.conflicts = m.conflicts
  addresses : ∀ ssrc, addresses (m'.source ssrc) = addresses (m.source ssrc)

namespace SameAddresses

theorem refl (m : QueueRTCPManager) : SameAddresses m m := ⟨rfl, rfl, fun _ => rfl⟩

theorem trans (h₁ : SameAddresses m m') (h₂ : SameAddresses m' m'') : SameAddresses m m'' :=
  ⟨h₂.localSSRC.trans h₁.localSSRC, h₂.conflicts.trans h₁.conflicts,
    fun x => (h₂.addresses x).trans (h₁.addresses x)⟩

theorem sameCollisions (h : SameAddresses m m') (na : InetAddress) (tp : BitVec 16) :
    SameCollisions na tp m m' := by
  intro ssrc
  have haddresses := h.addresses ssrc
  simp only [QueueRTCPManager.addresses, Prod.mk.injEq] at haddresses
  obtain ⟨hna, htp, hprev⟩ := haddresses
  rw [Repeats, Repeats, searchControlConflict, searchControlConflict, hna, htp, hprev,
    h.localSSRC, h.conflicts]

end SameAddresses

/-! ## What the functions do to addresses -/

theorem source_modifySource_self (m : QueueRTCPManager) (ssrc : BitVec 32)
    (f : ControlSource → ControlSource) :
    (m.modifySource ssrc f).source ssrc = f (m.source ssrc) := by
  show (Function.update m.sources ssrc (some (f (m.source ssrc))) ssrc).getD .new = _
  rw [Function.update_self]
  rfl

theorem source_modifySource_of_ne (m : QueueRTCPManager) {x : BitVec 32} (hne : x ≠ ssrc)
    (f : ControlSource → ControlSource) : (m.modifySource ssrc f).source x = m.source x := by
  show (Function.update m.sources ssrc (some (f (m.source ssrc))) x).getD .new = _
  rw [Function.update_of_ne hne]
  rfl

/-- A change to a source that leaves its addresses. -/
theorem sameAddresses_modifySource (m : QueueRTCPManager) (ssrc : BitVec 32)
    (f : ControlSource → ControlSource) (hf : ∀ s, addresses (f s) = addresses s) :
    SameAddresses m (m.modifySource ssrc f) := by
  refine ⟨rfl, rfl, fun x => ?_⟩
  by_cases hx : x = ssrc
  · rw [hx, source_modifySource_self, hf]
  · rw [source_modifySource_of_ne m hx]

/-- A source that is created has the addresses it would have had. -/
theorem source_getSourceBySSRC (m : QueueRTCPManager) (ssrc x : BitVec 32) :
    (m.getSourceBySSRC ssrc).2.source x = m.source x := by
  rw [getSourceBySSRC]
  cases hs : m.sources ssrc with
  | some s => rfl
  | none =>
      show (Function.update m.sources ssrc (some .new) x).getD .new = _
      by_cases hx : x = ssrc
      · rw [hx, Function.update_self, source, hs]
        rfl
      · rw [Function.update_of_ne hx]
        rfl

theorem sameAddresses_getSourceBySSRC (m : QueueRTCPManager) (ssrc : BitVec 32) :
    SameAddresses m (m.getSourceBySSRC ssrc).2 := by
  refine ⟨?_, ?_, fun x => ?_⟩
  · rw [getSourceBySSRC]
    cases m.sources ssrc <;> rfl
  · rw [getSourceBySSRC]
    cases m.sources ssrc <;> rfl
  · rw [source_getSourceBySSRC]

/-- A source that was created is new. -/
theorem source_of_created (h : (m.getSourceBySSRC ssrc).1 = true) : m.source ssrc = .new := by
  rw [getSourceBySSRC] at h
  cases hs : m.sources ssrc with
  | some s =>
      rw [hs] at h
      cases h
  | none =>
      rw [source, hs]
      rfl

theorem sameAddresses_recordSRTime (m : QueueRTCPManager) (ssrc : BitVec 32) :
    SameAddresses m (m.recordSRTime ssrc) :=
  m.sameAddresses_modifySource ssrc _ (fun _ => rfl)

theorem sameAddresses_onGotSR (m : QueueRTCPManager) (src : BitVec 32) (buf : Memory) (p : ℕ) :
    SameAddresses m (m.onGotSR src buf p) :=
  m.sameAddresses_modifySource src _ (fun _ => rfl)

theorem modifySource_modifySource (m : QueueRTCPManager) (ssrc : BitVec 32)
    (f g : ControlSource → ControlSource) :
    (m.modifySource ssrc f).modifySource ssrc g = m.modifySource ssrc (fun s => g (f s)) := by
  rw [modifySource, source_modifySource_self, modifySource, Function.update_idem]
  rfl

/-- **The last block of a report from the local SSRC is kept.** -/
theorem onGotRR_eq (m : QueueRTCPManager) (src : BitVec 32) (buf : Memory) (p : ℕ) :
    m.onGotRR src buf p
      = if m.localSSRC = getSSRC buf p ∧ (blockCount buf p).toNat ≠ 0 then
          m.modifySource src (fun s => { s with
            receiverInfo := some
              (buf.octets (p + 8 + 24 * ((blockCount buf p).toNat - 1) + 4) 20) })
        else m := by
  rw [onGotRR]
  induction (blockCount buf p).toNat with
  | zero =>
      rw [if_neg (fun h => h.2 rfl)]
      rfl
  | succ n ih =>
      rw [List.range_succ, List.foldl_append, ih, Nat.add_sub_cancel]
      by_cases hlocal : m.localSSRC = getSSRC buf p
      · rw [if_pos (show _ ∧ n + 1 ≠ 0 from ⟨hlocal, Nat.succ_ne_zero n⟩)]
        by_cases hn : n ≠ 0
        · rw [if_pos ⟨hlocal, hn⟩]
          exact (if_pos hlocal).trans (m.modifySource_modifySource src _ _)
        · rw [if_neg (fun h => hn h.2)]
          exact if_pos hlocal
      · rw [if_neg (fun h => hlocal h.1), if_neg (fun h => hlocal h.1)]
        exact if_neg hlocal

theorem sameAddresses_onGotRR (m : QueueRTCPManager) (src : BitVec 32) (buf : Memory) (p : ℕ) :
    SameAddresses m (m.onGotRR src buf p) := by
  rw [onGotRR_eq]
  split_ifs
  · exact m.sameAddresses_modifySource src _ (fun _ => rfl)
  · exact .refl m

/-! ## What SDES and BYE packets do to sources -/

/-- A source without what SDES and BYE packets tell of it. -/
def anonymous (s : ControlSource) : ControlSource :=
  { s with state := .unknown, flag := false, participant := none }

/-- What has been sent so far. -/
def sendCounts (m : QueueRTCPManager) : BitVec 32 × BitVec 32 :=
  (m.sendPacketCount, m.ctrlSendCount)

/-- SDES and BYE packets change nothing of the sources but their states, their flags and their
participants, and a participant that is known stays known. -/
structure Introduces (m m' : QueueRTCPManager) : Prop where
  localSSRC : m'.localSSRC = m.localSSRC
  conflicts : m'.conflicts = m.conflicts
  sendCounts : m'.sendCounts = m.sendCounts
  anonymous : ∀ x, anonymous (m'.source x) = anonymous (m.source x)
  participant : ∀ x, (m.source x).participant.isSome = true →
    (m'.source x).participant.isSome = true

namespace Introduces

theorem refl (m : QueueRTCPManager) : Introduces m m :=
  ⟨rfl, rfl, rfl, fun _ => rfl, fun _ => id⟩

theorem trans (h₁ : Introduces m m') (h₂ : Introduces m' m'') : Introduces m m'' :=
  ⟨h₂.localSSRC.trans h₁.localSSRC, h₂.conflicts.trans h₁.conflicts,
    h₂.sendCounts.trans h₁.sendCounts, fun x => (h₂.anonymous x).trans (h₁.anonymous x),
    fun x hx => h₂.participant x (h₁.participant x hx)⟩

theorem sameAddresses (h : Introduces m m') : SameAddresses m m' := by
  refine ⟨h.localSSRC, h.conflicts, fun x => ?_⟩
  have haddresses := congrArg addresses (h.anonymous x)
  exact haddresses

end Introduces

theorem introduces_modifySource (m : QueueRTCPManager) (ssrc : BitVec 32)
    (f : ControlSource → ControlSource) (hf : ∀ s, anonymous (f s) = anonymous s)
    (hparticipant : ∀ s, s.participant.isSome = true → (f s).participant.isSome = true) :
    Introduces m (m.modifySource ssrc f) := by
  refine ⟨rfl, rfl, rfl, fun x => ?_, fun x => ?_⟩
  · by_cases hx : x = ssrc
    · rw [hx, source_modifySource_self, hf]
    · rw [source_modifySource_of_ne m hx]
  · by_cases hx : x = ssrc
    · rw [hx, source_modifySource_self]
      exact hparticipant _
    · rw [source_modifySource_of_ne m hx]
      exact id

theorem introduces_getSourceBySSRC (m : QueueRTCPManager) (ssrc : BitVec 32) :
    Introduces m (m.getSourceBySSRC ssrc).2 := by
  have hsame := m.sameAddresses_getSourceBySSRC ssrc
  refine ⟨hsame.localSSRC, hsame.conflicts, ?_, fun x => ?_, fun x => ?_⟩
  · rw [getSourceBySSRC]
    cases m.sources ssrc <;> rfl
  · rw [source_getSourceBySSRC]
  · rw [source_getSourceBySSRC]
    exact id

theorem introduces_getHello (m : QueueRTCPManager) (ssrc : BitVec 32) :
    Introduces m (m.getHello ssrc) :=
  m.introduces_modifySource ssrc _ (fun _ => rfl) (fun _ => id)

theorem introduces_identify (m : QueueRTCPManager) (src : BitVec 32) (cname : Octets) :
    Introduces m (m.identify src cname).2 := by
  rw [identify]
  cases m.getParticipant cname with
  | some p =>
      dsimp only
      apply introduces_modifySource
      · intro s
        rfl
      · intro s _
        rfl
  | none =>
      have hnew : Introduces m m.newParticipant := ⟨rfl, rfl, rfl, fun _ => rfl, fun _ => id⟩
      refine hnew.trans ?_
      dsimp only
      apply introduces_modifySource
      · intro s
        rfl
      · intro s _
        rfl

theorem introduces_itemParticipant (s : ChunkState) (src : BitVec 32) (type : UInt8)
    (data : Octets) : Introduces s.manager (itemParticipant s src type data).2 := by
  rw [itemParticipant]
  split_ifs
  · exact s.manager.introduces_identify src data
  · exact .refl _

theorem introduces_storeItem (m : QueueRTCPManager) (part : Option ℕ) (src : BitVec 32)
    (type : UInt8) (data : Octets) : Introduces m (m.storeItem part src type data) := by
  have hset : Introduces m (part.elim m (fun p => m.setSDESItem p type data)) := by
    cases part with
    | none => exact .refl m
    | some p => exact ⟨rfl, rfl, rfl, fun _ => rfl, fun _ => id⟩
  unfold storeItem
  split_ifs
  · exact hset.trans (introduces_modifySource _ src _ (fun _ => rfl) (fun _ => id))
  · exact hset

theorem introduces_chunkItem (src : BitVec 32) (buf : Memory) (chunk : ℕ) (s : ChunkState) :
    Introduces s.manager (chunkItem src buf chunk s).manager := by
  rw [chunkItem]
  split_ifs
  · exact (introduces_itemParticipant s src _ _).trans (introduces_storeItem _ _ src _ _)
  · exact .refl _
  · exact .refl _

/-- Every item takes the loop over a chunk further. -/
theorem pointer_lt_chunkItem (src : BitVec 32) (buf : Memory) (chunk : ℕ) (s : ChunkState) :
    s.pointer < (chunkItem src buf chunk s).pointer := by
  rw [chunkItem]
  split_ifs
  · show s.pointer < s.pointer + 2 + _
    omega
  · show s.pointer < s.pointer + 1 + _
    omega
  · exact Nat.lt_succ_self _

/-- **The loop over the items of a chunk ends.** -/
theorem onGotSDESChunk_isSome {rounds len : ℕ} (hrounds : len ≤ rounds) (m : QueueRTCPManager)
    (src : BitVec 32) (buf : Memory) (chunk : ℕ) :
    (onGotSDESChunk rounds m src buf chunk len).isSome = true := by
  have hitem : ∀ s : ChunkState, True → decide (s.pointer < len ∧ s.ended = false) = true →
      ∃ t, some (chunkItem src buf chunk s) = some t ∧ True ∧
        len - t.pointer < len - s.pointer := by
    intro s _ hcond
    have hlt := pointer_lt_chunkItem src buf chunk s
    have hlen := (of_decide_eq_true hcond).1
    exact ⟨_, rfl, trivial, by omega⟩
  obtain ⟨t, ht, -, -⟩ := whileLoop_of_measure _ _ hitem rounds
    ⟨4, false, false, (m.source src).participant, m⟩ trivial
      (Nat.le_trans (Nat.sub_le len 4) hrounds)
  rw [onGotSDESChunk, ht]
  rfl

theorem introduces_onGotSDESChunk {rounds len : ℕ} {buf : Memory} {chunk : ℕ} {cname : Bool}
    (h : onGotSDESChunk rounds m src buf chunk len = some (cname, m')) : Introduces m m' := by
  obtain ⟨s, hs, heq⟩ := Option.map_eq_some_iff.mp h
  cases heq
  have hinv : Introduces m s.manager ∧ _ := whileLoop_invariant
    (fun s : ChunkState => Introduces m s.manager)
    (fun s t hs _ ht => by cases ht; exact hs.trans (introduces_chunkItem src buf chunk s))
    rounds (.refl m) hs
  exact hinv.1

theorem chunkLoop_isSome {rounds len : ℕ} (hrounds : len ≤ rounds) (src : BitVec 32)
    (buf : Memory) (chunks : ℕ) :
    ∀ (p : ℕ) (cname : Bool) (m : QueueRTCPManager),
      (chunkLoop rounds src buf len chunks p cname m).isSome = true := by
  induction chunks with
  | zero =>
      intro p cname m
      rfl
  | succ chunks ih =>
      intro p cname m
      obtain ⟨⟨found, m'⟩, hchunk⟩ := Option.isSome_iff_exists.mp
        (onGotSDESChunk_isSome hrounds
          (m.getSourceBySSRC (BitVec.ofNat 32 (ofBigEndian (buf.octets (p + 4) 4)))).2 src buf
          (p + 4))
      rw [chunkLoop]
      simp only [hchunk, Option.bind_some]
      exact ih _ _ _

theorem introduces_chunkLoop {rounds len : ℕ} {buf : Memory} (chunks : ℕ) :
    ∀ {p : ℕ} {cname cname' : Bool} {m m' : QueueRTCPManager},
      chunkLoop rounds src buf len chunks p cname m = some (cname', m') → Introduces m m' := by
  induction chunks with
  | zero =>
      intro p cname cname' m m' h
      cases h
      exact .refl m
  | succ chunks ih =>
      intro p cname cname' m m' h
      rw [chunkLoop] at h
      obtain ⟨⟨found, m₁⟩, hchunk, hrest⟩ := Option.bind_eq_some_iff.mp h
      exact (((m.introduces_getSourceBySSRC _).trans (introduces_onGotSDESChunk hchunk)).trans
        (m₁.introduces_getHello _)).trans (ih hrest)

theorem introduces_getGoodbye (m : QueueRTCPManager) (ssrc : BitVec 32) (reason : Octets) :
    Introduces m (m.getGoodbye ssrc reason) := by
  rw [getGoodbye]
  split_ifs
  · have hflag := m.introduces_modifySource ssrc (fun s => { s with flag := false })
      (fun _ => rfl) (fun _ => id)
    exact ⟨hflag.localSSRC, hflag.conflicts, hflag.sendCounts, hflag.anonymous, hflag.participant⟩
  · exact .refl m

theorem introduces_leave (m : QueueRTCPManager) (ssrc : BitVec 32) (reason : Octets) :
    Introduces m (m.leave ssrc reason) := by
  set m₁ := (m.getSourceBySSRC ssrc).2.getGoodbye ssrc reason with hm₁
  have hfound : Introduces m m₁ :=
    (m.introduces_getSourceBySSRC ssrc).trans (introduces_getGoodbye _ ssrc reason)
  have hbye : Introduces m₁ m₁.BYESource := ⟨rfl, rfl, rfl, fun _ => rfl, fun _ => id⟩
  exact (hfound.trans hbye).trans (introduces_modifySource _ ssrc _ (fun _ => rfl) (fun _ => id))

theorem introduces_iterate_leave (ssrc : BitVec 32) (reason : Octets) (k : ℕ) :
    ∀ m : QueueRTCPManager, Introduces m ((fun m => leave m ssrc reason)^[k] m) := by
  induction k with
  | zero => exact Introduces.refl
  | succ k ih =>
      intro m
      rw [Function.iterate_succ_apply]
      exact (m.introduces_leave ssrc reason).trans (ih _)

theorem introduces_getBYE (m : QueueRTCPManager) (buf : Memory) (pkt pointer : ℕ) :
    Introduces m (m.getBYE buf pkt pointer).2 := by
  rw [getBYE]
  split_ifs
  · exact .refl m
  · exact introduces_iterate_leave (getSSRC buf pkt) (byeReason buf pkt pointer) _ m

/-- `getBYE` goes on behind the packet if this has blocks. -/
theorem getBYE_pointer (m : QueueRTCPManager) (buf : Memory) (pkt pointer : ℕ) :
    (m.getBYE buf pkt pointer).1
      = if blockCount buf pkt = 0 then pointer else pointer + getLength buf pkt := by
  rw [getBYE]
  split_ifs <;> rfl

/-! ## The check -/

/-- New sources are not in a repeating collision, unless they have the local SSRC. -/
theorem not_repeats_of_source_new (h : m.source ssrc = .new) (hne : ssrc ≠ m.localSSRC) :
    ¬ m.Repeats na tp ssrc := by
  rintro ⟨-, hrepeat⟩
  rw [if_neg hne, h] at hrepeat
  cases hrepeat

/-- A collision of another source is taken for a new one exactly if it does not repeat. -/
theorem remoteCollision_spec
    (hmismatch : (m.source ssrc).controlTransportPort ≠ tp ∨ (m.source ssrc).networkAddress ≠ na)
    (hremote : ssrc ≠ m.localSSRC) :
    ((m.remoteCollision ssrc na tp).1 = true ↔ ¬ m.Repeats na tp ssrc) ∧
      SameCollisions na tp m (m.remoteCollision ssrc na tp).2 := by
  rw [remoteCollision]
  split_ifs with hprev
  · have hrepeats : m.Repeats na tp ssrc := by
      refine ⟨hmismatch, ?_⟩
      rw [if_neg hremote]
      exact hprev
    exact ⟨iff_of_false not_false (fun hno => hno hrepeats), .refl m⟩
  · have hno : ¬ m.Repeats na tp ssrc := by
      rintro ⟨-, hrepeat⟩
      rw [if_neg hremote] at hrepeat
      exact hprev hrepeat
    refine ⟨iff_of_true rfl hno, fun x => ?_⟩
    by_cases hx : x = ssrc
    · subst hx
      refine iff_of_false ?_ hno
      -- the address is that of the packet now
      rintro ⟨hmis, -⟩
      rw [source_modifySource_self] at hmis
      rcases hmis with hmis | hmis
      · exact hmis rfl
      · exact hmis rfl
    · rw [Repeats, source_modifySource_of_ne m hx]
      rfl

/-- The address of a source that is not the given one does not make the given one a conflict. -/
theorem searchControlConflict_addConflict {s : ControlSource}
    (hs : s.controlTransportPort ≠ tp ∨ s.networkAddress ≠ na) :
    (m.addConflict s).searchControlConflict na tp = m.searchControlConflict na tp := by
  have hother : isControlAddress na tp
      ⟨s.networkAddress, s.dataTransportPort, s.controlTransportPort⟩ = false := by
    refine decide_eq_false ?_
    rintro ⟨hna, htp⟩
    rcases hs with hs | hs
    · exact hs htp
    · exact hs hna
  show (m.conflicts ++ [_]).find? _ = m.conflicts.find? _
  rw [List.find?_append, List.find?_cons, hother, List.find?_nil, Option.or_none]

/-- `dispatchBYE` changes the number of members at most. -/
theorem sameAddresses_dispatchBYE (m : QueueRTCPManager) : SameAddresses m m.dispatchBYE := by
  unfold dispatchBYE
  split_ifs
  · exact .refl m
  · exact ⟨rfl, rfl, fun _ => rfl⟩
  · exact .refl m

/-- Of the local SSRC, a collision is taken for a new one exactly if the address is not among
the conflicts; and it does not become one. -/
theorem localCollision_spec
    (hmismatch : (m.source m.localSSRC).controlTransportPort ≠ tp ∨
      (m.source m.localSSRC).networkAddress ≠ na) :
    ((m.localCollision m.localSSRC na tp).1 = true ↔ ¬ m.Repeats na tp m.localSSRC) ∧
      SameCollisions na tp m (m.localCollision m.localSSRC na tp).2 := by
  rw [localCollision]
  split_ifs with hconflict
  · have hrepeats : m.Repeats na tp m.localSSRC := by
      refine ⟨hmismatch, ?_⟩
      rw [if_pos rfl]
      exact hconflict
    exact ⟨iff_of_false not_false (fun hno => hno hrepeats), .refl m⟩
  · have hno : ¬ m.Repeats na tp m.localSSRC := by
      rintro ⟨-, hrepeat⟩
      rw [if_pos rfl] at hrepeat
      exact hconflict hrepeat
    refine ⟨iff_of_true rfl hno, fun x => ?_⟩
    set m₁ := m.addConflict (m.source m.localSSRC) with hm₁
    have hadd : ∀ x, m₁.Repeats na tp x ↔ m.Repeats na tp x := by
      intro x
      rw [Repeats, searchControlConflict_addConflict hmismatch]
      rfl
    have hbye := (m₁.sameAddresses_dispatchBYE.sameCollisions na tp x).trans (hadd x)
    by_cases hx : x = m.localSSRC
    · subst hx
      refine iff_of_false ?_ hno
      rintro ⟨-, hrepeat⟩
      have hsearch : m₁.dispatchBYE.searchControlConflict na tp =
          m.searchControlConflict na tp := by
        rw [searchControlConflict, m₁.sameAddresses_dispatchBYE.conflicts]
        exact searchControlConflict_addConflict hmismatch
      split_ifs at hrepeat with hlocal
      · exact hconflict (hsearch ▸ hrepeat)
      · exact hlocal m₁.sameAddresses_dispatchBYE.localSSRC.symm
    · rw [← hbye, Repeats, source_modifySource_of_ne _ hx]
      rfl

/-- **`checkSSRCInRTCPPkt`** fails exactly in a repeating collision, and changes nothing about
which sources are in one. -/
theorem checkSSRCInRTCPPkt_spec (m : QueueRTCPManager) (ssrc : BitVec 32) (isNew : Bool)
    (na : InetAddress) (tp : BitVec 16)
    (hnew : isNew = true → ssrc ≠ m.localSSRC → ¬ m.Repeats na tp ssrc) :
    ((m.checkSSRCInRTCPPkt ssrc isNew na tp).1 = true ↔ ¬ m.Repeats na tp ssrc) ∧
      SameCollisions na tp m (m.checkSSRCInRTCPPkt ssrc isNew na tp).2 := by
  rw [checkSSRCInRTCPPkt]
  split_ifs with hcreated hmismatch hremote
  · exact ⟨iff_of_true rfl (hnew hcreated.1 hcreated.2), .refl m⟩
  · exact remoteCollision_spec hmismatch hremote
  · push Not at hremote
    subst hremote
    exact localCollision_spec hmismatch
  · exact ⟨iff_of_true rfl (fun hrepeats => hmismatch hrepeats.1), .refl m⟩

/-- What the check does: nothing, or it takes over the address of another source, or it begins
anew with the local one. -/
theorem checkSSRCInRTCPPkt_cases (m : QueueRTCPManager) (ssrc : BitVec 32) (isNew : Bool)
    (na : InetAddress) (tp : BitVec 16) :
    (m.checkSSRCInRTCPPkt ssrc isNew na tp).2 = m ∨
      (ssrc ≠ m.localSSRC ∧ (m.checkSSRCInRTCPPkt ssrc isNew na tp).2
        = m.modifySource ssrc (fun s => { s with
            prevConflict := some ⟨na, 0, tp⟩
            controlTransportPort := tp
            networkAddress := na })) ∨
      (ssrc = m.localSSRC ∧ m.checkSSRCInRTCPPkt ssrc isNew na tp
        = (true, ((m.addConflict (m.source ssrc)).dispatchBYE).modifySource ssrc (fun s =>
            { s with networkAddress := na, controlTransportPort := 0 }.initStats))) := by
  rw [checkSSRCInRTCPPkt]
  split_ifs with hnew hmismatch hremote
  · exact Or.inl rfl
  · rw [remoteCollision]
    split_ifs
    · exact Or.inl rfl
    · exact Or.inr (Or.inl ⟨hremote, rfl⟩)
  · rw [localCollision]
    split_ifs
    · exact Or.inl rfl
    · exact Or.inr (Or.inr ⟨not_not.mp hremote, rfl⟩)
  · exact Or.inl rfl

theorem source_dispatchBYE (m : QueueRTCPManager) (x : BitVec 32) :
    m.dispatchBYE.source x = m.source x := by
  unfold dispatchBYE
  split_ifs <;> rfl

/-- **What the check leaves of the sources**: of all but the local one everything besides their
addresses; and of that one, if it begins anew, what `initStats` leaves. -/
theorem checkSSRCInRTCPPkt_frame {α : Type*} (g : ControlSource → α)
    (hg : ∀ (s : ControlSource) na tp c,
      g { s with prevConflict := c, controlTransportPort := tp, networkAddress := na } = g s)
    (m : QueueRTCPManager) (ssrc : BitVec 32) (isNew : Bool) (na : InetAddress) (tp : BitVec 16)
    (x : BitVec 32) :
    g ((m.checkSSRCInRTCPPkt ssrc isNew na tp).2.source x) = g (m.source x) ∨
      (x = ssrc ∧ ssrc = m.localSSRC ∧ (m.checkSSRCInRTCPPkt ssrc isNew na tp).1 = true ∧
        g ((m.checkSSRCInRTCPPkt ssrc isNew na tp).2.source x) = g (m.source x).initStats) := by
  rcases m.checkSSRCInRTCPPkt_cases ssrc isNew na tp with hsame | ⟨-, hremote⟩ | ⟨hlocal, hrenewed⟩
  · rw [hsame]
    exact Or.inl rfl
  · rw [hremote]
    by_cases hx : x = ssrc
    · subst hx
      rw [source_modifySource_self]
      exact Or.inl (hg _ _ _ _)
    · rw [source_modifySource_of_ne m hx]
      exact Or.inl rfl
  · rw [hrenewed]
    by_cases hx : x = ssrc
    · subst hx
      refine Or.inr ⟨rfl, hlocal, rfl, ?_⟩
      rw [source_modifySource_self, source_dispatchBYE]
      exact hg (m.source x).initStats na 0 (m.source x).prevConflict
    · rw [source_modifySource_of_ne _ hx, source_dispatchBYE]
      exact Or.inl rfl

/-- The check of a packet in the walk. -/
theorem checkPacket_spec (buf : Memory) (na : InetAddress) (tp : BitVec 16) (w : Walk) :
    ((checkPacket buf na tp w).1 = true ↔ ¬ w.manager.Repeats na tp (getSSRC buf w.pointer)) ∧
      SameCollisions na tp w.manager (checkPacket buf na tp w).2 := by
  set ssrc := getSSRC buf w.pointer with hssrc
  have hsame := (w.manager.sameAddresses_getSourceBySSRC ssrc).sameCollisions na tp
  obtain ⟨hcheck, hkeep⟩ := checkSSRCInRTCPPkt_spec
    (w.manager.getSourceBySSRC ssrc).2 ssrc (w.manager.getSourceBySSRC ssrc).1 na tp (by
      intro hcreated hremote
      refine not_repeats_of_source_new ?_ hremote
      rw [source_getSourceBySSRC]
      exact source_of_created hcreated)
  exact ⟨hcheck.trans (not_congr (hsame ssrc)), hsame.trans hkeep⟩

/-! ## The three loops -/

/-- The offset behind the packets of the given types, from `p` on. -/
def passPackets (buf : Memory) (len : ℕ) (types : UInt8 → Bool) (p : ℕ) : ℕ :=
  if p < len ∧ types (type buf p) = true then passPackets buf len types (p + getLength buf p)
  else p
termination_by len - p
decreasing_by
  have hfour := (getLength_bounds buf p).1
  omega

/-- The packets of the given types, one behind the other, from `p` on. -/
def passedPackets (buf : Memory) (len : ℕ) (types : UInt8 → Bool) (p : ℕ) : List ℕ :=
  if p < len ∧ types (type buf p) = true then
    p :: passedPackets buf len types (p + getLength buf p)
  else []
termination_by len - p
decreasing_by
  have hfour := (getLength_bounds buf p).1
  omega

theorem passedPackets_of_true {buf : Memory} {len p : ℕ} {types : UInt8 → Bool}
    (h : p < len ∧ types (type buf p) = true) :
    passedPackets buf len types p = p :: passedPackets buf len types (p + getLength buf p) := by
  rw [passedPackets.eq_def, if_pos h]

section Loops

variable {rounds : ℕ} {buf : Memory} {len : ℕ} {w w' : Walk}

/-- The walk has gone on to the next packet. -/
structure GoesOn (buf : Memory) (na : InetAddress) (tp : BitVec 16) (w w' : Walk) : Prop where
  pointer : w'.pointer = w.pointer + getLength buf w.pointer
  collisions : SameCollisions na tp w.manager w'.manager

/-- What a round of the loop over reports does: the report is taken in if its source passes the
check. -/
theorem reportBody_eq (buf : Memory) (src : BitVec 32) (na : InetAddress) (tp : BitVec 16)
    (w : Walk) :
    reportBody buf src na tp w = some (advance buf w w.cname
      (if (checkPacket buf na tp w).1 = true
        then (checkPacket buf na tp w).2.onGotRR src buf w.pointer
        else (checkPacket buf na tp w).2)) := by
  rw [reportBody]
  rcases checkPacket buf na tp w with ⟨ok, m⟩
  cases ok <;> rfl

/-- What a round of the loop over SDES and APP packets does: a description is taken in if its source
passes the check. -/
theorem descriptionBody_eq (rounds : ℕ) (buf : Memory) (src : BitVec 32) (na : InetAddress)
    (tp : BitVec 16) (w : Walk) :
    descriptionBody rounds buf src na tp w
      = if (checkPacket buf na tp w).1 = true ∧ type buf w.pointer = tSDES then
          ((checkPacket buf na tp w).2.onGotSDES rounds src buf w.pointer).map (fun r =>
            advance buf w (w.cname || r.1) r.2)
        else some (advance buf w w.cname (checkPacket buf na tp w).2) := by
  rw [descriptionBody]
  rcases checkPacket buf na tp w with ⟨ok, m⟩
  cases ok with
  | true => exact if_congr (and_iff_right rfl).symm rfl rfl
  | false => exact (if_neg (fun h => Bool.false_ne_true h.1)).symm

/-- What a round of the loop over BYE packets does: the packet is taken in, and the loop goes on, if
its source passes the check. -/
theorem byeBody_eq (buf : Memory) (na : InetAddress) (tp : BitVec 16) (pkt : ℕ) (w : Walk) :
    byeBody buf na tp pkt w = some (if (checkPacket buf na tp { w with pointer := pkt }).1 = true
      then { w with
        pointer := ((checkPacket buf na tp { w with pointer := pkt }).2.getBYE buf pkt w.pointer).1
        visited := w.visited ++ [pkt]
        manager :=
          ((checkPacket buf na tp { w with pointer := pkt }).2.getBYE buf pkt w.pointer).2 }
      else { w with
        visited := w.visited ++ [pkt]
        manager := (checkPacket buf na tp { w with pointer := pkt }).2 }) := by
  rw [byeBody]
  rcases checkPacket buf na tp { w with pointer := pkt } with ⟨ok, m⟩
  cases ok <;> rfl

/-- A round of the loop over reports. -/
theorem goesOn_of_reportBody (h : reportBody buf src na tp w = some w') :
    GoesOn buf na tp w w' := by
  obtain ⟨-, hkeep⟩ := checkPacket_spec buf na tp w
  rw [reportBody_eq, Option.some_inj] at h
  subst h
  refine ⟨rfl, ?_⟩
  dsimp only [advance]
  split_ifs
  · exact hkeep.trans ((sameAddresses_onGotRR _ src buf w.pointer).sameCollisions na tp)
  · exact hkeep

theorem reportBody_isSome (buf : Memory) (src : BitVec 32) (na : InetAddress) (tp : BitVec 16)
    (w : Walk) : (reportBody buf src na tp w).isSome = true := by
  rw [reportBody_eq, Option.isSome_some]

/-- A round of the loop over SDES and APP packets. -/
theorem goesOn_of_descriptionBody (h : descriptionBody rounds buf src na tp w = some w') :
    GoesOn buf na tp w w' := by
  obtain ⟨-, hkeep⟩ := checkPacket_spec buf na tp w
  rw [descriptionBody_eq] at h
  split_ifs at h
  · obtain ⟨⟨cname, m'⟩, hsdes, rfl⟩ := Option.map_eq_some_iff.mp h
    exact ⟨rfl, hkeep.trans ((introduces_chunkLoop _ hsdes).sameAddresses.sameCollisions na tp)⟩
  · cases h
    exact ⟨rfl, hkeep⟩

/-- The rounds return, since the loops over the items do. -/
theorem descriptionBody_isSome (hrounds : 2 ^ 18 ≤ rounds) (buf : Memory) (src : BitVec 32)
    (na : InetAddress) (tp : BitVec 16) (w : Walk) :
    (descriptionBody rounds buf src na tp w).isSome = true := by
  rw [descriptionBody_eq]
  split_ifs
  · rw [Option.isSome_map]
    exact chunkLoop_isSome (Nat.le_trans (getLength_bounds buf w.pointer).2 hrounds) src buf _ _ _ _
  · rfl

section Pass

variable {cond : Walk → Bool} {body : Walk → Option Walk} {types : UInt8 → Bool}

/-- **Where a loop over packets of some types stops**, if its rounds go on to the next packet. -/
theorem whileLoop_pass
    (hcond : ∀ w, cond w = true ↔ w.pointer < len ∧ types (type buf w.pointer) = true)
    (hbody : ∀ w w', body w = some w' → GoesOn buf na tp w w')
    (h : whileLoop cond body rounds w = some w') :
    w'.pointer = passPackets buf len types w.pointer ∧
      SameCollisions na tp w.manager w'.manager := by
  obtain ⟨⟨hpass, hsame⟩, hend⟩ := whileLoop_invariant
    (fun v : Walk => passPackets buf len types v.pointer = passPackets buf len types w.pointer ∧
      SameCollisions na tp w.manager v.manager)
    (fun v v' hv hv' hgo => by
      have hnext := hbody v v' hgo
      refine ⟨?_, hv.2.trans hnext.collisions⟩
      rw [hnext.pointer, ← hv.1, passPackets.eq_def buf len types v.pointer,
        if_pos ((hcond v).mp hv')]) rounds ⟨rfl, .refl _⟩ h
  refine ⟨?_, hsame⟩
  have hstop : ¬ (w'.pointer < len ∧ types (type buf w'.pointer) = true) := by
    rw [← hcond, hend]
    exact Bool.false_ne_true
  rw [← hpass, passPackets, if_neg hstop]

/-- Such a loop ends. -/
theorem whileLoop_pass_isSome
    (hcond : ∀ w, cond w = true → w.pointer < len)
    (hbody : ∀ w w', body w = some w' → GoesOn buf na tp w w')
    (hreturns : ∀ w, (body w).isSome = true) (hrounds : len ≤ rounds) (w : Walk) :
    (whileLoop cond body rounds w).isSome = true := by
  obtain ⟨t, ht, -, -⟩ := whileLoop_of_measure (fun _ => True) (fun v : Walk => len - v.pointer)
    (fun v _ hv => by
      obtain ⟨v', hv'⟩ := Option.isSome_iff_exists.mp (hreturns v)
      have hnext := (hbody v v' hv').pointer
      have hfour := (getLength_bounds buf v.pointer).1
      have hlt := hcond v hv
      exact ⟨v', hv', trivial, by omega⟩) rounds w trivial (Nat.le_trans (Nat.sub_le _ _) hrounds)
  rw [ht]
  rfl

end Pass

/-- **A round of the loop over BYE packets** goes on only if the packet has blocks and is in
no repeating collision. -/
theorem byeBody_spec (buf : Memory) (na : InetAddress) (tp : BitVec 16) (pkt : ℕ) (w : Walk) :
    ∃ w', byeBody buf na tp pkt w = some w' ∧ SameCollisions na tp w.manager w'.manager ∧
      w'.pointer = if blockCount buf pkt = 0 ∨ w.manager.Repeats na tp (getSSRC buf pkt)
        then w.pointer else w.pointer + getLength buf pkt := by
  obtain ⟨hcheck, hkeep⟩ := checkPacket_spec buf na tp { w with pointer := pkt }
  refine ⟨_, byeBody_eq buf na tp pkt w, ?_⟩
  by_cases hok : (checkPacket buf na tp { w with pointer := pkt }).1 = true
  · rw [if_pos hok]
    have hno := hcheck.mp hok
    have hsaid :=
      introduces_getBYE (checkPacket buf na tp { w with pointer := pkt }).2 buf pkt w.pointer
    exact ⟨hkeep.trans (hsaid.sameAddresses.sameCollisions na tp),
      (getBYE_pointer _ buf pkt w.pointer).trans (if_congr (or_iff_left hno).symm rfl rfl)⟩
  · rw [if_neg hok, if_pos (Or.inr (not_not.mp (fun hno => hok (hcheck.mpr hno))))]
    exact ⟨hkeep, rfl⟩

/-- The packet holds up the loop over BYE packets. -/
def HoldsUp (m : QueueRTCPManager) (buf : Memory) (na : InetAddress) (tp : BitVec 16) (pkt : ℕ) :
    Prop :=
  type buf pkt = tBYE ∧ (blockCount buf pkt = 0 ∨ m.Repeats na tp (getSSRC buf pkt))

/-- A packet that holds up the loop does so for ever. -/
theorem byeLoop_eq_none (hlt : w.pointer < len) (hholds : HoldsUp w.manager buf na tp w.pointer)
    (rounds : ℕ) :
    whileLoop (fun w' => w'.pointer < len ∧ type buf w.pointer = tBYE)
      (byeBody buf na tp w.pointer) rounds w = none := by
  obtain ⟨hbye, hstay⟩ := hholds
  have hstuck : ∀ v : Walk, v.pointer = w.pointer ∧ SameCollisions na tp w.manager v.manager →
      decide (v.pointer < len ∧ type buf w.pointer = tBYE) = true ∧
        ∀ v', byeBody buf na tp w.pointer v = some v' →
          v'.pointer = w.pointer ∧ SameCollisions na tp w.manager v'.manager := by
    rintro v ⟨hpointer, hsame⟩
    refine ⟨decide_eq_true ⟨hpointer ▸ hlt, hbye⟩, ?_⟩
    intro v' hv'
    obtain ⟨v'', hv'', hkeep, hnext⟩ := byeBody_spec buf na tp w.pointer v
    rw [hv'', Option.some_inj] at hv'
    subst hv'
    rw [if_pos (hstay.imp_right (hsame _).mpr), hpointer] at hnext
    exact ⟨hnext, hsame.trans hkeep⟩
  exact whileLoop_eq_none _ hstuck rounds w ⟨rfl, .refl _⟩

/-- Otherwise every round gains the length of the packet. -/
theorem byeLoop_isSome (hno : ¬ HoldsUp w.manager buf na tp w.pointer) (hrounds : len ≤ rounds) :
    (whileLoop (fun w' => w'.pointer < len ∧ type buf w.pointer = tBYE)
      (byeBody buf na tp w.pointer) rounds w).isSome = true := by
  have hgain : ∀ v : Walk, SameCollisions na tp w.manager v.manager →
      decide (v.pointer < len ∧ type buf w.pointer = tBYE) = true →
      ∃ v', byeBody buf na tp w.pointer v = some v' ∧
        SameCollisions na tp w.manager v'.manager ∧ len - v'.pointer < len - v.pointer := by
    intro v hsame hcond
    obtain ⟨hlt, hbye⟩ := of_decide_eq_true hcond
    obtain ⟨v', hv', hkeep, hnext⟩ := byeBody_spec buf na tp w.pointer v
    have hfour := (getLength_bounds buf w.pointer).1
    rw [if_neg (fun hstay => hno ⟨hbye, hstay.imp_right (hsame _).mp⟩)] at hnext
    exact ⟨v', hv', hsame.trans hkeep, by omega⟩
  obtain ⟨t, ht, -, -⟩ := whileLoop_of_measure _ _ hgain rounds w (.refl _)
    (Nat.le_trans (Nat.sub_le _ _) hrounds)
  rw [ht]
  rfl

/-- The first two loops, if they return. -/
theorem reportLoop_spec
    (h : whileLoop (fun w => w.pointer < len ∧ type buf w.pointer = tRR)
      (reportBody buf src na tp) rounds w = some w') :
    w'.pointer = passPackets buf len (fun t => t = tRR) w.pointer ∧
      SameCollisions na tp w.manager w'.manager := by
  refine whileLoop_pass (fun w => ?_) (fun w w' hbody => goesOn_of_reportBody hbody) h
  rw [decide_eq_true_iff, decide_eq_true_iff]

theorem descriptionLoop_spec
    (h : whileLoop
        (fun w => w.pointer < len ∧ (type buf w.pointer = tSDES ∨ type buf w.pointer = tAPP))
      (descriptionBody rounds buf src na tp) rounds w = some w') :
    w'.pointer = passPackets buf len (fun t => t = tSDES ∨ t = tAPP) w.pointer ∧
      SameCollisions na tp w.manager w'.manager := by
  refine whileLoop_pass (fun w => ?_) (fun w w' hbody => goesOn_of_descriptionBody hbody) h
  rw [decide_eq_true_iff, decide_eq_true_iff]

/-- They do return. -/
theorem reportLoop_isSome (buf : Memory) (src : BitVec 32) (na : InetAddress) (tp : BitVec 16)
    (hrounds : len ≤ rounds) (w : Walk) :
    (whileLoop (fun w => w.pointer < len ∧ type buf w.pointer = tRR)
      (reportBody buf src na tp) rounds w).isSome = true := by
  refine whileLoop_pass_isSome (fun w hw => ?_) (fun w w' hbody => goesOn_of_reportBody hbody)
    (reportBody_isSome buf src na tp) hrounds w
  exact (of_decide_eq_true hw).1

theorem descriptionLoop_isSome (buf : Memory) (src : BitVec 32) (na : InetAddress) (tp : BitVec 16)
    (hrounds : len ≤ rounds) (hitems : 2 ^ 18 ≤ rounds) (w : Walk) :
    (whileLoop
        (fun w => w.pointer < len ∧ (type buf w.pointer = tSDES ∨ type buf w.pointer = tAPP))
      (descriptionBody rounds buf src na tp) rounds w).isSome = true := by
  refine whileLoop_pass_isSome (fun w hw => ?_) (fun w w' hbody => goesOn_of_descriptionBody hbody)
    (descriptionBody_isSome hitems buf src na tp) hrounds w
  exact (of_decide_eq_true hw).1

/-- **The three loops end exactly if no packet holds up the last one.** -/
theorem walkLoops_ends_iff (buf : Memory) (len : ℕ) (src : BitVec 32) (na : InetAddress)
    (tp : BitVec 16) {w : Walk} {p : ℕ}
    (hp : p = passPackets buf len (fun t => t = tSDES ∨ t = tAPP)
      (passPackets buf len (fun t => t = tRR) w.pointer)) :
    (∃ rounds, (walkLoops rounds buf len src na tp w).isSome = true) ↔
      ¬ (p < len ∧ HoldsUp w.manager buf na tp p) := by
  constructor
  · rintro ⟨rounds, hsome⟩ ⟨hlt, hbye, hstay⟩
    obtain ⟨w₃, hw₃⟩ := Option.isSome_iff_exists.mp hsome
    obtain ⟨w₁, h₁, hrest⟩ := Option.bind_eq_some_iff.mp hw₃
    obtain ⟨w₂, h₂, h₃⟩ := Option.bind_eq_some_iff.mp hrest
    obtain ⟨hp₁, hsame₁⟩ := reportLoop_spec h₁
    obtain ⟨hp₂, hsame₂⟩ := descriptionLoop_spec h₂
    rw [hp₁, ← hp] at hp₂
    have hholds : HoldsUp w₂.manager buf na tp w₂.pointer := by
      rw [hp₂]
      exact ⟨hbye, hstay.imp_right ((hsame₁.trans hsame₂) _).mpr⟩
    rw [byeLoop_eq_none (hp₂ ▸ hlt) hholds] at h₃
    cases h₃
  · intro hno
    refine ⟨2 ^ 18 + len, ?_⟩
    have hrounds : len ≤ 2 ^ 18 + len := Nat.le_add_left _ _
    obtain ⟨w₁, h₁⟩ := Option.isSome_iff_exists.mp
      (reportLoop_isSome buf src na tp hrounds w)
    obtain ⟨w₂, h₂⟩ := Option.isSome_iff_exists.mp
      (descriptionLoop_isSome buf src na tp hrounds (Nat.le_add_right _ _) w₁)
    obtain ⟨hp₁, hsame₁⟩ := reportLoop_spec h₁
    obtain ⟨hp₂, hsame₂⟩ := descriptionLoop_spec h₂
    rw [hp₁, ← hp] at hp₂
    rw [walkLoops, h₁, Option.bind_some, h₂, Option.bind_some]
    by_cases hlt : p < len
    · refine byeLoop_isSome ?_ hrounds
      rw [hp₂]
      rintro ⟨hbye, hstay⟩
      exact hno ⟨hlt, hbye, hstay.imp_right ((hsame₁.trans hsame₂) _).mp⟩
    · rw [whileLoop_of_false]
      · rfl
      · exact decide_eq_false (fun hcond => hlt (hp₂ ▸ hcond.1))

end Loops

/-! ## The whole reception -/

/-- The collision repeats although the address of the first packet's source is taken over if
the source is new or has no control port yet. -/
def CollisionRepeats (m : QueueRTCPManager) (na : InetAddress) (tp : BitVec 16)
    (src ssrc : BitVec 32) : Prop :=
  m.Repeats na tp ssrc ∧ ¬ (ssrc = src ∧ (m.sources src = none ∨
    ((m.source src).controlTransportPort = 0 ∧ (m.source src).networkAddress = na)))

theorem registerFirst_of_none (h : m.sources src = none) :
    m.registerFirst src na tp = (true, ((m.getSourceBySSRC src).2.modifySource src (fun s =>
      { s with controlTransportPort := tp, networkAddress := na })).getHello src) := by
  rw [registerFirst, getSourceBySSRC, h]

theorem registerFirst_of_some {s : ControlSource} (h : m.sources src = some s) :
    m.registerFirst src na tp = (false, if s.controlTransportPort = 0 then
      m.modifySource src (fun s => { s with controlTransportPort := tp }) else m) := by
  have hsource : m.source src = s := by
    rw [source, h]
    rfl
  rw [registerFirst, getSourceBySSRC, h]
  simp only [hsource]

/-- A source that is new gets the address of the packet. -/
theorem not_repeats_registerFirst_of_none (h : m.sources src = none) :
    ¬ (m.registerFirst src na tp).2.Repeats na tp src := by
  rw [registerFirst_of_none h]
  rintro ⟨hmismatch, -⟩
  simp only [getHello, source_modifySource_self] at hmismatch
  rcases hmismatch with hmismatch | hmismatch
  · exact hmismatch rfl
  · exact hmismatch rfl

/-- The source of the first packet is at the address of the packet if it is new, or if it was
waiting for its port. -/
theorem elsewhere_registerFirst (m : QueueRTCPManager) (na : InetAddress) (tp : BitVec 16)
    (src ssrc : BitVec 32) :
    (((m.registerFirst src na tp).2.source ssrc).controlTransportPort ≠ tp ∨
        ((m.registerFirst src na tp).2.source ssrc).networkAddress ≠ na) ↔
      ((m.source ssrc).controlTransportPort ≠ tp ∨ (m.source ssrc).networkAddress ≠ na) ∧
        ¬ (ssrc = src ∧ (m.sources src = none ∨
          ((m.source src).controlTransportPort = 0 ∧ (m.source src).networkAddress = na))) := by
  by_cases hx : ssrc = src
  · subst hx
    cases h : m.sources ssrc with
    | none =>
        rw [registerFirst_of_none h]
        simp only [getHello, source_modifySource_self]
        exact iff_of_false (fun hne => hne.elim (fun hn => hn rfl) (fun hn => hn rfl))
          (fun hne => hne.2 ⟨trivial, Or.inl trivial⟩)
    | some s =>
        have hsource : m.source ssrc = s := by
          rw [source, h]
          rfl
        rw [registerFirst_of_some h]
        split_ifs with hport
        · simp only [source_modifySource_self, hsource]
          constructor
          · rintro (hne | hna)
            · exact absurd rfl hne
            · refine ⟨Or.inr hna, ?_⟩
              rintro ⟨-, hnone | ⟨-, hsame⟩⟩
              · cases hnone
              · exact hna hsame
          · rintro ⟨-, hno⟩
            exact Or.inr (fun hna => hno ⟨trivial, Or.inr ⟨hport, hna⟩⟩)
        · rw [hsource]
          refine ⟨fun hne => ⟨hne, ?_⟩, And.left⟩
          rintro ⟨-, hnone | ⟨hzero, -⟩⟩
          · cases hnone
          · exact hport hzero
  · have hsource : (m.registerFirst src na tp).2.source ssrc = m.source ssrc := by
      cases h : m.sources src with
      | none =>
          rw [registerFirst_of_none h]
          simp only [getHello]
          rw [source_modifySource_of_ne _ hx, source_modifySource_of_ne _ hx,
            source_getSourceBySSRC]
      | some s =>
          rw [registerFirst_of_some h]
          split_ifs
          · dsimp only
            rw [source_modifySource_of_ne m hx]
          · rfl
    rw [hsource, and_iff_left (fun hsrc => hx hsrc.1)]

theorem registerFirst_spec (m : QueueRTCPManager) (src : BitVec 32) (na : InetAddress)
    (tp : BitVec 16) :
    (m.registerFirst src na tp).2.localSSRC = m.localSSRC ∧
      (m.registerFirst src na tp).2.conflicts = m.conflicts ∧
      (m.registerFirst src na tp).2.clock = m.clock := by
  cases hs : m.sources src with
  | none =>
      rw [registerFirst_of_none hs, getSourceBySSRC, hs]
      exact ⟨rfl, rfl, rfl⟩
  | some s =>
      rw [registerFirst_of_some hs]
      split_ifs <;> exact ⟨rfl, rfl, rfl⟩

/-- Nothing of a source but its address and its flag is changed. -/
theorem kept_registerFirst {α : Type*} (g : ControlSource → α)
    (hg : ∀ (s : ControlSource) na tp flag,
      g { s with networkAddress := na, controlTransportPort := tp, flag := flag } = g s)
    (m : QueueRTCPManager) (src : BitVec 32) (na : InetAddress) (tp : BitVec 16) (x : BitVec 32) :
    g ((m.registerFirst src na tp).2.source x) = g (m.source x) := by
  have hmodified : ∀ (m' : QueueRTCPManager) (f : ControlSource → ControlSource),
      (∀ s, g (f s) = g s) → g ((m'.modifySource src f).source x) = g (m'.source x) := by
    intro m' f hf
    by_cases hx : x = src
    · rw [hx, source_modifySource_self, hf]
    · rw [source_modifySource_of_ne m' hx]
  cases hs : m.sources src with
  | none =>
      rw [registerFirst_of_none hs, ← m.source_getSourceBySSRC src x]
      dsimp only [getHello]
      refine (hmodified _ _ ?_).trans (hmodified _ _ ?_)
      · intro s
        exact hg s _ _ true
      · intro s
        exact hg s na tp _
  | some s =>
      rw [registerFirst_of_some hs]
      split_ifs
      · dsimp only
        refine hmodified m _ ?_
        intro s
        exact hg s _ tp _
      · rfl

/-- The source of the first packet. -/
theorem repeats_registerFirst (m : QueueRTCPManager) (na : InetAddress) (tp : BitVec 16)
    (src ssrc : BitVec 32) :
    (m.registerFirst src na tp).2.Repeats na tp ssrc ↔ m.CollisionRepeats na tp src ssrc := by
  obtain ⟨hlocal, hconflicts, -⟩ := m.registerFirst_spec src na tp
  have hprev := kept_registerFirst ControlSource.prevConflict (fun _ _ _ _ => rfl) m src na tp ssrc
  rw [CollisionRepeats, Repeats, Repeats, searchControlConflict, searchControlConflict,
    elsewhere_registerFirst, hlocal, hconflicts, hprev, and_right_comm]

/-- The walk begins behind a sender report. -/
theorem firstReport_walk (buf : Memory) (src : BitVec 32) (na : InetAddress) (tp : BitVec 16)
    (created : Bool) (m : QueueRTCPManager) :
    (firstReport buf src na tp created m).pointer =
      (if type buf 0 = tSR then getLength buf 0 else 0) ∧
      (firstReport buf src na tp created m).visited = if type buf 0 = tSR then [0] else [] := by
  unfold firstReport
  split_ifs <;> exact ⟨rfl, rfl⟩

/-- The first report. -/
theorem firstReport_spec (buf : Memory) (m : QueueRTCPManager) (na : InetAddress)
    (tp : BitVec 16) (src : BitVec 32) :
    (firstReport buf src na tp (m.registerFirst src na tp).1 (m.registerFirst src na tp).2).pointer
        = (if type buf 0 = tSR then getLength buf 0 else 0) ∧
      SameCollisions na tp (m.registerFirst src na tp).2
        (firstReport buf src na tp (m.registerFirst src na tp).1
          (m.registerFirst src na tp).2).manager := by
  have hnew : (m.registerFirst src na tp).1 = true → src ≠ (m.registerFirst src na tp).2.localSSRC →
      ¬ (m.registerFirst src na tp).2.Repeats na tp src := by
    intro hcreated _
    cases h : m.sources src with
    | none => exact not_repeats_registerFirst_of_none h
    | some s =>
        rw [registerFirst_of_some h] at hcreated
        cases hcreated
  set m₁ := (m.registerFirst src na tp).2 with hm₁
  have htimed := (m₁.sameAddresses_recordSRTime src).sameCollisions na tp
  obtain ⟨-, hkeep⟩ := checkSSRCInRTCPPkt_spec (m₁.recordSRTime src) src _ na tp
    (fun hcreated hne => (htimed src).not.mpr (hnew hcreated hne))
  set r := (m₁.recordSRTime src).checkSSRCInRTCPPkt src (m.registerFirst src na tp).1 na tp with hr
  have hreported : SameAddresses r.2
      ((if r.1 then r.2.recordSRTime src else r.2).onGotSR src buf 0) := by
    refine SameAddresses.trans ?_ (sameAddresses_onGotSR _ src buf 0)
    split_ifs
    · exact r.2.sameAddresses_recordSRTime src
    · exact .refl r.2
  unfold firstReport
  split_ifs
  · exact ⟨rfl, (htimed.trans hkeep).trans (hreported.sameCollisions na tp)⟩
  · exact ⟨rfl, htimed⟩

/-- The offset behind the leading reports, SDES and APP packets. -/
def byeOffset (buf : Memory) (len : ℕ) : ℕ :=
  passPackets buf len (fun t => t = tSDES ∨ t = tAPP)
    (passPackets buf len (fun t => t = tRR) (if type buf 0 = tSR then getLength buf 0 else 0))

/-- Reception ends exactly if the packet at that offset does not hold it up. -/
theorem takeInControlPacket_ends_iff (m : QueueRTCPManager) (buf : Memory) (len : ℕ)
    (na : InetAddress) (tp : BitVec 16)
    (haccept : RTCPCompoundHandler.checkCompoundRTCPHeader buf len = some true) :
    (∃ rounds, (m.takeInControlPacket rounds buf len na tp).isSome = true) ↔
      ¬ (byeOffset buf len < len ∧ type buf (byeOffset buf len) = tBYE ∧
        (blockCount buf (byeOffset buf len) = 0 ∨
          m.CollisionRepeats na tp (getSSRC buf 0) (getSSRC buf (byeOffset buf len)))) := by
  set src := getSSRC buf 0 with hsrc
  set w :=
    firstReport buf src na tp (m.registerFirst src na tp).1 (m.registerFirst src na tp).2 with hw
  obtain ⟨hpointer, hsame⟩ := firstReport_spec buf m na tp src
  have hwalk : ∀ rounds, m.takeInControlPacket rounds buf len na tp
      = walkLoops rounds buf len src na tp w := by
    intro rounds
    rw [takeInControlPacket, haccept]
    rfl
  have hrepeats : ∀ ssrc, w.manager.Repeats na tp ssrc ↔ m.CollisionRepeats na tp src ssrc :=
    fun ssrc => (hsame ssrc).trans (m.repeats_registerFirst na tp src ssrc)
  have hp : byeOffset buf len = passPackets buf len (fun t => t = tSDES ∨ t = tAPP)
      (passPackets buf len (fun t => t = tRR) w.pointer) := by
    rw [hpointer]
    rfl
  simp only [hwalk]
  rw [walkLoops_ends_iff buf len src na tp hp, HoldsUp, hrepeats]

/-- A session of the local source 1 that knows of nobody. -/
def alone : QueueRTCPManager where
  sources := fun _ => none
  members := 0
  localSSRC := 1
  conflicts := []
  participants := fun _ _ => []
  participantCount := 0
  sendPacketCount := 0
  ctrlSendCount := 0
  goodbyes := []
  clock := ⟨0, 0⟩

/-- A receiver report of source 7 and a BYE packet of it. -/
def reportAndBye : Memory := .ofOctets [0x80, 201, 0, 1, 0, 0, 0, 7, 0x81, 203, 0, 1, 0, 0, 0, 7]

end QueueRTCPManager
