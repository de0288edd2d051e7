/-
# What RTCP reception reads

The header check follows the length fields of a compound to its end.  Everything else that
`takeInControlPacket` and its handlers (`src/control.cpp`) go by, the block counts, the
lengths of SDES items and of the reason for a BYE, is independent of these fields.

Each function has its list of accesses here, made along the same branches and loops.  An
access belongs to the packet on whose behalf the octets are read.

* `chained_of_accepted` : the packets of an accepted compound end where it ends;
* `CompletePackets` : the packets hold all that is read for them, in every session;
* `rtcp_reads_inside_iff` : reception stays inside the packets exactly of such compounds.
-/
import CcRtp.RtcpTermination

namespace QueueRTCPManager

open RTCPPacket

/-! ## Accesses -/

/-- The reading of `count` octets from `offset` on, on behalf of the packet at `packet`. -/
structure Access where
  packet : ℕ
  offset : ℕ
  count : ℕ
  deriving DecidableEq

/-- The octets lie in the packet and in the compound. -/
def Access.Inside (a : Access) (buf : Memory) (len : ℕ) : Prop :=
  ∀ i, a.offset ≤ i → i < a.offset + a.count →
    i < len ∧ a.packet ≤ i ∧ i < a.packet + getLength buf a.packet

/-- The accesses of a loop: those of its condition, in every state in which it is looked at,
and those of its body. -/
def loopAccesses {σ : Type*} (cond : σ → Bool) (body : σ → Option σ) (test action : σ → List Access)
    (rounds : ℕ) (s : σ) : List Access :=
  (whileStates cond body rounds s).flatMap (fun s => test s ++ if cond s then action s else [])

section Accesses

variable (rounds : ℕ) (buf : Memory) (len : ℕ) (src : BitVec 32) (na : InetAddress) (tp : BitVec 16)

/-- `fh` and `getSSRC()` -/
def headerAccesses (p : ℕ) : List Access := [⟨p, p, 4⟩, ⟨p, p + 4, 4⟩]

/-- `onGotSR`: the sender info. -/
def onGotSRAccesses (p : ℕ) : List Access := [⟨p, p + 8, 20⟩]

/-- `onGotRR`: the SSRC in every round, and the receiver info of the block if it is the local
one. -/
def onGotRRAccesses (m : QueueRTCPManager) (p : ℕ) : List Access :=
  (List.range (blockCount buf p).toNat).flatMap (fun i =>
    ⟨p, p + 4, 4⟩ ::
      if m.localSSRC = getSSRC buf p then [⟨p, p + 8 + 24 * i + 4, 20⟩] else [])

/-- The body of the loop of `onGotSDESChunk`: the type of the item; the length, if it is one
that is known; and the value, if there is a participant to give it to. -/
def itemAccesses (p chunk : ℕ) (s : ChunkState) : List Access :=
  let type := buf (chunk + s.pointer)
  let len := (buf (chunk + s.pointer + 1)).toNat
  let data := buf.octets (chunk + s.pointer + 2) len
  ⟨p, chunk + s.pointer, 1⟩ ::
    if type > sdesItemTypeEND ∧ type ≤ sdesItemTypeLast then
      ⟨p, chunk + s.pointer + 1, 1⟩ ::
        if (itemParticipant s src type data).1.isSome then [⟨p, chunk + s.pointer + 2, len⟩] else []
    else []

/-- The condition of the loop of `onGotSDESChunk`. -/
def chunkCond (s : ChunkState) : Bool := s.pointer < len ∧ s.ended = false

/-- `onGotSDESChunk` -/
def onGotSDESChunkAccesses (m : QueueRTCPManager) (p chunk len : ℕ) : List Access :=
  loopAccesses (chunkCond len) (fun s => some (chunkItem src buf chunk s)) (fun _ => [])
    (itemAccesses buf src p chunk) rounds ⟨4, false, false, (m.source src).participant, m⟩

/-- The loop of `onGotSDES`, for the chunks that are left. -/
def chunkLoopAccesses (p len : ℕ) : ℕ → ℕ → QueueRTCPManager → List Access
  | 0, _, _ => []
  | chunks + 1, pointer, m =>
      let chunk := pointer + 4
      let ssrc := BitVec.ofNat 32 (ofBigEndian (buf.octets chunk 4))
      let m := (m.getSourceBySSRC ssrc).2
      ⟨p, chunk, 4⟩ :: onGotSDESChunkAccesses rounds buf src m p chunk len ++
        (onGotSDESChunk rounds m src buf chunk len).elim [] (fun r =>
          chunkLoopAccesses p len chunks (chunk + len) (r.2.getHello ssrc))

/-- `onGotSDES` -/
def onGotSDESAccesses (m : QueueRTCPManager) (p : ℕ) : List Access :=
  chunkLoopAccesses rounds buf src p (getLength buf p) (max 1 (blockCount buf p).toNat) p m

/-- `getBYE`: the reason, if the packet is longer than its blocks.  It is looked for at
`pointer`, which is behind the packet from the second round on. -/
def getBYEAccesses (pkt pointer : ℕ) : List Access :=
  if blockCount buf pkt ≠ 0 ∧ 4 + 4 * (blockCount buf pkt).toNat < getLength buf pkt then
    [⟨pkt, endpointer buf pkt pointer, 1⟩,
      ⟨pkt, endpointer buf pkt pointer + 1, (buf (endpointer buf pkt pointer)).toNat⟩]
  else []

/-- The conditions of the three loops. -/
def reportCond (w : Walk) : Bool := w.pointer < len ∧ type buf w.pointer = tRR

def descriptionCond (w : Walk) : Bool :=
  w.pointer < len ∧ (type buf w.pointer = tSDES ∨ type buf w.pointer = tAPP)

def byeCond (pkt : ℕ) (w : Walk) : Bool := w.pointer < len ∧ type buf pkt = tBYE

/-- The type of a packet is looked at if the walk has not come to the end. -/
def typeAccesses (pkt : ℕ) (w : Walk) : List Access :=
  if w.pointer < len then [⟨pkt, pkt + 1, 1⟩] else []

/-- The bodies of the three loops. -/
def reportAccesses (w : Walk) : List Access :=
  headerAccesses w.pointer ++ if (checkPacket buf na tp w).1 then
    onGotRRAccesses buf (checkPacket buf na tp w).2 w.pointer else []

def descriptionAccesses (w : Walk) : List Access :=
  headerAccesses w.pointer ++ if (checkPacket buf na tp w).1 ∧ type buf w.pointer = tSDES then
    onGotSDESAccesses rounds buf src (checkPacket buf na tp w).2 w.pointer else []

def byeAccesses (pkt : ℕ) (w : Walk) : List Access :=
  headerAccesses pkt ++ if (checkPacket buf na tp { w with pointer := pkt }).1 then
    getBYEAccesses buf pkt w.pointer else []

/-- The three loops; one that does not end is the last. -/
def walkAccesses (w : Walk) : List Access :=
  loopAccesses (reportCond buf len) (reportBody buf src na tp)
      (fun v => typeAccesses len v.pointer v) (reportAccesses buf na tp) rounds w ++
    (whileLoop (reportCond buf len) (reportBody buf src na tp) rounds w).elim [] (fun w =>
      loopAccesses (descriptionCond buf len) (descriptionBody rounds buf src na tp)
          (fun v => typeAccesses len v.pointer v)
          (descriptionAccesses rounds buf src na tp) rounds w ++
        (whileLoop (descriptionCond buf len) (descriptionBody rounds buf src na tp) rounds w).elim
          [] (fun w => loopAccesses (byeCond buf len w.pointer) (byeBody buf na tp w.pointer)
            (typeAccesses len w.pointer) (byeAccesses buf na tp w.pointer) rounds w))

/-- `takeInControlPacket`, behind the header check. -/
def controlAccesses (m : QueueRTCPManager) : List Access :=
  let src := getSSRC buf 0
  let first := m.registerFirst src na tp
  headerAccesses 0 ++ (if type buf 0 = tSR then onGotSRAccesses 0 else []) ++
    walkAccesses rounds buf len src na tp (firstReport buf src na tp first.1 first.2)

end Accesses

/-! ## Complete packets -/

/-- The items from `x` on lie before `e`, and there is one that ends the chunk. -/
def itemsEnd (buf : Memory) (e x : ℕ) : Bool :=
  if x < e then
    if buf x > sdesItemTypeEND ∧ buf x ≤ sdesItemTypeLast then
      decide (x + 2 + (buf (x + 1)).toNat ≤ e) && itemsEnd buf e (x + 2 + (buf (x + 1)).toNat)
    else if buf x = sdesItemTypeEND then true
    else itemsEnd buf e (x + 1)
  else false
termination_by e - x

/-- The offset behind a sender report that comes first. -/
def reportsOffset (buf : Memory) : ℕ := if type buf 0 = tSR then getLength buf 0 else 0

/-- The offset behind the leading reports. -/
def descriptionsOffset (buf : Memory) (len : ℕ) : ℕ :=
  passPackets buf len (fun t => t = tRR) (reportsOffset buf)

/-- A report with its blocks. -/
def CompleteReport (buf : Memory) (p : ℕ) : Prop :=
  8 + 24 * (blockCount buf p).toNat ≤ getLength buf p

/-- A packet with its SSRC; and a description is of one source at most, and its items end. -/
def CompleteDescription (buf : Memory) (p : ℕ) : Prop :=
  8 ≤ getLength buf p ∧ (type buf p = tSDES →
    (blockCount buf p).toNat ≤ 1 ∧ itemsEnd buf (p + getLength buf p) (p + 8) = true)

/-- A BYE packet with its SSRC; and where it is looked for, at the packet and then at every
multiple of its length behind it, its reason lies in it. -/
def CompleteBye (buf : Memory) (len pkt : ℕ) : Prop :=
  8 ≤ getLength buf pkt ∧
    (blockCount buf pkt ≠ 0 → 4 + 4 * (blockCount buf pkt).toNat < getLength buf pkt →
      ∀ k, pkt + k * getLength buf pkt < len →
        pkt ≤ endpointer buf pkt (pkt + k * getLength buf pkt) ∧
          endpointer buf pkt (pkt + k * getLength buf pkt) + 1 +
            (buf (endpointer buf pkt (pkt + k * getLength buf pkt))).toNat
              ≤ pkt + getLength buf pkt)

/-- **The packets hold all that is read for them.** -/
structure CompletePackets (buf : Memory) (len : ℕ) : Prop where
  first : 8 ≤ getLength buf 0
  senderInfo : type buf 0 = tSR → 28 ≤ getLength buf 0
  reports : ∀ p ∈ passedPackets buf len (fun t => t = tRR) (reportsOffset buf), CompleteReport buf p
  descriptions : ∀ p ∈ passedPackets buf len (fun t => t = tSDES ∨ t = tAPP)
    (descriptionsOffset buf len), CompleteDescription buf p
  bye : byeOffset buf len < len → type buf (byeOffset buf len) = tBYE →
    CompleteBye buf len (byeOffset buf len)

/-! ## The packets of an accepted compound -/

/-- Following the length fields from `p` leads to the end of the compound. -/
inductive Chained (buf : Memory) (len : ℕ) : ℕ → Prop
  | last : Chained buf len len
  | next {p : ℕ} (h : Chained buf len (p + getLength buf p)) : Chained buf len p

section Chain

variable {buf : Memory} {len p : ℕ}

/-- A packet of a chain begins within the datagram. -/
theorem Chained.le (h : Chained buf len p) : p ≤ len := by
  induction h with
  | last => exact le_rfl
  | next h ih => omega

/-- The packet at the offset is not the end. -/
theorem Chained.tail (h : Chained buf len p) (hlt : p < len) :
    Chained buf len (p + getLength buf p) := by
  cases h with
  | last => exact absurd hlt (lt_irrefl _)
  | next h => exact h

/-- The loop of the header check follows the length fields. -/
theorem chained_of_headerLoop (hlen : len + 2 ^ 18 < 2 ^ 32) (rounds : ℕ) :
    ∀ pointer : BitVec 32, pointer.toNat ≤ len →
      ∀ last, RTCPCompoundHandler.headerLoop buf len rounds pointer = some last →
        last.toNat = len → Chained buf len (pointer.toNat + getLength buf pointer.toNat) := by
  induction rounds with
  | zero =>
      intro pointer _ last h
      cases h
  | succ rounds ih =>
      intro pointer hle last h hlast
      have hbounds := getLength_bounds buf pointer.toNat
      have hnext : (pointer + BitVec.ofNat 32 (getLength buf pointer.toNat)).toNat
          = pointer.toNat + getLength buf pointer.toNat := by
        rw [BitVec.toNat_add, BitVec.toNat_ofNat]
        omega
      rw [RTCPCompoundHandler.headerLoop] at h
      rw [← hnext]
      split_ifs at h with hgo
      · exact .next (ih _ hgo.1.le last h hlast)
      · cases h
        rw [hlast]
        exact .last

/-- **An accepted compound is a chain of packets.** -/
theorem chained_of_accepted (hlen : len + 2 ^ 18 < 2 ^ 32)
    (h : RTCPCompoundHandler.checkCompoundRTCPHeader buf len = some true) :
    0 < len ∧ Chained buf len 0 := by
  rw [RTCPCompoundHandler.checkCompoundRTCPHeader] at h
  split_ifs at h with hmask
  · cases h
  · obtain ⟨last, hlast, heq⟩ := Option.map_eq_some_iff.mp h
    have htail := chained_of_headerLoop hlen (2 ^ 30) 0 (Nat.zero_le _) last hlast
      (of_decide_eq_true heq)
    have hfour := (getLength_bounds buf (0 : BitVec 32).toNat).1
    exact ⟨Nat.lt_of_lt_of_le (by omega) htail.le, .next htail⟩

/-- An access inside the packet is one inside the compound. -/
theorem Chained.inside (h : Chained buf len p) (hlt : p < len) {offset count : ℕ}
    (hoffset : p ≤ offset) (hend : offset + count ≤ p + getLength buf p) :
    Access.Inside ⟨p, offset, count⟩ buf len := by
  intro i hi hi'
  have hle := (h.tail hlt).le
  dsimp only at hi hi' ⊢
  omega

end Chain

/-! ## Complete packets are not left -/

section Inside

variable {rounds : ℕ} {buf : Memory} {len : ℕ} {src : BitVec 32} {na : InetAddress} {tp : BitVec 16}
  {m : QueueRTCPManager} {p : ℕ} {w : Walk}

/-- **The accesses of a loop**, by an invariant. -/
theorem forall_mem_loopAccesses {σ : Type*} {cond : σ → Bool} {body : σ → Option σ}
    {test action : σ → List Access} (Inv : σ → Prop) (P : Access → Prop)
    (hbody : ∀ s t, Inv s → cond s = true → body s = some t → Inv t)
    (htest : ∀ s, Inv s → ∀ a ∈ test s, P a)
    (haction : ∀ s, Inv s → cond s = true → ∀ a ∈ action s, P a) {s : σ} (hs : Inv s) :
    ∀ a ∈ loopAccesses cond body test action rounds s, P a := by
  intro a ha
  obtain ⟨t, ht, hat⟩ := List.mem_flatMap.mp ha
  have hinv := whileStates_invariant Inv hbody rounds hs ht
  rcases List.mem_append.mp hat with hat | hat
  · exact htest t hinv a hat
  · split_ifs at hat with hcond
    · exact haction t hinv hcond a hat
    · cases hat

/-- The header of a packet of the chain is read within the datagram. -/
theorem headerAccesses_inside (h : Chained buf len p) (hlt : p < len)
    (height : 8 ≤ getLength buf p) :
    ∀ a ∈ headerAccesses p, a.Inside buf len := by
  intro a ha
  rcases List.mem_cons.mp ha with rfl | ha
  · exact h.inside hlt le_rfl (by omega)
  · rw [List.mem_singleton] at ha
    subst ha
    exact h.inside hlt (by omega) (by omega)

/-- So is the type that a loop looks at. -/
theorem typeAccesses_inside {pkt : ℕ} (h : Chained buf len pkt)
    (hlt : w.pointer < len → pkt < len) :
    ∀ a ∈ typeAccesses len pkt w, a.Inside buf len := by
  intro a ha
  rw [typeAccesses] at ha
  split_ifs at ha with hpointer
  · rw [List.mem_singleton] at ha
    subst ha
    have hfour := (getLength_bounds buf pkt).1
    exact h.inside (hlt hpointer) (by omega) (by omega)
  · cases ha

/-- The blocks of a complete receiver report are. -/
theorem onGotRRAccesses_inside (h : Chained buf len p) (hlt : p < len) (hp : CompleteReport buf p) :
    ∀ a ∈ onGotRRAccesses buf m p, a.Inside buf len := by
  intro a ha
  rw [CompleteReport] at hp
  obtain ⟨i, hi, hai⟩ := List.mem_flatMap.mp ha
  rw [List.mem_range] at hi
  rcases List.mem_cons.mp hai with rfl | hai
  · exact h.inside hlt (by omega) (by omega)
  · split_ifs at hai
    · rw [List.mem_singleton] at hai
      subst hai
      exact h.inside hlt (by omega) (by omega)
    · cases hai

/-- What `itemsEnd` says of the item at hand. -/
theorem itemsEnd_cases {e x : ℕ} (h : itemsEnd buf e x = true) :
    x < e ∧ ((buf x > sdesItemTypeEND ∧ buf x ≤ sdesItemTypeLast ∧
        x + 2 + (buf (x + 1)).toNat ≤ e ∧ itemsEnd buf e (x + 2 + (buf (x + 1)).toNat) = true) ∨
      (¬ (buf x > sdesItemTypeEND ∧ buf x ≤ sdesItemTypeLast) ∧
        (buf x = sdesItemTypeEND ∨
        (buf x ≠ sdesItemTypeEND ∧ itemsEnd buf e (x + 1) = true)))) := by
  rw [itemsEnd] at h
  split_ifs at h with hlt hknown hend
  · rw [Bool.and_eq_true, decide_eq_true_iff] at h
    exact ⟨hlt, Or.inl ⟨hknown.1, hknown.2, h.1, h.2⟩⟩
  · exact ⟨hlt, Or.inr ⟨hknown, Or.inl hend⟩⟩
  · exact ⟨hlt, Or.inr ⟨hknown, Or.inr ⟨hend, h⟩⟩⟩

/-- The items of a chunk, up to the one that ends it. -/
theorem onGotSDESChunkAccesses_inside (h : Chained buf len p) (hlt : p < len)
    (hitems : itemsEnd buf (p + getLength buf p) (p + 8) = true) :
    ∀ a ∈ onGotSDESChunkAccesses rounds buf src m p (p + 4) (getLength buf p),
      a.Inside buf len := by
  refine forall_mem_loopAccesses (fun s : ChunkState => s.ended = false →
    itemsEnd buf (p + getLength buf p) (p + 4 + s.pointer) = true) _ ?_ ?_ ?_ (fun _ => hitems)
  · intro s t hs hcond ht hend
    cases ht
    obtain ⟨-, hopen⟩ := of_decide_eq_true hcond
    obtain ⟨-, ⟨hpos, hlast, -, hnext⟩ | ⟨hother, hstop | ⟨hne, hnext⟩⟩⟩ :=
      itemsEnd_cases (hs hopen)
    · rw [chunkItem, if_pos ⟨hpos, hlast⟩]
      show itemsEnd buf _ (p + 4 + (s.pointer + 2 + _)) = true
      rw [← Nat.add_assoc, ← Nat.add_assoc]
      exact hnext
    · rw [chunkItem, if_neg hother, if_pos hstop] at hend
      cases hend
    · rw [chunkItem, if_neg hother, if_neg hne]
      exact hnext
  · intro s _ a ha
    cases ha
  · intro s hs hcond a ha
    obtain ⟨hltx, hitem⟩ := itemsEnd_cases (hs (of_decide_eq_true hcond).2)
    rcases List.mem_cons.mp ha with rfl | ha
    · exact h.inside hlt (by omega) (by omega)
    · rcases hitem with ⟨hpos, hlast, hfits, -⟩ | ⟨hother, -⟩
      · rw [if_pos ⟨hpos, hlast⟩] at ha
        rcases List.mem_cons.mp ha with rfl | ha
        · exact h.inside hlt (by omega) (by omega)
        · split_ifs at ha
          · rw [List.mem_singleton] at ha
            subst ha
            exact h.inside hlt (by omega) hfits
          · cases ha
      · rw [if_neg hother] at ha
        cases ha

/-- The items of a complete description with one chunk are. -/
theorem onGotSDESAccesses_inside (h : Chained buf len p) (hlt : p < len)
    (height : 8 ≤ getLength buf p) (hone : (blockCount buf p).toNat ≤ 1)
    (hitems : itemsEnd buf (p + getLength buf p) (p + 8) = true) :
    ∀ a ∈ onGotSDESAccesses rounds buf src m p, a.Inside buf len := by
  intro a ha
  rw [onGotSDESAccesses, Nat.max_eq_left hone, chunkLoopAccesses] at ha
  rcases List.mem_append.mp ha with ha | ha
  · rcases List.mem_cons.mp ha with rfl | ha
    · exact h.inside hlt (by omega) (by omega)
    · exact onGotSDESChunkAccesses_inside h hlt hitems a ha
  · cases hchunk : onGotSDESChunk rounds (m.getSourceBySSRC (BitVec.ofNat 32
        (ofBigEndian (buf.octets (p + 4) 4)))).2 src buf (p + 4) (getLength buf p) with
    | none =>
        rw [hchunk] at ha
        cases ha
    | some r =>
        rw [hchunk] at ha
        cases ha

/-- The reason of a complete BYE packet is. -/
theorem getBYEAccesses_inside (h : Chained buf len p) (hlt : p < len) (hp : CompleteBye buf len p)
    {k : ℕ} (hk : p + k * getLength buf p < len) :
    ∀ a ∈ getBYEAccesses buf p (p + k * getLength buf p), a.Inside buf len := by
  intro a ha
  rw [getBYEAccesses] at ha
  split_ifs at ha with hreason
  · obtain ⟨hle, hend⟩ := hp.2 hreason.1 hreason.2 k hk
    rcases List.mem_cons.mp ha with rfl | ha
    · exact h.inside hlt hle (by omega)
    · rw [List.mem_singleton] at ha
      subst ha
      exact h.inside hlt (by omega) hend
  · cases ha

/-- The conditions of the first two loops ask for packets of some types. -/
theorem reportCond_iff (w : Walk) : reportCond buf len w = true ↔
    w.pointer < len ∧ (fun t : UInt8 => decide (t = tRR)) (type buf w.pointer) = true := by
  rw [reportCond, decide_eq_true_iff, decide_eq_true_iff]

/-- The condition of the loop over the descriptions, as in the walk. -/
theorem descriptionCond_iff (w : Walk) : descriptionCond buf len w = true ↔
    w.pointer < len ∧
      (fun t : UInt8 => decide (t = tSDES ∨ t = tAPP)) (type buf w.pointer) = true := by
  rw [descriptionCond, decide_eq_true_iff, decide_eq_true_iff]

/-- **A loop over packets of some types** stays inside them if each of them is complete. -/
theorem packetLoop_inside {cond : Walk → Bool} {body : Walk → Option Walk}
    {action : Walk → List Access} {types : UInt8 → Bool} {C : ℕ → Prop}
    (hcond : ∀ w, cond w = true ↔ w.pointer < len ∧ types (type buf w.pointer) = true)
    (hbody : ∀ w w', body w = some w' → GoesOn buf na tp w w')
    (haction : ∀ w, Chained buf len w.pointer → w.pointer < len → C w.pointer →
      ∀ a ∈ action w, a.Inside buf len)
    (hchain : Chained buf len w.pointer)
    (hall : ∀ q ∈ passedPackets buf len types w.pointer, C q) :
    (∀ a ∈ loopAccesses cond body (fun v => typeAccesses len v.pointer v) action rounds w,
        a.Inside buf len) ∧
      ∀ w', whileLoop cond body rounds w = some w' → Chained buf len w'.pointer := by
  set Inv : Walk → Prop := fun v => Chained buf len v.pointer ∧
    ∀ q ∈ passedPackets buf len types v.pointer, C q with hInv
  have hkeep : ∀ v v', Inv v → cond v = true → body v = some v' → Inv v' := by
    rintro v v' ⟨hv, hq⟩ hc hv'
    obtain ⟨hlt, htype⟩ := (hcond v).mp hc
    have hnext := (hbody v v' hv').pointer
    rw [passedPackets_of_true ⟨hlt, htype⟩] at hq
    rw [hInv]
    dsimp only
    rw [hnext]
    exact ⟨hv.tail hlt, fun q hmem => hq q (List.mem_cons_of_mem _ hmem)⟩
  constructor
  · refine forall_mem_loopAccesses Inv _ hkeep ?_ ?_ ⟨hchain, hall⟩
    · rintro v ⟨hv, -⟩
      exact typeAccesses_inside hv id
    · rintro v ⟨hv, hq⟩ hc
      have hgo := (hcond v).mp hc
      refine haction v hv hgo.1 (hq v.pointer ?_)
      rw [passedPackets_of_true hgo]
      exact List.mem_cons_self
  · intro w' hw'
    exact (whileLoop_invariant Inv hkeep rounds ⟨hchain, hall⟩ hw').1.1

/-- What a round over a complete report reads. -/
theorem reportAccesses_inside (h : Chained buf len w.pointer) (hlt : w.pointer < len)
    (hp : CompleteReport buf w.pointer) : ∀ a ∈ reportAccesses buf na tp w, a.Inside buf len := by
  intro a ha
  rcases List.mem_append.mp ha with ha | ha
  · rw [CompleteReport] at hp
    exact headerAccesses_inside h hlt (by omega) a ha
  · split_ifs at ha
    · exact onGotRRAccesses_inside h hlt hp a ha
    · cases ha

/-- What a round over a complete description reads. -/
theorem descriptionAccesses_inside (h : Chained buf len w.pointer) (hlt : w.pointer < len)
    (hp : CompleteDescription buf w.pointer) :
    ∀ a ∈ descriptionAccesses rounds buf src na tp w, a.Inside buf len := by
  intro a ha
  rcases List.mem_append.mp ha with ha | ha
  · exact headerAccesses_inside h hlt hp.1 a ha
  · split_ifs at ha with hsdes
    · obtain ⟨hone, hitems⟩ := hp.2 hsdes.2
      exact onGotSDESAccesses_inside h hlt hp.1 hone hitems a ha
    · cases ha

/-- **The loop over BYE packets** stays inside the packet that it looks at. -/
theorem byeLoop_inside (h : Chained buf len w.pointer)
    (hp : w.pointer < len → type buf w.pointer = tBYE → CompleteBye buf len w.pointer) :
    ∀ a ∈ loopAccesses (byeCond buf len w.pointer) (byeBody buf na tp w.pointer)
      (typeAccesses len w.pointer) (byeAccesses buf na tp w.pointer) rounds w,
        a.Inside buf len := by
  set pkt := w.pointer with hpkt
  refine forall_mem_loopAccesses (fun v : Walk => ∃ k, v.pointer = pkt + k * getLength buf pkt) _
    ?_ ?_ ?_ ⟨0, by rw [Nat.zero_mul, Nat.add_zero]⟩
  · rintro v v' ⟨k, hk⟩ _ hv'
    obtain ⟨v'', hv'', -, hnext⟩ := byeBody_spec buf na tp pkt v
    obtain rfl : v'' = v' := Option.some_inj.mp (hv''.symm.trans hv')
    split_ifs at hnext
    · exact ⟨k, hnext.trans hk⟩
    · refine ⟨k + 1, ?_⟩
      rw [hnext, hk, Nat.succ_mul, Nat.add_assoc]
  · rintro v ⟨k, hk⟩
    refine typeAccesses_inside h (fun hlt => ?_)
    exact Nat.lt_of_le_of_lt (Nat.le_add_right _ _) (hk ▸ hlt)
  · rintro v ⟨k, hk⟩ hcond a ha
    obtain ⟨hlt, hbye⟩ := of_decide_eq_true hcond
    rw [hk] at hlt
    have hpkt_lt : pkt < len := Nat.lt_of_le_of_lt (Nat.le_add_right _ _) hlt
    have hcomplete := hp hpkt_lt hbye
    rcases List.mem_append.mp ha with ha | ha
    · exact headerAccesses_inside h hpkt_lt hcomplete.1 a ha
    · split_ifs at ha
      · rw [hk] at ha
        exact getBYEAccesses_inside h hpkt_lt hcomplete hlt a ha
      · cases ha

/-- **Complete packets are not left**, in no session. -/
theorem controlAccesses_inside (hchain : Chained buf len 0) (hpos : 0 < len)
    (h : CompletePackets buf len) (rounds : ℕ) (m : QueueRTCPManager) (na : InetAddress)
    (tp : BitVec 16) : ∀ a ∈ controlAccesses rounds buf len na tp m, a.Inside buf len := by
  obtain ⟨hpointer, -⟩ := firstReport_spec buf m na tp (getSSRC buf 0)
  set w := firstReport buf (getSSRC buf 0) na tp (m.registerFirst (getSSRC buf 0) na tp).1
    (m.registerFirst (getSSRC buf 0) na tp).2 with hw
  have hstart : w.pointer = reportsOffset buf := hpointer
  have hchainw : Chained buf len w.pointer := by
    rw [hstart, reportsOffset]
    split_ifs
    · have htail := hchain.tail hpos
      rwa [Nat.zero_add] at htail
    · exact hchain
  obtain ⟨hreports, hchain₁⟩ := packetLoop_inside reportCond_iff
    (fun w w' hbody => goesOn_of_reportBody hbody) (fun w => reportAccesses_inside) hchainw
    (hstart ▸ h.reports)
  intro a ha
  rcases List.mem_append.mp ha with ha | ha
  · rcases List.mem_append.mp ha with ha | ha
    · exact headerAccesses_inside hchain hpos h.first a ha
    · split_ifs at ha with hsr
      · rw [onGotSRAccesses, List.mem_singleton] at ha
        subst ha
        have hinfo := h.senderInfo hsr
        exact hchain.inside hpos (by omega) (by omega)
      · cases ha
  · rcases List.mem_append.mp ha with ha | ha
    · exact hreports a ha
    · cases hw₁ : whileLoop (reportCond buf len)
        (reportBody buf (getSSRC buf 0) na tp) rounds w with
      | none =>
          rw [hw₁] at ha
          cases ha
      | some w₁ =>
          rw [hw₁] at ha
          have hp₁ : w₁.pointer = descriptionsOffset buf len := by
            rw [(reportLoop_spec hw₁).1, hstart]
            rfl
          obtain ⟨hdescriptions, hchain₂⟩ := packetLoop_inside descriptionCond_iff
            (fun w w' hbody => goesOn_of_descriptionBody hbody)
            (fun w => descriptionAccesses_inside) (hchain₁ w₁ hw₁) (hp₁ ▸ h.descriptions)
          rcases List.mem_append.mp ha with ha | ha
          · exact hdescriptions a ha
          · cases hw₂ : whileLoop (descriptionCond buf len)
                (descriptionBody rounds buf (getSSRC buf 0) na tp) rounds w₁ with
            | none =>
                rw [hw₂] at ha
                cases ha
            | some w₂ =>
                rw [hw₂] at ha
                have hp₂ : w₂.pointer = byeOffset buf len := by
                  rw [(descriptionLoop_spec hw₂).1, hp₁]
                  rfl
                refine byeLoop_inside (hchain₂ w₂ hw₂) ?_ a ha
                rw [hp₂]
                exact h.bye

end Inside

/-! ## A session that reads everything

Whether a handler is called depends on collisions, and whether it reads the blocks and the
values of items depends on the local SSRC and on the participants that are known.  Nothing
that reception does takes any of this back. -/

/-- The local SSRC is the same, and the participants that were known are known. -/
structure Keeps (m m' : QueueRTCPManager) : Prop where
  localSSRC : m'.localSSRC = m.localSSRC
  participant : ∀ x, (m.source x).participant.isSome = true →
    (m'.source x).participant.isSome = true

namespace Keeps

variable {m m' m'' : QueueRTCPManager}

/-- Nothing happens. -/
theorem refl (m : QueueRTCPManager) : Keeps m m := ⟨rfl, fun _ => id⟩

/-- Two steps, one after the other. -/
theorem trans (h₁ : Keeps m m') (h₂ : Keeps m' m'') : Keeps m m'' :=
  ⟨h₂.localSSRC.trans h₁.localSSRC, fun x hx => h₂.participant x (h₁.participant x hx)⟩

end Keeps

/-- Introducing participants keeps those that are there. -/
theorem Introduces.keeps {m m' : QueueRTCPManager} (h : Introduces m m') : Keeps m m' :=
  ⟨h.localSSRC, h.participant⟩

section Keeping

variable {rounds : ℕ} {buf : Memory} {len : ℕ} {src ssrc : BitVec 32} {na : InetAddress}
  {tp : BitVec 16} {m m' : QueueRTCPManager} {p : ℕ} {w w' : Walk}

/-- A source is changed, but keeps its participant. -/
theorem keeps_modifySource (m : QueueRTCPManager) (ssrc : BitVec 32)
    (f : ControlSource → ControlSource)
    (hf : ∀ s, s.participant.isSome = true → (f s).participant.isSome = true) :
    Keeps m (m.modifySource ssrc f) := by
  refine ⟨rfl, fun x hx => ?_⟩
  by_cases hxs : x = ssrc
  · subst hxs
    rw [source_modifySource_self]
    exact hf _ hx
  · rw [source_modifySource_of_ne m hxs]
    exact hx

/-- The look for collisions keeps the participants, whatever it finds. -/
theorem keeps_checkSSRCInRTCPPkt (m : QueueRTCPManager) (ssrc : BitVec 32) (isNew : Bool)
    (na : InetAddress) (tp : BitVec 16) : Keeps m (m.checkSSRCInRTCPPkt ssrc isNew na tp).2 := by
  rcases m.checkSSRCInRTCPPkt_cases ssrc isNew na tp with hsame | ⟨-, hremote⟩ | ⟨-, hrenewed⟩
  · rw [hsame]
    exact .refl m
  · rw [hremote]
    exact m.keeps_modifySource ssrc _ (fun _ => id)
  · rw [hrenewed]
    have hbye : Keeps m (m.addConflict (m.source ssrc)).dispatchBYE :=
      ⟨(m.addConflict (m.source ssrc)).sameAddresses_dispatchBYE.localSSRC, fun x hx => by
        rw [source_dispatchBYE]
        exact hx⟩
    refine hbye.trans ?_
    dsimp only
    apply keeps_modifySource
    intro s hs
    exact hs

/-- So does the one in front of a packet. -/
theorem keeps_checkPacket (buf : Memory) (na : InetAddress) (tp : BitVec 16) (w : Walk) :
    Keeps w.manager (checkPacket buf na tp w).2 :=
  (w.manager.introduces_getSourceBySSRC _).keeps.trans (keeps_checkSSRCInRTCPPkt _ _ _ na tp)

/-- The time of a sender report is no participant. -/
theorem keeps_recordSRTime (m : QueueRTCPManager) (ssrc : BitVec 32) :
    Keeps m (m.recordSRTime ssrc) :=
  m.keeps_modifySource ssrc _ (fun _ => id)

/-- A sender report keeps the participants. -/
theorem keeps_onGotSR (m : QueueRTCPManager) (src : BitVec 32) (buf : Memory) (p : ℕ) :
    Keeps m (m.onGotSR src buf p) :=
  m.keeps_modifySource src _ (fun _ => id)

/-- A receiver report keeps the participants. -/
theorem keeps_onGotRR (m : QueueRTCPManager) (src : BitVec 32) (buf : Memory) (p : ℕ) :
    Keeps m (m.onGotRR src buf p) := by
  rw [onGotRR_eq]
  split_ifs
  · exact m.keeps_modifySource src _ (fun _ => id)
  · exact .refl m

/-- A round over the reports keeps them. -/
theorem keeps_reportBody (h : reportBody buf src na tp w = some w') :
    Keeps w.manager w'.manager := by
  have hkeep := keeps_checkPacket buf na tp w
  rw [reportBody_eq, Option.some_inj] at h
  subst h
  dsimp only [advance]
  split_ifs
  · exact hkeep.trans (keeps_onGotRR _ src buf w.pointer)
  · exact hkeep

/-- A round over the descriptions keeps them. -/
theorem keeps_descriptionBody (h : descriptionBody rounds buf src na tp w = some w') :
    Keeps w.manager w'.manager := by
  have hkeep := keeps_checkPacket buf na tp w
  rw [descriptionBody_eq] at h
  split_ifs at h
  · obtain ⟨⟨cname, m'⟩, hsdes, rfl⟩ := Option.map_eq_some_iff.mp h
    exact hkeep.trans (introduces_chunkLoop _ hsdes).keeps
  · cases h
    exact hkeep

end Keeping

/-- No source is in a repeating collision, the local SSRC is the given one, and the participant
behind `src` is known. -/
structure Attentive (na : InetAddress) (tp : BitVec 16) (localSSRC src : BitVec 32)
    (m : QueueRTCPManager) : Prop where
  collisions : ∀ ssrc, ¬ m.Repeats na tp ssrc
  localSSRC : m.localSSRC = localSSRC
  participant : (m.source src).participant.isSome = true

/-- Such a session. -/
def attentive (localSSRC src : BitVec 32) : QueueRTCPManager :=
  { alone with
    localSSRC := localSSRC
    sources :=
      Function.update (fun _ => none) src (some { ControlSource.new with participant := some 0 })
    participantCount := 1 }

section Reading

variable {rounds : ℕ} {buf : Memory} {len : ℕ} {l src : BitVec 32} {na : InetAddress}
  {tp : BitVec 16} {m m' : QueueRTCPManager} {p : ℕ} {w w' : Walk}

/-- Such a step leaves the manager attentive. -/
theorem Attentive.keeps (h : Attentive na tp l src m) (hsame : SameCollisions na tp m m')
    (hkeep : Keeps m m') : Attentive na tp l src m' :=
  ⟨fun ssrc hrepeats => h.collisions ssrc ((hsame ssrc).mp hrepeats),
    hkeep.localSSRC.trans h.localSSRC, hkeep.participant src h.participant⟩

/-- The check of a packet succeeds. -/
theorem Attentive.checkPacket (h : Attentive na tp l src w.manager) (buf : Memory) :
    (checkPacket buf na tp w).1 = true ∧ Attentive na tp l src (checkPacket buf na tp w).2 := by
  obtain ⟨hcheck, hsame⟩ := checkPacket_spec buf na tp w
  exact ⟨hcheck.mpr (h.collisions _), h.keeps hsame (keeps_checkPacket buf na tp w)⟩

/-- The sources of this manager. -/
theorem source_attentive (l src x : BitVec 32) :
    (attentive l src).source x
      = if x = src then { ControlSource.new with participant := some 0 } else .new := by
  show ((Function.update (fun _ => none) src _ : BitVec 32 → Option ControlSource) x).getD .new = _
  split_ifs with hx
  · rw [hx, Function.update_self]
    rfl
  · rw [Function.update_of_ne hx]
    rfl

/-- The manager is as its name says. -/
theorem attentive_attentive (na : InetAddress) (tp : BitVec 16) (l src : BitVec 32) :
    Attentive na tp l src (attentive l src) := by
  refine ⟨fun ssrc => ?_, rfl, ?_⟩
  · rintro ⟨-, hrepeat⟩
    have hprev : ((attentive l src).source ssrc).prevConflict = none := by
      rw [source_attentive]
      split_ifs <;> rfl
    rw [hprev] at hrepeat
    split_ifs at hrepeat
    · cases hrepeat
    · cases hrepeat
  · rw [source_attentive, if_pos rfl]
    rfl

/-- The walk begins attentively. -/
theorem attentive_firstReport (h : Attentive na tp l src m) :
    Attentive na tp l src (firstReport buf src na tp (m.registerFirst src na tp).1
      (m.registerFirst src na tp).2).manager := by
  have hregister : Keeps m (m.registerFirst src na tp).2 := by
    cases hs : m.sources src with
    | none =>
        rw [registerFirst_of_none hs]
        refine (m.introduces_getSourceBySSRC src).keeps.trans
          (Keeps.trans ?_ (introduces_getHello _ src).keeps)
        exact keeps_modifySource _ src _ (fun _ => id)
    | some s =>
        rw [registerFirst_of_some hs]
        split_ifs
        · dsimp only
          apply keeps_modifySource
          intro s hs
          exact hs
        · exact .refl m
  have hrepeats : ∀ ssrc, ¬ (m.registerFirst src na tp).2.Repeats na tp ssrc := by
    intro ssrc hr
    exact h.collisions ssrc ((m.repeats_registerFirst na tp src ssrc).mp hr).1
  have hfirst : Attentive na tp l src (m.registerFirst src na tp).2 :=
    ⟨hrepeats, hregister.localSSRC.trans h.localSSRC, hregister.participant src h.participant⟩
  refine hfirst.keeps (firstReport_spec buf m na tp src).2 ?_
  set m₁ := (m.registerFirst src na tp).2
  have htimed : Keeps m₁ (m₁.recordSRTime src) := m₁.keeps_recordSRTime src
  set r := (m₁.recordSRTime src).checkSSRCInRTCPPkt src (m.registerFirst src na tp).1 na tp with hr
  have hchecked : Keeps (m₁.recordSRTime src) r.2 := keeps_checkSSRCInRTCPPkt _ src _ na tp
  have hreported : Keeps r.2 ((if r.1 then r.2.recordSRTime src else r.2).onGotSR src buf 0) := by
    refine Keeps.trans ?_ (keeps_onGotSR _ src buf 0)
    split_ifs
    · exact r.2.keeps_recordSRTime src
    · exact .refl r.2
  unfold firstReport
  split_ifs
  · exact (htimed.trans hchecked).trans hreported
  · exact htimed

/-- **A loop over packets of some types comes to every one of them.** -/
theorem exists_mem_whileStates {cond : Walk → Bool} {body : Walk → Option Walk}
    {types : UInt8 → Bool} (Inv : Walk → Prop)
    (hcond : ∀ w, cond w = true ↔ w.pointer < len ∧ types (type buf w.pointer) = true)
    (hbody : ∀ w, Inv w → ∃ w', body w = some w' ∧ Inv w' ∧
      w'.pointer = w.pointer + getLength buf w.pointer) (rounds : ℕ) :
    ∀ w, Inv w → len ≤ w.pointer + rounds → ∀ p ∈ passedPackets buf len types w.pointer,
      ∃ v ∈ whileStates cond body rounds w, Inv v ∧ v.pointer = p ∧ cond v = true := by
  induction rounds with
  | zero =>
      intro w _ hle p hp
      rw [passedPackets, if_neg (fun hgo => by have := hgo.1; omega)] at hp
      cases hp
  | succ rounds ih =>
      intro w hw hle p hp
      by_cases hgo : w.pointer < len ∧ types (type buf w.pointer) = true
      · have htrue := (hcond w).mpr hgo
        rw [passedPackets_of_true hgo, List.mem_cons] at hp
        rcases hp with rfl | hp
        · exact ⟨w, self_mem_whileStates _ w, hw, rfl, htrue⟩
        · obtain ⟨w', hw', hinv, hnext⟩ := hbody w hw
          have hfour := (getLength_bounds buf w.pointer).1
          rw [← hnext] at hp
          obtain ⟨v, hv, hrest⟩ := ih w' hinv (by omega) p hp
          exact ⟨v, mem_whileStates_of_true htrue hw' hv, hrest⟩
      · rw [passedPackets, if_neg hgo] at hp
        cases hp

/-- What the body of a loop reads in one of its states. -/
theorem mem_loopAccesses {σ : Type*} {cond : σ → Bool} {body : σ → Option σ}
    {test action : σ → List Access} {s v : σ} (hv : v ∈ whileStates cond body rounds s)
    (hcond : cond v = true) {a : Access} (ha : a ∈ action v) :
    a ∈ loopAccesses cond body test action rounds s := by
  refine List.mem_flatMap.mpr ⟨v, hv, List.mem_append_right _ ?_⟩
  rwa [if_pos hcond]

/-- The octets of an access that lies inside. -/
theorem Access.Inside.last {packet offset count : ℕ}
    (h : Access.Inside ⟨packet, offset, count⟩ buf len) (hpos : 0 < count) :
    packet ≤ offset ∧ offset + count ≤ packet + getLength buf packet := by
  have hfirst := h offset le_rfl (Nat.lt_add_of_pos_right hpos)
  have hlast := h (offset + count - 1) (by dsimp only; omega) (by dsimp only; omega)
  dsimp only at hfirst hlast
  omega

/-- The header of a packet that is looked at. -/
theorem eight_le_of_inside (h : ∀ a ∈ headerAccesses p, a.Inside buf len) :
    8 ≤ getLength buf p := by
  have hssrc := (h ⟨p, p + 4, 4⟩ (by simp [headerAccesses])).last (by omega)
  omega

/-- What an item does to the loop, once the participant is known. -/
theorem chunkItem_of_part (src : BitVec 32) (buf : Memory) (chunk : ℕ) {s : ChunkState}
    (hpart : s.part.isSome = true) :
    (∀ type data, (itemParticipant s src type data).1 = s.part) ∧
      (chunkItem src buf chunk s).part = s.part ∧
      (buf (chunk + s.pointer) > sdesItemTypeEND ∧ buf (chunk + s.pointer) ≤ sdesItemTypeLast →
        (chunkItem src buf chunk s).ended = s.ended ∧ (chunkItem src buf chunk s).pointer
          = s.pointer + 2 + (buf (chunk + s.pointer + 1)).toNat) ∧
      (¬ (buf (chunk + s.pointer) > sdesItemTypeEND ∧ buf (chunk + s.pointer) ≤ sdesItemTypeLast) →
        buf (chunk + s.pointer) ≠ sdesItemTypeEND →
        (chunkItem src buf chunk s).ended = s.ended ∧
          (chunkItem src buf chunk s).pointer = s.pointer + 1) := by
  have hkept : ∀ type data, (itemParticipant s src type data).1 = s.part := by
    intro type data
    rw [itemParticipant, if_neg]
    rintro ⟨hnone, -⟩
    rw [hnone] at hpart
    cases hpart
  refine ⟨hkept, ?_, ?_, ?_⟩
  · rw [chunkItem]
    split_ifs
    · exact hkept _ _
    · rfl
    · rfl
  · intro hknown
    rw [chunkItem, if_pos hknown]
    exact ⟨rfl, rfl⟩
  · intro hother hne
    rw [chunkItem, if_neg hother, if_neg hne]
    exact ⟨rfl, rfl⟩

/-- **The items of a chunk end inside the packet** if all that is read of them lies inside, and
the values are read. -/
theorem itemsEnd_of_inside (rounds : ℕ) :
    ∀ s : ChunkState, s.ended = false → s.part.isSome = true → s.pointer + 4 ≤ getLength buf p →
      getLength buf p ≤ s.pointer + rounds →
      (∀ a ∈ loopAccesses (chunkCond (getLength buf p))
        (fun s => some (chunkItem src buf (p + 4) s)) (fun _ => []) (itemAccesses buf src p (p + 4))
        rounds s, a.Inside buf len) →
      itemsEnd buf (p + getLength buf p) (p + 4 + s.pointer) = true := by
  induction rounds with
  | zero =>
      intro s _ _ hroom hle
      omega
  | succ rounds ih =>
      intro s hopen hpart hroom hle h
      have hcond : chunkCond (getLength buf p) s = true := decide_eq_true ⟨by omega, hopen⟩
      obtain ⟨hkept, hpart', hknown', hother'⟩ := chunkItem_of_part src buf (p + 4) hpart
      set t := chunkItem src buf (p + 4) s with ht
      have hitem : ∀ a ∈ itemAccesses buf src p (p + 4) s, a.Inside buf len := by
        intro a ha
        exact h a (mem_loopAccesses (self_mem_whileStates _ s) hcond ha)
      have hrest : ∀ a ∈ loopAccesses (chunkCond (getLength buf p))
          (fun s => some (chunkItem src buf (p + 4) s)) (fun _ => [])
            (itemAccesses buf src p (p + 4))
          rounds t, a.Inside buf len := by
        intro a ha
        obtain ⟨v, hv, hav⟩ := List.mem_flatMap.mp ha
        refine h a (List.mem_flatMap.mpr ⟨v, ?_, hav⟩)
        refine mem_whileStates_of_true hcond ?_ hv
        rfl
      have htype := (hitem ⟨p, p + 4 + s.pointer, 1⟩ List.mem_cons_self).last Nat.one_pos
      rw [itemsEnd, if_pos (by omega)]
      split_ifs with hknown hend
      · obtain ⟨hended, hpointer⟩ := hknown' hknown
        have hlen := (hitem ⟨p, p + 4 + s.pointer + 1, 1⟩ (by
          refine List.mem_cons_of_mem _ ?_
          rw [if_pos hknown]
          exact List.mem_cons_self)).last Nat.one_pos
        have hdata : p + 4 + s.pointer + 2 + (buf (p + 4 + s.pointer + 1)).toNat
            ≤ p + getLength buf p := by
          rcases Nat.eq_zero_or_pos (buf (p + 4 + s.pointer + 1)).toNat with hzero | hpos
          · omega
          · refine ((hitem ⟨p, p + 4 + s.pointer + 2, (buf (p + 4 + s.pointer + 1)).toNat⟩ ?_).last
              hpos).2
            refine List.mem_cons_of_mem _ ?_
            rw [if_pos hknown]
            refine List.mem_cons_of_mem _ ?_
            rw [if_pos (by rw [hkept]; exact hpart)]
            exact List.mem_singleton_self _
        have hnext := ih t (hended.trans hopen) (hpart'.symm ▸ hpart) (by omega) (by omega) hrest
        rw [hpointer, ← Nat.add_assoc, ← Nat.add_assoc] at hnext
        rw [Bool.and_eq_true]
        exact ⟨decide_eq_true hdata, hnext⟩
      · rfl
      · obtain ⟨hended, hpointer⟩ := hother' hknown hend
        have hnext := ih t (hended.trans hopen) (hpart'.symm ▸ hpart) (by omega) (by omega) hrest
        rw [hpointer] at hnext
        exact hnext

/-- An attentive manager passes one report. -/
theorem Attentive.reportBody (h : Attentive na tp l src w.manager) :
    ∃ w', reportBody buf src na tp w = some w' ∧ Attentive na tp l src w'.manager ∧
      w'.pointer = w.pointer + getLength buf w.pointer := by
  obtain ⟨w', hw'⟩ := Option.isSome_iff_exists.mp (reportBody_isSome buf src na tp w)
  have hgo := goesOn_of_reportBody hw'
  exact ⟨w', hw', h.keeps hgo.collisions (keeps_reportBody hw'), hgo.pointer⟩

/-- An attentive manager passes one description. -/
theorem Attentive.descriptionBody (h : Attentive na tp l src w.manager)
    (hrounds : 2 ^ 18 ≤ rounds) :
    ∃ w', descriptionBody rounds buf src na tp w = some w' ∧ Attentive na tp l src w'.manager ∧
      w'.pointer = w.pointer + getLength buf w.pointer := by
  obtain ⟨w', hw'⟩ := Option.isSome_iff_exists.mp (descriptionBody_isSome hrounds buf src na tp w)
  have hgo := goesOn_of_descriptionBody hw'
  exact ⟨w', hw', h.keeps hgo.collisions (keeps_descriptionBody hw'), hgo.pointer⟩

/-- A report whose blocks are read. -/
theorem completeReport_of_inside (hw : Attentive na tp (getSSRC buf w.pointer) src w.manager)
    (h : ∀ a ∈ reportAccesses buf na tp w, a.Inside buf len) : CompleteReport buf w.pointer := by
  obtain ⟨hcheck, hattentive⟩ := hw.checkPacket buf
  have height : 8 ≤ getLength buf w.pointer :=
    eight_le_of_inside (fun a ha => h a (List.mem_append_left _ ha))
  rw [CompleteReport]
  rcases Nat.eq_zero_or_pos (blockCount buf w.pointer).toNat with hzero | hpos
  · omega
  · set i := (blockCount buf w.pointer).toNat - 1 with hi
    have hblock := (h ⟨w.pointer, w.pointer + 8 + 24 * i + 4, 20⟩ (by
      refine List.mem_append_right _ ?_
      rw [if_pos hcheck]
      refine List.mem_flatMap.mpr ⟨i, List.mem_range.mpr (by omega), List.mem_cons_of_mem _ ?_⟩
      rw [if_pos hattentive.localSSRC]
      exact List.mem_singleton_self _)).last (by omega)
    omega

/-- A description whose items are read. -/
theorem completeDescription_of_inside (hw : Attentive na tp l src w.manager)
    (hrounds : 2 ^ 18 ≤ rounds)
    (h : ∀ a ∈ descriptionAccesses rounds buf src na tp w, a.Inside buf len) :
    CompleteDescription buf w.pointer := by
  obtain ⟨hcheck, hattentive⟩ := hw.checkPacket buf
  have height : 8 ≤ getLength buf w.pointer :=
    eight_le_of_inside (fun a ha => h a (List.mem_append_left _ ha))
  refine ⟨height, fun hsdes => ?_⟩
  set m := (QueueRTCPManager.checkPacket buf na tp w).2 with hm
  set m₁ := (m.getSourceBySSRC (BitVec.ofNat 32
    (ofBigEndian (buf.octets (w.pointer + 4) 4)))).2 with hm₁
  have hsdesAccesses : ∀ a ∈ onGotSDESAccesses rounds buf src m w.pointer, a.Inside buf len := by
    intro a ha
    refine h a (List.mem_append_right _ ?_)
    rwa [if_pos ⟨hcheck, hsdes⟩]
  obtain ⟨chunks, hchunks⟩ : ∃ chunks, max 1 (blockCount buf w.pointer).toNat = chunks + 1 :=
    ⟨max 1 (blockCount buf w.pointer).toNat - 1, by omega⟩
  have hbound := (getLength_bounds buf w.pointer).2
  rw [onGotSDESAccesses, hchunks, chunkLoopAccesses] at hsdesAccesses
  constructor
  · -- a second chunk would be looked for behind the packet
    by_contra hmany
    obtain ⟨more, hmore⟩ : ∃ more, chunks = more + 1 := ⟨chunks - 1, by omega⟩
    obtain ⟨r, hr⟩ := Option.isSome_iff_exists.mp
      (onGotSDESChunk_isSome (hbound.trans hrounds) m₁ src buf (w.pointer + 4))
    have hsecond := (hsdesAccesses
      ⟨w.pointer, w.pointer + 4 + getLength buf w.pointer + 4, 4⟩ (by
        refine List.mem_append_right _ ?_
        rw [hr, Option.elim_some, hmore, chunkLoopAccesses]
        exact List.mem_append_left _ List.mem_cons_self)).last (by omega)
    omega
  · have hpart : (m₁.source src).participant.isSome = true :=
      (m.introduces_getSourceBySSRC _).keeps.participant src hattentive.participant
    have hchunk : ∀ a ∈ onGotSDESChunkAccesses rounds buf src m₁ w.pointer (w.pointer + 4)
        (getLength buf w.pointer), a.Inside buf len := by
      intro a ha
      exact hsdesAccesses a (List.mem_append_left _ (List.mem_cons_of_mem _ ha))
    exact itemsEnd_of_inside rounds ⟨4, false, false, (m₁.source src).participant, m₁⟩ rfl hpart
      height (by dsimp only; omega) hchunk

/-- The rounds of the loop over BYE packets come to every multiple of the packet's length. -/
theorem exists_mem_byeStates {pkt : ℕ} (hbye : type buf pkt = tBYE)
    (hblocks : blockCount buf pkt ≠ 0) (k : ℕ) :
    ∀ w : Walk, (∀ ssrc, ¬ w.manager.Repeats na tp ssrc) →
      w.pointer + k * getLength buf pkt < len → ∀ rounds, k ≤ rounds →
      ∃ v ∈ whileStates (byeCond buf len pkt) (byeBody buf na tp pkt) rounds w,
        (∀ ssrc, ¬ v.manager.Repeats na tp ssrc) ∧
          v.pointer = w.pointer + k * getLength buf pkt ∧ byeCond buf len pkt v = true := by
  induction k with
  | zero =>
      intro w hw hlt rounds _
      rw [Nat.zero_mul, Nat.add_zero] at hlt ⊢
      exact ⟨w, self_mem_whileStates _ w, hw, rfl, decide_eq_true ⟨hlt, hbye⟩⟩
  | succ k ih =>
      intro w hw hlt rounds hle
      obtain ⟨rounds, rfl⟩ : ∃ r, rounds = r + 1 := ⟨rounds - 1, by omega⟩
      obtain ⟨w', hw', hsame, hnext⟩ := byeBody_spec buf na tp pkt w
      rw [if_neg (not_or.mpr ⟨hblocks, hw _⟩)] at hnext
      have hno : ∀ ssrc, ¬ w'.manager.Repeats na tp ssrc := by
        intro ssrc hrepeats
        exact hw ssrc ((hsame ssrc).mp hrepeats)
      rw [Nat.succ_mul] at hlt ⊢
      have hcond : byeCond buf len pkt w = true := decide_eq_true ⟨by omega, hbye⟩
      obtain ⟨v, hv, hnone, hpointer, hv'⟩ := ih w' hno (by omega) rounds (by omega)
      exact ⟨v, mem_whileStates_of_true hcond hw' hv, hnone, by omega, hv'⟩

/-- A BYE packet whose reason is read. -/
theorem completeBye_of_inside (hno : ∀ ssrc, ¬ w.manager.Repeats na tp ssrc)
    (hlt : w.pointer < len) (hbye : type buf w.pointer = tBYE) (hrounds : len ≤ rounds)
    (h : ∀ a ∈ loopAccesses (byeCond buf len w.pointer) (byeBody buf na tp w.pointer)
      (typeAccesses len w.pointer) (byeAccesses buf na tp w.pointer) rounds w, a.Inside buf len) :
    CompleteBye buf len w.pointer := by
  set pkt := w.pointer with hpkt
  have hcond : byeCond buf len pkt w = true := decide_eq_true ⟨hlt, hbye⟩
  have hheader : ∀ a ∈ headerAccesses pkt, a.Inside buf len := by
    intro a ha
    exact h a (mem_loopAccesses (self_mem_whileStates _ w) hcond (List.mem_append_left _ ha))
  refine ⟨eight_le_of_inside hheader, fun hblocks hlong k hk => ?_⟩
  have hfour := (getLength_bounds buf pkt).1
  have hkle : k ≤ rounds := by
    have hmul := Nat.le_mul_of_pos_right k (show 0 < getLength buf pkt by omega)
    omega
  obtain ⟨v, hv, hvno, hpointer, hvcond⟩ := exists_mem_byeStates hbye hblocks k w hno hk rounds hkle
  have hcheck : (checkPacket buf na tp { v with pointer := pkt }).1 = true :=
    (checkPacket_spec buf na tp { v with pointer := pkt }).1.mpr (hvno _)
  have hreason : ∀ a ∈ getBYEAccesses buf pkt (pkt + k * getLength buf pkt), a.Inside buf len := by
    intro a ha
    refine h a (mem_loopAccesses hv hvcond (List.mem_append_right _ ?_))
    rw [if_pos hcheck, hpointer]
    exact ha
  rw [getBYEAccesses, if_pos ⟨hblocks, hlong⟩] at hreason
  have hcount := (hreason _ List.mem_cons_self).last Nat.one_pos
  refine ⟨hcount.1, ?_⟩
  rcases Nat.eq_zero_or_pos (buf (endpointer buf pkt (pkt + k * getLength buf pkt))).toNat
    with hzero | hpos
  · omega
  · exact ((hreason _ (List.mem_cons_of_mem _ List.mem_cons_self)).last hpos).2

/-- **Packets that are not left are complete**: in a session that reads everything, the accesses
come to the end of all that is looked at. -/
theorem completePackets_of_inside
    (h : ∀ rounds m, ∀ a ∈ controlAccesses rounds buf len na tp m, a.Inside buf len) :
    CompletePackets buf len := by
  set src := getSSRC buf 0 with hsrc
  set rounds := 2 ^ 18 + len with hrounds
  set start : BitVec 32 → Walk := fun l => firstReport buf src na tp
    ((attentive l src).registerFirst src na tp).1 ((attentive l src).registerFirst src na tp).2
    with hstart
  have hpointer : ∀ l, (start l).pointer = reportsOffset buf :=
    fun l => (firstReport_spec buf (attentive l src) na tp src).1
  have hattentive : ∀ l, Attentive na tp l src (start l).manager :=
    fun l => attentive_firstReport (attentive_attentive na tp l src)
  have hfront : ∀ a ∈ headerAccesses 0 ++ (if type buf 0 = tSR then onGotSRAccesses 0 else []),
      a.Inside buf len := by
    intro a ha
    exact h rounds (attentive 0 src) a (List.mem_append_left _ ha)
  have hwalk : ∀ l, ∀ a ∈ walkAccesses rounds buf len src na tp (start l), a.Inside buf len := by
    intro l a ha
    exact h rounds (attentive l src) a (List.mem_append_right _ ha)
  -- the first two loops end, and attentively
  obtain ⟨w₁, hw₁⟩ := Option.isSome_iff_exists.mp
    (reportLoop_isSome buf src na tp (Nat.le_add_left len (2 ^ 18)) (start 0))
  obtain ⟨hp₁, -⟩ := reportLoop_spec hw₁
  have hatt₁ : Attentive na tp 0 src w₁.manager :=
    (whileLoop_invariant (fun w : Walk => Attentive na tp 0 src w.manager)
      (fun w w' hw _ hw' => hw.keeps (goesOn_of_reportBody hw').collisions (keeps_reportBody hw'))
      rounds (hattentive 0) hw₁).1
  have hdescs : w₁.pointer = descriptionsOffset buf len := by
    rw [hp₁, hpointer]
    rfl
  obtain ⟨w₂, hw₂⟩ := Option.isSome_iff_exists.mp
    (descriptionLoop_isSome buf src na tp (Nat.le_add_left len (2 ^ 18)) (Nat.le_add_right _ _) w₁)
  obtain ⟨hp₂, hsame₂⟩ := descriptionLoop_spec hw₂
  have hbyes : w₂.pointer = byeOffset buf len := by
    rw [hp₂, hdescs]
    rfl
  have hsecond : ∀ a ∈ loopAccesses (descriptionCond buf len) (descriptionBody rounds buf src na tp)
      (fun v => typeAccesses len v.pointer v)
        (descriptionAccesses rounds buf src na tp) rounds w₁ ++
        loopAccesses (byeCond buf len w₂.pointer) (byeBody buf na tp w₂.pointer)
          (typeAccesses len w₂.pointer) (byeAccesses buf na tp w₂.pointer) rounds w₂,
      a.Inside buf len := by
    have hloop₁ : whileLoop (reportCond buf len) (reportBody buf src na tp) rounds (start 0)
        = some w₁ := hw₁
    have hloop₂ : whileLoop (descriptionCond buf len)
        (descriptionBody rounds buf src na tp) rounds w₁
        = some w₂ := hw₂
    intro a ha
    refine hwalk 0 a (List.mem_append_right _ ?_)
    rw [hloop₁, Option.elim_some, hloop₂, Option.elim_some]
    exact ha
  refine ⟨?_, fun hsr => ?_, fun p hp => ?_, fun p hp => ?_, fun hlt hbye => ?_⟩
  · exact eight_le_of_inside (fun a ha => hfront a (List.mem_append_left _ ha))
  · have hinfo := (hfront ⟨0, 8, 20⟩ (by
      rw [if_pos hsr]
      exact List.mem_append_right _ (List.mem_singleton_self _))).last (by omega)
    omega
  · rw [← hpointer (getSSRC buf p)] at hp
    obtain ⟨v, hv, hvatt, hvp, hvcond⟩ := exists_mem_whileStates
      (fun w : Walk => Attentive na tp (getSSRC buf p) src w.manager) reportCond_iff
      (fun w hw => hw.reportBody) rounds (start (getSSRC buf p)) (hattentive _) (by omega) p hp
    subst hvp
    have hbody : ∀ a ∈ reportAccesses buf na tp v, a.Inside buf len := by
      intro a ha
      exact hwalk _ a (List.mem_append_left _ (mem_loopAccesses hv hvcond ha))
    exact completeReport_of_inside hvatt hbody
  · rw [← hdescs] at hp
    obtain ⟨v, hv, hvatt, hvp, hvcond⟩ := exists_mem_whileStates
      (fun w : Walk => Attentive na tp 0 src w.manager) descriptionCond_iff
      (fun w hw => hw.descriptionBody (Nat.le_add_right _ _)) rounds w₁ hatt₁ (by omega) p hp
    subst hvp
    have hbody : ∀ a ∈ descriptionAccesses rounds buf src na tp v, a.Inside buf len := by
      intro a ha
      exact hsecond a (List.mem_append_left _ (mem_loopAccesses hv hvcond ha))
    exact completeDescription_of_inside hvatt (Nat.le_add_right _ _) hbody
  · rw [← hbyes] at hlt hbye ⊢
    refine completeBye_of_inside (fun ssrc hrepeats => ?_) hlt hbye (Nat.le_add_left len (2 ^ 18))
      (fun a ha => hsecond a (List.mem_append_right _ ha))
    exact hatt₁.collisions ssrc ((hsame₂ ssrc).mp hrepeats)

end Reading

/-- A receiver report and a description of source 7 without items. -/
def reportAndEmptyChunk : Memory :=
  .ofOctets [0x80, 201, 0, 1, 0, 0, 0, 7, 0x81, 202, 0, 1, 0, 0, 0, 7]

end QueueRTCPManager
