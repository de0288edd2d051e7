/-
# The calls that touch the membership counters

Models BYE processing (`getBYE` and `getOnlyBye` of `src/control.cpp`) and `recordReception`
(`src/incqueue.cpp`), as far as they touch the membership table, and says what they and
`removeSource` do to a table that is in order.

* `Orderly` : what the table needs for all calls to return;
* `Requested`, `SaidBYE`, `Recorded`, `Removed` : what the calls leave.
-/
import CcRtp.MembershipTable

/-! ## The functions of the source -/

/-- The limits of an incoming queue. -/
structure ReceptionPolicy where
  minValidPacketSequence : BitVec 8
  maxPacketDropout : BitVec 16
  maxPacketMisorder : BitVec 16

/-- The defaults of `IncomingDataQueue`. -/
def ReceptionPolicy.default : ReceptionPolicy where
  minValidPacketSequence := 0
  maxPacketDropout := 3000
  maxPacketMisorder := 0

/-- What `recordReception` reads of a packet. -/
structure ReceivedPacket where
  seqNum : BitVec 16
  payloadSize : BitVec 32
  timestamp : BitVec 32

namespace SyncSourceLink

/-- `isValid` -/
def isValid (sl : SyncSourceLink) : Bool := sl.probation = 0

/-- `initSequence(seqnum)` -/
def initSequence (sl : SyncSourceLink) (seqnum : BitVec 16) : SyncSourceLink :=
  { sl with maxSeqNum := seqnum, seqNumAccum := seqnum.setWidth 32 }

/-- The validation of the source by `recordReception`: whether the packet is considered
valid. -/
def validate (policy : ReceptionPolicy) (sl : SyncSourceLink) (seqNum : BitVec 16) :
    Bool × SyncSourceLink :=
  if !sl.isValid then
    -- the sum is an `int`, so there is no successor of 65535
    let (result, sl) :=
      if seqNum.toNat = sl.maxSeqNum.toNat + 1 then
        let sl := { sl with probation := sl.probation - 1 }
        if sl.isValid then (true, sl.initSequence seqNum) else (false, sl)
      else (false, { sl with probation := policy.minValidPacketSequence - 1 })
    (result, { sl with maxSeqNum := seqNum })
  else
    let step := seqNum - sl.maxSeqNum
    if step < policy.maxPacketDropout then
      let sl := if seqNum < sl.maxSeqNum then
          { sl with seqNumAccum := sl.seqNumAccum + BitVec.ofNat 32 seqNumMod }
        else sl
      (true, { sl with maxSeqNum := seqNum })
    else if step.toNat ≤ seqNumMod - policy.maxPacketMisorder.toNat then
      if seqNum.setWidth 32 = sl.badSeqNum then (true, sl.initSequence seqNum)
      else
        let sl := { sl with badSeqNum := BitVec.ofNat 32 ((seqNum.toNat + 1) % seqNumMod) }
        -- the very first packet is not discarded
        if 0 < sl.obsPacketCount then (false, sl) else (true, { sl with maxSeqNum := seqNum })
    else (true, sl)

/-- `recordReception`, without arrival times and jitter: whether the packet is considered
valid, and the link. -/
def recordReception (policy : ReceptionPolicy) (sl : SyncSourceLink) (pkt : ReceivedPacket) :
    Bool × SyncSourceLink :=
  match validate policy sl pkt.seqNum with
  | (false, sl) => (false, sl)
  | (true, sl) =>
      let sl := { sl with
        obsPacketCount := sl.obsPacketCount + 1
        obsOctetCount := sl.obsOctetCount + pkt.payloadSize }
      (true, if sl.obsPacketCount = 1 then
          { sl with activeSender := true, initialDataTimestamp := pkt.timestamp }
        else sl)

end SyncSourceLink

namespace MembershipBookkeeping

variable {n : ℕ} [NeZero n] (uninit : ℕ → Bool) (policy : ReceptionPolicy)

omit [NeZero n] in
/-- A link object with new contents. -/
def setLink (m : MembershipBookkeeping n) (a : ℕ) (sl : SyncSourceLink) :
    MembershipBookkeeping n :=
  { m with links := m.links.write a sl }

/-- What a BYE packet does for an SSRC: once for each packet in `getOnlyBye`, once for each
round of the loop in `getBYE`. -/
def sayBYE (m : MembershipBookkeeping n) (ssrc : BitVec 32) : Option (MembershipBookkeeping n) :=
  (m.getSourceBySSRC uninit ssrc).bind (fun (srcLink, _, m) =>
    -- `getGoodbye`
    (m.modifyLink srcLink (fun sl => { sl with flag := false })).bind (fun m =>
      (m.BYESource ssrc).map Prod.snd))

/-- The loop of `getBYE`.  Every round takes the first SSRC of the packet. -/
def getBYE (m : MembershipBookkeeping n) (ssrc : BitVec 32) :
    ℕ → Option (MembershipBookkeeping n)
  | 0 => some m
  | blockCount + 1 => (m.sayBYE uninit ssrc).bind (fun m => getBYE m ssrc blockCount)

/-- The source of a data packet, as `takeInDataPacket` gets it. -/
def sourceOfPacket (m : MembershipBookkeeping n) (ssrc : BitVec 32) :
    Option (ℕ × MembershipBookkeeping n) :=
  (m.getSourceBySSRC uninit ssrc).bind (fun (sourceLink, created, m) =>
    if created then
      (m.modifyLink sourceLink (fun sl =>
        { sl with probation := policy.minValidPacketSequence })).map (fun m => (sourceLink, m))
    else some (sourceLink, m))

/-- `recordReception` for a packet of an SSRC: whether it has set the sender flag, and the
table. -/
def recordPacket (m : MembershipBookkeeping n) (ssrc : BitVec 32) (pkt : ReceivedPacket) :
    Option (Bool × MembershipBookkeeping n) :=
  (m.sourceOfPacket uninit policy ssrc).bind (fun (a, m) =>
    (m.links a).bind (fun sl =>
      let (result, sl') := sl.recordReception policy pkt
      some (result && sl'.obsPacketCount = 1, m.setLink a sl')))

end MembershipBookkeeping

/-! ## Tables on which all calls return -/

namespace MembershipBookkeeping

variable {n : ℕ} [NeZero n] {uninit : ℕ → Bool} {m m' : MembershipBookkeeping n}
  {chains : Fin n → List ℕ} {ssrc : BitVec 32}

/-- Only the collision lists, the SSRCs and the buckets matter. -/
theorem Table.congr (h : Table m chains)
    (hcollis : m'.links.view SyncSourceLink.nextCollis = m.links.view SyncSourceLink.nextCollis)
    (hid : m'.links.view SyncSourceLink.id = m.links.view SyncSourceLink.id)
    (hbuckets : m'.sourceLinks = m.sourceLinks) (hfresh : m'.fresh = m.fresh) :
    Table m' chains := by
  have hids : m'.idOf = m.idOf := by
    funext a
    rw [idOf, hid]
    rfl
  refine ⟨?_, ?_, ?_, ?_⟩
  · rw [hcollis, hbuckets]
    exact h.chain
  · rw [hids]
    exact h.sorted
  · rw [hids]
    exact h.hash_eq
  · intro a ha
    rw [hfresh] at ha
    rw [← Heap.view_eq_none (g := SyncSourceLink.id), hid, Heap.view_eq_none]
    exact h.bound a ha

/-- The table is in order, the end of the list of sources is there, and the links to the
source before are null, as nothing ever sets them. -/
structure Orderly (m : MembershipBookkeeping n) (chains : Fin n → List ℕ) : Prop where
  table : Table m chains
  lastAlive : m.LastAlive
  prev : ∀ a, m.links.view SyncSourceLink.prev a = none ∨
    m.links.view SyncSourceLink.prev a = some none

theorem orderly_empty : Orderly (empty n) (fun _ => []) := by
  refine ⟨(refines_empty (fun _ => 0)).table, (refines_empty (fun _ => 0)).lastAlive, ?_⟩
  intro a
  exact Or.inl rfl

/-- What a request leaves: the link of the SSRC, and all other sources as they were. -/
structure Requested (uninit : ℕ → Bool) (m : MembershipBookkeeping n) (chains : Fin n → List ℕ)
    (ssrc : BitVec 32) (a : ℕ) (created : Bool) (m' : MembershipBookkeeping n)
    (chains' : Fin n → List ℕ) : Prop where
  orderly : Orderly m' chains'
  ids : ∀ s, s ∈ m'.idsFor chains' s ↔ s = ssrc ∨ s ∈ m.idsFor chains s
  created_iff : created = true ↔ ssrc ∉ m.idsFor chains ssrc
  members : m'.members = if created then m.members + 1 else m.members
  senders : m'.activeSenders = m.activeSenders
  id_eq : m'.links.view SyncSourceLink.id a = some ssrc
  member : ∀ {β : Type} (g : SyncSourceLink → β), IgnoresLinks g → m'.links.view g
    = if created then Function.update (m.links.view g) a (some (g (.new ssrc (uninit a))))
      else m.links.view g

/-- The SSRCs after the creation of a source. -/
theorem Created.mem_idsFor {chains' : Fin n → List ℕ} (h : Table m chains)
    (hcreated : m.Created uninit ssrc chains m' chains') (s : BitVec 32) :
    s ∈ m'.idsFor chains' s ↔ s = ssrc ∨ s ∈ m.idsFor chains s := by
  obtain ⟨l₁, l₂, hl, rfl⟩ := hcreated.chain
  have hids := idOf_of_view (hcreated.member SyncSourceLink.id (fun _ _ _ => rfl))
  have hnew : m'.idOf m.fresh = ssrc := by
    rw [hids, if_pos rfl]
    rfl
  have hold : ∀ i, (chains i).map m'.idOf = (chains i).map m.idOf := by
    intro i
    refine List.map_congr_left (fun a ha => ?_)
    rw [hids, if_neg (h.lt_fresh ha).ne]
  rw [idsFor, idsFor]
  by_cases hi : hash (n := n) s = hash ssrc
  · have hmem := congrArg (s ∈ ·) (hold (hash ssrc))
    rw [hl] at hmem
    rw [hi, hl, Function.update_self, List.map_append, List.map_cons, hnew, List.mem_append,
      List.mem_cons, or_left_comm, ← List.mem_append, ← List.map_append, ← hmem]
  · have hne : s ≠ ssrc := by
      rintro rfl
      exact hi rfl
    rw [Function.update_of_ne hi, hold, or_iff_right hne]

/-- **Every request returns.** -/
theorem Orderly.getSourceBySSRC (uninit : ℕ → Bool) (h : Orderly m chains) (ssrc : BitVec 32) :
    ∃ a created m' chains', m.getSourceBySSRC uninit ssrc = some (a, created, m') ∧
      Requested uninit m chains ssrc a created m' chains' := by
  by_cases hssrc : ssrc ∈ m.idsFor chains ssrc
  · obtain ⟨a, ha, rfl⟩ := List.mem_map.mp hssrc
    obtain ⟨sl, hsl⟩ := Option.isSome_iff_exists.mp (h.table.isSome_of_mem ha)
    refine ⟨a, false, m, chains, h.table.getSourceBySSRC_of_mem uninit ha, h, ?_, ?_, rfl,
      rfl, ?_, ?_⟩
    · intro s
      refine (or_iff_right_of_imp ?_).symm
      rintro rfl
      exact hssrc
    · exact iff_of_false Bool.false_ne_true (not_not.mpr hssrc)
    · rw [Heap.view, hsl, idOf_eq hsl]
      rfl
    · exact fun g _ => rfl
  · obtain ⟨m', chains', hget, hcreated⟩ :=
      h.table.getSourceBySSRC_of_notMem uninit h.lastAlive hssrc
    have hmember : ∀ {β : Type} (g : SyncSourceLink → β), IgnoresLinks g → m'.links.view g
        = Function.update (m.links.view g) m.fresh (some (g (.new ssrc (uninit m.fresh)))) :=
      fun g hg => hcreated.member g hg
    have hid : m'.links.view SyncSourceLink.id m.fresh = some ssrc := by
      rw [hmember SyncSourceLink.id (fun _ _ _ => rfl), Function.update_self]
      rfl
    refine ⟨m.fresh, true, m', chains', hget, ⟨hcreated.table, ?_, ?_⟩,
      hcreated.mem_idsFor h.table, iff_of_true rfl hssrc, hcreated.counts.1, hcreated.counts.2,
      hid, fun g hg => hmember g hg⟩
    · intro _
      obtain ⟨sl, hsl, -⟩ := Heap.view_eq_some.mp hid
      exact ⟨m.fresh, hcreated.last, Option.isSome_iff_exists.mpr ⟨sl, hsl⟩⟩
    · intro a
      rw [hmember SyncSourceLink.prev (fun _ _ _ => rfl), Function.update_apply]
      split_ifs
      · exact Or.inr rfl
      · exact h.prev a

/-- A change to members that the lists do not use. -/
theorem Orderly.setLink (h : Orderly m chains) {a : ℕ} {sl sl' : SyncSourceLink}
    (hsl : m.links a = some sl) (hid : sl'.id = sl.id) (hnext : sl'.nextCollis = sl.nextCollis)
    (hprev : sl'.prev = sl.prev) : Orderly (m.setLink a sl') chains := by
  refine ⟨h.table.congr (Heap.view_write_of_eq hsl hnext) (Heap.view_write_of_eq hsl hid) rfl rfl,
    ?_, ?_⟩
  · intro hfirst
    obtain ⟨b, hb, hsome⟩ := h.lastAlive hfirst
    exact ⟨b, hb, Heap.isSome_write sl' hsome⟩
  · intro b
    have hview : (m.setLink a sl').links.view SyncSourceLink.prev
        = m.links.view SyncSourceLink.prev := Heap.view_write_of_eq hsl hprev
    rw [hview]
    exact h.prev b

/-- Such a change does not touch the SSRCs. -/
theorem idsFor_setLink {a : ℕ} {sl sl' : SyncSourceLink} (hsl : m.links a = some sl)
    (hid : sl'.id = sl.id) (s : BitVec 32) :
    (m.setLink a sl').idsFor chains s = m.idsFor chains s := by
  have hview : (m.setLink a sl').links.view SyncSourceLink.id = m.links.view SyncSourceLink.id :=
    Heap.view_write_of_eq hsl hid
  have hids : (m.setLink a sl').idOf = m.idOf := by
    funext b
    rw [idOf, hview]
    rfl
  rw [idsFor, hids]
  rfl

omit [NeZero n] in
theorem setLink_links (a : ℕ) (sl : SyncSourceLink) :
    (m.setLink a sl).links = m.links.write a sl := rfl

omit [NeZero n] in
theorem modifyLink_eq {a : ℕ} {sl : SyncSourceLink} (hsl : m.links a = some sl)
    (f : SyncSourceLink → SyncSourceLink) : m.modifyLink a f = some (m.setLink a (f sl)) := by
  rw [modifyLink, Heap.modify, hsl]
  rfl

/-! ## Removing a source -/

/-- The removal of a source leaves no pointer to it in the table: its object is not the head
of its bucket and not the last one of the list of sources, and the next source of that
list is still there. -/
def RemovesCleanly (m : MembershipBookkeeping n) (ssrc : BitVec 32) : Prop :=
  ∀ a sl, m.links a = some sl → sl.id = ssrc →
    m.sourceLinks (hash ssrc) ≠ some a ∧ m.last ≠ some a ∧
      ∀ q, sl.next = some q → (m.links q).isSome = true

/-- What the removal of the source `sl` at `a` leaves. -/
structure Removed (m : MembershipBookkeeping n) (chains : Fin n → List ℕ) (a : ℕ)
    (sl : SyncSourceLink) (m' : MembershipBookkeeping n) (chains' : Fin n → List ℕ) : Prop where
  orderly : Orderly m' chains'
  ids : ∀ s, s ∈ m'.idsFor chains' s ↔ s ≠ sl.id ∧ s ∈ m.idsFor chains s
  members : m'.members = m.members - 1
  senders : m'.activeSenders = if sl.activeSender then m.activeSenders - 1 else m.activeSenders
  member : ∀ {β : Type} (g : SyncSourceLink → β), IgnoresLinks g →
    m'.links.view g = Function.update (m.links.view g) a none

theorem Orderly.prev_eq_none (h : Orderly m chains) {a : ℕ} {sl : SyncSourceLink}
    (hsl : m.links a = some sl) : sl.prev = none := by
  rcases h.prev a with hnone | hnull
  · rw [Heap.view_eq_none, hsl] at hnone
    cases hnone
  · rw [Heap.view, hsl, Option.map_some, Option.some_inj] at hnull
    exact hnull

/-- The table without the object at `a`, which comes behind `o` in its collision list. -/
def unlinked (m : MembershipBookkeeping n) (o : ℕ) (so : SyncSourceLink) (a : ℕ)
    (sl : SyncSourceLink) : MembershipBookkeeping n :=
  { m with
    members := m.members - 1
    activeSenders := if sl.activeSender then m.activeSenders - 1 else m.activeSenders
    links := (m.links.write o { so with nextCollis := sl.nextCollis }).delete a }

/-- What the code does for a source behind another one. -/
theorem Orderly.unlinkSource_eq (h : Orderly m chains) {a o : ℕ} {sl so : SyncSourceLink}
    (hsl : m.links a = some sl) (hso : m.links o = some so)
    (hnext : ∀ q, sl.next = some q → (m.links q).isSome = true) :
    m.unlinkSource (some o) a sl = some (m.unlinked o so a sl) := by
  set m₁ := m.setLink o { so with nextCollis := sl.nextCollis } with hm₁
  have hprevs : ∀ b sb, m₁.links b = some sb → sb.prev = none := by
    intro b sb hsb
    rw [hm₁, setLink_links] at hsb
    by_cases hb : b = o
    · rw [hb, Heap.write_self, Option.some_inj] at hsb
      have hprev := h.prev_eq_none hso
      rw [← hsb]
      exact hprev
    · rw [Heap.write_of_ne hb] at hsb
      exact h.prev_eq_none hsb
  -- the links to the source before are null, so writing them changes nothing
  have hnoop : ∀ q, sl.next = some q →
      m₁.modifyLink q (fun sq => { sq with prev := none }) = some m₁ := by
    intro q hq
    obtain ⟨sq, hsq⟩ := Option.isSome_iff_exists.mp
      (Heap.isSome_write (a := o) { so with nextCollis := sl.nextCollis } (hnext q hq))
    have hsq₁ : m₁.links q = some sq := hsq
    have hself : ({ sq with prev := none } : SyncSourceLink) = sq := by
      rw [← hprevs q sq hsq₁]
    rw [modifyLink_eq hsq₁, hself, Option.some_inj]
    exact congrArg (fun links => { m₁ with links := links }) (Heap.write_eq_self hsq₁)
  rw [unlinkSource, setNextCollis, Option.bind_some, modifyLink_eq hso, Option.bind_some,
    h.prev_eq_none hsl]
  simp only
  rw [Option.bind_some, ← hm₁]
  cases hq : sl.next with
  | none => rfl
  | some q =>
      simp only
      rw [hnoop q hq]
      rfl

omit [NeZero n] in
/-- The sources keep their members, but for the one that is deleted. -/
theorem view_unlinked {a o : ℕ} {sl so : SyncSourceLink} (hso : m.links o = some so) {β : Type}
    (g : SyncSourceLink → β) (hg : IgnoresLinks g) :
    (m.unlinked o so a sl).links.view g = Function.update (m.links.view g) a none := by
  rw [unlinked, Heap.view_delete, Heap.view_write_of_eq hso (hg so so.next _)]

omit [NeZero n] in
theorem idOf_unlinked {a o b : ℕ} {sl so : SyncSourceLink} (hso : m.links o = some so)
    (hb : b ≠ a) :
    (m.unlinked o so a sl).idOf b = m.idOf b := by
  rw [idOf, view_unlinked hso SyncSourceLink.id (fun _ _ _ => rfl), Function.update_of_ne hb]
  rfl

omit [NeZero n] in
/-- A strictly sorted bucket without one of its sources has all other SSRCs. -/
theorem mem_map_idOf_without {a : ℕ} {l l₂ : List ℕ}
    (hsorted : (l ++ a :: l₂).Pairwise (fun b c => m.idOf b < m.idOf c)) (s : BitVec 32) :
    s ∈ (l ++ l₂).map m.idOf ↔ s ≠ m.idOf a ∧ s ∈ (l ++ a :: l₂).map m.idOf := by
  obtain ⟨-, htail, hacross⟩ := List.pairwise_append.mp hsorted
  have hothers : m.idOf a ∉ (l ++ l₂).map m.idOf := by
    intro hmem
    obtain ⟨b, hb, hbid⟩ := List.mem_map.mp hmem
    rcases List.mem_append.mp hb with hb | hb
    · have hlt := hacross b hb a List.mem_cons_self
      rw [hbid] at hlt
      exact BitVec.lt_irrefl _ hlt
    · have hlt := (List.pairwise_cons.mp htail).1 b hb
      rw [hbid] at hlt
      exact BitVec.lt_irrefl _ hlt
  simp only [List.map_append, List.map_cons, List.mem_append, List.mem_cons] at hothers ⊢
  constructor
  · intro hmem
    refine ⟨?_, hmem.imp_right Or.inr⟩
    rintro rfl
    exact hothers hmem
  · rintro ⟨hsne, hmem⟩
    exact hmem.imp_right (fun hmem => hmem.resolve_left hsne)

/-- **The table without a source that came behind another one.** -/
theorem Orderly.removed (h : Orderly m chains) {a o : ℕ} {sl so : SyncSourceLink} {l l₂ : List ℕ}
    (hsl : m.links a = some sl) (hso : m.links o = some so) (hlast : m.last ≠ some a)
    (hl : chains (hash sl.id) = l ++ [o] ++ a :: l₂) :
    Removed m chains a sl (m.unlinked o so a sl)
      (Function.update chains (hash sl.id) (l ++ [o] ++ l₂)) := by
  have hnodup := h.table.nodup (hash sl.id)
  have hchain := h.table.chain (hash sl.id)
  rw [hl] at hchain hnodup
  obtain ⟨p, hfront, rfl, q, hq, hback⟩ := segment_append.mp hchain
  obtain ⟨hnodup₁, hnodup₂, hdisj⟩ := List.nodup_append'.mp hnodup
  have ho : o ∉ l := fun hmem => (List.nodup_append'.mp hnodup₁).2.2 hmem List.mem_cons_self
  have ho₂ : o ∉ l₂ := fun hmem =>
    hdisj (List.mem_append_right l List.mem_cons_self) (List.mem_cons_of_mem a hmem)
  have ha : a ∉ l ++ [o] ++ l₂ := by
    intro hmem
    rcases List.mem_append.mp hmem with hmem | hmem
    · exact hdisj hmem List.mem_cons_self
    · exact (List.nodup_cons.mp hnodup₂).1 hmem
  have hsub : (l ++ [o] ++ l₂).Sublist (chains (hash sl.id)) := by
    rw [hl]
    exact (List.sublist_cons_self a l₂).append_left _
  have hcollis : (m.unlinked o so a sl).links.view SyncSourceLink.nextCollis
      = Function.update (Function.update (m.links.view SyncSourceLink.nextCollis) o
        (some sl.nextCollis)) a none := by
    rw [unlinked, Heap.view_delete, Heap.view_write]
  have hids : ∀ b, b ≠ a → (m.unlinked o so a sl).idOf b = m.idOf b := fun b => idOf_unlinked hso
  have hslq : sl.nextCollis = q := by
    rw [Heap.view, hsl, Option.map_some, Option.some_inj] at hq
    exact hq
  have hne : ∀ i, ∀ b ∈ Function.update chains (hash sl.id) (l ++ [o] ++ l₂) i, b ≠ a := by
    rintro i b hb rfl
    by_cases hi : i = hash sl.id
    · rw [hi, Function.update_self] at hb
      exact ha hb
    · rw [Function.update_of_ne hi] at hb
      rw [← h.table.hash_eq i b hb, idOf_eq hsl] at hi
      exact hi rfl
  have hsubs : ∀ i, (Function.update chains (hash sl.id) (l ++ [o] ++ l₂) i).Sublist
      (chains i) := by
    intro i
    by_cases hi : i = hash sl.id
    · rw [hi, Function.update_self]
      exact hsub
    · rw [Function.update_of_ne hi]
  refine ⟨⟨⟨?_, ?_, ?_, ?_⟩, ?_, ?_⟩, ?_, rfl, rfl, view_unlinked hso⟩
  · intro i
    rw [hcollis]
    refine Segment.update_of_notMem _ (fun hmem => hne i a hmem rfl) ?_
    by_cases hi : i = hash sl.id
    · rw [hi, Function.update_self, hslq]
      exact (hfront.redirect q ho).append (hback.update_of_notMem _ ho₂)
    · rw [Function.update_of_ne hi]
      refine (h.table.chain i).update_of_notMem _ (fun hmem => hi ?_)
      have homem : o ∈ chains (hash sl.id) := by
        rw [hl]
        exact List.mem_append_left _ (List.mem_append_right l List.mem_cons_self)
      rw [← h.table.hash_eq i o hmem, h.table.hash_eq _ o homem]
  · intro i
    refine ((h.table.sorted i).sublist (hsubs i)).imp_of_mem (fun hb hc hbc => ?_)
    rwa [hids _ (hne i _ hb), hids _ (hne i _ hc)]
  · intro i b hb
    rw [hids b (hne i b hb)]
    exact h.table.hash_eq i b ((hsubs i).subset hb)
  · intro b hb
    rw [← Heap.view_eq_none (g := SyncSourceLink.id),
      view_unlinked hso SyncSourceLink.id (fun _ _ _ => rfl), Function.update_apply,
      Heap.view_eq_none.mpr (h.table.bound b hb), ite_self]
  · intro hfirst
    obtain ⟨b, hb, hsome⟩ := h.lastAlive hfirst
    have hba : b ≠ a := by
      rintro rfl
      exact hlast hb
    exact ⟨b, hb, (congrArg Option.isSome (Heap.delete_of_ne hba)).trans
      (Heap.isSome_write _ hsome)⟩
  · intro b
    rw [view_unlinked hso SyncSourceLink.prev (fun _ _ _ => rfl), Function.update_apply]
    split_ifs
    · exact Or.inl rfl
    · exact h.prev b
  · intro s
    have hlists : (Function.update chains (hash sl.id) (l ++ [o] ++ l₂) (hash s)).map
        (m.unlinked o so a sl).idOf
        = (Function.update chains (hash sl.id) (l ++ [o] ++ l₂) (hash s)).map m.idOf :=
      List.map_congr_left (fun b hb => hids b (hne _ b hb))
    rw [idsFor, idsFor, hlists]
    by_cases hs : hash (n := n) s = hash sl.id
    · have hsorted := h.table.sorted (hash sl.id)
      rw [hl] at hsorted
      rw [hs, hl, Function.update_self, mem_map_idOf_without hsorted, idOf_eq hsl]
    · have hsne : s ≠ sl.id := by
        rintro rfl
        exact hs rfl
      rw [Function.update_of_ne hs, and_iff_right hsne]

/-- **Clean removals return.** -/
theorem Orderly.removeSource (h : Orderly m chains) (hclean : m.RemovesCleanly ssrc) :
    (ssrc ∉ m.idsFor chains ssrc ∧ m.removeSource ssrc = some (false, m)) ∨
      (ssrc ∈ m.idsFor chains ssrc ∧ ∃ a sl m' chains', m.links a = some sl ∧ sl.id = ssrc ∧
        a ∈ chains (hash ssrc) ∧ m.removeSource ssrc = some (true, m') ∧
        Removed m chains a sl m' chains') := by
  rw [MembershipBookkeeping.removeSource,
    removeLoop_eq ssrc none (h.table.chain _) (h.table.length_le _)]
  obtain ⟨l₁, l₂, hl, h₁, ⟨a, l₃, rfl, rfl, hplace⟩ | ⟨h₂, hplace⟩⟩ := h.table.place_cases ssrc
  · right
    have hmem : a ∈ chains (hash (m.idOf a)) := by
      rw [hl]
      exact List.mem_append_right l₁ List.mem_cons_self
    obtain ⟨sl, hsl⟩ := Option.isSome_iff_exists.mp (h.table.isSome_of_mem hmem)
    obtain ⟨hhead, hlast, hnext⟩ := hclean a sl hsl (idOf_eq hsl).symm
    refine ⟨List.mem_map_of_mem hmem, a, sl, ?_⟩
    rw [hplace]
    simp only
    -- the source is not the head of its bucket
    rcases List.eq_nil_or_concat l₁ with rfl | ⟨l, o, rfl⟩
    · refine absurd ?_ hhead
      rw [(h.table.chain _).eq_head?, hl]
      rfl
    · rw [List.concat_eq_append] at *
      have homem : o ∈ chains (hash (m.idOf a)) := by
        rw [hl]
        exact List.mem_append_left _ (List.mem_append_right l List.mem_cons_self)
      obtain ⟨so, hso⟩ := Option.isSome_iff_exists.mp (h.table.isSome_of_mem homem)
      rw [List.getLast?_concat, hsl, Option.bind_some, h.unlinkSource_eq hsl hso hnext]
      rw [idOf_eq hsl] at hl
      exact ⟨_, _, rfl, (idOf_eq hsl).symm, hmem, rfl, h.removed hsl hso hlast hl⟩
  · left
    refine ⟨Table.notMem_idsFor hl h₁ h₂, ?_⟩
    rw [hplace]
    cases l₂ <;> rfl

/-! ## BYE packets -/

/-- No source has been heard: every packet that comes next would be the first one. -/
def Unheard (m : MembershipBookkeeping n) : Prop :=
  ∀ a, m.links.view SyncSourceLink.obsPacketCount a = none ∨
    m.links.view SyncSourceLink.obsPacketCount a = some 0

/-- A request makes no source heard. -/
theorem Requested.unheard {a : ℕ} {created : Bool} {chains' : Fin n → List ℕ}
    (h : Requested uninit m chains ssrc a created m' chains') (hm : m.Unheard) : m'.Unheard := by
  intro b
  rw [h.member SyncSourceLink.obsPacketCount (fun _ _ _ => rfl)]
  split_ifs
  · rw [Function.update_apply]
    split_ifs
    · exact Or.inr rfl
    · exact hm b
  · exact hm b

/-- What `k` BYEs of an SSRC leave. -/
structure SaidBYE (m : MembershipBookkeeping n) (chains : Fin n → List ℕ) (ssrc : BitVec 32)
    (k : ℕ) (m' : MembershipBookkeeping n) (chains' : Fin n → List ℕ) : Prop where
  orderly : Orderly m' chains'
  ids : ∀ s, s ∈ m'.idsFor chains' s ↔ (0 < k ∧ s = ssrc) ∨ s ∈ m.idsFor chains s
  members : m'.members + BitVec.ofNat 32 k
    = m.members + if 0 < k ∧ ssrc ∉ m.idsFor chains ssrc then 1 else 0
  senders : m'.activeSenders = m.activeSenders
  unheard : m.Unheard → m'.Unheard

/-- **One BYE**: the source is there afterwards, and discounted. -/
theorem Orderly.sayBYE (uninit : ℕ → Bool) (h : Orderly m chains) (ssrc : BitVec 32) :
    ∃ m' chains', m.sayBYE uninit ssrc = some m' ∧ SaidBYE m chains ssrc 1 m' chains' := by
  obtain ⟨a, created, m₁, chains', hget, hreq⟩ := h.getSourceBySSRC uninit ssrc
  obtain ⟨sl, hsl, -⟩ := Heap.view_eq_some.mp hreq.id_eq
  set m₂ := m₁.setLink a { sl with flag := false } with hm₂
  have horderly : Orderly m₂ chains' := hreq.orderly.setLink hsl rfl rfl rfl
  have hids : ∀ s, s ∈ m₂.idsFor chains' s ↔ s = ssrc ∨ s ∈ m.idsFor chains s := by
    intro s
    have hsame : m₂.idsFor chains' s = m₁.idsFor chains' s := by
      refine idsFor_setLink hsl ?_ s
      rfl
    rw [hsame]
    exact hreq.ids s
  have hreg : m₂.isRegistered ssrc = some true := by
    rw [horderly.table.isRegistered_eq, decide_eq_true ((hids ssrc).mpr (Or.inl rfl))]
  refine ⟨{ m₂ with members := m₂.members - 1 }, chains', ?_, ⟨?_, horderly.lastAlive,
    horderly.prev⟩, ?_, ?_, hreq.senders, ?_⟩
  · rw [MembershipBookkeeping.sayBYE, hget, Option.bind_some]
    simp only
    rw [modifyLink_eq hsl, Option.bind_some, ← hm₂, BYESource, hreg]
    rfl
  · exact horderly.table.congr rfl rfl rfl rfl
  · intro s
    rw [and_iff_right Nat.one_pos]
    exact hids s
  · have hmembers : m₂.members = if created then m.members + 1 else m.members := hreq.members
    simp only [hmembers, hreq.created_iff, Nat.one_pos, true_and]
    split_ifs <;> simp
  · intro hm b
    have hview : m₂.links.view SyncSourceLink.obsPacketCount
        = m₁.links.view SyncSourceLink.obsPacketCount := Heap.view_write_of_eq hsl rfl
    rw [hview]
    exact hreq.unheard hm b

/-- **A BYE packet**, with any block count. -/
theorem Orderly.getBYE (uninit : ℕ → Bool) (h : Orderly m chains) (ssrc : BitVec 32) (k : ℕ) :
    ∃ m' chains', m.getBYE uninit ssrc k = some m' ∧ SaidBYE m chains ssrc k m' chains' := by
  induction k generalizing m chains with
  | zero =>
      refine ⟨m, chains, rfl, h, ?_, ?_, rfl, id⟩
      · intro s
        simp
      · simp
  | succ k ih =>
      obtain ⟨m₁, chains₁, hbye, h₁⟩ := h.sayBYE uninit ssrc
      obtain ⟨m', chains', hrest, h'⟩ := ih h₁.orderly
      have hmem : ssrc ∈ m₁.idsFor chains₁ ssrc := (h₁.ids ssrc).mpr (Or.inl ⟨Nat.one_pos, rfl⟩)
      refine ⟨m', chains', ?_, h'.orderly, ?_, ?_, h'.senders.trans h₁.senders,
        fun hm => h'.unheard (h₁.unheard hm)⟩
      · rw [MembershipBookkeeping.getBYE, hbye, Option.bind_some, hrest]
      · intro s
        rw [h'.ids, h₁.ids, and_iff_right Nat.one_pos, and_iff_right k.succ_pos]
        constructor
        · rintro (⟨-, rfl⟩ | hs)
          · exact Or.inl rfl
          · exact hs
        · exact Or.inr
      · -- the first round registers the source, the others only discount it
        have hrounds := h'.members
        have hfirst := h₁.members
        rw [if_neg (not_and.mpr (fun _ hnot => hnot hmem)), add_zero] at hrounds
        simp only [Nat.one_pos, true_and] at hfirst
        simp only [k.succ_pos, true_and]
        rw [← hfirst, BitVec.ofNat_add, ← BitVec.add_assoc, hrounds]

end MembershipBookkeeping

/-! ## Data packets -/

namespace SyncSourceLink

variable {sl : SyncSourceLink}

/-- The packet makes the source valid, if it is not so already. -/
def CompletesProbation (sl : SyncSourceLink) (seqNum : BitVec 16) : Prop :=
  sl.probation = 0 ∨ (sl.probation = 1 ∧ seqNum.toNat = sl.maxSeqNum.toNat + 1)

/-- The validation leaves the lists and the packet count alone. -/
theorem validate_frame (policy : ReceptionPolicy) (sl : SyncSourceLink) (seqNum : BitVec 16) :
    (validate policy sl seqNum).2.id = sl.id ∧
      (validate policy sl seqNum).2.nextCollis = sl.nextCollis ∧
      (validate policy sl seqNum).2.prev = sl.prev ∧
      (validate policy sl seqNum).2.obsPacketCount = sl.obsPacketCount := by
  unfold validate initSequence
  simp only
  split_ifs <;> exact ⟨rfl, rfl, rfl, rfl⟩

/-- **The first packet is considered valid exactly if it completes the probation.** -/
theorem validate_first (policy : ReceptionPolicy) (seqNum : BitVec 16)
    (hobs : sl.obsPacketCount = 0) :
    (validate policy sl seqNum).1 = true ↔ sl.CompletesProbation seqNum := by
  have hzero : ¬ 0 < sl.obsPacketCount := by
    rw [hobs]
    exact BitVec.lt_irrefl _
  unfold validate CompletesProbation
  by_cases hvalid : sl.probation = 0
  · have hv : sl.isValid = true := decide_eq_true hvalid
    simp only [hv, hvalid, hzero, Bool.not_true, Bool.false_eq_true, if_false, true_or, iff_true]
    split_ifs <;> rfl
  · have hv : sl.isValid = false := decide_eq_false hvalid
    have hdec : sl.probation - 1 = 0 ↔ sl.probation = 1 := sub_eq_zero
    simp only [hv, hvalid, Bool.not_false, if_true, false_or]
    by_cases hseq : seqNum.toNat = sl.maxSeqNum.toNat + 1
    · rw [if_pos hseq, and_iff_left hseq, ← hdec]
      by_cases hlast : sl.probation - 1 = 0
      · have hv' : ({ sl with probation := sl.probation - 1 } : SyncSourceLink).isValid = true :=
          decide_eq_true hlast
        rw [if_pos hv']
        exact iff_of_true rfl hlast
      · have hv' : ({ sl with probation := sl.probation - 1 } : SyncSourceLink).isValid = false :=
          decide_eq_false hlast
        rw [if_neg (ne_true_of_eq_false hv')]
        exact iff_of_false Bool.false_ne_true hlast
    · rw [if_neg hseq]
      simp only [Bool.false_eq_true, hseq, and_false]

/-- The outcomes of `recordReception`. -/
theorem recordReception_frame (policy : ReceptionPolicy) (sl : SyncSourceLink)
    (pkt : ReceivedPacket) :
    (recordReception policy sl pkt).2.id = sl.id ∧
      (recordReception policy sl pkt).2.nextCollis = sl.nextCollis ∧
      (recordReception policy sl pkt).2.prev = sl.prev ∧
      (recordReception policy sl pkt).1 = (validate policy sl pkt.seqNum).1 ∧
      (recordReception policy sl pkt).2.obsPacketCount
        = if (validate policy sl pkt.seqNum).1 then sl.obsPacketCount + 1
          else sl.obsPacketCount := by
  obtain ⟨hid, hnext, hprev, hobs⟩ := validate_frame policy sl pkt.seqNum
  unfold recordReception
  rcases hv : validate policy sl pkt.seqNum with ⟨result, sl'⟩
  rw [hv] at hid hnext hprev hobs
  cases result with
  | false => exact ⟨hid, hnext, hprev, rfl, hobs⟩
  | true =>
      have hinc : (if true = true then sl.obsPacketCount + 1 else sl.obsPacketCount)
          = sl.obsPacketCount + 1 := if_pos rfl
      dsimp only
      rw [hinc]
      split_ifs
      · exact ⟨hid, hnext, hprev, rfl, congrArg (· + 1) hobs⟩
      · exact ⟨hid, hnext, hprev, rfl, congrArg (· + 1) hobs⟩

end SyncSourceLink

namespace MembershipBookkeeping

variable {n : ℕ} [NeZero n] (uninit : ℕ → Bool) (policy : ReceptionPolicy)

/-- The packet is the first valid one of its source. -/
def IsFirstPacket (m : MembershipBookkeeping n) (ssrc : BitVec 32) (pkt : ReceivedPacket) : Prop :=
  ∃ a m₁ sl, m.sourceOfPacket uninit policy ssrc = some (a, m₁) ∧ m₁.links a = some sl ∧
    sl.obsPacketCount = 0 ∧ sl.CompletesProbation pkt.seqNum

variable {uninit policy} {m m' : MembershipBookkeeping n} {chains : Fin n → List ℕ}
  {ssrc : BitVec 32}

/-- What a data packet leaves. -/
structure Recorded (uninit : ℕ → Bool) (policy : ReceptionPolicy) (m : MembershipBookkeeping n)
    (chains : Fin n → List ℕ) (ssrc : BitVec 32) (pkt : ReceivedPacket) (sets : Bool)
    (m' : MembershipBookkeeping n) (chains' : Fin n → List ℕ) : Prop where
  orderly : Orderly m' chains'
  ids : ∀ s, s ∈ m'.idsFor chains' s ↔ s = ssrc ∨ s ∈ m.idsFor chains s
  members : m'.members
    = if ssrc ∉ m.idsFor chains ssrc then m.members + 1 else m.members
  senders : m'.activeSenders = m.activeSenders
  sets_iff : m.Unheard → (sets = true ↔ m.IsFirstPacket uninit policy ssrc pkt)
  unheard : m.Unheard → sets = false → m'.Unheard

/-- The source of a data packet, found or made. -/
theorem Orderly.sourceOfPacket (uninit : ℕ → Bool) (policy : ReceptionPolicy) (h : Orderly m chains)
    (ssrc : BitVec 32) :
    ∃ a m₁ chains' sl, m.sourceOfPacket uninit policy ssrc = some (a, m₁) ∧ Orderly m₁ chains' ∧
      (∀ s, s ∈ m₁.idsFor chains' s ↔ s = ssrc ∨ s ∈ m.idsFor chains s) ∧
      m₁.members = (if ssrc ∉ m.idsFor chains ssrc then m.members + 1 else m.members) ∧
      m₁.activeSenders = m.activeSenders ∧ m₁.links a = some sl ∧ (m.Unheard → m₁.Unheard) := by
  obtain ⟨a, created, m₁, chains', hget, hreq⟩ := h.getSourceBySSRC uninit ssrc
  obtain ⟨sl, hsl, -⟩ := Heap.view_eq_some.mp hreq.id_eq
  have hmembers : m₁.members
      = if ssrc ∉ m.idsFor chains ssrc then m.members + 1 else m.members := by
    rw [hreq.members]
    exact if_congr hreq.created_iff rfl rfl
  cases created with
  | false =>
      refine ⟨a, m₁, chains', sl, ?_, hreq.orderly, hreq.ids, hmembers, hreq.senders, hsl,
        hreq.unheard⟩
      rw [MembershipBookkeeping.sourceOfPacket, hget]
      rfl
  | true =>
      refine ⟨a, m₁.setLink a { sl with probation := policy.minValidPacketSequence }, chains',
        { sl with probation := policy.minValidPacketSequence }, ?_,
        hreq.orderly.setLink hsl rfl rfl rfl, ?_, hmembers, hreq.senders, Heap.write_self _, ?_⟩
      · rw [MembershipBookkeeping.sourceOfPacket, hget, Option.bind_some]
        simp only [if_true]
        rw [modifyLink_eq hsl]
        rfl
      · intro s
        rw [← hreq.ids s]
        refine Eq.to_iff (congrArg (s ∈ ·) (idsFor_setLink hsl ?_ s))
        rfl
      · intro hm b
        have hview :
            (m₁.setLink a { sl with probation := policy.minValidPacketSequence }).links.view
            SyncSourceLink.obsPacketCount = m₁.links.view SyncSourceLink.obsPacketCount :=
          Heap.view_write_of_eq hsl rfl
        rw [hview]
        exact hreq.unheard hm b

/-- **Every data packet is recorded.** -/
theorem Orderly.recordPacket (uninit : ℕ → Bool) (policy : ReceptionPolicy) (h : Orderly m chains)
    (ssrc : BitVec 32) (pkt : ReceivedPacket) :
    ∃ sets m' chains', m.recordPacket uninit policy ssrc pkt = some (sets, m') ∧
      Recorded uninit policy m chains ssrc pkt sets m' chains' := by
  obtain ⟨a, m₁, chains', sl, hsource, horderly, hids, hmembers, hsenders, hsl, hunheard⟩ :=
    h.sourceOfPacket uninit policy ssrc
  obtain ⟨hid, hnext, hprev, hresult, hobs⟩ := sl.recordReception_frame policy pkt
  set sl' := (sl.recordReception policy pkt).2 with hsl'
  have hfirst : m.Unheard → sl.obsPacketCount = 0 := by
    intro hm
    rcases hunheard hm a with hnone | hzero
    · rw [Heap.view_eq_none, hsl] at hnone
      cases hnone
    · rw [Heap.view, hsl, Option.map_some, Option.some_inj] at hzero
      exact hzero
  refine ⟨(sl.recordReception policy pkt).1 && sl'.obsPacketCount = 1, m₁.setLink a sl', chains',
    ?_, horderly.setLink hsl hid hnext hprev, ?_, hmembers, hsenders, ?_, ?_⟩
  · rw [MembershipBookkeeping.recordPacket, hsource, Option.bind_some]
    simp only
    rw [hsl]
    rfl
  · intro s
    rw [idsFor_setLink hsl hid]
    exact hids s
  · intro hm
    have hzero := hfirst hm
    have hvalid := SyncSourceLink.validate_first policy pkt.seqNum hzero
    rw [hresult, hobs, hzero, Bool.and_eq_true, decide_eq_true_iff]
    constructor
    · rintro ⟨hok, -⟩
      exact ⟨a, m₁, sl, hsource, hsl, hzero, hvalid.mp hok⟩
    · rintro ⟨a', m₁', sl₀, hsource', hsl₀, -, hcompletes⟩
      rw [hsource, Option.some_inj] at hsource'
      cases hsource'
      rw [hsl, Option.some_inj] at hsl₀
      subst hsl₀
      have hok := hvalid.mpr hcompletes
      rw [if_pos hok]
      exact ⟨hok, rfl⟩
  · intro hm hsets b
    have hzero := hfirst hm
    have hinvalid : (SyncSourceLink.validate policy sl pkt.seqNum).1 = false := by
      by_contra hok
      rw [Bool.not_eq_false] at hok
      rw [hresult, hobs, hzero, hok] at hsets
      cases hsets
    have hview : (m₁.setLink a sl').links.view SyncSourceLink.obsPacketCount
        = m₁.links.view SyncSourceLink.obsPacketCount := by
      refine Heap.view_write_of_eq hsl ?_
      rw [hobs, hinvalid]
      rfl
    rw [hview]
    exact hunheard hm b

end MembershipBookkeeping
