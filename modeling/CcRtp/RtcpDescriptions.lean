/-
# Whom a source description describes

An SDES packet has a chunk for each source it describes.  `QueueRTCPManager::onGotSDES`
(`src/control.cpp`) looks up the source of every chunk, but hands the items on as those of the
source of the whole compound, and takes the length of the packet for that of a chunk.  In a
chunk, `onGotSDESChunk` has nobody to store items for until it finds a CNAME, if the source has
no participant yet.

* `describe` : what a chunk is for;
* `chunkLoop_eq_foldlM` : the chunks that are processed, and for whom;
* `stored_append_eq_iff` : when items may be dropped;
* `descriptions_attributed_iff` : when the chunks of a packet are all processed, each for its own
  source, with nothing lost.
-/
import CcRtp.RtcpAgreement

/-! ## Chunks -/

/-- A chunk of a source description: an SSRC, items that can be told, and zeros up to a multiple
of four octets, at least the END item. -/
structure DescribedChunk where
  ssrc : BitVec 32
  items : List (UInt8 × Octets)
  zeros : ℕ
  tellable : ∀ item ∈ items, QueueRTCPManager.Tellable item
  ended : 1 ≤ zeros ∧ zeros ≤ 4
  whole : ((items.flatMap sdesItemOctets).length + zeros) % 4 = 0

namespace DescribedChunk

/-- The chunk as it is sent. -/
def octets (c : DescribedChunk) : Octets :=
  bigEndian 4 c.ssrc.toNat ++ (c.items.flatMap sdesItemOctets
    ++ List.replicate c.zeros QueueRTCPManager.sdesItemTypeEND)

/-- A chunk with a CNAME of one character. -/
def named (ssrc : BitVec 32) (char : UInt8) : DescribedChunk where
  ssrc := ssrc
  items := [(1, [char])]
  zeros := 1
  tellable := by
    intro item hitem
    rw [List.mem_singleton.mp hitem]
    exact ⟨(by decide : (0 : UInt8) < 1), (by decide : (1 : UInt8) ≤ 9), Nat.le_add_left 1 254⟩
  ended := by decide
  whole := by simp [sdesItemOctets]

/-- The items before the first CNAME. -/
def beforeCNAME (c : DescribedChunk) : List (UInt8 × Octets) :=
  c.items.takeWhile (fun item => item.1 ≠ QueueRTCPManager.sdesItemTypeCNAME)

/-- The items from the first CNAME on. -/
def fromCNAME (c : DescribedChunk) : List (UInt8 × Octets) :=
  c.items.dropWhile (fun item => item.1 ≠ QueueRTCPManager.sdesItemTypeCNAME)

/-- The first CNAME of the chunk. -/
def cname (c : DescribedChunk) : Option Octets := c.fromCNAME.head?.map Prod.snd

variable {c : DescribedChunk}

/-- The items, divided at the first CNAME. -/
theorem beforeCNAME_append_fromCNAME (c : DescribedChunk) :
    c.beforeCNAME ++ c.fromCNAME = c.items :=
  List.takeWhile_append_dropWhile

/-- There is no CNAME in front of the first one. -/
theorem ne_of_mem_beforeCNAME {item : UInt8 × Octets} (h : item ∈ c.beforeCNAME) :
    item.1 ≠ QueueRTCPManager.sdesItemTypeCNAME := by
  have hkept := List.mem_takeWhile_imp h
  exact of_decide_eq_true hkept

/-- Nothing is behind if there is no CNAME. -/
theorem fromCNAME_of_none (h : c.cname = none) : c.fromCNAME = [] :=
  List.head?_eq_none_iff.mp (Option.map_eq_none_iff.mp h)

/-- The rest begins with the first CNAME. -/
theorem fromCNAME_of_some {data : Octets} (h : c.cname = some data) :
    ∃ post, c.fromCNAME = (QueueRTCPManager.sdesItemTypeCNAME, data) :: post := by
  obtain ⟨⟨t, data'⟩, hhead, rfl⟩ := Option.map_eq_some_iff.mp h
  obtain ⟨post, hpost⟩ := List.head?_eq_some_iff.mp hhead
  have htype := List.head?_dropWhile_not (fun item : UInt8 × Octets =>
    (item.1 ≠ QueueRTCPManager.sdesItemTypeCNAME : Bool)) c.items
  refine ⟨post, ?_⟩
  rw [hpost]
  unfold fromCNAME at hhead
  rw [hhead] at htype
  have hcname : t = QueueRTCPManager.sdesItemTypeCNAME := by simpa using htype
  rw [hcname]

end DescribedChunk

/-- The chunks fill a source description exactly. -/
structure FilledBy (buf : Memory) (p : ℕ) (chunks : List DescribedChunk) : Prop where
  nonempty : chunks ≠ []
  count : (RTCPPacket.blockCount buf p).toNat = chunks.length
  length : RTCPPacket.getLength buf p = 4 + (chunks.flatMap DescribedChunk.octets).length
  octets : buf.octets (p + 4) (chunks.flatMap DescribedChunk.octets).length
    = chunks.flatMap DescribedChunk.octets

/-! ## Items of a participant -/

/-- The items of a participant when others have been stored, one after the other. -/
def stored (f : SDESItems) (items : List (UInt8 × Octets)) : SDESItems :=
  items.foldl (fun f item => Function.update f item.1 (item.2.takeWhile (fun c => c ≠ 0))) f

section Stored

variable {f g : SDESItems} {items pre post : List (UInt8 × Octets)} {t : UInt8}

/-- Items are stored one after the other. -/
theorem stored_append (f : SDESItems) (pre post : List (UInt8 × Octets)) :
    stored f (pre ++ post) = stored (stored f pre) post := List.foldl_append

/-- Items that do not occur stay. -/
theorem stored_of_not_mem (f : SDESItems) (h : t ∉ items.map Prod.fst) :
    stored f items t = f t := by
  induction items generalizing f with
  | nil => rfl
  | cons item items ih =>
      rw [List.map_cons, List.mem_cons, not_or] at h
      rw [stored, List.foldl_cons]
      exact (ih _ h.2).trans (Function.update_of_ne h.1 _ _)

/-- What is stored of an item that occurs does not depend on what was there. -/
theorem stored_of_mem (f g : SDESItems) (h : t ∈ items.map Prod.fst) :
    stored f items t = stored g items t := by
  induction items generalizing f g with
  | nil => exact absurd h List.not_mem_nil
  | cons item items ih =>
      rw [stored, List.foldl_cons, stored, List.foldl_cons]
      by_cases hmem : t ∈ items.map Prod.fst
      · exact ih _ _ hmem
      · have hfirst : t = item.1 := (List.mem_cons.mp h).resolve_right hmem
        refine (stored_of_not_mem _ hmem).trans (Eq.trans ?_ (stored_of_not_mem _ hmem).symm)
        rw [hfirst, Function.update_self, Function.update_self]

/-- **When the first items may be dropped**: each of them occurs behind, or is there already. -/
theorem stored_append_eq_iff (f : SDESItems) (pre post : List (UInt8 × Octets)) :
    stored f (pre ++ post) = stored f post ↔
      ∀ t ∈ pre.map Prod.fst, t ∉ post.map Prod.fst → stored f pre t = f t := by
  rw [stored_append]
  constructor
  · intro h t _ hpost
    have ht := congrFun h t
    rwa [stored_of_not_mem _ hpost, stored_of_not_mem _ hpost] at ht
  · intro h
    funext t
    by_cases hpost : t ∈ post.map Prod.fst
    · exact stored_of_mem _ _ hpost
    · rw [stored_of_not_mem _ hpost, stored_of_not_mem _ hpost]
      by_cases hpre : t ∈ pre.map Prod.fst
      · exact h t hpre hpost
      · exact stored_of_not_mem f hpre

end Stored

namespace QueueRTCPManager

open RTCPPacket

variable {m m' : QueueRTCPManager} {buf : Memory} {src ssrc : BitVec 32} {rounds len p : ℕ}

/-! ## The purpose of a chunk -/

/-- Items are stored for a participant. -/
def storeAll (m : QueueRTCPManager) (part : ℕ) (items : List (UInt8 × Octets)) : QueueRTCPManager :=
  { m with
    participants := Function.update m.participants part (stored (m.participants part) items) }

/-- **What a chunk says**: the items of the participant of its own source.  If the source has no
participant yet, its CNAME tells which one it is; without either there is nobody to describe. -/
def describe (m : QueueRTCPManager) (c : DescribedChunk) : QueueRTCPManager :=
  let m := (m.getSourceBySSRC c.ssrc).2
  if (m.source c.ssrc).participant = none ∧ c.cname = none then m
  else
    let r := m.participantOf c.ssrc (c.cname.getD [])
    r.2.storeAll r.1 c.items

/-- The participants, and whose they are. -/
def attribution (m : QueueRTCPManager) : (ℕ → SDESItems) × ℕ × (BitVec 32 → Option ℕ) :=
  (m.participants, m.participantCount, fun x => (m.source x).participant)

/-- A change that keeps the participant. -/
theorem attribution_modifySource (m : QueueRTCPManager) (ssrc : BitVec 32)
    (f : ControlSource → ControlSource) (hf : ∀ s, (f s).participant = s.participant) :
    (m.modifySource ssrc f).attribution = m.attribution := by
  have hsources : (fun x => ((m.modifySource ssrc f).source x).participant)
      = fun x => (m.source x).participant := by
    funext x
    by_cases hx : x = ssrc
    · rw [hx, source_modifySource_self, hf]
    · rw [source_modifySource_of_ne m hx]
  rw [attribution, attribution, hsources]
  rfl

/-- Storing changes the items of the participant alone. -/
theorem attribution_storeAll (m : QueueRTCPManager) (part : ℕ) (items : List (UInt8 × Octets)) :
    (m.storeAll part items).attribution
      = (Function.update m.participants part (stored (m.participants part) items),
          m.participantCount, fun x => (m.source x).participant) := rfl

/-- No items are stored. -/
theorem storeAll_nil (m : QueueRTCPManager) (part : ℕ) : m.storeAll part [] = m := by
  rw [storeAll, stored, List.foldl_nil, Function.update_eq_self]

/-- Items are stored one after the other. -/
theorem storeAll_append (m : QueueRTCPManager) (part : ℕ) (pre post : List (UInt8 × Octets)) :
    m.storeAll part (pre ++ post) = (m.storeAll part pre).storeAll part post := by
  rw [storeAll, storeAll, storeAll, stored_append]
  dsimp only
  rw [Function.update_self, Function.update_idem]

/-- One item is stored. -/
theorem storeAll_singleton (m : QueueRTCPManager) (part : ℕ) (t : UInt8) (data : Octets) :
    m.storeAll part [(t, data)] = m.setSDESItem part t data := rfl

/-- Storing is told apart by what the participant has afterwards. -/
theorem attribution_storeAll_eq_iff (m : QueueRTCPManager) (part : ℕ)
    (items items' : List (UInt8 × Octets)) :
    (m.storeAll part items).attribution = (m.storeAll part items').attribution ↔
      stored (m.participants part) items = stored (m.participants part) items' := by
  rw [attribution_storeAll, attribution_storeAll, Prod.mk.injEq, and_iff_left rfl]
  constructor
  · intro h
    have hpart := congrFun h part
    rwa [Function.update_self, Function.update_self] at hpart
  · intro h
    rw [h]

/-! ## The items of a chunk -/

/-- **Items are stored for the participant that is known.** -/
theorem foldl_takeItem_of_some {part : ℕ} (items : List (UInt8 × Octets)) :
    ∀ (s : ChunkState), s.part = some part → ∀ m, s.manager.attribution = attribution m →
      (items.foldl (takeItem src) s).manager.attribution = (m.storeAll part items).attribution := by
  induction items with
  | nil =>
      intro s _ m hm
      rw [storeAll_nil]
      exact hm
  | cons item items ih =>
      intro s hpart m hm
      obtain ⟨t, data⟩ := item
      have hwho : itemParticipant s src t data = (some part, s.manager) := by
        rw [itemParticipant, if_neg (fun h => by rw [hpart] at h; cases h.1), hpart]
      have hnext : (takeItem src s (t, data)).part = some part := by
        rw [takeItem, hwho]
      have hset : (s.manager.setSDESItem part t data).attribution
          = (m.storeAll part [(t, data)]).attribution := by
        simp only [attribution, Prod.mk.injEq] at hm
        rw [storeAll_singleton]
        simp only [attribution, setSDESItem, Prod.mk.injEq]
        refine ⟨?_, hm.2.1, hm.2.2⟩
        rw [hm.1]
      have hstored : (takeItem src s (t, data)).manager.attribution
          = (m.storeAll part [(t, data)]).attribution := by
        rw [← hset, takeItem, hwho]
        unfold storeItem
        dsimp only
        split_ifs
        · exact attribution_modifySource _ src _ (fun _ => rfl)
        · rfl
      rw [List.foldl_cons, ih _ hnext _ hstored, ← storeAll_append, List.singleton_append]

/-- **Without a participant, items other than the CNAME are dropped.** -/
theorem foldl_takeItem_of_none (src : BitVec 32) (items : List (UInt8 × Octets))
    (h : ∀ item ∈ items, item.1 ≠ sdesItemTypeCNAME) :
    ∀ s : ChunkState, s.part = none →
      (items.foldl (takeItem src) s).part = none ∧
        (items.foldl (takeItem src) s).manager = s.manager := by
  induction items with
  | nil =>
      intro s hpart
      exact ⟨hpart, rfl⟩
  | cons item items ih =>
      intro s hpart
      have hother := h item List.mem_cons_self
      have hwho : itemParticipant s src item.1 item.2 = (none, s.manager) := by
        rw [itemParticipant, if_neg (fun hc => hother hc.2), hpart]
      have hnext : (takeItem src s item).part = none ∧
          (takeItem src s item).manager = s.manager := by
        rw [takeItem, hwho]
        unfold storeItem
        dsimp only
        rw [if_neg hother]
        exact ⟨rfl, rfl⟩
      rw [List.foldl_cons]
      obtain ⟨hpart', hmanager'⟩ := ih (fun i hi => h i (List.mem_cons_of_mem item hi))
        (takeItem src s item) hnext.1
      exact ⟨hpart', hmanager'.trans hnext.2⟩

/-- **No item of the chunk is lost**: the source has a participant already, or what comes before
the first CNAME occurs behind it too, or is there already. -/
def NothingLost (m : QueueRTCPManager) (c : DescribedChunk) : Prop :=
  (m.source c.ssrc).participant = none → ∀ data, c.cname = some data →
    ∀ t ∈ c.beforeCNAME.map Prod.fst, t ∉ c.fromCNAME.map Prod.fst →
      stored ((m.identify c.ssrc data).2.participants (m.identify c.ssrc data).1) c.beforeCNAME t
        = (m.identify c.ssrc data).2.participants (m.identify c.ssrc data).1 t

/-- **When the items of a chunk are stored as they should be**, for its own source. -/
theorem foldl_takeItem_described_iff (m : QueueRTCPManager) (c : DescribedChunk)
    {m₁ : QueueRTCPManager} (hm₁ : m₁ = (m.getSourceBySSRC c.ssrc).2) :
    (c.items.foldl (takeItem c.ssrc)
        ⟨4, false, false, (m₁.source c.ssrc).participant, m₁⟩).manager.attribution
      = (m.describe c).attribution ↔ NothingLost m c := by
  have hsource : m₁.source c.ssrc = m.source c.ssrc := by
    rw [hm₁, source_getSourceBySSRC]
  set s₀ : ChunkState := ⟨4, false, false, (m₁.source c.ssrc).participant, m₁⟩ with hs₀
  rw [describe, ← hm₁]
  dsimp only
  cases hpart : (m.source c.ssrc).participant with
  | some part =>
      have hknown : s₀.part = some part := by
        rw [hs₀, hsource, hpart]
      have hwho : m₁.participantOf c.ssrc (c.cname.getD []) = (part, m₁) := by
        rw [participantOf, hsource, hpart, Option.elim_some]
      rw [if_neg (fun h => by rw [hsource, hpart] at h; cases h.1), hwho]
      refine iff_of_true (foldl_takeItem_of_some c.items s₀ hknown m₁ rfl) ?_
      intro hnone
      rw [hpart] at hnone
      cases hnone
  | none =>
      have hunknown : s₀.part = none := by
        rw [hs₀, hsource, hpart]
      obtain ⟨hpart', hmanager'⟩ := foldl_takeItem_of_none c.ssrc c.beforeCNAME
        (fun item hitem => DescribedChunk.ne_of_mem_beforeCNAME hitem) s₀ hunknown
      rw [← c.beforeCNAME_append_fromCNAME, List.foldl_append]
      set s₁ := c.beforeCNAME.foldl (takeItem c.ssrc) s₀ with hs₁
      cases hcname : c.cname with
      | none =>
          rw [DescribedChunk.fromCNAME_of_none hcname, List.foldl_nil, hmanager', hsource, hpart,
            if_pos ⟨rfl, rfl⟩]
          refine iff_of_true rfl (fun _ data hdata => ?_)
          rw [hcname] at hdata
          cases hdata
      | some data =>
          obtain ⟨post, hpost⟩ := DescribedChunk.fromCNAME_of_some hcname
          rw [if_neg (fun h => by cases h.2), Option.getD_some, hpost, List.foldl_cons]
          -- from the CNAME on the participant is known
          have hunknown' : s₁.part = (s₁.manager.source c.ssrc).participant := by
            rw [hpart', hmanager']
            exact hunknown.symm
          obtain ⟨-, hwho, hset⟩ := takeItem_cname hunknown' data
          rw [hmanager'] at hwho hset
          set r := m₁.participantOf c.ssrc data with hr
          have hfirst : (takeItem c.ssrc s₁ (sdesItemTypeCNAME, data)).manager.attribution
              = (r.2.storeAll r.1 [(sdesItemTypeCNAME, data)]).attribution := by
            rw [hset, storeAll_singleton]
            exact attribution_modifySource _ c.ssrc _ (fun _ => rfl)
          rw [foldl_takeItem_of_some post _ hwho _ hfirst, ← storeAll_append, List.singleton_append,
            ← hpost, attribution_storeAll_eq_iff, eq_comm, stored_append_eq_iff]
          have hitems : r.2.participants r.1
              = (m.identify c.ssrc data).2.participants (m.identify c.ssrc data).1 := by
            obtain ⟨h1, h2⟩ := m.participantOf_getSourceBySSRC c.ssrc c.ssrc data
            rw [← hm₁, ← hr, participantOf, hpart, Option.elim_none] at h1 h2
            rw [h1, h2]
          rw [hitems, NothingLost, hpart]
          constructor
          · intro h _ data' hdata'
            rw [hcname, Option.some_inj] at hdata'
            subst hdata'
            exact h
          · intro h
            exact h rfl data hcname

/-! ## The chunks of a packet -/

/-- The chunks that `onGotSDES` processes: the source that the items are taken for, and where the
chunk is looked for. -/
def chunkCalls (src : BitVec 32) (len : ℕ) : ℕ → ℕ → List (BitVec 32 × ℕ)
  | 0, _ => []
  | chunks + 1, pointer => (src, pointer + 4) :: chunkCalls src len chunks (pointer + 4 + len)

/-- What is done with a chunk. -/
def takeChunk (rounds : ℕ) (buf : Memory) (len : ℕ) (r : Bool × QueueRTCPManager)
    (call : BitVec 32 × ℕ) : Option (Bool × QueueRTCPManager) :=
  let ssrc := BitVec.ofNat 32 (ofBigEndian (buf.octets call.2 4))
  (onGotSDESChunk rounds (r.2.getSourceBySSRC ssrc).2 call.1 buf call.2 len).map
    (fun found => (r.1 || found.1, found.2.getHello ssrc))

/-- **The loop of `onGotSDES`** takes these chunks, one behind the other. -/
theorem chunkLoop_eq_foldlM (rounds : ℕ) (src : BitVec 32) (buf : Memory) (len chunks : ℕ) :
    ∀ (p : ℕ) (cname : Bool) (m : QueueRTCPManager),
      chunkLoop rounds src buf len chunks p cname m
        = (chunkCalls src len chunks p).foldlM (takeChunk rounds buf len) (cname, m) := by
  induction chunks with
  | zero =>
      intro p cname m
      rfl
  | succ chunks ih =>
      intro p cname m
      rw [chunkLoop, chunkCalls, List.foldlM_cons, takeChunk]
      dsimp only
      cases onGotSDESChunk rounds (m.getSourceBySSRC (BitVec.ofNat 32
          (ofBigEndian (buf.octets (p + 4) 4)))).2 src buf (p + 4) len with
      | none => rfl
      | some r => exact ih _ _ _

/-- An item takes up two octets or more. -/
theorem two_mul_length_le (items : List (UInt8 × Octets)) :
    2 * items.length ≤ (items.flatMap sdesItemOctets).length := by
  induction items with
  | nil => exact Nat.zero_le _
  | cons item items ih =>
      rw [List.flatMap_cons, List.length_append, List.length_cons, sdesItemOctets, List.length_cons,
        List.length_cons]
      omega

/-- **A packet with one chunk, of the source that the items are taken for.** -/
theorem onGotSDES_single (m : QueueRTCPManager) {c : DescribedChunk} (h : FilledBy buf p [c])
    (hrounds : 2 ^ 18 ≤ rounds) :
    ∃ r, m.onGotSDES rounds c.ssrc buf p = some r ∧
      (r.2.attribution = (m.describe c).attribution ↔ NothingLost m c) := by
  have hbound := (getLength_bounds buf p).2
  have hlength := h.length
  have hread := h.octets
  have hitems := two_mul_length_le c.items
  have hoctets : c.octets.length = 4 + ((c.items.flatMap sdesItemOctets).length + c.zeros) := by
    rw [DescribedChunk.octets, List.length_append, length_bigEndian, List.length_append,
      List.length_replicate]
  rw [List.flatMap_singleton, hoctets] at hlength hread
  -- the SSRC of the chunk, and its items
  rw [Memory.octets_add, DescribedChunk.octets] at hread
  obtain ⟨hssrc, hchunk⟩ := List.append_inj hread (by rw [Memory.length_octets, length_bigEndian])
  have hword : BitVec.ofNat 32 (ofBigEndian (buf.octets (p + 4) 4)) = c.ssrc := by
    rw [hssrc, ofBigEndian_bigEndian 4 _ c.ssrc.isLt, BitVec.ofNat_toNat, BitVec.setWidth_eq]
  set m₁ := (m.getSourceBySSRC c.ssrc).2 with hm₁
  obtain ⟨e, he, -, hmanager⟩ := @chunkItems_taken buf (getLength buf p) c.ssrc (p + 4) c.items
    c.tellable c.zeros (show 0 < c.zeros from c.ended.1) _ rounds (by omega)
    ⟨4, false, false, (m₁.source c.ssrc).participant, m₁⟩ rfl (by dsimp only; omega) hchunk
  refine ⟨(e.cname, e.manager.getHello c.ssrc), ?_, ?_⟩
  · rw [onGotSDES, h.count, List.length_singleton, Nat.max_self, chunkLoop]
    dsimp only
    rw [hword, ← hm₁, onGotSDESChunk, he, Option.map_some, Option.bind_some, chunkLoop,
      Bool.false_or]
  · have hhello : (e.manager.getHello c.ssrc).attribution = e.manager.attribution :=
      attribution_modifySource _ _ _ (fun _ => rfl)
    rw [hhello, hmanager]
    exact foldl_takeItem_described_iff m c hm₁

/-- **Source descriptions, exactly.**  Let chunks fill an SDES packet.  In every session and for
every source of the compound, `onGotSDES` processes the chunks where they stand, each for its own
source, and stores what they say of the participants, if and only if there is one chunk, it is of
the source of the compound, and none of its items is lost. -/
theorem descriptions_attributed_iff (m : QueueRTCPManager) (buf : Memory) (p : ℕ)
    (chunks : List DescribedChunk) (hfilled : FilledBy buf p chunks) (src : BitVec 32) (rounds : ℕ)
    (hrounds : 2 ^ 18 ≤ rounds) :
    ∃ r, m.onGotSDES rounds src buf p = some r ∧
      ((chunkCalls src (getLength buf p) (max 1 (blockCount buf p).toNat) p
            = (chunks.map DescribedChunk.ssrc).zip
              (offsets (p + 4) (chunks.map DescribedChunk.octets)) ∧
          r.2.attribution = (chunks.foldl describe m).attribution) ↔
        ∃ c, chunks = [c] ∧ c.ssrc = src ∧ NothingLost m c) := by
  have hbound := (getLength_bounds buf p).2
  obtain ⟨r, hr⟩ := Option.isSome_iff_exists.mp (chunkLoop_isSome (hbound.trans hrounds) src buf
    (max 1 (blockCount buf p).toNat) p false m)
  refine ⟨r, hr, ?_⟩
  have hsingle : ∀ c, chunks = [c] → c.ssrc = src →
      (r.2.attribution = (m.describe c).attribution ↔ NothingLost m c) := by
    rintro c rfl rfl
    obtain ⟨r', hr', hiff⟩ := onGotSDES_single m hfilled hrounds
    have heq : r' = r := Option.some_inj.mp (hr'.symm.trans hr)
    exact heq ▸ hiff
  obtain ⟨c, rest, rfl⟩ := List.exists_cons_of_ne_nil hfilled.nonempty
  have hcount : max 1 (blockCount buf p).toNat = rest.length + 1 := by
    rw [hfilled.count, List.length_cons]
    omega
  rw [hcount, chunkCalls, List.map_cons, List.map_cons, offsets, List.zip_cons_cons,
    List.cons.injEq, Prod.mk.injEq, and_iff_left rfl]
  constructor
  · rintro ⟨⟨hsrc, hcalls⟩, hattribution⟩
    cases rest with
    | nil => exact ⟨c, rfl, hsrc.symm, (hsingle c rfl hsrc.symm).mp hattribution⟩
    | cons d rest =>
        -- the second chunk is looked for behind the packet
        rw [List.length_cons, chunkCalls, List.map_cons, List.map_cons, offsets, List.zip_cons_cons,
          List.cons.injEq, Prod.mk.injEq] at hcalls
        have hoffset := hcalls.1.2
        have hlength := hfilled.length
        rw [List.flatMap_cons, List.length_append] at hlength
        omega
  · rintro ⟨c', heq, hsrc, hlost⟩
    rw [List.cons.injEq] at heq
    obtain ⟨rfl, rfl⟩ := heq
    exact ⟨⟨hsrc.symm, rfl⟩, (hsingle c rfl hsrc).mpr hlost⟩

/-- A description of the source 7. -/
def describesOne : Memory := .ofOctets [0x81, 202, 0, 2, 0, 0, 0, 7, 1, 1, 97, 0]

/-- The packet holds this one chunk. -/
theorem filledBy_describesOne : FilledBy describesOne 0 [.named 7 97] :=
  ⟨List.cons_ne_nil _ _, by decide, by decide, by decide⟩

/-- The theorem at a description of the source of the compound. -/
theorem descriptions_attributed_iff_one :
    ∃ r, alone.onGotSDES (2 ^ 18) 7 describesOne 0 = some r ∧
      ((chunkCalls 7 (getLength describesOne 0) (max 1 (blockCount describesOne 0).toNat) 0
            = ([DescribedChunk.named 7 97].map DescribedChunk.ssrc).zip
                (offsets (0 + 4) ([DescribedChunk.named 7 97].map DescribedChunk.octets)) ∧
          r.2.attribution = ([DescribedChunk.named 7 97].foldl describe alone).attribution) ↔
        ∃ c, [DescribedChunk.named 7 97] = [c] ∧ c.ssrc = 7 ∧ NothingLost alone c) :=
  descriptions_attributed_iff alone describesOne 0 _ filledBy_describesOne 7 _ le_rfl

/-- A description of the sources 7 and 9. -/
def describesTwo : Memory :=
  .ofOctets [0x82, 202, 0, 4, 0, 0, 0, 7, 1, 1, 97, 0, 0, 0, 0, 9, 1, 1, 98, 0]

/-- **The second source is not described.** -/
theorem second_chunk_not_attributed :
    FilledBy describesTwo 0 [.named 7 97, .named 9 98] ∧
      ∃ r, alone.onGotSDES 8 7 describesTwo 0 = some r ∧
        r.2.attribution ≠
          ([DescribedChunk.named 7 97, .named 9 98].foldl describe alone).attribution := by
  refine ⟨⟨List.cons_ne_nil _ _, by decide, by decide, by decide⟩, ?_⟩
  -- the second chunk is looked for behind the packet, and nothing is there
  have hunknown : (alone.onGotSDES 8 7 describesTwo 0).map (fun r => (r.2.source 9).participant)
      = some none := by decide
  obtain ⟨r, hr, hr'⟩ := Option.map_eq_some_iff.mp hunknown
  refine ⟨r, hr, fun h => ?_⟩
  have hdescribed :
      (([DescribedChunk.named 7 97, .named 9 98].foldl describe alone).source 9).participant
      = some 1 := by decide
  have hparticipant := congrFun (congrArg (fun a => a.2.2) h) 9
  exact absurd (hr'.symm.trans (hparticipant.trans hdescribed)) (by decide)

end QueueRTCPManager
