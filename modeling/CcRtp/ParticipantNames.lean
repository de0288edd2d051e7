/-
# The CNAMEs of the participants

A source that has no participant yet gets, with the first CNAME in a chunk of it, the participant
of that CNAME (`QueueRTCPManager::onGotSDESChunk`, `src/control.cpp`).  Afterwards every CNAME of
the source is written over that of its participant, whoever else has it and whoever else is
associated with the participant.

* `onGotSDESChunk_registry` : what a chunk does to the CNAMEs of the participants;
* `unique_cnames_iff` : when the CNAMEs stay unique and every source is associated with the
  participant of the CNAME that it announced last.
-/
import CcRtp.AlongRun
import CcRtp.NameRegistry
import CcRtp.RtcpDescriptions

open QueueRTCPManager

/-! ## Chunks as they arrive -/

/-- A call of `onGotSDESChunk`: the source that the items are taken for, and where the octets of
the chunk are. -/
structure ChunkCall where
  src : BitVec 32
  buf : Memory
  chunk : ℕ
  len : ℕ

/-- The items behind an offset of a chunk, up to the END item; octets that are no item are
skipped. -/
def sdesItemsFrom (buf : Memory) (chunk len : ℕ) : ℕ → ℕ → List (UInt8 × Octets)
  | 0, _ => []
  | rounds + 1, pointer =>
      if pointer < len then
        let type := buf (chunk + pointer)
        let n := (buf (chunk + pointer + 1)).toNat
        if type > sdesItemTypeEND ∧ type ≤ sdesItemTypeLast then
          (type, buf.octets (chunk + pointer + 2) n)
            :: sdesItemsFrom buf chunk len rounds (pointer + 2 + n)
        else if type = sdesItemTypeEND then []
        else sdesItemsFrom buf chunk len rounds (pointer + 1)
      else []

/-- The CNAMEs among some items. -/
def cnamesOf (items : List (UInt8 × Octets)) : List Octets :=
  (items.filter (fun item => item.1 = sdesItemTypeCNAME)).map Prod.snd

/-- The CNAMEs that a chunk carries. -/
def ChunkCall.cnames (call : ChunkCall) : List Octets :=
  cnamesOf (sdesItemsFrom call.buf call.chunk call.len call.len 4)

theorem cnamesOf_cons_of_eq {item : UInt8 × Octets} (h : item.1 = sdesItemTypeCNAME)
    (items : List (UInt8 × Octets)) : cnamesOf (item :: items) = item.2 :: cnamesOf items := by
  rw [cnamesOf, List.filter_cons_of_pos (by simpa using h)]
  rfl

theorem cnamesOf_cons_of_ne {item : UInt8 × Octets} (h : item.1 ≠ sdesItemTypeCNAME)
    (items : List (UInt8 × Octets)) : cnamesOf (item :: items) = cnamesOf items := by
  rw [cnamesOf, List.filter_cons_of_neg (by simpa using h)]
  rfl

section Items

variable {buf : Memory} {chunk len rounds pointer : ℕ}

theorem sdesItemsFrom_item (hlt : pointer < len)
    (htype : buf (chunk + pointer) > sdesItemTypeEND ∧ buf (chunk + pointer) ≤ sdesItemTypeLast) :
    sdesItemsFrom buf chunk len (rounds + 1) pointer
      = (buf (chunk + pointer),
          buf.octets (chunk + pointer + 2) (buf (chunk + pointer + 1)).toNat)
        :: sdesItemsFrom buf chunk len rounds
          (pointer + 2 + (buf (chunk + pointer + 1)).toNat) := by
  rw [sdesItemsFrom, if_pos hlt]
  dsimp only
  rw [if_pos htype]

theorem sdesItemsFrom_end (rounds : ℕ) (hend : buf (chunk + pointer) = sdesItemTypeEND) :
    sdesItemsFrom buf chunk len rounds pointer = [] := by
  cases rounds with
  | zero => rfl
  | succ rounds =>
      rw [sdesItemsFrom]
      dsimp only
      rw [hend]
      split_ifs with _ htype hother
      · exact absurd htype.1 (by decide)
      · rfl
      · exact absurd rfl hother
      · rfl

/-- **The items of a described chunk** are those that are found in its octets. -/
theorem sdesItemsFrom_described (items : List (UInt8 × Octets))
    (hitems : ∀ item ∈ items, Tellable item)
    {k : ℕ} (hk : 0 < k) (n rounds pointer : ℕ) (hrounds : items.length ≤ rounds)
    (hn : pointer + n ≤ len)
    (hread : buf.octets (chunk + pointer) n
      = items.flatMap sdesItemOctets ++ List.replicate k sdesItemTypeEND) :
    sdesItemsFrom buf chunk len rounds pointer = items := by
  induction items generalizing n rounds pointer with
  | nil =>
      rw [List.flatMap_nil, List.nil_append] at hread
      have hlength := congrArg List.length hread
      rw [Memory.length_octets, List.length_replicate] at hlength
      obtain ⟨n', rfl⟩ : ∃ n', n = 1 + n' := ⟨n - 1, by omega⟩
      rw [Memory.octets_add] at hread
      exact sdesItemsFrom_end rounds
        (List.eq_of_mem_replicate (hread ▸ List.mem_append_left _ List.mem_cons_self))
  | cons item items ih =>
      obtain ⟨hlow, hhigh, hlen⟩ := hitems item List.mem_cons_self
      have hlength := congrArg List.length hread
      rw [Memory.length_octets, List.length_append, List.flatMap_cons, List.length_append,
        sdesItemOctets, List.length_cons, List.length_cons, List.length_replicate] at hlength
      -- the octets of the first item, and those behind it
      obtain ⟨n', rfl⟩ : ∃ n', n = 2 + item.2.length + n' :=
        ⟨n - (2 + item.2.length), by omega⟩
      rw [List.flatMap_cons, List.append_assoc, Memory.octets_add] at hread
      obtain ⟨hfirst, hrest⟩ := List.append_inj hread (by
        rw [Memory.length_octets, sdesItemOctets, List.length_cons, List.length_cons]
        omega)
      rw [Memory.octets_add] at hfirst
      obtain ⟨hhead, hdata⟩ : buf.octets (chunk + pointer) 2 = [item.1, UInt8.ofNat item.2.length] ∧
          buf.octets (chunk + pointer + 2) item.2.length = item.2 := List.append_inj hfirst rfl
      have htype : buf (chunk + pointer) = item.1 := (List.cons.inj hhead).1
      have hcount : buf (chunk + pointer + 1) = UInt8.ofNat item.2.length :=
        (List.cons.inj (List.cons.inj hhead).2).1
      have hnat : (buf (chunk + pointer + 1)).toNat = item.2.length := by
        rw [hcount, UInt8.toNat_ofNat', Nat.mod_eq_of_lt (by omega)]
      rw [show chunk + pointer + (2 + item.2.length) = chunk + (pointer + 2 + item.2.length)
        by omega] at hrest
      cases rounds with
      | zero => exact absurd hrounds (Nat.not_succ_le_zero _)
      | succ rounds =>
          rw [sdesItemsFrom_item (by omega) (by rw [htype]; exact ⟨hlow, hhigh⟩), htype,
            hnat, hdata,
            ih (fun i hi => hitems i (List.mem_cons_of_mem item hi)) n' rounds
              (pointer + 2 + item.2.length) (Nat.le_of_succ_le_succ hrounds) (by omega) hrest]

/-- A chunk that has been described carries its CNAMEs. -/
theorem cnames_described {c : DescribedChunk} (src : BitVec 32)
    (hread : buf.octets chunk c.octets.length = c.octets) (hlen : c.octets.length ≤ len) :
    ChunkCall.cnames ⟨src, buf, chunk, len⟩ = cnamesOf c.items := by
  have hitems := two_mul_length_le c.items
  have hoctets : c.octets.length = 4 + ((c.items.flatMap sdesItemOctets).length + c.zeros) := by
    rw [DescribedChunk.octets, List.length_append, length_bigEndian, List.length_append,
      List.length_replicate]
  rw [hoctets, Memory.octets_add, DescribedChunk.octets] at hread
  obtain ⟨-, hchunk⟩ := List.append_inj hread (by rw [Memory.length_octets, length_bigEndian])
  have hended : 0 < c.zeros := c.ended.1
  show cnamesOf (sdesItemsFrom buf chunk len len 4) = cnamesOf c.items
  rw [sdesItemsFrom_described c.items c.tellable hended _ len 4 (by omega) (by omega) hchunk]

end Items

namespace QueueRTCPManager

variable {m : QueueRTCPManager} {s : ChunkState} {src : BitVec 32} {c : Octets} {p : ℕ}

/-! ## The register of CNAMEs -/

/-- The participants with their CNAMEs, and the participants of the sources. -/
def registry (m : QueueRTCPManager) : NameRegistry (BitVec 32) Octets :=
  ⟨fun i => m.participants i sdesItemTypeCNAME, m.participantCount,
    fun src => (m.source src).participant⟩

/-- What is stored of a CNAME. -/
def writtenCNAME (c : Octets) : Octets := c.takeWhile (fun x => x ≠ 0)

theorem writtenCNAME_of_nul_free (h : 0 ∉ c) : writtenCNAME c = c := takeWhile_of_nul_free h

theorem zero_not_mem_writtenCNAME (c : Octets) : 0 ∉ writtenCNAME c := by
  intro h
  have hne := List.mem_takeWhile_imp h
  exact of_decide_eq_true hne rfl

theorem getParticipant_eq_find (m : QueueRTCPManager) (c : Octets) :
    m.getParticipant c = m.registry.find c := rfl

theorem registry_modifySource (m : QueueRTCPManager) (src : BitVec 32)
    (f : ControlSource → ControlSource) (hf : ∀ s, (f s).participant = s.participant) :
    (m.modifySource src f).registry = m.registry := by
  have hentry : (fun x => ((m.modifySource src f).source x).participant)
      = fun x => (m.source x).participant :=
        congrArg (fun a => a.2.2) (m.attribution_modifySource src f hf)
  rw [registry, hentry]
  rfl

theorem registry_getSourceBySSRC (m : QueueRTCPManager) (ssrc : BitVec 32) :
    (m.getSourceBySSRC ssrc).2.registry = m.registry := by
  have hentry : (fun x => ((m.getSourceBySSRC ssrc).2.source x).participant)
      = fun x => (m.source x).participant := by
    funext x
    rw [source_getSourceBySSRC]
  rw [registry, hentry, getSourceBySSRC]
  cases m.sources ssrc <;> rfl

/-- A source is associated with a participant. -/
theorem registry_associate (m : QueueRTCPManager) (src : BitVec 32) (p : ℕ) :
    (m.modifySource src (fun s => { s with participant := some p })).registry
      = m.registry.assign src p := by
  have hentry : (fun x => ((m.modifySource src (fun s => { s with participant := some p })).source
      x).participant) = Function.update m.registry.entry src (some p) := by
    funext x
    by_cases hx : x = src
    · rw [hx, source_modifySource_self, Function.update_self]
    · rw [source_modifySource_of_ne m hx, Function.update_of_ne hx]
      rfl
  rw [registry, hentry]
  rfl

/-- A CNAME is stored. -/
theorem registry_setSDESItem_cname (m : QueueRTCPManager) (p : ℕ) (c : Octets) :
    (m.setSDESItem p sdesItemTypeCNAME c).registry = m.registry.rename p (writtenCNAME c) := by
  have hname : (fun i => (m.setSDESItem p sdesItemTypeCNAME c).participants i sdesItemTypeCNAME)
      = Function.update m.registry.name p (writtenCNAME c) := by
    funext i
    rw [setSDESItem]
    dsimp only
    by_cases hi : i = p
    · rw [hi, Function.update_self, Function.update_self, Function.update_self, writtenCNAME]
    · rw [Function.update_of_ne hi, Function.update_of_ne hi]
      rfl
  rw [registry, hname]
  rfl

/-- Another item is stored. -/
theorem registry_setSDESItem_of_ne {type : UInt8} (htype : type ≠ sdesItemTypeCNAME)
    (m : QueueRTCPManager) (p : ℕ) (data : Octets) :
    (m.setSDESItem p type data).registry = m.registry := by
  have hname : (fun i => (m.setSDESItem p type data).participants i sdesItemTypeCNAME)
      = fun i => m.participants i sdesItemTypeCNAME := by
    funext i
    rw [setSDESItem]
    dsimp only
    by_cases hi : i = p
    · rw [hi, Function.update_self, Function.update_of_ne htype.symm]
    · rw [Function.update_of_ne hi]
  rw [registry, hname]
  rfl

/-- A new participant has the name that is stored for it. -/
theorem registry_newParticipant (m : QueueRTCPManager) (src : BitVec 32) (c : Octets) :
    (m.newParticipant.registry.assign src m.participantCount).rename m.participantCount c
      = m.registry.append src c := by
  have hname : m.newParticipant.registry.name
      = Function.update m.registry.name m.participantCount [45] := by
    funext i
    show Function.update m.participants m.participantCount
      (Function.update (fun _ => []) sdesItemTypeCNAME [45]) i sdesItemTypeCNAME = _
    by_cases hi : i = m.participantCount
    · rw [hi, Function.update_self, Function.update_self, Function.update_self]
    · rw [Function.update_of_ne hi, Function.update_of_ne hi]
      rfl
  rw [NameRegistry.append, NameRegistry.rename, NameRegistry.rename]
  simp only [NameRegistry.assign, hname, Function.update_idem]
  rfl

/-- **A CNAME is announced** to the participants. -/
theorem registry_announce (m : QueueRTCPManager) (src : BitVec 32) (c : Octets) :
    ((m.participantOf src c).2.setSDESItem (m.participantOf src c).1 sdesItemTypeCNAME c).registry
      = m.registry.announce src c (writtenCNAME c) := by
  rw [registry_setSDESItem_cname, participantOf]
  cases hentry : (m.source src).participant with
  | some p => exact (NameRegistry.announce_of_entry (r := m.registry) hentry c _).symm
  | none =>
      rw [Option.elim_none, identify]
      cases hfind : m.getParticipant c with
      | some p =>
          rw [NameRegistry.announce_of_find (r := m.registry) hentry hfind]
          dsimp only
          rw [registry_associate]
      | none =>
          rw [NameRegistry.announce_of_none (r := m.registry) hentry hfind]
          dsimp only
          rw [registry_associate, registry_newParticipant]

/-- What a CNAME in a chunk does to the register. -/
theorem takeItem_registry_cname (hpart : s.part = (s.manager.source src).participant) (c : Octets) :
    (takeItem src s (sdesItemTypeCNAME, c)).part
        = ((takeItem src s (sdesItemTypeCNAME, c)).manager.source src).participant ∧
      (takeItem src s (sdesItemTypeCNAME, c)).manager.registry
        = s.manager.registry.announce src c (writtenCNAME c) := by
  obtain ⟨-, hwho, hset⟩ := takeItem_cname hpart c
  refine ⟨?_, ?_⟩
  · rw [hwho, hset, source_modifySource_self]
    exact (source_participantOf s.manager src c).symm
  · rw [hset, registry_modifySource _ src (fun s => { s with state := .active }) (fun _ => rfl),
      registry_announce]

/-- Other items do nothing to it. -/
theorem takeItem_registry_of_ne (hpart : s.part = (s.manager.source src).participant)
    {item : UInt8 × Octets} (hitem : item.1 ≠ sdesItemTypeCNAME) :
    (takeItem src s item).part = ((takeItem src s item).manager.source src).participant ∧
      (takeItem src s item).manager.registry = s.manager.registry := by
  have hwho : itemParticipant s src item.1 item.2 = (s.part, s.manager) := by
    rw [itemParticipant, if_neg (fun h => hitem h.2)]
  rw [takeItem, hwho]
  dsimp only
  rw [storeItem, if_neg hitem]
  cases hp : s.part with
  | none => exact ⟨hp.symm.trans hpart, rfl⟩
  | some p => exact ⟨hp.symm.trans hpart, registry_setSDESItem_of_ne hitem s.manager p item.2⟩

/-! ## What a chunk does to it -/

variable {buf : Memory} {chunk len : ℕ}

/-- **The loop over a chunk** announces the CNAMEs, one after the other. -/
theorem chunkLoop_registry (src : BitVec 32) (buf : Memory) (chunk len rounds : ℕ) :
    ∀ s : ChunkState, s.ended = false → s.part = (s.manager.source src).participant →
      len ≤ s.pointer + rounds →
      ∃ e, whileLoop (fun s => s.pointer < len ∧ s.ended = false)
          (fun s => some (chunkItem src buf chunk s)) rounds s = some e ∧
        e.manager.registry = (cnamesOf (sdesItemsFrom buf chunk len rounds s.pointer)).foldl
          (fun r c => r.announce src c (writtenCNAME c)) s.manager.registry := by
  induction rounds with
  | zero =>
      intro s _ _ hlen
      refine ⟨s, whileLoop_of_false ?_ 0, rfl⟩
      exact decide_eq_false (fun h => absurd h.1 (Nat.not_lt.mpr hlen))
  | succ rounds ih =>
      intro s hended hpart hlen
      by_cases hlt : s.pointer < len
      swap
      · refine ⟨s, whileLoop_of_false ?_ _, ?_⟩
        · exact decide_eq_false (fun h => hlt h.1)
        · rw [sdesItemsFrom, if_neg hlt]
          rfl
      rw [chunkItem_round src buf chunk hlt hended]
      by_cases htype : buf (chunk + s.pointer) > sdesItemTypeEND ∧
          buf (chunk + s.pointer) ≤ sdesItemTypeLast
      · -- an item is taken
        set n := (buf (chunk + s.pointer + 1)).toNat with hn
        set item : UInt8 × Octets := (buf (chunk + s.pointer),
          buf.octets (chunk + s.pointer + 2) n) with hitem
        have htaken : chunkItem src buf chunk s = takeItem src s item := by
          rw [chunkItem, if_pos htype, takeItem, hitem, Memory.length_octets]
        have hpointer : (takeItem src s item).pointer = s.pointer + 2 + n := by
          rw [takeItem, hitem, Memory.length_octets]
        rw [htaken, sdesItemsFrom_item hlt htype, ← hn, ← hitem, ← hpointer]
        have hlen' : len ≤ (takeItem src s item).pointer + rounds := by
          rw [hpointer]
          omega
        by_cases hcname : item.1 = sdesItemTypeCNAME
        · obtain ⟨hpart', hregistry⟩ := takeItem_registry_cname hpart item.2
          have heq : item = (sdesItemTypeCNAME, item.2) := Prod.ext hcname rfl
          rw [← heq] at hpart' hregistry
          obtain ⟨e, he, hfold⟩ := ih (takeItem src s item) hended hpart' hlen'
          refine ⟨e, he, ?_⟩
          rw [hfold, hregistry, cnamesOf_cons_of_eq hcname, List.foldl_cons]
        · obtain ⟨hpart', hregistry⟩ := takeItem_registry_of_ne hpart hcname
          obtain ⟨e, he, hfold⟩ := ih (takeItem src s item) hended hpart' hlen'
          exact ⟨e, he, by rw [hfold, hregistry, cnamesOf_cons_of_ne hcname]⟩
      · by_cases hend : buf (chunk + s.pointer) = sdesItemTypeEND
        · obtain ⟨hstop, -, hmanager⟩ := chunkItem_of_end src hend
          refine ⟨_, whileLoop_of_false ?_ rounds, ?_⟩
          · refine decide_eq_false ?_
            rw [hstop]
            exact fun h => Bool.false_ne_true h.2.symm
          · rw [hmanager, sdesItemsFrom_end _ hend]
            rfl
        · -- an octet is skipped
          have hskip : chunkItem src buf chunk s = { s with pointer := s.pointer + 1 } := by
            rw [chunkItem, if_neg htype, if_neg hend]
          have hitems : sdesItemsFrom buf chunk len (rounds + 1) s.pointer
              = sdesItemsFrom buf chunk len rounds (s.pointer + 1) := by
            rw [sdesItemsFrom, if_pos hlt]
            dsimp only
            rw [if_neg htype, if_neg hend]
          rw [hskip, hitems]
          exact ih { s with pointer := s.pointer + 1 } hended hpart
            (show len ≤ s.pointer + 1 + rounds by omega)

/-- **What a chunk does to the register**: its CNAMEs are announced for the source. -/
theorem onGotSDESChunk_registry (m : QueueRTCPManager) (call : ChunkCall) :
    ∃ r, onGotSDESChunk call.len m call.src call.buf call.chunk call.len = some r ∧
      r.2.registry = call.cnames.foldl
        (fun r c => r.announce call.src c (writtenCNAME c)) m.registry := by
  obtain ⟨e, he, hregistry⟩ := chunkLoop_registry call.src call.buf call.chunk call.len call.len
    ⟨4, false, false, (m.source call.src).participant, m⟩ rfl rfl (Nat.le_add_left _ 4)
  refine ⟨(e.cname, e.manager), ?_, hregistry⟩
  rw [onGotSDESChunk, he, Option.map_some]

end QueueRTCPManager

/-! ## Runs -/

/-- The session, and the CNAMEs that the last chunk of each source carried. -/
structure Announced where
  manager : QueueRTCPManager
  told : BitVec 32 → List Octets

namespace Announced

/-- A chunk of a source is processed. -/
def receiveChunk (s : Announced) (call : ChunkCall) : Option Announced :=
  (onGotSDESChunk call.len (s.manager.getSourceBySSRC call.src).2 call.src call.buf call.chunk
    call.len).map (fun r => ⟨r.2, Function.update s.told call.src call.cnames⟩)

/-- **Participants have unique CNAMEs**, and every source whose last chunk carried a CNAME is
associated with the participant that `getParticipant` returns for it. -/
structure UniqueCNAMEs (s : Announced) : Prop where
  unique : ∀ i < s.manager.participantCount, ∀ j < s.manager.participantCount,
    s.manager.participants i sdesItemTypeCNAME = s.manager.participants j sdesItemTypeCNAME → i = j
  associated : ∀ src, ∀ c ∈ s.told src,
    ∃ p, (s.manager.source src).participant = some p ∧ s.manager.getParticipant c = some p

/-- The CNAMEs of the chunk are one, without NUL octets.  If the source has a participant, this
is its CNAME already, or no participant has it and no other source whose last chunk carried a
CNAME is associated with the participant. -/
def MayTell (s : Announced) (call : ChunkCall) : Prop :=
  ∀ c ∈ call.cnames, 0 ∉ c ∧ (∀ c' ∈ call.cnames, c' = c) ∧
    ∀ p, (s.manager.source call.src).participant = some p →
      s.manager.participants p sdesItemTypeCNAME = c ∨
        (s.manager.getParticipant c = none ∧
          ∀ src ≠ call.src, s.told src ≠ [] → (s.manager.source src).participant ≠ some p)

variable {s : Announced} {call : ChunkCall}

theorem uniqueCNAMEs_iff_sound : s.UniqueCNAMEs ↔ s.manager.registry.Sound s.told :=
  ⟨fun h => ⟨h.unique, h.associated⟩, fun h => ⟨h.unique, h.known⟩⟩

/-- What the chunks keep as long as they may be told. -/
structure Orderly (s : Announced) : Prop where
  sound : s.manager.registry.Sound s.told
  inRange : s.manager.registry.InRange
  noNul : ∀ i < s.manager.registry.count, 0 ∉ s.manager.registry.name i

/-- To announce the same CNAME several times is to announce it once. -/
theorem foldl_announce_same (src : BitVec 32) {c : Octets} (hc : 0 ∉ c) (cs : List Octets)
    (hcs : ∀ c' ∈ cs, c' = c) (r : NameRegistry (BitVec 32) Octets) :
    cs.foldl (fun r c => r.announce src c (writtenCNAME c)) (r.announce src c c)
      = r.announce src c c := by
  induction cs with
  | nil => rfl
  | cons c' cs ih =>
      rw [List.foldl_cons, hcs c' List.mem_cons_self, writtenCNAME_of_nul_free hc,
        NameRegistry.announce_announce]
      exact ih (fun d hd => hcs d (List.mem_cons_of_mem c' hd))

/-- Announcements keep the entries in range, and the names without NUL octets. -/
theorem foldl_announce_kept (src : BitVec 32) (cs : List Octets)
    (r : NameRegistry (BitVec 32) Octets) (hrange : r.InRange)
    (hnul : ∀ i < r.count, 0 ∉ r.name i) :
    (cs.foldl (fun r c => r.announce src c (writtenCNAME c)) r).InRange ∧
      ∀ i < (cs.foldl (fun r c => r.announce src c (writtenCNAME c)) r).count,
        0 ∉ (cs.foldl (fun r c => r.announce src c (writtenCNAME c)) r).name i := by
  induction cs generalizing r with
  | nil => exact ⟨hrange, hnul⟩
  | cons c cs ih =>
      rw [List.foldl_cons]
      exact ih _ (hrange.announce src c _)
        (NameRegistry.forall_name_announce (P := fun l => 0 ∉ l) hnul (zero_not_mem_writtenCNAME c)
          src c)

/-- **A chunk keeps the CNAMEs unique if and only if it may be told.** -/
theorem Orderly.receiveChunk (h : s.Orderly) (call : ChunkCall) :
    ∃ t, s.receiveChunk call = some t ∧ (t.UniqueCNAMEs ↔ s.MayTell call) ∧
      (s.MayTell call → t.Orderly) := by
  obtain ⟨r, hr, hregistry⟩ :=
    onGotSDESChunk_registry (s.manager.getSourceBySSRC call.src).2 call
  rw [registry_getSourceBySSRC] at hregistry
  obtain ⟨hrange, hnul⟩ := foldl_announce_kept call.src call.cnames s.manager.registry h.inRange
    h.noNul
  rw [← hregistry] at hrange hnul
  set t : Announced := ⟨r.2, Function.update s.told call.src call.cnames⟩ with ht
  have hself : t.told call.src = call.cnames := Function.update_self call.src call.cnames s.told
  have hiff : t.UniqueCNAMEs ↔ s.MayTell call := by
    rw [uniqueCNAMEs_iff_sound]
    show r.2.registry.Sound (Function.update s.told call.src call.cnames) ↔ _
    cases hcnames : call.cnames with
    | nil =>
        rw [hregistry, hcnames, List.foldl_nil]
        refine iff_of_true (h.sound.forget call.src) (fun c hc => ?_)
        rw [hcnames] at hc
        exact absurd hc List.not_mem_nil
    | cons c cs =>
        by_cases hgood : 0 ∉ c ∧ ∀ c' ∈ call.cnames, c' = c
        · -- one CNAME is announced
          obtain ⟨hc, hall⟩ := hgood
          have hone : r.2.registry = s.manager.registry.announce call.src c c := by
            rw [hregistry, hcnames, List.foldl_cons, writtenCNAME_of_nul_free hc]
            exact foldl_announce_same call.src hc cs
              (fun c' hc' => hall c' (hcnames ▸ List.mem_cons_of_mem c hc')) _
          rw [hone, ← hcnames, NameRegistry.announce_sound_iff h.sound h.inRange hall]
          constructor
          · intro hmay c' hc'
            rw [hall c' hc']
            exact ⟨hc, hall, hmay⟩
          · intro hmay
            exact (hmay c (hcnames ▸ List.mem_cons_self)).2.2
        · -- a CNAME that is cut off, or one of two, is not found
          have hmem : c ∈ call.cnames := hcnames ▸ List.mem_cons_self
          refine iff_of_false (fun hsound => hgood ⟨?_, fun c' hc' => ?_⟩)
            (fun hmay => hgood ⟨(hmay c hmem).1, (hmay c hmem).2.1⟩)
          · obtain ⟨i, hi, -, hname⟩ := hsound.named (s := call.src) (c := c) (by
              rw [Function.update_self]
              exact List.mem_cons_self)
            exact hname ▸ hnul i hi
          · refine hsound.eq_of_mem (s := call.src) ?_ ?_
            · rw [Function.update_self]
              exact List.mem_cons_self
            · rw [Function.update_self, ← hcnames]
              exact hc'
  refine ⟨t, ?_, hiff, fun hmay => ⟨uniqueCNAMEs_iff_sound.mp (hiff.mpr hmay), hrange, hnul⟩⟩
  rw [Announced.receiveChunk, hr, Option.map_some]

/-- **Unique CNAMEs, exactly.**  Take a session without participants, and any run of chunks of any
sources.  Every chunk is processed, and afterwards no two participants have the same CNAME and
every source whose last chunk carried a CNAME is associated with the participant of that CNAME,
all along the run, if and only if every chunk of it may be told. -/
theorem unique_cnames_iff (m : QueueRTCPManager) (hnone : m.participantCount = 0)
    (hnobody : ∀ src, (m.source src).participant = none) (calls : List ChunkCall) :
    AlongRun (partialStep Announced.receiveChunk)
        (fun s call => ∃ t, partialStep Announced.receiveChunk s call = some t ∧ t.UniqueCNAMEs)
        (some ⟨m, fun _ => []⟩) calls ↔
      AlongRun (partialStep Announced.receiveChunk) (fun s call => ∀ t ∈ s, t.MayTell call)
        (some ⟨m, fun _ => []⟩) calls := by
  have hstart : Orderly ⟨m, fun _ => []⟩ := by
    refine ⟨⟨?_, fun src c hc => absurd hc List.not_mem_nil⟩, ?_, ?_⟩
    · intro i hi
      exact absurd (hnone ▸ hi) (Nat.not_lt_zero i)
    · intro src i hi
      exact absurd ((hnobody src).symm.trans hi) (Option.some_ne_none i).symm
    · intro i hi
      exact absurd (hnone ▸ hi) (Nat.not_lt_zero i)
  have hstep : ∀ s call, Orderly s → True → ∃ t, Announced.receiveChunk s call = some t ∧
      (t.UniqueCNAMEs ↔ s.MayTell call) ∧ (s.MayTell call → t.Orderly) :=
    fun s call hs _ => hs.receiveChunk call
  have hany : ∀ call ∈ calls, True := fun _ _ => trivial
  exact alongRun_partial_iff hstep hstart
    ((alongRun_of_forall_mem hany).mono (fun _ _ _ _ _ => trivial))

/-- A source announces a CNAME of one character. -/
def announcement (src : BitVec 32) (char : UInt8) : ChunkCall :=
  ⟨src, .ofOctets (DescribedChunk.named src char).octets, 0, 8⟩

/-- The theorem at two sources with different CNAMEs. -/
theorem unique_cnames_iff_two :
    AlongRun (partialStep Announced.receiveChunk)
        (fun s call => ∃ t, partialStep Announced.receiveChunk s call = some t ∧ t.UniqueCNAMEs)
        (some ⟨alone, fun _ => []⟩) [announcement 1 97, announcement 2 98] ↔
      AlongRun (partialStep Announced.receiveChunk) (fun s call => ∀ t ∈ s, t.MayTell call)
        (some ⟨alone, fun _ => []⟩) [announcement 1 97, announcement 2 98] :=
  unique_cnames_iff alone rfl (fun _ => rfl) _

/-- **A source that changes its CNAME** to that of another source makes two participants of one
CNAME. -/
theorem changed_cname_not_unique :
    ¬ AlongRun (partialStep Announced.receiveChunk)
      (fun s call => ∃ t, partialStep Announced.receiveChunk s call = some t ∧ t.UniqueCNAMEs)
      (some ⟨alone, fun _ => []⟩)
      [announcement 1 97, announcement 2 98, announcement 2 97] := by
  have hnames : ([announcement 1 97, announcement 2 98, announcement 2 97].foldl
      (partialStep Announced.receiveChunk) (some ⟨alone, fun _ => []⟩)).map
        (fun t => (t.manager.participantCount, t.manager.participants 0 sdesItemTypeCNAME,
          t.manager.participants 1 sdesItemTypeCNAME)) = some (2, [97], [97]) := by
    decide
  rintro ⟨-, -, ⟨t, ht, hunique⟩, -⟩
  obtain ⟨t', ht', hvalues⟩ := Option.map_eq_some_iff.mp hnames
  have heq : t' = t := Option.some_inj.mp (ht'.symm.trans ht)
  rw [heq, Prod.mk.injEq, Prod.mk.injEq] at hvalues
  obtain ⟨hcount, hfirst, hsecond⟩ := hvalues
  exact absurd (hunique.unique 0 (by omega) 1 (by omega) (hfirst.trans hsecond.symm)) (by decide)

end Announced
