/-
# What the stack sends as RTCP, the stack accepts

The sender computes the length fields of a compound from a running offset, and the validation
and the walk of the receiver use them.  The two agree:

* `walkLoops_laid` : the loops of the walk visit the packets that have been laid out;
* `chunkItems_taken` : the loop over a chunk takes the items written into it, one by one;
* `sent_compound_accepted` : every compound that is built is accepted, visited packet by packet
  to its end, and its CNAME and scheduled item are stored.
-/
import CcRtp.RtcpSending
import CcRtp.RtcpWalk

namespace QueueRTCPManager

open RTCPPacket

variable {buf : Memory} {len rounds : ℕ} {src : BitVec 32} {na : InetAddress} {tp : BitVec 16}

/-! ## The walk -/

/-- Packets that have been laid out are a stretch. -/
theorem stretch_of_laid {ok : UInt8 → Prop} {types : ℕ → UInt8} {os : List ℕ} {p q : ℕ}
    (h : Laid buf types p os q) (hok : ∀ o ∈ os, ok (types o)) : Stretch buf ok p os q := by
  induction os generalizing p with
  | nil => exact h
  | cons o os ih =>
      obtain ⟨rfl, hbegun, hrest⟩ := h
      refine ⟨rfl, ?_, ih hrest (fun o' ho' => hok o' (List.mem_cons_of_mem _ ho'))⟩
      rw [hbegun.type]
      exact hok o List.mem_cons_self

/-- The loops visit receiver reports up to a source description at the end, and this one. -/
theorem walkLoops_laid {types : ℕ → UInt8} {os : List ℕ} {sdes : ℕ} (w : Walk)
    (hlaid : Laid buf types w.pointer os sdes) (htypes : ∀ o ∈ os, types o = tRR)
    (hbegun : Begun buf sdes tSDES) (hlen : sdes + getLength buf sdes = len)
    (src : BitVec 32) (na : InetAddress) (tp : BitVec 16) :
    ∃ rounds w', walkLoops rounds buf len src na tp w = some w' ∧ w'.pointer = len ∧
      w'.visited = w.visited ++ (os ++ [sdes]) := by
  have hreports : Stretch buf (fun t => t = tRR) w.pointer os sdes := stretch_of_laid hlaid htypes
  have hlast : Stretch buf IsDescription sdes [sdes] len := ⟨rfl, Or.inl hbegun.type, hlen⟩
  have hnot : ¬ (sdes < len ∧ type buf sdes = tRR) := by
    rw [hbegun.type]
    exact fun h => absurd h.2 (by decide)
  have hend : ∀ t : Prop, ¬ (len < len ∧ t) := fun t h => absurd h.1 (lt_irrefl len)
  obtain ⟨w', hw', hpointer, hvisited⟩ := walkReports_stretch w hreports hnot hlast le_rfl (hend _)
    (le_refl (2 ^ 18 + len)) src na tp
  refine ⟨2 ^ 18 + len, w', ?_, hpointer, hvisited⟩
  rw [walkLoops_eq_bind, hw', Option.bind_some]
  refine walkByes_of_not w' ?_
  rw [hpointer]
  exact hend _

/-- **The walk visits reports and a source description** that fill the compound. -/
theorem takeInControlPacket_laid {types : ℕ → UInt8} {os : List ℕ} {sdes : ℕ}
    (hlaid : Laid buf types 0 os sdes) (hne : os ≠ [])
    (hfirst : types 0 = tSR ∨ types 0 = tRR) (htypes : ∀ o, o ≠ 0 → types o = tRR)
    (hbegun : Begun buf sdes tSDES) (hlen : sdes + getLength buf sdes = len)
    (haccept : RTCPCompoundHandler.checkCompoundRTCPHeader buf len = some true)
    (m : QueueRTCPManager) (na : InetAddress) (tp : BitVec 16) :
    ∃ rounds w, m.takeInControlPacket rounds buf len na tp = some w ∧ w.pointer = len ∧
      w.visited = os ++ [sdes] := by
  set src := getSSRC buf 0
  simp only [takeInControlPacket_eq _ m na tp haccept]
  obtain ⟨o, os, rfl⟩ := List.exists_cons_of_ne_nil hne
  obtain ⟨rfl, hbegun₀, hrest⟩ := hlaid
  have hbehind : ∀ o ∈ os, types o = tRR := by
    intro o ho
    have hfour := (getLength_bounds buf 0).1
    have hle := hrest.le_of_mem o ho
    exact htypes o (by omega)
  set w₀ := firstReport buf src na tp (m.registerFirst src na tp).1 (m.registerFirst src na tp).2
  obtain ⟨hpointer₀, hvisited₀⟩ := firstReport_walk buf src na tp (m.registerFirst src na tp).1
    (m.registerFirst src na tp).2
  rw [hbegun₀.type] at hpointer₀ hvisited₀
  by_cases hsr : types 0 = tSR
  · -- a sender report is passed before the loops
    rw [if_pos hsr] at hpointer₀ hvisited₀
    obtain ⟨rounds, w, hw, hpointer, hvisited⟩ := walkLoops_laid w₀
      (by rwa [hpointer₀, ← Nat.zero_add (getLength buf 0)]) hbehind hbegun hlen src na tp
    rw [hvisited₀] at hvisited
    exact ⟨rounds, w, hw, hpointer, hvisited⟩
  · rw [if_neg hsr] at hpointer₀ hvisited₀
    have hlaid : Laid buf types w₀.pointer (0 :: os) sdes := by
      rw [hpointer₀]
      exact ⟨rfl, hbegun₀, hrest⟩
    have hall : ∀ o ∈ 0 :: os, types o = tRR := by
      intro o ho
      rcases List.mem_cons.mp ho with rfl | ho
      · exact hfirst.resolve_left hsr
      · exact hbehind o ho
    obtain ⟨rounds, w, hw, hpointer, hvisited⟩ := walkLoops_laid w₀ hlaid hall hbegun hlen src na tp
    rw [hvisited₀] at hvisited
    exact ⟨rounds, w, hw, hpointer, hvisited⟩

/-! ## Source descriptions -/

/-- What a round of the loop over a chunk does with an item. -/
def takeItem (src : BitVec 32) (s : ChunkState) (item : UInt8 × Octets) : ChunkState :=
  let r := itemParticipant s src item.1 item.2
  { pointer := s.pointer + 2 + item.2.length
    ended := s.ended
    cname := s.cname || item.1 = sdesItemTypeCNAME
    part := r.1
    manager := r.2.storeItem r.1 src item.1 item.2 }

/-- An item that can be told by its length octet. -/
def Tellable (item : UInt8 × Octets) : Prop :=
  sdesItemTypeEND < item.1 ∧ item.1 ≤ sdesItemTypeLast ∧ item.2.length ≤ 255

variable {chunk : ℕ} {s : ChunkState}

/-- **An item is taken as it was written.** -/
theorem chunkItem_of_item (src : BitVec 32) {item : UInt8 × Octets} (h : Tellable item)
    (hread : buf.octets (chunk + s.pointer) (2 + item.2.length) = sdesItemOctets item) :
    chunkItem src buf chunk s = takeItem src s item := by
  obtain ⟨hlow, hhigh, hlen⟩ := h
  rw [Memory.octets_add] at hread
  have hparts : buf.octets (chunk + s.pointer) 2 = [item.1, UInt8.ofNat item.2.length] ∧
      buf.octets (chunk + s.pointer + 2) item.2.length = item.2 :=
    List.append_inj hread rfl
  obtain ⟨hhead, hdata⟩ := hparts
  have htype : buf (chunk + s.pointer) = item.1 := (List.cons.inj hhead).1
  have hlength : buf (chunk + s.pointer + 1) = UInt8.ofNat item.2.length :=
    (List.cons.inj (List.cons.inj hhead).2).1
  have hnat : (UInt8.ofNat item.2.length).toNat = item.2.length := by
    rw [UInt8.toNat_ofNat', Nat.mod_eq_of_lt (by omega)]
  rw [chunkItem, htype, hlength, hnat, hdata, if_pos ⟨hlow, hhigh⟩]
  rfl

/-- The END item ends the chunk. -/
theorem chunkItem_of_end (src : BitVec 32) (h : buf (chunk + s.pointer) = sdesItemTypeEND) :
    (chunkItem src buf chunk s).ended = true ∧ (chunkItem src buf chunk s).cname = s.cname ∧
      (chunkItem src buf chunk s).manager = s.manager := by
  rw [chunkItem, h, if_neg (by decide), if_pos rfl]
  exact ⟨rfl, rfl, rfl⟩

/-- A round of the loop over a chunk. -/
theorem chunkItem_round (src : BitVec 32) (buf : Memory) (chunk : ℕ) (hlt : s.pointer < len)
    (hended : s.ended = false) (rounds : ℕ) :
    whileLoop (fun s => s.pointer < len ∧ s.ended = false)
        (fun s => some (chunkItem src buf chunk s)) (rounds + 1) s
      = whileLoop (fun s => s.pointer < len ∧ s.ended = false)
        (fun s => some (chunkItem src buf chunk s)) rounds (chunkItem src buf chunk s) := by
  refine whileLoop_of_true ?_ ?_ rounds
  · exact decide_eq_true ⟨hlt, hended⟩
  · rfl

/-- **The items of a chunk are taken one by one**, up to the END item. -/
theorem chunkItems_taken (items : List (UInt8 × Octets)) (hitems : ∀ item ∈ items, Tellable item)
    {k : ℕ} (hk : 0 < k) (n rounds : ℕ) (hrounds : items.length + 1 ≤ rounds) (s : ChunkState)
    (hended : s.ended = false) (hn : s.pointer + n ≤ len)
    (hread : buf.octets (chunk + s.pointer) n
      = items.flatMap sdesItemOctets ++ List.replicate k sdesItemTypeEND) :
    ∃ e, whileLoop (fun s => s.pointer < len ∧ s.ended = false)
        (fun s => some (chunkItem src buf chunk s)) rounds s = some e ∧
      e.cname = (items.foldl (takeItem src) s).cname ∧
      e.manager = (items.foldl (takeItem src) s).manager := by
  induction items generalizing n rounds s with
  | nil =>
      rw [List.flatMap_nil, List.nil_append] at hread
      have hlength := congrArg List.length hread
      rw [Memory.length_octets, List.length_replicate] at hlength
      have hend : buf (chunk + s.pointer) = sdesItemTypeEND := by
        obtain ⟨n', rfl⟩ : ∃ n', n = 1 + n' := ⟨n - 1, by omega⟩
        rw [Memory.octets_add] at hread
        exact List.eq_of_mem_replicate (hread ▸ List.mem_append_left _ List.mem_cons_self)
      obtain ⟨hstop, hcname, hmanager⟩ := chunkItem_of_end src hend
      cases rounds with
      | zero => exact absurd hrounds (Nat.not_succ_le_zero _)
      | succ rounds =>
          refine ⟨_, ?_, hcname, hmanager⟩
          rw [chunkItem_round src buf chunk (by omega) hended, whileLoop_of_false]
          refine decide_eq_false ?_
          rw [hstop]
          exact fun h => Bool.false_ne_true h.2.symm
  | cons item items ih =>
      have hlength := congrArg List.length hread
      rw [Memory.length_octets, List.length_append, List.flatMap_cons, List.length_append,
        sdesItemOctets, List.length_cons, List.length_cons, List.length_replicate] at hlength
      -- the octets of the first item, and those behind it
      obtain ⟨n', rfl⟩ : ∃ n', n = 2 + item.2.length + n' :=
        ⟨n - (2 + item.2.length), by omega⟩
      rw [List.flatMap_cons, List.append_assoc, Memory.octets_add] at hread
      obtain ⟨hfirst, hrest⟩ := List.append_inj hread (by
        rw [Memory.length_octets, sdesItemOctets, List.length_cons, List.length_cons]
        omega)
      have hitem := chunkItem_of_item src (hitems item List.mem_cons_self) hfirst
      rw [show chunk + s.pointer + (2 + item.2.length) = chunk + (s.pointer + 2 + item.2.length)
        by omega] at hrest
      cases rounds with
      | zero => exact absurd hrounds (Nat.not_succ_le_zero _)
      | succ rounds =>
          obtain ⟨e, he, hcname, hmanager⟩ := ih
            (fun i hi => hitems i (List.mem_cons_of_mem item hi)) n' rounds
            (Nat.le_of_succ_le_succ hrounds) (takeItem src s item) hended
            (show s.pointer + 2 + item.2.length + n' ≤ len by omega) hrest
          refine ⟨e, ?_, hcname, hmanager⟩
          rw [chunkItem_round src buf chunk (by omega) hended, hitem, he]

/-! ## What is stored -/

/-- The participant that a chunk of the source with this CNAME describes: the one that the
source has, or else the one of the CNAME. -/
def participantOf (m : QueueRTCPManager) (src : BitVec 32) (cname : Octets) :
    ℕ × QueueRTCPManager :=
  (m.source src).participant.elim (m.identify src cname) (fun p => (p, m))

/-- The source has the participant that was identified. -/
theorem source_participantOf (m : QueueRTCPManager) (src : BitVec 32) (cname : Octets) :
    ((m.participantOf src cname).2.source src).participant
      = some (m.participantOf src cname).1 := by
  rw [participantOf]
  cases hpart : (m.source src).participant with
  | some p => exact hpart
  | none =>
      rw [Option.elim_none, identify]
      cases m.getParticipant cname with
      | some p =>
          dsimp only
          rw [source_modifySource_self]
      | none =>
          dsimp only
          rw [source_modifySource_self]

/-- Another source makes no difference to whom a chunk describes. -/
theorem participantOf_getSourceBySSRC (m : QueueRTCPManager) (ssrc src : BitVec 32)
    (cname : Octets) :
    ((m.getSourceBySSRC ssrc).2.participantOf src cname).1 = (m.participantOf src cname).1 ∧
      ((m.getSourceBySSRC ssrc).2.participantOf src cname).2.participants
        = (m.participantOf src cname).2.participants := by
  have hparticipants : (m.getSourceBySSRC ssrc).2.participants = m.participants := by
    rw [getSourceBySSRC]
    cases m.sources ssrc <;> rfl
  have hcount : (m.getSourceBySSRC ssrc).2.participantCount = m.participantCount := by
    rw [getSourceBySSRC]
    cases m.sources ssrc <;> rfl
  have hget : (m.getSourceBySSRC ssrc).2.getParticipant cname = m.getParticipant cname := by
    rw [getParticipant, getParticipant, hparticipants, hcount]
  rw [participantOf, participantOf, source_getSourceBySSRC]
  cases (m.source src).participant with
  | some p => exact ⟨rfl, hparticipants⟩
  | none =>
      rw [Option.elim_none, Option.elim_none, identify, identify, hget]
      cases m.getParticipant cname with
      | some p => exact ⟨rfl, hparticipants⟩
      | none =>
          refine ⟨hcount, ?_⟩
          show (m.getSourceBySSRC ssrc).2.newParticipant.participants =
              m.newParticipant.participants
          rw [newParticipant, newParticipant, hparticipants, hcount]

/-- **A CNAME is stored** for the participant, which it tells if it is not known yet. -/
theorem takeItem_cname (hpart : s.part = (s.manager.source src).participant) (cname : Octets) :
    (takeItem src s (sdesItemTypeCNAME, cname)).cname = true ∧
      (takeItem src s (sdesItemTypeCNAME, cname)).part
        = some (s.manager.participantOf src cname).1 ∧
      (takeItem src s (sdesItemTypeCNAME, cname)).manager
        = ((s.manager.participantOf src cname).2.setSDESItem (s.manager.participantOf src cname).1
            sdesItemTypeCNAME cname).modifySource src (fun c => { c with state := .active }) := by
  have hwho : itemParticipant s src sdesItemTypeCNAME cname
      = (some (s.manager.participantOf src cname).1, (s.manager.participantOf src cname).2) := by
    rw [itemParticipant, participantOf, ← hpart]
    cases s.part with
    | none => rw [if_pos ⟨rfl, rfl⟩, Option.elim_none]
    | some p => rw [if_neg (fun h => Option.some_ne_none p h.1), Option.elim_some]
  rw [takeItem, hwho]
  refine ⟨Bool.or_true _, rfl, ?_⟩
  dsimp only
  rw [storeItem, if_pos rfl, Option.elim_some]

/-- Another item is stored for the participant that is known by then. -/
theorem takeItem_other {p : ℕ} (hpart : s.part = some p) {type : UInt8}
    (htype : type ≠ sdesItemTypeCNAME) (data : Octets) :
    (takeItem src s (type, data)).cname = s.cname ∧
      (takeItem src s (type, data)).manager = s.manager.setSDESItem p type data := by
  have hwho : itemParticipant s src type data = (some p, s.manager) := by
    rw [itemParticipant, if_neg (fun h => htype h.2), hpart]
  rw [takeItem, hwho]
  dsimp only
  rw [decide_eq_false htype, Bool.or_false, storeItem, if_neg htype, Option.elim_some]
  exact ⟨rfl, rfl⟩

end QueueRTCPManager

namespace ControlSender

open RTCPPacket QueueRTCPManager

/-- The items of a participant after the chunk has been received. -/
def received (s : ControlSender) (items : SDESItems) : SDESItems :=
  if s.scheduleSDESItem = sdesItemTypeEND then
    Function.update items sdesItemTypeCNAME (s.items sdesItemTypeCNAME)
  else
    Function.update (Function.update items sdesItemTypeCNAME (s.items sdesItemTypeCNAME))
      s.scheduleSDESItem (s.sentItem s.scheduleSDESItem)

/-- The manager has stored what the sender told about the source. -/
structure StoredBy (s : ControlSender) (m : QueueRTCPManager) (src : BitVec 32)
    (m' : QueueRTCPManager) : Prop where
  participant : (m'.source src).participant
    = some (m.participantOf src (s.items sdesItemTypeCNAME)).1
  items : m'.participants = Function.update
    (m.participantOf src (s.items sdesItemTypeCNAME)).2.participants
    (m.participantOf src (s.items sdesItemTypeCNAME)).1
    (s.received ((m.participantOf src (s.items sdesItemTypeCNAME)).2.participants
      (m.participantOf src (s.items sdesItemTypeCNAME)).1))

theorem tellable_chunkItems (s : ControlSender)
    (hcname : (s.items sdesItemTypeCNAME).length ≤ 255) :
    ∀ item ∈ s.chunkItems, Tellable item := by
  intro item hitem
  rw [chunkItems] at hitem
  rcases List.mem_cons.mp hitem with rfl | hitem
  · exact ⟨(by decide : sdesItemTypeEND < sdesItemTypeCNAME),
      (by decide : sdesItemTypeCNAME ≤ sdesItemTypeLast), hcname⟩
  · split_ifs at hitem with hend
    · exact absurd hitem List.not_mem_nil
    · obtain ⟨hlow, hhigh⟩ := s.scheduleSDESItem_cases.resolve_left hend
      rw [List.mem_singleton.mp hitem]
      refine ⟨UInt8.lt_of_lt_of_le (by decide) hlow, UInt8.le_trans hhigh (by decide), ?_⟩
      dsimp only
      rw [length_sentItem]
      exact Nat.le_of_lt_succ (UInt8.toNat_lt _)

/-- What is sent of an item has no NUL in it. -/
theorem nul_free_sentItem (s : ControlSender) (t : UInt8) : 0 ∉ s.sentItem t := by
  intro h
  have hmem := List.mem_takeWhile_imp (List.mem_of_mem_take h)
  exact of_decide_eq_true hmem rfl

theorem chunkItems_stored (s : ControlSender) (hnul : 0 ∉ s.items sdesItemTypeCNAME)
    (m : QueueRTCPManager) (src : BitVec 32) :
    (s.chunkItems.foldl (takeItem src)
        ⟨4, false, false, (m.source src).participant, m⟩).cname = true ∧
      s.StoredBy m src (s.chunkItems.foldl (takeItem src)
        ⟨4, false, false, (m.source src).participant, m⟩).manager := by
  set s₀ : ChunkState := ⟨4, false, false, (m.source src).participant, m⟩
  obtain ⟨hfound, hpart, hmanager⟩ := takeItem_cname
    (show s₀.part = (s₀.manager.source src).participant from rfl) (s.items sdesItemTypeCNAME)
  set r := m.participantOf src (s.items sdesItemTypeCNAME) with hr
  set s₁ := takeItem src s₀ (sdesItemTypeCNAME, s.items sdesItemTypeCNAME)
  have hwho : (s₁.manager.source src).participant = some r.1 := by
    rw [hmanager, source_modifySource_self]
    exact m.source_participantOf src _
  have hstored : s₁.manager.participants = Function.update r.2.participants r.1
      (Function.update (r.2.participants r.1) sdesItemTypeCNAME (s.items sdesItemTypeCNAME)) := by
    have hset := congrArg QueueRTCPManager.participants hmanager
    rw [← takeWhile_of_nul_free hnul]
    exact hset
  rw [chunkItems]
  split_ifs with hend
  · refine ⟨hfound, hwho, ?_⟩
    rw [received, if_pos hend]
    exact hstored
  · obtain ⟨hlow, hhigh⟩ := s.scheduleSDESItem_cases.resolve_left hend
    set t := s.scheduleSDESItem
    have htype : t ≠ sdesItemTypeCNAME := by
      intro heq
      rw [heq] at hlow
      exact absurd hlow (by decide)
    obtain ⟨hcname, hmanager'⟩ := takeItem_other hpart htype (s.sentItem t)
    refine ⟨?_, ?_, ?_⟩
    · exact hcname.trans hfound
    · show ((takeItem src s₁ (t, s.sentItem t)).manager.source src).participant = some r.1
      rw [hmanager']
      exact hwho
    · show (takeItem src s₁ (t, s.sentItem t)).manager.participants = _
      rw [hmanager', setSDESItem, takeWhile_of_nul_free (s.nul_free_sentItem t), hstored]
      dsimp only
      rw [Function.update_self, Function.update_idem, received, if_neg hend]

theorem StoredBy.of_getSourceBySSRC {s : ControlSender} {m m' : QueueRTCPManager}
    {ssrc src : BitVec 32} (h : s.StoredBy (m.getSourceBySSRC ssrc).2 src m') :
    s.StoredBy m src m' := by
  obtain ⟨hwho, hitems⟩ := m.participantOf_getSourceBySSRC ssrc src (s.items sdesItemTypeCNAME)
  refine ⟨?_, ?_⟩
  · rw [← hwho]
    exact h.participant
  · rw [← hwho, ← hitems]
    exact h.items

/-- That the source has announced itself makes no difference to what is stored. -/
theorem StoredBy.getHello {s : ControlSender} {m m' : QueueRTCPManager} {src : BitVec 32}
    (h : s.StoredBy m src m') (ssrc : BitVec 32) : s.StoredBy m src (m'.getHello ssrc) := by
  refine ⟨?_, h.items⟩
  by_cases hx : src = ssrc
  · subst hx
    rw [QueueRTCPManager.getHello, source_modifySource_self]
    exact h.participant
  · rw [QueueRTCPManager.getHello, source_modifySource_of_ne _ hx]
    exact h.participant

/-- **The source description is decoded** to what the sender wrote. -/
theorem Described.decoded {s : ControlSender} {buf : Memory} {p len : ℕ}
    (h : s.Described buf p len) (hcname : (s.items sdesItemTypeCNAME).length ≤ 255)
    (hnul : 0 ∉ s.items sdesItemTypeCNAME) (m : QueueRTCPManager) (src : BitVec 32) :
    ∃ rounds m', m.onGotSDES rounds src buf p = some (true, m') ∧ s.StoredBy m src m' := by
  obtain ⟨k, hk, hread⟩ := h.items
  have hlength := h.length
  have hpos := congrArg List.length hread
  rw [Memory.length_octets, List.length_append, List.length_replicate] at hpos
  set ssrc := BitVec.ofNat 32 (ofBigEndian (buf.octets (p + 4) 4))
  set m₁ := (m.getSourceBySSRC ssrc).2
  obtain ⟨e, he, hfound, hmanager⟩ :=
    chunkItems_taken s.chunkItems (s.tellable_chunkItems hcname) hk
    (len - (p + 8)) (s.chunkItems.length + 1) le_rfl
    ⟨4, false, false, (m₁.source src).participant, m₁⟩ rfl
    (show 4 + (len - (p + 8)) ≤ getLength buf p by omega) hread
  obtain ⟨htrue, hstored⟩ := s.chunkItems_stored hnul m₁ src
  have hchunk : onGotSDESChunk (s.chunkItems.length + 1) m₁ src buf (p + 4) (getLength buf p)
      = some (true, e.manager) := by
    rw [onGotSDESChunk, he, Option.map_some, hfound, htrue]
  refine ⟨s.chunkItems.length + 1, e.manager.getHello ssrc, ?_, ?_⟩
  · rw [onGotSDES, h.blockCount, show max 1 (1 : BitVec 5).toNat = 0 + 1 from rfl, chunkLoop]
    show (onGotSDESChunk _ m₁ src buf (p + 4) _).bind _ = _
    rw [hchunk]
    rfl
  · rw [hmanager]
    exact hstored.of_getSourceBySSRC.getHello _

theorem reportTypes_zero (s : ControlSender) : s.reportTypes 0 = tSR ∨ s.reportTypes 0 = tRR := by
  rw [reportTypes, if_pos rfl, reportType]
  split_ifs
  · exact Or.inl rfl
  · exact Or.inr rfl

/-- What the receiver has of a source description is what was sent. -/
theorem Described.of_sameBelow {s : ControlSender} {buf buf' : Memory} {p len : ℕ}
    (h : s.Described buf p len) (hsame : Memory.SameBelow len buf buf') :
      s.Described buf' p len := by
  obtain ⟨k, hk, hread⟩ := h.items
  have hlength := h.length
  have hfour := (getLength_bounds buf p).1
  have hpos := congrArg List.length hread
  rw [Memory.length_octets, List.length_append, List.length_replicate] at hpos
  refine ⟨h.begun.of_sameBelow hsame (by omega), ?_, ?_, k, hk, ?_⟩
  · rw [RTCPPacket.blockCount, hsame p (by omega)]
    exact h.blockCount
  · rw [getLength_of_sameBelow hsame (by omega)]
    exact hlength
  · rw [hsame.octets (by omega)]
    exact hread

/-- The whole compound is laid out, and so it is accepted. -/
theorem Described.accepted {s : ControlSender} {buf : Memory} {os : List ℕ} {p len : ℕ}
    (h : s.Described buf p len) (hlaid : Laid buf s.reportTypes 0 os p) (hne : os ≠ [])
    (hmax : len < 2 ^ 16) : RTCPCompoundHandler.checkCompoundRTCPHeader buf len = some true := by
  obtain ⟨o, os, rfl⟩ := List.exists_cons_of_ne_nil hne
  have hpos : 0 < p := by
    have hle := hlaid.2.2.le
    have hfour := (getLength_bounds buf 0).1
    omega
  set types : ℕ → UInt8 := fun o => if o < p then s.reportTypes o else tSDES
  have hfirst : types 0 = s.reportTypes 0 := if_pos hpos
  have hlast : types p = tSDES := if_neg (lt_irrefl p)
  have hreports : Laid buf types 0 (o :: os) p := hlaid.congr_types (fun o _ ho => if_pos ho)
  have hwhole : Laid buf types 0 (o :: (os ++ [p])) (p + getLength buf p) := by
    refine hreports.concat ?_
    rw [hlast]
    exact h.begun
  rw [h.length] at hwhole
  refine hwhole.accepted ?_ (by omega)
  rw [hfirst]
  exact s.reportTypes_zero

end ControlSender

open QueueRTCPManager in
/-- **What the stack sends as RTCP, the stack accepts.**  With a path MTU of 1500, whatever
the sources, the clock and the stale octets of the buffer are, `dispatchControlPacket` builds
a compound.  Whoever receives its octets, with whatever behind them, accepts it; the walk over
it visits the reports and the source description, and ends behind it; and the decoding of the
description finds a CNAME and stores what was sent: the CNAME, and the item scheduled if there
is one, whole if it has 255 octets at most. -/
theorem sent_compound_accepted (s : ControlSender) (clock : ℕ → Timeval) (stamps : Stamps)
    (stale : Memory) (hmtu : s.pathMTU = 1500)
    (hcname : (s.items sdesItemTypeCNAME).length ≤ 255) (hnul : ∀ type, 0 ∉ s.items type) :
    ∃ c, s.dispatchControlPacket clock stamps stale = some c ∧
      (s.scheduleSDESItem ≠ sdesItemTypeEND → (s.items s.scheduleSDESItem).length ≤ 255 →
        s.sentItem s.scheduleSDESItem = s.items s.scheduleSDESItem) ∧
      ∀ buf, (∀ i < c.len, buf i = c.buf i) →
        RTCPCompoundHandler.checkCompoundRTCPHeader buf c.len = some true ∧
        (∀ (m : QueueRTCPManager) na tp, ∃ rounds w,
          m.takeInControlPacket rounds buf c.len na tp = some w ∧
            w.visited = c.reports ++ [c.sdes] ∧ w.pointer = c.len) ∧
        (∀ (m : QueueRTCPManager) src, ∃ rounds m',
          m.onGotSDES rounds src buf c.sdes = some (true, m') ∧ s.StoredBy m src m') := by
  obtain ⟨c, hc, hne, hlaid, hdescribed, hmax⟩ :=
    s.dispatchControlPacket_spec clock stamps stale hmtu hcname
  refine ⟨c, hc, ?_, fun buf hsame => ?_⟩
  · intro hend hle
    have hitem := s.getSDESItem_of_schedulable (s.scheduleSDESItem_cases.resolve_left hend)
    rw [← hitem] at hle
    rw [ControlSender.sentItem_of_le (by rw [hitem]; exact hnul _) hle, hitem]
  · have hlength := hdescribed.length
    replace hdescribed := hdescribed.of_sameBelow hsame
    replace hlaid := hlaid.of_sameBelow (Memory.SameBelow.mono hsame (by omega))
    have haccept := hdescribed.accepted hlaid hne hmax
    refine ⟨haccept, ?_, hdescribed.decoded hcname (hnul _)⟩
    intro m na tp
    obtain ⟨rounds, w, hw, hpointer, hvisited⟩ := takeInControlPacket_laid hlaid hne
      s.reportTypes_zero (fun o ho => if_neg ho) hdescribed.begun hdescribed.length haccept m na tp
    exact ⟨rounds, w, hw, hvisited, hpointer⟩

/-- A member that has sent nothing and heard nobody, with a CNAME and a NAME. -/
def newMember : ControlSender where
  localSSRC := 7
  pathMTU := 1500
  lastSendPacketCount := 0
  sendPacketCount := 0
  sendOctetCount := 0
  ctrlSendCount := 0
  sources := []
  items := fun type => if type = 1 then [97, 64, 98] else if type = 2 then [65, 110, 110] else []
  nextScheduledSDESItem := 2
  schedulable := by decide

theorem sent_compound_accepted_newMember :
    ∃ c, newMember.dispatchControlPacket (fun _ => ⟨0, 0⟩) ⟨0, 0, 0⟩ (fun _ => 255) = some c ∧
      RTCPCompoundHandler.checkCompoundRTCPHeader c.buf c.len = some true := by
  obtain ⟨c, hc, -, hreceived⟩ := sent_compound_accepted newMember (fun _ => ⟨0, 0⟩) ⟨0, 0, 0⟩
    (fun _ => 255) rfl (by decide) (by
      intro type
      rw [newMember]
      dsimp only
      split_ifs <;> decide)
  exact ⟨c, hc, (hreceived c.buf (fun _ _ => rfl)).1⟩
