/-
# The queues of the sources

What the calls on a `ReceptionQueue` do to the queue of a source, whatever has become of the
global queue.  All lemmas here are about calls that return.

A source specific query leaves a pointer to a deleted link behind, in `srcPrev` of the packet
that is then the first one of the source.  So a queue is linked back to some pointer `before`,
which leads to no link.

* `SourceLinked`, `SourcesLinked` : lists of packets are linked as the queues of sources;
* `SourcesLinked.insertRecvPacket` : a packet goes before those of its source with a higher
  sequence number at the end of the queue;
* `SourcesLinked.getData` : a source specific query takes packets from the front of the queue.
-/
import CcRtp.ReceptionQueue

namespace PacketLinks

variable {h h' : PacketLinks} {s a : ℕ}

/-- The packet at an address is one of the source. -/
def ofSource (h : PacketLinks) (s a : ℕ) : Bool := (h.packet a).any (fun n => n.sourceLink = s)

/-- The sequence number of a packet. -/
def seqOf (h : PacketLinks) (a : ℕ) : BitVec 16 := (h.packet a).elim 0 WaitingPacket.seqNum

/-- The timestamp of a packet. -/
def timestampOf (h : PacketLinks) (a : ℕ) : BitVec 32 := (h.packet a).elim 0 WaitingPacket.timestamp

/-- The packet at an address has a higher sequence number. -/
def higher (h : PacketLinks) (seq : BitVec 16) (a : ℕ) : Bool := seq < h.seqOf a

theorem isSome_of_ofSource (ha : h.ofSource s a = true) : (h.packet a).isSome = true := by
  rw [ofSource] at ha
  cases hn : h.packet a with
  | none =>
      rw [hn] at ha
      cases ha
  | some n => rfl

theorem ofSource_unique {s' : ℕ} (ha : h.ofSource s a = true) (ha' : h.ofSource s' a = true) :
    s = s' := by
  rw [ofSource] at ha ha'
  cases hn : h.packet a with
  | none =>
      rw [hn] at ha
      cases ha
  | some n =>
      rw [hn] at ha ha'
      exact (of_decide_eq_true ha).symm.trans (of_decide_eq_true ha')

theorem ofSource_congr (hpacket : h'.packet a = h.packet a) : h'.ofSource s a = h.ofSource s a := by
  rw [ofSource, ofSource, hpacket]

end PacketLinks

namespace ReceptionQueue

variable {q q' q'' : ReceptionQueue} {s s' a link : ℕ} {before : Option ℕ} {l : List ℕ}

/-- The packets `l` are linked as the queue of the source. -/
structure SourceLinked (q : ReceptionQueue) (s : ℕ) (before : Option ℕ) (l : List ℕ) : Prop where
  nodup : l.Nodup
  ofSource : ∀ a ∈ l, q.links.ofSource s a = true
  piece : Piece (follow q.links.srcNext) (follow q.links.srcPrev) before (q.sources s).first
    (q.sources s).last none l

/-- Nothing but the queue of the source is changed, and no link is made. -/
structure OnlySource (s : ℕ) (q q' : ReceptionQueue) : Prop where
  fresh : q'.fresh = q.fresh
  sources : ∀ s' ≠ s, q'.sources s' = q.sources s'
  packet : ∀ a, q'.links.packet a = q.links.packet a ∨
    q.links.ofSource s a = true ∧ q'.links.packet a = none
  srcNext : ∀ a, q.links.ofSource s a = false → q'.links.srcNext a = q.links.srcNext a
  srcPrev : ∀ a, q.links.ofSource s a = false → q'.links.srcPrev a = q.links.srcPrev a

theorem OnlySource.refl (s : ℕ) (q : ReceptionQueue) : OnlySource s q q :=
  ⟨rfl, fun _ _ => rfl, fun _ => Or.inl rfl, fun _ _ => rfl, fun _ _ => rfl⟩

/-- A packet of another source is still there. -/
theorem OnlySource.packet_eq (h : OnlySource s q q') (ha : q.links.ofSource s a = false) :
    q'.links.packet a = q.links.packet a := by
  obtain heq | ⟨hs, -⟩ := h.packet a
  · exact heq
  · rw [ha] at hs
    cases hs

/-- A link that is still there has its packet. -/
theorem OnlySource.packet_of_isSome (h : OnlySource s q q')
    (ha : (q'.links.packet a).isSome = true) : q'.links.packet a = q.links.packet a := by
  obtain heq | ⟨-, hnone⟩ := h.packet a
  · exact heq
  · rw [hnone] at ha
    cases ha

theorem OnlySource.ofSource_eq_false (h : OnlySource s q q') (ha : q.links.ofSource s a = false) :
    q'.links.ofSource s a = false := by
  rw [PacketLinks.ofSource_congr (h.packet_eq ha), ha]

theorem OnlySource.trans (h₁ : OnlySource s q q') (h₂ : OnlySource s q' q'') :
    OnlySource s q q'' where
  fresh := h₂.fresh.trans h₁.fresh
  sources := fun s' hs' => (h₂.sources s' hs').trans (h₁.sources s' hs')
  packet := by
    intro a
    obtain heq | ⟨hs, hnone⟩ := h₁.packet a
    · rw [← heq, ← PacketLinks.ofSource_congr heq]
      exact h₂.packet a
    · right
      refine ⟨hs, ?_⟩
      obtain heq | ⟨-, hnone'⟩ := h₂.packet a
      · rw [heq, hnone]
      · exact hnone'
  srcNext := fun a ha => (h₂.srcNext a (h₁.ofSource_eq_false ha)).trans (h₁.srcNext a ha)
  srcPrev := fun a ha => (h₂.srcPrev a (h₁.ofSource_eq_false ha)).trans (h₁.srcPrev a ha)

/-- The queues of the other sources stay as they are. -/
theorem SourceLinked.other (h : SourceLinked q s' before l) (honly : OnlySource s q q')
    (hne : s' ≠ s) : SourceLinked q' s' before l := by
  have hother : ∀ a ∈ l, q.links.ofSource s a = false := by
    intro a ha
    rw [← Bool.not_eq_true]
    exact fun hs => hne (PacketLinks.ofSource_unique (h.ofSource a ha) hs)
  refine ⟨h.nodup, fun a ha => ?_, ?_⟩
  · rw [PacketLinks.ofSource_congr (honly.packet_eq (hother a ha))]
    exact h.ofSource a ha
  · rw [honly.sources s' hne]
    apply h.piece.congr
    · intro a ha
      rw [follow_apply, follow_apply, honly.srcNext a (hother a ha)]
    · intro a ha
      rw [follow_apply, follow_apply, honly.srcPrev a (hother a ha)]

/-- What belongs to the queues of sources is the same. -/
theorem OnlySource.of_sameSources (hsources : ∀ s' ≠ s, q'.sources s' = q.sources s')
    (hfresh : q'.fresh = q.fresh) (hsame : PacketLinks.SameSources q.links q'.links) :
    OnlySource s q q' where
  fresh := hfresh
  sources := hsources
  packet := fun a => Or.inl (by rw [hsame.packet])
  srcNext := fun a _ => by rw [hsame.srcNext]
  srcPrev := fun a _ => by rw [hsame.srcPrev]

/-! ## Insertion -/

/-- A new link is in no queue yet. -/
theorem SourceLinked.newLink (h : SourceLinked q s before l)
    (hbelow : ∀ a, (q.links.packet a).isSome = true → a < q.fresh) (n : WaitingPacket) :
    SourceLinked (q.newLink n) s before l := by
  have hne : ∀ a ∈ l, a ≠ q.fresh := fun a ha =>
    (hbelow a (PacketLinks.isSome_of_ofSource (h.ofSource a ha))).ne
  refine ⟨h.nodup, fun a ha => ?_, h.piece.congr (fun a ha => ?_) (fun a ha => ?_)⟩
  · rw [PacketLinks.ofSource_congr (h := q.links) (Function.update_of_ne (hne a ha) ..)]
    exact h.ofSource a ha
  · exact congrArg some (Function.update_of_ne (hne a ha) ..)
  · exact congrArg some (Function.update_of_ne (hne a ha) ..)

/-- The pointers of a link that is not linked yet. -/
structure Unlinked (h : PacketLinks) (s link : ℕ) : Prop where
  ofSource : h.ofSource s link = true
  srcNext : h.srcNext link = none
  srcPrev : h.srcPrev link = none

theorem insertOnly_spec (hlink : Unlinked q.links s link)
    (hq : q.insertOnly s link = some q') :
    OnlySource s q q' ∧ SourceLinked q' s none [link] := by
  obtain ⟨h', hh', rfl⟩ := Option.map_eq_some_iff.mp hq
  have hsame := PacketLinks.sameSources_linkBehindOf hh'
  refine ⟨OnlySource.of_sameSources (fun s' hs' => ?_) rfl hsame, List.nodup_singleton link, ?_, ?_⟩
  · simp [setFirst_sources_of_ne _ _ _ hs', setLast_sources_of_ne _ _ _ hs']
  · intro a ha
    rw [List.mem_singleton.mp ha]
    exact (PacketLinks.ofSource_congr (congrFun hsame.packet link)).trans hlink.ofSource
  · apply piece_singleton.mpr
    simp [follow_apply, hsame.srcNext, hsame.srcPrev, hlink.srcNext, hlink.srcPrev]

/-- A packet comes into the queue of its source, between others. -/
theorem SourceLinked.insert {l₁ l₂ : List ℕ} (h : SourceLinked q s before (l₁ ++ l₂))
    (ha : link ∉ l₁ ++ l₂) (hof : q.links.ofSource s link = true)
    (hfresh : q'.fresh = q.fresh) (hsources : ∀ s' ≠ s, q'.sources s' = q.sources s')
    (hfirst : (q'.sources s).first = l₁.head?.or (some link))
    (hlast : (q'.sources s).last = l₂.getLast?.or (some link))
    (hpacket : q'.links.packet = q.links.packet)
    (hnextLast : ∀ c ∈ l₁.getLast?, q'.links.srcNext c = some link)
    (hprevHead : ∀ c ∈ l₂.head?, q'.links.srcPrev c = some link)
    (hnextLink : q'.links.srcNext link = l₂.head?)
    (hprevLink : q'.links.srcPrev link = l₁.getLast?.or before)
    (hnext : ∀ c ≠ link, c ∉ l₁.getLast? → q'.links.srcNext c = q.links.srcNext c)
    (hprev : ∀ c ≠ link, c ∉ l₂.head? → q'.links.srcPrev c = q.links.srcPrev c) :
    OnlySource s q q' ∧ SourceLinked q' s before (l₁ ++ link :: l₂) := by
  have hne : ∀ a ∈ l₁ ++ l₂, a ≠ link := fun a hal heq => ha (heq ▸ hal)
  have hlinkNe : ∀ c, q.links.ofSource s c = false → c ≠ link := by
    rintro c hc rfl
    rw [hc] at hof
    cases hof
  have hmem : ∀ c ∈ l₁ ++ l₂, ¬ q.links.ofSource s c = false := by
    intro c hc hfalse
    have htrue := h.ofSource c hc
    rw [hfalse] at htrue
    cases htrue
  refine ⟨⟨hfresh, hsources, fun a => Or.inl (by rw [hpacket]), ?_, ?_⟩, ?_, ?_, ?_⟩
  · intro c hc
    refine hnext c (hlinkNe c hc) (fun hcl => hmem c ?_ hc)
    exact List.mem_append_left _ (List.mem_of_mem_getLast? hcl)
  · intro c hc
    refine hprev c (hlinkNe c hc) (fun hcl => hmem c ?_ hc)
    exact List.mem_append_right _ (List.mem_of_mem_head? hcl)
  · rw [List.nodup_middle]
    exact List.nodup_cons.mpr ⟨ha, h.nodup⟩
  · intro a hal
    rw [PacketLinks.ofSource_congr (congrFun hpacket a)]
    rw [List.mem_append, List.mem_cons] at hal
    rcases hal with hal | rfl | hal
    · exact h.ofSource a (List.mem_append_left _ hal)
    · exact hof
    · exact h.ofSource a (List.mem_append_right _ hal)
  · rw [hfirst, hlast]
    apply h.piece.insert h.nodup
    · exact fun c hc => congrArg some (hnextLast c hc)
    · exact fun c hc => congrArg some (hprevHead c hc)
    · rw [Option.or_none]
      exact congrArg some hnextLink
    · exact congrArg some hprevLink
    · exact fun c hc hcl => congrArg some (hnext c (hne c hc) hcl)
    · exact fun c hc hcl => congrArg some (hprev c (hne c hc) hcl)

/-- The packet behind the last one of its source. -/
theorem insertLast_spec (h : SourceLinked q s before l) (hl : l ≠ []) (ha : link ∉ l)
    (hlink : Unlinked q.links s link) (hq : q.insertLast s link = some q') :
    OnlySource s q q' ∧ SourceLinked q' s before (l ++ [link]) := by
  obtain ⟨h₁, hh₁, hq⟩ := Option.bind_eq_some_iff.mp hq
  obtain ⟨h₂, hh₂, rfl⟩ := Option.map_eq_some_iff.mp hq
  obtain ⟨c, hc, -, -, rfl⟩ := PacketLinks.linkSrcBehind_eq_some.mp hh₁
  have hsame := PacketLinks.sameSources_linkBehind hh₂
  obtain ⟨l', c', rfl⟩ := (List.eq_nil_or_concat' l).resolve_left hl
  have hcc : c' = c := Option.some_inj.mp (h.piece.last_eq.symm.trans hc)
  subst hcc
  have hne : c' ≠ link := fun heq => ha (heq ▸ List.mem_append_right l' List.mem_cons_self)
  rw [← List.append_nil (l' ++ [c'])] at h ha
  have hfirst := h.piece.first_eq_or
  apply h.insert ha hlink.ofSource
  · rfl
  · exact fun s' hs' => setLast_sources_of_ne _ _ _ hs'
  · simp [hfirst]
  · simp
  · exact hsame.packet
  · simp [hsame.srcNext]
  · simp
  · simp [hsame.srcNext, Function.update_of_ne hne.symm, hlink.srcNext]
  · simp [hsame.srcPrev]
  · intro a ha' hal
    rw [List.getLast?_concat] at hal
    simp only [setEnds_links, setLinks_links, hsame.srcNext]
    refine Function.update_of_ne ?_ ..
    rintro rfl
    exact hal rfl
  · intro a ha' _
    simp only [setEnds_links, setLinks_links, hsame.srcPrev]
    exact Function.update_of_ne ha' ..

/-- The first packet of a source is made to link back to nothing. -/
theorem SourceLinked.resetFirst {b : ℕ} (h : SourceLinked q s before (b :: l)) :
    OnlySource s q (q.setLinks { q.links with srcPrev := Function.update q.links.srcPrev b none }) ∧
      SourceLinked (q.setLinks { q.links with srcPrev := Function.update q.links.srcPrev b none }) s
        none (b :: l) := by
  have hb := h.ofSource b List.mem_cons_self
  refine ⟨⟨rfl, fun _ _ => rfl, fun _ => Or.inl rfl, fun _ _ => rfl, ?_⟩, h.nodup, h.ofSource, ?_⟩
  · intro a ha
    refine Function.update_of_ne ?_ ..
    rintro rfl
    rw [ha] at hb
    cases hb
  · have hpiece := h.piece.redirect_before none (List.nodup_cons.mp h.nodup).1
    apply hpiece.congr
    · exact fun _ _ => rfl
    · intro a _
      by_cases hab : a = b
      · subst hab
        simp [follow_apply]
      · simp [follow_apply, Function.update_of_ne hab]

/-- The packet before the first one of its source. -/
theorem insertFront_spec (h : SourceLinked q s before l) (hl : l ≠ []) (ha : link ∉ l)
    (hlink : Unlinked q.links s link) (hq : q.insertFront s link = some q') :
    OnlySource s q q' ∧ SourceLinked q' s none (link :: l) := by
  obtain ⟨h₁, hh₁, hq⟩ := Option.bind_eq_some_iff.mp hq
  obtain ⟨prevFirst, -, hq⟩ := Option.bind_eq_some_iff.mp hq
  obtain ⟨h₂, hh₂, hq⟩ := Option.bind_eq_some_iff.mp hq
  obtain ⟨h₃, hh₃, rfl⟩ := Option.map_eq_some_iff.mp hq
  obtain ⟨c, hc, -, -, rfl⟩ := PacketLinks.linkSrcAhead_eq_some.mp hh₁
  have hsame :=
    (PacketLinks.sameSources_linkBehindOf hh₂).trans (PacketLinks.sameSources_linkAhead hh₃)
  obtain ⟨b, l', rfl⟩ := List.exists_cons_of_ne_nil hl
  have hbc : b = c := Option.some_inj.mp (h.piece.first_eq.symm.trans hc)
  subst hbc
  have hne : b ≠ link := fun heq => ha (heq ▸ List.mem_cons_self)
  obtain ⟨honly, hreset⟩ := h.resetFirst
  have hlast := h.piece.last_eq_or
  suffices hins : OnlySource s
      (q.setLinks { q.links with srcPrev := Function.update q.links.srcPrev b none })
      ((q.setLinks h₃).setFirst s (some link)) ∧
      SourceLinked ((q.setLinks h₃).setFirst s (some link)) s none ([] ++ link :: b :: l') from
    ⟨honly.trans hins.1, hins.2⟩
  have hreset' : SourceLinked _ s none ([] ++ (b :: l')) := hreset
  apply hreset'.insert ha hlink.ofSource
  · rfl
  · exact fun s' hs' => setFirst_sources_of_ne _ _ _ hs'
  · simp
  · simp only [setFirst_sources_self, setLinks_sources]
    exact hlast.trans (getLast?_or_of_ne_nil (List.cons_ne_nil b l') ..)
  · exact hsame.packet
  · simp
  · simp [hsame.srcPrev]
  · simp [hsame.srcNext]
  · simp [hsame.srcPrev, Function.update_of_ne hne.symm, hlink.srcPrev]
  · intro a ha' _
    simp [hsame.srcNext, Function.update_of_ne ha']
  · intro a _ hal
    have hab : a ≠ b := by
      rintro rfl
      exact hal rfl
    simp [hsame.srcPrev, Function.update_of_ne hab]

/-- The packet in the middle of the queue of its source. -/
theorem insertMiddle_spec {l₁ l₂ : List ℕ} {plink b : ℕ}
    (h : SourceLinked q s before (l₁ ++ plink :: b :: l₂)) (ha : link ∉ l₁ ++ plink :: b :: l₂)
    (hlink : Unlinked q.links s link) (hq : q.insertMiddle link plink = some q') :
    OnlySource s q q' ∧ SourceLinked q' s before (l₁ ++ plink :: link :: b :: l₂) := by
  obtain ⟨srcNext, hsrcNext, hq⟩ := Option.bind_eq_some_iff.mp hq
  obtain ⟨h₁, hh₁, hq⟩ := Option.bind_eq_some_iff.mp hq
  obtain ⟨prev, -, hq⟩ := Option.bind_eq_some_iff.mp hq
  obtain ⟨h₂, hh₂, hq⟩ := Option.bind_eq_some_iff.mp hq
  obtain ⟨h₃, hh₃, hq⟩ := Option.bind_eq_some_iff.mp hq
  obtain ⟨h₄, hh₄, rfl⟩ := Option.map_eq_some_iff.mp hq
  -- the packet behind `plink`
  have hb : srcNext = some b := by
    obtain ⟨p, hp, rfl⟩ := Option.map_eq_some_iff.mp hsrcNext
    obtain ⟨⟨⟩, -⟩ := PacketLinks.deref_eq_some.mp hp
    exact Option.some_inj.mp h.piece.links_of_mem.1
  subst hb
  obtain ⟨_, ⟨⟩, -, -, rfl⟩ := PacketLinks.linkSrcAhead_eq_some.mp hh₁
  have hsame :=
    (PacketLinks.sameSources_linkBehind hh₂).trans (PacketLinks.sameSources_linkAhead hh₃)
  obtain ⟨_, ⟨⟩, -, -, rfl⟩ := PacketLinks.linkSrcBehind_eq_some.mp hh₄
  have hnodup := h.nodup
  rw [List.nodup_append, List.nodup_cons] at hnodup
  have hpb : plink ≠ b := fun heq => hnodup.2.1.1 (heq ▸ List.mem_cons_self)
  have hpl : plink ≠ link := by
    rintro rfl
    exact ha (by simp)
  have hbl : b ≠ link := by
    rintro rfl
    exact ha (by simp)
  have happend : l₁ ++ plink :: b :: l₂ = (l₁ ++ [plink]) ++ (b :: l₂) := by simp
  have happend' : l₁ ++ plink :: link :: b :: l₂ = (l₁ ++ [plink]) ++ link :: (b :: l₂) := by simp
  have hfirst := h.piece.first_eq_or
  have hlast := h.piece.last_eq_or
  rw [happend] at h ha
  rw [happend']
  apply h.insert ha hlink.ofSource
  · rfl
  · exact fun _ _ => rfl
  · simp [hfirst]
  · have hlast' : (q.sources s).last = (b :: l₂).getLast?.or before := by
      rw [hlast, List.getLast?_append_cons, List.getLast?_cons_cons]
    exact hlast'.trans (getLast?_or_of_ne_nil (List.cons_ne_nil b l₂) ..)
  · exact hsame.packet
  · simp
  · intro c hc
    cases hc
    simp [hsame.srcPrev, Function.update_of_ne hbl]
  · simp [hsame.srcNext, Function.update_of_ne hpl.symm]
  · simp
  · intro c hc hcl
    rw [List.getLast?_concat] at hcl
    have hcp : c ≠ plink := by
      rintro rfl
      exact hcl rfl
    simp [hsame.srcNext, Function.update_of_ne hcp, Function.update_of_ne hc]
  · intro c hc hcl
    have hcb : c ≠ b := by
      rintro rfl
      exact hcl rfl
    simp [hsame.srcPrev, Function.update_of_ne hcb, Function.update_of_ne hc]

/-- A pointer that leads to no link, and never will. -/
def Stale (q : ReceptionQueue) (p : Option ℕ) : Prop :=
  ∀ a ∈ p, a < q.fresh ∧ q.links.packet a = none

theorem stale_none (q : ReceptionQueue) : Stale q none :=
  fun _ ha => absurd ha (Option.not_mem_none _)

/-- The search from the end of the queue stops behind the packets with a higher number. -/
theorem searchPlace_eq_of_some {h : PacketLinks} {seq : BitVec 16}
    (hstale : ∀ a ∈ before, h.packet a = none) :
    ∀ {rounds : ℕ} {p r : Option ℕ}, Segment (follow h.srcPrev) p l before →
      searchPlace h seq rounds p = some r → r = (l.dropWhile (h.higher seq)).head? := by
  induction l with
  | nil =>
      intro rounds p r hseg hr
      rw [segment_nil] at hseg
      subst hseg
      cases p with
      | none =>
          rw [searchPlace] at hr
          cases hr
          rfl
      | some a =>
          -- the pointer leads nowhere, so the search does not return
          cases rounds with
          | zero => cases hr
          | succ rounds =>
              rw [searchPlace, hstale a rfl] at hr
              cases hr
  | cons a l ih =>
      intro rounds p r hseg hr
      obtain ⟨rfl, p', hp', hrest⟩ := hseg
      cases rounds with
      | zero => cases hr
      | succ rounds =>
          rw [searchPlace] at hr
          obtain ⟨n, hn, hr⟩ := Option.bind_eq_some_iff.mp hr
          have hhigher : h.higher seq a = decide (seq < n.seqNum) := by
            rw [PacketLinks.higher, PacketLinks.seqOf, hn]
            rfl
          by_cases hlt : seq < n.seqNum
          · rw [if_pos hlt] at hr
            rw [List.dropWhile_cons_of_pos (by rw [hhigher]; exact decide_eq_true hlt)]
            rw [follow_apply, Option.some_inj] at hp'
            rw [hp'] at hr
            exact ih hrest hr
          · rw [if_neg hlt] at hr
            rw [List.dropWhile_cons_of_neg (by rw [hhigher]; simpa using hlt)]
            cases hr
            rfl

/-- The queue of a source with a packet in its place: before the packets with a higher number
that are at the end. -/
def placed (P : ℕ → Bool) (link : ℕ) (l : List ℕ) : List ℕ :=
  l.rdropWhile P ++ link :: l.rtakeWhile P

/-- A packet comes into a queue that is not empty. -/
theorem insertBehind_spec {n : WaitingPacket} {last : ℕ} (h : SourceLinked q n.sourceLink before l)
    (hl : l ≠ []) (hstale : Stale q before) (ha : link ∉ l)
    (hlink : Unlinked q.links n.sourceLink link) (hlast : (q.sources n.sourceLink).last = some last)
    (hq : q.insertBehind n link last = some (true, q')) :
    OnlySource n.sourceLink q q' ∧ ∃ before', (before' = before ∨ before' = none) ∧
      SourceLinked q' n.sourceLink before' (placed (q.links.higher n.seqNum) link l) := by
  obtain ⟨l', c, rfl⟩ := (List.eq_nil_or_concat' l).resolve_left hl
  have hcl : c = last := Option.some_inj.mp (h.piece.last_eq.symm.trans hlast)
  subst hcl
  obtain ⟨m, hm, hq⟩ := Option.bind_eq_some_iff.mp hq
  have hhigher : q.links.higher n.seqNum c = decide (n.seqNum < m.seqNum) := by
    rw [PacketLinks.higher, PacketLinks.seqOf, hm]
    rfl
  by_cases hlt : n.seqNum < m.seqNum
  · -- a disordered packet
    rw [if_pos hlt] at hq
    obtain ⟨r, hr, hq⟩ := Option.bind_eq_some_iff.mp hq
    have hback := h.piece.backward
    rw [hlast] at hback
    have hr' := searchPlace_eq_of_some (fun a ha => (hstale a ha).2) hback hr
    have hsplit : (l' ++ [c]).rdropWhile (q.links.higher n.seqNum)
        ++ (l' ++ [c]).rtakeWhile (q.links.higher n.seqNum) = l' ++ [c] :=
      List.rdropWhile_append_rtakeWhile
    have htake : (l' ++ [c]).rtakeWhile (q.links.higher n.seqNum) ≠ [] := by
      rw [List.rtakeWhile_concat_pos _ _ _ (by rw [hhigher]; exact decide_eq_true hlt)]
      simp
    rw [← List.getLast?_reverse, ← List.rdropWhile] at hr'
    rw [placed]
    set D := (l' ++ [c]).rdropWhile (q.links.higher n.seqNum)
    set T := (l' ++ [c]).rtakeWhile (q.links.higher n.seqNum)
    rw [← hsplit] at h ha
    obtain ⟨b, T', hT⟩ := List.exists_cons_of_ne_nil htake
    rw [hT] at h ha ⊢
    obtain ⟨q₁, hq₁, heq⟩ := Option.map_eq_some_iff.mp hq
    cases heq
    obtain hD | ⟨D', plink, hD⟩ := List.eq_nil_or_concat' D
    · rw [hD] at h ha hr' ⊢
      subst hr'
      obtain ⟨honly, hlinked⟩ := insertFront_spec h (List.cons_ne_nil b T') ha hlink hq₁
      exact ⟨honly, none, Or.inr rfl, hlinked⟩
    · rw [hD] at h ha hr' ⊢
      rw [List.getLast?_concat] at hr'
      subst hr'
      rw [List.append_assoc, List.singleton_append] at h ha ⊢
      obtain ⟨honly, hlinked⟩ := insertMiddle_spec h ha hlink hq₁
      exact ⟨honly, before, Or.inl rfl, hlinked⟩
  · rw [if_neg hlt] at hq
    split_ifs at hq with heq
    · cases hq
    · obtain ⟨q₁, hq₁, heq⟩ := Option.map_eq_some_iff.mp hq
      cases heq
      have hnot : ¬ q.links.higher n.seqNum c = true := by
        rw [hhigher]
        simpa using hlt
      rw [placed, List.rdropWhile_concat_neg _ _ _ hnot, List.rtakeWhile_concat_neg _ _ _ hnot]
      obtain ⟨honly, hlinked⟩ := insertLast_spec h hl ha hlink hq₁
      exact ⟨honly, before, Or.inl rfl, hlinked⟩

/-! ## All sources -/

/-- The packets `S s` are linked as the queue of the source `s`, for every source. -/
structure SourcesLinked (q : ReceptionQueue) (before : ℕ → Option ℕ) (S : ℕ → List ℕ) : Prop where
  linked : ∀ s, SourceLinked q s (before s) (S s)
  stale : ∀ s, Stale q (before s)
  below : ∀ a, (q.links.packet a).isSome = true → a < q.fresh

variable {befores : ℕ → Option ℕ} {S : ℕ → List ℕ}

theorem sourcesLinked_new (isMine : ℕ → Bool) :
    SourcesLinked (new isMine) (fun _ => none) (fun _ => []) where
  linked :=
    fun _ => ⟨List.nodup_nil, fun _ ha => absurd ha List.not_mem_nil, piece_nil.mpr ⟨rfl, rfl⟩⟩
  stale := fun _ => stale_none _
  below := fun _ ha => absurd ha Bool.false_ne_true

/-- The packets of a source, from its first one on. -/
def packetsOf (q : ReceptionQueue) (s : ℕ) : List ℕ :=
  walk q.links.srcNext q.fresh (q.sources s).first

theorem SourcesLinked.packetsOf_eq (h : SourcesLinked q befores S) (s : ℕ) :
    q.packetsOf s = S s := by
  apply (h.linked s).piece.forward.walk_eq
  exact length_le_of_nodup_of_lt (h.linked s).nodup
    (fun a ha => h.below a (PacketLinks.isSome_of_ofSource ((h.linked s).ofSource a ha)))

/-- Pointers that lead to no link are not affected. -/
theorem Stale.of_onlySource {p : Option ℕ} (hp : Stale q p) (honly : OnlySource s q q') :
    Stale q' p := by
  intro a ha
  obtain ⟨hlt, hnone⟩ := hp a ha
  rw [honly.fresh]
  refine ⟨hlt, ?_⟩
  obtain heq | ⟨-, hnone'⟩ := honly.packet a
  · rw [heq, hnone]
  · exact hnone'

/-- One source changes. -/
theorem SourcesLinked.update (h : SourcesLinked q befores S) (honly : OnlySource s q q')
    (hlinked : SourceLinked q' s before l) (hstale : Stale q' before) :
    SourcesLinked q' (Function.update befores s before) (Function.update S s l) where
  linked := by
    intro s'
    rcases eq_or_ne s' s with rfl | hne
    · rwa [Function.update_self, Function.update_self]
    · rw [Function.update_of_ne hne, Function.update_of_ne hne]
      exact (h.linked s').other honly hne
  stale := by
    intro s'
    rcases eq_or_ne s' s with rfl | hne
    · rwa [Function.update_self]
    · rw [Function.update_of_ne hne]
      exact (h.stale s').of_onlySource honly
  below := by
    intro a ha
    rw [honly.fresh]
    obtain heq | ⟨-, hnone⟩ := honly.packet a
    · rw [heq] at ha
      exact h.below a ha
    · rw [hnone] at ha
      cases ha

theorem SourcesLinked.congr (h : SourcesLinked q befores S) {befores' : ℕ → Option ℕ}
    {S' : ℕ → List ℕ} (hbefores : ∀ s, befores' s = befores s) (hS : ∀ s, S' s = S s) :
    SourcesLinked q befores' S' := by
  obtain rfl : befores' = befores := funext hbefores
  obtain rfl : S' = S := funext hS
  exact h

/-- The queues of sources do not depend on the ends of the global queue. -/
theorem SourcesLinked.setEnds (h : SourcesLinked q befores S) (p r : Option ℕ) :
    SourcesLinked (q.setEnds p r) befores S where
  linked := fun s => ⟨(h.linked s).nodup, (h.linked s).ofSource, (h.linked s).piece⟩
  stale := h.stale
  below := h.below

/-- Nor on its links. -/
theorem SourcesLinked.setLinks (h : SourcesLinked q befores S) {links : PacketLinks}
    (hsame : PacketLinks.SameSources q.links links) :
    SourcesLinked (q.setLinks links) befores S where
  linked := by
    intro s
    refine ⟨(h.linked s).nodup, fun a ha => ?_, ?_⟩
    · rw [setLinks_links, PacketLinks.ofSource_congr (congrFun hsame.packet a)]
      exact (h.linked s).ofSource a ha
    · rw [setLinks_links, hsame.srcNext, hsame.srcPrev]
      exact (h.linked s).piece
  stale := by
    intro s a ha
    rw [setLinks_links, hsame.packet]
    exact h.stale s a ha
  below := by
    intro a ha
    rw [setLinks_links, hsame.packet] at ha
    exact h.below a ha

theorem SourcesLinked.newLink (h : SourcesLinked q befores S) (n : WaitingPacket) :
    SourcesLinked (q.newLink n) befores S where
  linked := fun s => (h.linked s).newLink h.below n
  stale := by
    intro s a ha
    obtain ⟨hlt, hnone⟩ := h.stale s a ha
    exact ⟨Nat.lt_succ_of_lt hlt, (Function.update_of_ne hlt.ne ..).trans hnone⟩
  below := by
    intro a ha
    by_cases hfresh : a = q.fresh
    · rw [hfresh]
      exact Nat.lt_succ_self _
    · refine Nat.lt_succ_of_lt (h.below a ?_)
      have hpacket : (q.newLink n).links.packet a = q.links.packet a :=
        Function.update_of_ne hfresh ..
      rwa [hpacket] at ha

theorem SourcesLinked.notMem_fresh (h : SourcesLinked q befores S) (s : ℕ) : q.fresh ∉ S s := by
  intro hmem
  exact absurd (h.below _ (PacketLinks.isSome_of_ofSource ((h.linked s).ofSource _ hmem)))
    (lt_irrefl _)

theorem unlinked_newLink (q : ReceptionQueue) (n : WaitingPacket) :
    Unlinked (q.newLink n).links n.sourceLink q.fresh where
  ofSource := by
    have hpacket : (q.newLink n).links.packet q.fresh = some n := Function.update_self ..
    rw [PacketLinks.ofSource, hpacket]
    exact decide_eq_true rfl
  srcNext := Function.update_self ..
  srcPrev := Function.update_self ..

/-- A link at the end of the queue of a source is the last packet in it. -/
theorem SourcesLinked.getLast?_eq (h : SourcesLinked q befores S) {last : ℕ}
    (hlast : (q.sources s).last = some last) (hlive : (q.links.packet last).isSome = true) :
    (S s).getLast? = some last := by
  have hor := (h.linked s).piece.last_eq_or
  rw [hlast] at hor
  rcases Option.or_eq_some_iff.mp hor.symm with hsome | ⟨-, hbefore⟩
  · exact hsome
  · rw [(h.stale s last hbefore).2] at hlive
    cases hlive

/-- A link that is not in the queue of its source is deleted. -/
theorem SourceLinked.deleteLink (h : SourceLinked q s before l) (ha : a ∉ l)
    (hof : q.links.packet a = none ∨ q.links.ofSource s a = true) :
    OnlySource s q (q.deleteLink a) ∧ SourceLinked (q.deleteLink a) s before l := by
  refine ⟨⟨rfl, fun _ _ => rfl, ?_, fun _ _ => rfl, fun _ _ => rfl⟩, h.nodup, ?_, h.piece⟩
  · intro b
    by_cases hba : b = a
    · subst hba
      have hnone : (q.deleteLink b).links.packet b = none := Function.update_self ..
      rw [hnone]
      rcases hof with hof | hof
      · exact Or.inl hof.symm
      · exact Or.inr ⟨hof, rfl⟩
    · exact Or.inl (Function.update_of_ne hba ..)
  · intro b hb
    have hba : b ≠ a := fun heq => ha (heq ▸ hb)
    have hpacket : (q.deleteLink a).links.packet b = q.links.packet b :=
      Function.update_of_ne hba ..
    rw [PacketLinks.ofSource_congr hpacket]
    exact h.ofSource b hb

/-- A packet that is not inserted has the number of the last one of its source. -/
theorem insertBehind_false {n : WaitingPacket} {last : ℕ}
    (hq : q.insertBehind n link last = some (false, q')) :
    (q.links.packet last).isSome = true ∧ q.links.seqOf last = n.seqNum ∧
    q' = q.deleteLink link := by
  obtain ⟨m, hm, hq⟩ := Option.bind_eq_some_iff.mp hq
  split_ifs at hq with hlt heq
  · obtain ⟨r, -, hq⟩ := Option.bind_eq_some_iff.mp hq
    obtain ⟨_, _, heq⟩ := Option.map_eq_some_iff.mp hq
    cases heq
  · cases hq
    rw [PacketLinks.seqOf, hm]
    exact ⟨rfl, heq.symm, rfl⟩
  · obtain ⟨_, _, heq⟩ := Option.map_eq_some_iff.mp hq
    cases heq

/-- **A packet is inserted** before those of its source with a higher number at the end of the
queue. -/
theorem SourcesLinked.insertRecvPacket {n : WaitingPacket} (h : SourcesLinked q befores S)
    (hq : q.insertRecvPacket n = some (true, q')) :
    OnlySource n.sourceLink (q.newLink n) q' ∧
      ∃ before, (befores n.sourceLink = none → before = none) ∧
        SourcesLinked q' (Function.update befores n.sourceLink before)
          (Function.update S n.sourceLink
            (placed ((q.newLink n).links.higher n.seqNum) q.fresh (S n.sourceLink))) := by
  have hnew := h.newLink n
  have hlinked := hnew.linked n.sourceLink
  have hlink := unlinked_newLink q n
  rw [ReceptionQueue.insertRecvPacket] at hq
  cases hlast : ((q.newLink n).sources n.sourceLink).last with
  | none =>
      rw [hlast] at hq
      obtain ⟨q₁, hq₁, heq⟩ := Option.map_eq_some_iff.mp hq
      cases heq
      have hor := hlinked.piece.last_eq_or
      rw [hlast] at hor
      have hnil : S n.sourceLink = [] :=
        List.getLast?_eq_none_iff.mp (Option.or_eq_none_iff.mp hor.symm).1
      obtain ⟨honly, hlinked'⟩ := insertOnly_spec hlink hq₁
      refine ⟨honly, none, fun _ => rfl, ?_⟩
      rw [hnil]
      exact hnew.update honly hlinked' (stale_none _)
  | some last =>
      rw [hlast] at hq
      have hne : S n.sourceLink ≠ [] := by
        intro hnil
        obtain ⟨m, hm, -⟩ := Option.bind_eq_some_iff.mp hq
        have hget := hnew.getLast?_eq hlast (by rw [hm]; rfl)
        rw [hnil] at hget
        cases hget
      obtain ⟨honly, before, hbefore, hlinked'⟩ := insertBehind_spec hlinked hne
        (hnew.stale n.sourceLink) (h.notMem_fresh _) hlink hlast hq
      refine ⟨honly, before, ?_, hnew.update honly hlinked' ?_⟩
      · intro hnone
        rcases hbefore with rfl | rfl
        · exact hnone
        · rfl
      · rcases hbefore with rfl | rfl
        · exact (hnew.stale n.sourceLink).of_onlySource honly
        · exact stale_none _

/-- A packet that is not inserted is a duplicate of the last one of its source, and nothing
changes. -/
theorem SourcesLinked.insertRecvPacket_false {n : WaitingPacket} (h : SourcesLinked q befores S)
    (hq : q.insertRecvPacket n = some (false, q')) :
    q' = (q.newLink n).deleteLink q.fresh ∧
      (∃ last ∈ (S n.sourceLink).getLast?, q.links.seqOf last = n.seqNum) ∧
      SourcesLinked q' befores S := by
  have hnew := h.newLink n
  have hlinked := hnew.linked n.sourceLink
  rw [ReceptionQueue.insertRecvPacket] at hq
  cases hlast : ((q.newLink n).sources n.sourceLink).last with
  | none =>
      rw [hlast] at hq
      obtain ⟨_, _, heq⟩ := Option.map_eq_some_iff.mp hq
      cases heq
  | some last =>
      rw [hlast] at hq
      obtain ⟨hlive, hseq, rfl⟩ := insertBehind_false hq
      have hget := hnew.getLast?_eq hlast hlive
      have hne : last ≠ q.fresh := by
        rintro rfl
        exact h.notMem_fresh _ (List.mem_of_getLast? hget)
      have hpacket : (q.newLink n).links.packet last = q.links.packet last :=
        Function.update_of_ne hne ..
      obtain ⟨honly, hlinked'⟩ := hlinked.deleteLink (h.notMem_fresh _)
        (Or.inr (unlinked_newLink q n).ofSource)
      have hall := hnew.update honly hlinked' ((hnew.stale n.sourceLink).of_onlySource honly)
      rw [Function.update_eq_self, Function.update_eq_self] at hall
      refine ⟨rfl, ⟨last, hget, ?_⟩, hall⟩
      rwa [PacketLinks.seqOf, hpacket] at hseq

/-! ## Source specific queries -/

/-- The first packet of the source leaves its queue.  The one behind it still links back to it. -/
theorem SourceLinked.tail (h : SourceLinked q s before (a :: l)) {q₁ : ReceptionQueue}
    (hsame : PacketLinks.SameSources q.links q₁.links)
    (hfirst : (q₁.sources s).first = q.links.srcNext a)
    (hlast : (q₁.sources s).last = (q.sources s).last) : SourceLinked q₁ s (some a) l := by
  obtain ⟨r, -, hnext, -, hrest⟩ := piece_cons.mp h.piece
  rw [follow_apply, Option.some_inj] at hnext
  refine ⟨(List.nodup_cons.mp h.nodup).2, fun b hb => ?_, ?_⟩
  · rw [PacketLinks.ofSource_congr (congrFun hsame.packet b)]
    exact h.ofSource b (List.mem_cons_of_mem a hb)
  · rw [hfirst, hlast, hsame.srcNext, hsame.srcPrev, hnext]
    exact hrest

/-- An old packet of the source expires. -/
theorem expireOfSource_spec (h : SourceLinked q s before l) {nonempty : Bool}
    (hq : q.expireOfSource s = some (a, nonempty, q')) :
    OnlySource s q q' ∧ q'.links.packet a = none ∧
      ∃ l', l = a :: l' ∧ SourceLinked q' s (some a) l' := by
  obtain ⟨b, hb, hq⟩ := Option.bind_eq_some_iff.mp hq
  obtain ⟨h', hh', heq⟩ := Option.map_eq_some_iff.mp hq
  cases heq
  obtain ⟨hfirst, -⟩ := PacketLinks.deref_eq_some.mp hb
  have hsame := PacketLinks.sameSources_unlink hh'
  cases l with
  | nil =>
      rw [(piece_nil.mp h.piece).1] at hfirst
      cases hfirst
  | cons c l' =>
      have hca : c = a := Option.some_inj.mp (h.piece.first_eq.symm.trans hfirst)
      subst hca
      have hone : OnlySource s q ((q.setFirst s (q.links.srcNext c)).setLinks h') :=
        OnlySource.of_sameSources (fun s' hs' => setFirst_sources_of_ne _ _ _ hs') rfl hsame
      have htail : SourceLinked ((q.setFirst s (q.links.srcNext c)).setLinks h') s (some c) l' :=
        h.tail hsame (by simp) (by simp)
      have hof : h'.ofSource s c = true :=
        (PacketLinks.ofSource_congr (congrFun hsame.packet c)).trans
          (h.ofSource c List.mem_cons_self)
      obtain ⟨honly, hlinked⟩ := htail.deleteLink (List.nodup_cons.mp h.nodup).1 (Or.inr hof)
      exact ⟨hone.trans honly, Function.update_self .., l', rfl, hlinked⟩

/-- Old packets of the source expire, from the front of its queue. -/
theorem expireLoopOfSource_spec {k : ℕ} {expired : List ℕ} {nonempty nonempty' : Bool} :
    ∀ {q : ReceptionQueue} {before : Option ℕ} {l : List ℕ}, SourceLinked q s before l →
      Stale q before → (∀ a ∈ l, a < q.fresh) →
      expireLoopOfSource s k nonempty q = some (expired, nonempty', q') →
      OnlySource s q q' ∧ ∃ l' before', l = expired ++ l' ∧ SourceLinked q' s before' l' ∧
        Stale q' before' := by
  induction k generalizing expired nonempty with
  | zero =>
      intro q before l h hstale _ hq
      cases hq
      exact ⟨.refl s _, l, before, rfl, h, hstale⟩
  | succ k ih =>
      intro q before l h hstale hlt hq
      obtain ⟨⟨a, nonempty₁, q₁⟩, hq₁, hq⟩ := Option.bind_eq_some_iff.mp hq
      obtain ⟨⟨expired', nonempty₂, q₂⟩, hq₂, heq⟩ := Option.map_eq_some_iff.mp hq
      cases heq
      obtain ⟨honly, hnone, l₁, rfl, hlinked⟩ := expireOfSource_spec h hq₁
      have hstale₁ : Stale q₁ (some a) := by
        rintro b ⟨⟩
        rw [honly.fresh]
        exact ⟨hlt a List.mem_cons_self, hnone⟩
      have hlt₁ : ∀ b ∈ l₁, b < q₁.fresh := by
        intro b hb
        rw [honly.fresh]
        exact hlt b (List.mem_cons_of_mem a hb)
      obtain ⟨honly', l', before', rfl, hlinked', hstale'⟩ := ih hlinked hstale₁ hlt₁ hq₂
      exact ⟨honly.trans honly', l', before', rfl, hlinked', hstale'⟩

/-- The packet selected leaves the queue of its source. -/
theorem takeOfSource_spec (h : SourceLinked q s before (a :: l))
    (hq : q.takeOfSource s a = some q') :
    OnlySource s q q' ∧ ∃ before', (before' = none ∨ before' = some a ∧ l ≠ []) ∧
      SourceLinked q' s before' l := by
  obtain ⟨q₁, hq₁, hq⟩ := Option.bind_eq_some_iff.mp hq
  obtain ⟨h₁, hh₁, rfl⟩ := Option.map_eq_some_iff.mp hq₁
  have hsame := PacketLinks.sameSources_unlink hh₁
  obtain ⟨r, -, hnext, -, hrest⟩ := piece_cons.mp h.piece
  rw [follow_apply, Option.some_inj] at hnext
  simp only [setEnds_links, setLinks_links, hsame.srcNext] at hq
  by_cases hnone : q.links.srcNext a = none
  · -- no packet is left
    rw [if_pos hnone] at hq
    cases hq
    have hnil : l = [] := by
      have hor := hrest.first_eq_or
      rw [← hnext, hnone, Option.or_none] at hor
      exact List.head?_eq_none_iff.mp hor.symm
    subst hnil
    refine ⟨OnlySource.of_sameSources (fun s' hs' => ?_) rfl hsame, none, Or.inl rfl,
      List.nodup_nil, fun _ hb => absurd hb List.not_mem_nil, piece_nil.mpr (by simp)⟩
    rw [setLast_sources_of_ne _ _ _ hs', setFirst_sources_of_ne _ _ _ hs']
    rfl
  · rw [if_neg hnone] at hq
    obtain ⟨h₂, hh₂, rfl⟩ := Option.map_eq_some_iff.mp hq
    have hsame₂ := hsame.trans (PacketLinks.sameSources_setPrev hh₂)
    have hl : l ≠ [] := by
      rintro rfl
      exact hnone (hnext.trans (piece_nil.mp hrest).1)
    refine ⟨OnlySource.of_sameSources (fun s' hs' => ?_) rfl hsame₂, some a, Or.inr ⟨rfl, hl⟩,
      h.tail hsame₂ (by simp) (by simp)⟩
    rw [setLinks_sources, setFirst_sources_of_ne _ _ _ hs']
    rfl

/-- The end of a query: nothing leaves the queue, or its first packet does. -/
theorem finishOfSource_spec (h : SourceLinked q s before l) {timestamp : BitVec 32}
    {nonempty : Bool} {result : Option ℕ}
    (hq : q.finishOfSource s timestamp nonempty = some (result, q')) :
    OnlySource s q q' ∧ ∃ l' before', l = result.toList ++ l' ∧ SourceLinked q' s before' l' ∧
      (before' = none ∨ before' = result ∧ l' ≠ []) := by
  rw [finishOfSource] at hq
  cases l with
  | nil =>
      obtain ⟨hfirst, -⟩ := piece_nil.mp h.piece
      rw [hfirst] at hq
      cases hq
      have hsources : ∀ s' ≠ s, (q.setLast s none).sources s' = q.sources s' :=
        fun s' hs' => setLast_sources_of_ne _ _ _ hs'
      split_ifs
      · refine ⟨OnlySource.of_sameSources hsources rfl (.refl _), [], none, rfl, ?_, Or.inl rfl⟩
        exact ⟨List.nodup_nil, fun _ hb => absurd hb List.not_mem_nil,
          piece_nil.mpr (by simp [hfirst])⟩
      · refine ⟨OnlySource.of_sameSources hsources rfl (.refl _), [], none, rfl, ?_, Or.inl rfl⟩
        exact ⟨List.nodup_nil, fun _ hb => absurd hb List.not_mem_nil,
          piece_nil.mpr (by simp [hfirst])⟩
  | cons first l' =>
      rw [h.piece.first_eq] at hq
      obtain ⟨n, -, hq⟩ := Option.bind_eq_some_iff.mp hq
      split_ifs at hq
      · -- there are only newer packets
        obtain ⟨h₁, hh₁, heq⟩ := Option.map_eq_some_iff.mp hq
        cases heq
        obtain ⟨_, ⟨⟩, -, rfl⟩ := PacketLinks.map_deref_eq_some.mp hh₁
        obtain ⟨honly, hlinked⟩ := h.resetFirst
        exact ⟨honly, first :: l', none, rfl, hlinked, Or.inl rfl⟩
      · obtain ⟨q₁, hq₁, heq⟩ := Option.map_eq_some_iff.mp hq
        cases heq
        obtain ⟨honly, before', hbefore', hlinked⟩ := takeOfSource_spec h hq₁
        exact ⟨honly, l', before', rfl, hlinked, hbefore'⟩

theorem getWaitingOf_spec (h : SourceLinked q s before l) (hstale : Stale q before)
    (hlt : ∀ a ∈ l, a < q.fresh) {timestamp : BitVec 32} {delayed : ℕ → Bool} {r : Retrieval}
    (hq : q.getWaitingOf s timestamp delayed = some r) :
    OnlySource s q r.queue ∧ ∃ l' before', l = r.expired ++ (r.result.toList ++ l') ∧
      SourceLinked r.queue s before' l' ∧ (Stale r.queue before' ∨ before' = r.result) ∧
      (before = none → l' = [] ∨ r.result = none → before' = none) := by
  rw [getWaitingOf] at hq
  split_ifs at hq with hfirst
  · cases hq
    exact ⟨.refl s q, l, before, rfl, h, Or.inl hstale, fun hnone _ => hnone⟩
  · obtain ⟨old, -, hq⟩ := Option.bind_eq_some_iff.mp hq
    obtain ⟨⟨expired, nonempty, q₁⟩, hq₁, hq⟩ := Option.bind_eq_some_iff.mp hq
    obtain ⟨⟨result, q₂⟩, hq₂, rfl⟩ := Option.map_eq_some_iff.mp hq
    obtain ⟨honly₁, l₁, before₁, rfl, hlinked₁, hstale₁⟩ :=
      expireLoopOfSource_spec h hstale hlt hq₁
    obtain ⟨honly₂, l₂, before₂, rfl, hlinked₂, hbefore₂⟩ := finishOfSource_spec hlinked₁ hq₂
    refine ⟨honly₁.trans honly₂, l₂, before₂, rfl, hlinked₂, ?_, ?_⟩
    · rcases hbefore₂ with rfl | ⟨rfl, -⟩
      · exact Or.inl (stale_none _)
      · exact Or.inr rfl
    · rintro - hend
      rcases hbefore₂ with rfl | ⟨rfl, hl₂⟩
      · rfl
      · exact hend.resolve_left hl₂

/-- **A source specific query** takes packets from the front of the queue of the source. -/
theorem SourcesLinked.getData (h : SourcesLinked q befores S) {stamp : BitVec 32}
    {delayed : ℕ → Bool} {r : Retrieval} (hq : q.getData stamp (some s) delayed = some r) :
    OnlySource s q r.queue ∧ ∃ l before, S s = r.expired ++ (r.result.toList ++ l) ∧
      (befores s = none → l = [] ∨ r.result = none → before = none) ∧
      SourcesLinked r.queue (Function.update befores s before) (Function.update S s l) := by
  obtain ⟨r₁, hr₁, rfl⟩ := Option.map_eq_some_iff.mp hq
  rw [getWaiting] at hr₁
  split_ifs at hr₁ with hmine
  · have hlinked := h.linked s
    have hlt : ∀ a ∈ S s, a < q.fresh := fun a ha =>
      h.below a (PacketLinks.isSome_of_ofSource (hlinked.ofSource a ha))
    obtain ⟨honly, l, before, hS, hlinked', hbefore, hnone⟩ :=
      getWaitingOf_spec hlinked (h.stale s) hlt hr₁
    cases hresult : r₁.result with
    | none =>
        rw [hresult] at hbefore hnone
        refine ⟨honly, l, before, by rw [hS, hresult], hnone, h.update honly hlinked' ?_⟩
        rcases hbefore with hstale | rfl
        · exact hstale
        · exact stale_none _
    | some a =>
        rw [hresult] at hbefore hS hnone
        have hal : a ∈ S s := by
          rw [hS]
          simp
        have hnot : a ∉ l := by
          have hnodup := hlinked.nodup
          rw [hS, Option.toList_some, List.singleton_append] at hnodup
          exact (List.nodup_cons.mp (List.nodup_append.mp hnodup).2.1).1
        have hof : r₁.queue.links.packet a = none ∨ r₁.queue.links.ofSource s a = true := by
          obtain heq | ⟨-, hnone⟩ := honly.packet a
          · rw [PacketLinks.ofSource_congr heq]
            exact Or.inr (hlinked.ofSource a hal)
          · exact Or.inl hnone
        obtain ⟨honly', hlinked''⟩ := hlinked'.deleteLink hnot hof
        refine ⟨honly.trans honly', l, before, hS, hnone,
          h.update (honly.trans honly') hlinked'' ?_⟩
        -- the link is deleted, and a pointer to it leads nowhere then
        rcases hbefore with hstale | rfl
        · exact hstale.of_onlySource honly'
        · rintro b ⟨⟩
          refine ⟨?_, Function.update_self ..⟩
          rw [Option.elim_some, honly'.fresh, honly.fresh]
          exact hlt a hal
  · cases hr₁
    refine ⟨.refl s q, S s, befores s, rfl, fun hnone _ => hnone, ?_⟩
    rw [Function.update_eq_self, Function.update_eq_self]
    exact h

end ReceptionQueue
