/-
# Queries on the reception queue

What `getWaiting` and `getData` do to the global queue and to those of all sources, from a state
in which all of them are in order.

* `Passing` : the queues while old packets expire from the front;
* `Passing.getWaitingOfAll` : a source unspecific query always leaves them in order;
* `QueryKeeps` : when a source specific query does;
* `Passing.expiredOf` : the old packets of the source leave both of their queues;
* `Passing.getWaiting_of` : a query with `QueryKeeps` returns and leaves the queues in order.
-/
import CcRtp.ReceptionLists

namespace ReceptionQueue

variable {q q' : ReceptionQueue} {s a b link : ℕ} {before first last : Option ℕ}
  {l l' l₁ l₂ S : List ℕ}

/-- Links that are still there are of the sources that they were of. -/
theorem OnlySource.filter_eq (honly : OnlySource s q q')
    (hlive : ∀ a ∈ l, (q'.links.packet a).isSome = true) (s' : ℕ) :
    l.filter (q'.links.ofSource s') = l.filter (q.links.ofSource s') := by
  apply List.filter_congr
  intro a ha
  exact PacketLinks.ofSource_congr (honly.packet_of_isSome (hlive a ha))

/-- The old packets at the front of a list are counted. -/
theorem countOld_eq {h : PacketLinks} {next : ℕ → Option ℕ} {old : ℕ → Bool} :
    ∀ {rounds : ℕ} {p : Option ℕ}, Segment (follow next) p l none →
      (∀ a ∈ l, (h.packet a).isSome = true) → l.length ≤ rounds →
      countOld h next old rounds p = some ((l.takeWhile old).length, (l.dropWhile old).head?) := by
  intro rounds p hseg hlive hlen
  refine hseg.loop_induction (motive := fun rounds p l => (∀ a ∈ l, (h.packet a).isSome = true) →
    countOld h next old rounds p = some ((l.takeWhile old).length, (l.dropWhile old).head?))
    ?_ ?_ hlen hlive
  · intro rounds _
    cases rounds <;> rfl
  · intro rounds a p l hp ih hlive
    rw [follow_apply, Option.some_inj] at hp
    obtain ⟨n, hn⟩ := Option.isSome_iff_exists.mp (hlive a List.mem_cons_self)
    rw [countOld, hn, Option.bind_some]
    by_cases hold : old a = true
    · rw [if_pos hold, hp, ih (fun b hb => hlive b (List.mem_cons_of_mem a hb)),
        List.takeWhile_cons_of_pos hold, List.dropWhile_cons_of_pos hold]
      rfl
    · rw [if_neg hold, List.takeWhile_cons_of_neg hold, List.dropWhile_cons_of_neg hold]
      rfl

/-! ## Source unspecific queries -/

/-- The first packet of its source leaves the queue of the source. -/
theorem unlinkFromSource_spec (h : SourceLinked q s before (a :: S)) :
    ∃ q', q.unlinkFromSource a s = some q' ∧ OnlySource s q q' ∧ SourceLinked q' s none S ∧
      q'.links.packet = q.links.packet ∧ q'.links.next = q.links.next ∧
      q'.links.prev = q.links.prev ∧ q'.recvFirst = q.recvFirst ∧ q'.recvLast = q.recvLast := by
  obtain ⟨r, -, hnext, -, hrest⟩ := piece_cons.mp h.piece
  rw [follow_apply, Option.some_inj] at hnext
  rw [unlinkFromSource]
  cases S with
  | nil =>
      have hnone : q.links.srcNext a = none := hnext.trans (piece_nil.mp hrest).1
      rw [if_pos hnone]
      refine ⟨_, rfl, OnlySource.of_sameSources (fun s' hs' => ?_) rfl (.refl _), ?_, rfl, rfl, rfl,
        rfl, rfl⟩
      · rw [setLast_sources_of_ne _ _ _ hs', setFirst_sources_of_ne _ _ _ hs']
      · exact ⟨List.nodup_nil, fun _ hb => absurd hb List.not_mem_nil, piece_nil.mpr (by simp)⟩
  | cons b S =>
      have hsome : q.links.srcNext a = some b := hnext.trans hrest.first_eq
      rw [hsome, if_neg (Option.some_ne_none b)]
      have htail : SourceLinked (q.setFirst s (some b)) s (some a) (b :: S) :=
        h.tail (.refl _) (by simp [hsome]) (by simp)
      have honly₁ : OnlySource s q (q.setFirst s (some b)) :=
        OnlySource.of_sameSources (fun s' hs' => setFirst_sources_of_ne _ _ _ hs') rfl (.refl _)
      obtain ⟨honly₂, hlinked⟩ := htail.resetFirst
      have hb : (q.links.packet b).isSome = true :=
        PacketLinks.isSome_of_ofSource (h.ofSource b (List.mem_cons_of_mem a List.mem_cons_self))
      rw [PacketLinks.setSrcPrev_some hb]
      exact ⟨_, rfl, honly₁.trans honly₂, hlinked, rfl, rfl, rfl, rfl, rfl⟩

/-- The first packet of all leaves the queue of its source. -/
theorem SourcesLinked.unlinkFromSource
    (h : SourcesLinked q (fun _ => none) (fun s => (a :: l).filter (q.links.ofSource s)))
    {n : WaitingPacket} (hn : q.links.packet a = some n) :
    ∃ q', q.unlinkFromSource a n.sourceLink = some q' ∧ OnlySource n.sourceLink q q' ∧
      SourcesLinked q' (fun _ => none) (fun s => l.filter (q.links.ofSource s)) ∧
      q'.links.packet = q.links.packet ∧ q'.links.next = q.links.next ∧
      q'.links.prev = q.links.prev ∧ q'.recvFirst = q.recvFirst ∧ q'.recvLast = q.recvLast := by
  have hof : q.links.ofSource n.sourceLink a = true := by
    rw [PacketLinks.ofSource, hn]
    exact decide_eq_true rfl
  have hsrc := h.linked n.sourceLink
  rw [List.filter_cons_of_pos hof] at hsrc
  obtain ⟨q', hq', honly, hlinked, hpacket, hnext, hprev, hfirst, hlast⟩ :=
    unlinkFromSource_spec hsrc
  refine ⟨q', hq', honly, ?_, hpacket, hnext, hprev, hfirst, hlast⟩
  refine (h.update honly hlinked (stale_none _)).congr (fun s => ?_) (fun s => ?_)
  · rcases eq_or_ne s n.sourceLink with rfl | hs
    · rw [Function.update_self]
    · rw [Function.update_of_ne hs]
  · rcases eq_or_ne s n.sourceLink with rfl | hs
    · rw [Function.update_self]
    · have hnot : ¬ q.links.ofSource s a = true :=
        fun h' => hs (PacketLinks.ofSource_unique h' hof)
      rw [Function.update_of_ne hs, List.filter_cons_of_neg hnot]

/-- A link that is in no queue is deleted. -/
theorem SourcesLinked.deleteLink {befores : ℕ → Option ℕ} {S : ℕ → List ℕ}
    (h : SourcesLinked q befores S) (ha : ∀ s, a ∉ S s) :
    SourcesLinked (q.deleteLink a) befores S := by
  cases hn : q.links.packet a with
  | none =>
      obtain ⟨honly, hlinked⟩ := (h.linked 0).deleteLink (ha 0) (Or.inl hn)
      refine (h.update honly hlinked ((h.stale 0).of_onlySource honly)).congr (fun s => ?_)
        (fun s => ?_)
      · rw [Function.update_eq_self]
      · rw [Function.update_eq_self]
  | some n =>
      have hof : q.links.ofSource n.sourceLink a = true := by
        rw [PacketLinks.ofSource, hn]
        exact decide_eq_true rfl
      obtain ⟨honly, hlinked⟩ := (h.linked _).deleteLink (ha _) (Or.inr hof)
      refine (h.update honly hlinked ((h.stale _).of_onlySource honly)).congr (fun s => ?_)
        (fun s => ?_)
      · rw [Function.update_eq_self]
      · rw [Function.update_eq_self]

/-- The queues while old packets expire: the first packet of all still links back to the last
one that expired. -/
structure Passing (q : ReceptionQueue) (before : Option ℕ) (l : List ℕ) : Prop where
  global : q.links.GlobalLinked before q.recvFirst q.recvLast l
  sources : SourcesLinked q (fun _ => none) (fun s => l.filter (q.links.ofSource s))

/-- A link outside the queue is deleted. -/
theorem Passing.deleteLink (h : Passing q before l) (ha : a ∉ l) :
    Passing (q.deleteLink a) before l where
  global := h.global.delete ha
  sources := by
    have hnot : ∀ s, a ∉ l.filter (q.links.ofSource s) :=
      fun s hmem => ha (List.mem_filter.mp hmem).1
    refine (h.sources.deleteLink hnot).congr (fun _ => rfl) (fun s => ?_)
    apply List.filter_congr
    intro b hb
    apply PacketLinks.ofSource_congr
    refine Function.update_of_ne ?_ ..
    rintro rfl
    exact ha hb

/-- An old packet expires. -/
theorem Passing.expireFirst (h : Passing q before (a :: l)) :
    ∃ q', q.expireFirst = some (a, q') ∧ Passing q' (some a) l ∧
      ∀ b ≠ a, q'.links.packet b = q.links.packet b := by
  have hfirst := h.global.piece.first_eq
  have ha := h.global.live a List.mem_cons_self
  obtain ⟨n, hn⟩ := Option.isSome_iff_exists.mp ha
  obtain ⟨hnot, hnodup⟩ := List.nodup_cons.mp h.global.nodup
  obtain ⟨r, -, hnext, -, hrest⟩ := piece_cons.mp h.global.piece
  rw [follow_apply, Option.some_inj] at hnext
  obtain ⟨q', hq', -, hsrc, hpacket', hnext', hprev', hfirst', hlast'⟩ :=
    (h.sources.setEnds (q.links.next a) q.recvLast).unlinkFromSource hn
  have hpass : Passing q' (some a) l := by
    refine ⟨⟨hnodup, fun b hb => ?_, ?_⟩, hsrc.congr (fun _ => rfl) (fun s => ?_)⟩
    · rw [hpacket']
      exact h.global.live b (List.mem_cons_of_mem a hb)
    · rw [hnext', hprev', hfirst', hlast', setEnds_recvFirst, setEnds_recvLast, hnext]
      exact hrest
    · exact List.filter_congr (fun b _ => PacketLinks.ofSource_congr (congrFun hpacket' b))
  refine ⟨_, ?_, hpass.deleteLink hnot, fun b hb => ?_⟩
  · rw [ReceptionQueue.expireFirst, hfirst, PacketLinks.deref_some ha, Option.bind_some, hn,
      Option.bind_some, hq', Option.map_some]
  · exact (Function.update_of_ne hb ..).trans (congrFun hpacket' b)

/-- Old packets expire, from the front of the queue. -/
theorem Passing.expireLoop :
    ∀ {q : ReceptionQueue} {before : Option ℕ}, Passing q before (l₁ ++ l₂) →
      ∃ q' before', expireLoop l₁.length q = some (l₁, q') ∧ Passing q' before' l₂ ∧
        ∀ b ∉ l₁, q'.links.packet b = q.links.packet b := by
  induction l₁ with
  | nil =>
      intro q before h
      exact ⟨q, before, rfl, h, fun _ _ => rfl⟩
  | cons a l₁ ih =>
      intro q before h
      obtain ⟨q₁, hq₁, h₁, hpacket₁⟩ := h.expireFirst
      obtain ⟨q', before', hq', h', hpacket'⟩ := ih h₁
      refine ⟨q', before', ?_, h', fun b hb => ?_⟩
      · rw [List.length_cons, ReceptionQueue.expireLoop, hq₁, Option.bind_some, hq',
          Option.map_some]
      · obtain ⟨hba, hbl⟩ := not_or.mp (List.mem_cons.not.mp hb)
        rw [hpacket' b hbl, hpacket₁ b hba]

/-- The first packet of all is taken. -/
theorem Passing.takeFirst (h : Passing q before (a :: l)) {n : WaitingPacket}
    (hn : q.links.packet a = some n) :
    ∃ q', q.takeFirst a n.sourceLink = some q' ∧ Passing q' none l ∧
      q'.links.packet = q.links.packet := by
  obtain ⟨hnot, hnodup⟩ := List.nodup_cons.mp h.global.nodup
  obtain ⟨r, -, hnext, -, hrest⟩ := piece_cons.mp h.global.piece
  rw [follow_apply, Option.some_inj] at hnext
  have hr : r = l.head? := by rw [hrest.first_eq_or, Option.or_none]
  subst hr
  have hlive : ∀ c ∈ l, (q.links.packet c).isSome = true :=
    fun c hc => h.global.live c (List.mem_cons_of_mem a hc)
  obtain ⟨h₁, hh₁, hpacket₁, hnext₁, hset₁, hother₁⟩ := PacketLinks.setPrevOf_eq (v := none)
    (fun c (hc : c ∈ q.links.next a) => hlive c (List.mem_of_mem_head? (hnext ▸ hc)))
  have hsame := PacketLinks.sameSources_setPrevOf hh₁
  have hsrc := (h.sources.setLinks hsame).setEnds (q.links.next a)
    (if q.links.next a = none then none else q.recvLast)
  have hfilter : ∀ s, (a :: l).filter (h₁.ofSource s) = (a :: l).filter (q.links.ofSource s) :=
    fun s => List.filter_congr (fun b _ => PacketLinks.ofSource_congr (congrFun hsame.packet b))
  have hn₁ : h₁.packet a = some n := by rw [hpacket₁, hn]
  obtain ⟨q', hq', -, hsrc', hpacket', hnext', hprev', hfirst', hlast'⟩ :=
    (hsrc.congr (fun _ => rfl) hfilter).unlinkFromSource hn₁
  refine ⟨q', ?_, ⟨⟨hnodup, fun b hb => ?_, ?_⟩, hsrc'.congr (fun _ => rfl) (fun s => ?_)⟩,
    hpacket'.trans hpacket₁⟩
  · rw [ReceptionQueue.takeFirst, hh₁]
    exact hq'
  · rw [hpacket']
    exact (congrArg Option.isSome (congrFun hpacket₁ b)).trans (hlive b hb)
  · have hlast : (if q.links.next a = none then none else q.recvLast) = l.getLast?.or none := by
      rw [hnext]
      cases l with
      | nil => rfl
      | cons b l =>
          rw [List.head?_cons, if_neg (Option.some_ne_none b), hrest.last_eq_or]
          exact getLast?_or_of_ne_nil (List.cons_ne_nil b l) ..
    rw [hnext', hprev', hfirst', hlast', setEnds_recvFirst, setEnds_recvLast, hlast, hnext]
    apply hrest.retarget_before hnodup
    · intro c hc
      exact congrArg some (hset₁ c (by rw [hnext]; exact hc))
    · intro c _ hc
      exact congrArg some (hother₁ c (by rw [hnext]; exact hc))
    · intro c _
      exact congrArg some (congrFun hnext₁ c)
  · exact List.filter_congr (fun b _ => PacketLinks.ofSource_congr (congrFun hpacket' b))

/-- The end of a source unspecific query. -/
theorem Passing.finish (h : Passing q before l) (timestamp : BitVec 32) :
    ∃ result q' l', q.finish timestamp l.head? = some (result, q') ∧
      result = l.head?.filter (fun a => timestamp ≥ q.links.timestampOf a) ∧
      l = result.toList ++ l' ∧ Passing q' none l' ∧ q'.links.packet = q.links.packet := by
  have hfirst := h.global.piece.first_eq_or
  rw [Option.or_none] at hfirst
  rw [ReceptionQueue.finish, hfirst]
  cases l with
  | nil =>
      have hnil : Passing (q.setEnds none none) none [] :=
        ⟨⟨List.nodup_nil, fun _ ha => absurd ha List.not_mem_nil, piece_nil.mpr ⟨rfl, rfl⟩⟩,
          h.sources.setEnds none none⟩
      exact ⟨none, _, [], rfl, rfl, rfl, hnil, rfl⟩
  | cons a l =>
      have ha := h.global.live a List.mem_cons_self
      obtain ⟨n, hn⟩ := Option.isSome_iff_exists.mp ha
      rw [List.head?_cons]
      dsimp only
      have hstamp : q.links.timestampOf a = n.timestamp := by
        rw [PacketLinks.timestampOf, hn]
        rfl
      rw [hn, Option.bind_some]
      split_ifs with hnewer
      · -- there are only newer packets in the queue
        rw [PacketLinks.setPrev_some ha]
        refine ⟨none, _, a :: l, rfl, ?_, rfl, ⟨⟨h.global.nodup, h.global.live, ?_⟩, ?_⟩, rfl⟩
        · rw [Option.filter_some, hstamp, if_neg (by simpa using hnewer)]
        · apply (h.global.piece.redirect_before none (List.nodup_cons.mp h.global.nodup).1).congr
          · exact fun _ _ => rfl
          · intro c _
            by_cases hca : c = a
            · subst hca
              simp [follow_apply]
            · simp [follow_apply, Function.update_of_ne hca]
        · exact h.sources.setLinks ⟨rfl, rfl, rfl⟩
      · obtain ⟨q', hq', hpass, hpacket⟩ := h.takeFirst hn
        refine ⟨some a, q', l, Option.map_eq_some_iff.mpr ⟨q', hq', rfl⟩, ?_, rfl, hpass, hpacket⟩
        rw [Option.filter_some, hstamp, if_pos (by simpa using hnewer)]

/-- **A source unspecific query** takes packets from the front of the queue. -/
theorem Passing.getWaitingOfAll (h : Passing q none l) (timestamp : BitVec 32)
    (delayed : ℕ → Bool) :
    ∃ r l', q.getWaitingOfAll timestamp delayed = some r ∧
      r.expired = l.takeWhile (isOld q.links timestamp delayed) ∧
      r.result = (l.dropWhile (isOld q.links timestamp delayed)).head?.filter
        (fun a => timestamp ≥ q.links.timestampOf a) ∧
      l = r.expired ++ (r.result.toList ++ l') ∧ Passing r.queue none l' ∧
      ∀ a ∉ r.expired, r.queue.links.packet a = q.links.packet a := by
  set old := isOld q.links timestamp delayed with hold
  have hlen : l.length ≤ q.fresh := length_le_of_nodup_of_lt h.global.nodup
    (fun a ha => h.sources.below a (h.global.live a ha))
  have hcount : countOld q.links q.links.next old q.fresh q.recvFirst
      = some ((l.takeWhile old).length, (l.dropWhile old).head?) :=
    countOld_eq h.global.piece.forward h.global.live hlen
  have hnodup := h.global.nodup
  rw [← List.takeWhile_append_dropWhile (p := old) (l := l)] at h hnodup
  obtain ⟨q₁, before₁, hq₁, h₁, hpacket₁⟩ := h.expireLoop
  obtain ⟨result, q₂, l', hq₂, hresult, hl', h₂, hpacket₂⟩ := h₁.finish timestamp
  refine ⟨⟨result, l.takeWhile old, q₂⟩, l', ?_, rfl, ?_, ?_, h₂, fun a ha => ?_⟩
  · rw [ReceptionQueue.getWaitingOfAll, ← hold, hcount, Option.bind_some]
    dsimp only
    rw [hq₁, Option.bind_some]
    dsimp only
    rw [hq₂]
    rfl
  · rw [hresult]
    cases hhead : (l.dropWhile old).head? with
    | none => rfl
    | some a =>
        -- it has not expired, so its timestamp is the one of before
        have hnot : a ∉ l.takeWhile old := fun ha =>
          (List.nodup_append.mp hnodup).2.2 a ha a (List.mem_of_mem_head? hhead) rfl
        rw [Option.filter_some, Option.filter_some, PacketLinks.timestampOf, hpacket₁ a hnot]
        rfl
  · rw [← hl', List.takeWhile_append_dropWhile]
  · rw [hpacket₂, hpacket₁ a ha]

/-! ## Source specific queries -/

/-- A packet of the source expires, wherever it is in the global queue. -/
theorem expireOfSource_global (hg : q.links.GlobalLinked none first last l)
    (hfirst : (q.sources s).first = some a) (ha : a ∈ l) :
    ∃ q', q.expireOfSource s = some (a, decide (l.erase a ≠ []), q') ∧
      q'.links.GlobalLinked none (l.erase a).head? (l.erase a).getLast? (l.erase a) ∧
      q'.recvFirst = q.recvFirst ∧ q'.recvLast = q.recvLast ∧
      ∀ b ≠ a, q'.links.packet b = q.links.packet b := by
  obtain ⟨l₁, l₂, rfl⟩ := List.append_of_mem ha
  have hnodup := hg.nodup
  rw [List.nodup_append, List.nodup_cons] at hnodup
  have ha₁ : a ∉ l₁ := fun h => hnodup.2.2 a h a List.mem_cons_self rfl
  have herase : (l₁ ++ a :: l₂).erase a = l₁ ++ l₂ := by
    rw [List.erase_append_right _ ha₁, List.erase_cons_head]
  have hnot : a ∉ l₁ ++ l₂ := by
    rw [List.mem_append, not_or]
    exact ⟨ha₁, hnodup.2.1.1⟩
  have hlive := hg.live a ha
  obtain ⟨hnext, hprev⟩ := hg.links
  rw [Option.or_none] at hprev
  obtain ⟨h', hh', hsame, hg'⟩ := hg.unlink
  have hflag : ((q.links.prev a).isSome || (q.links.next a).isSome) = decide (l₁ ++ l₂ ≠ []) := by
    rw [hnext, hprev]
    cases l₂ with
    | nil => cases l₁ using List.reverseRecOn <;> simp
    | cons b l₂ => simp
  rw [herase]
  refine ⟨((q.setFirst s (q.links.srcNext a)).setLinks h').deleteLink a, ?_, hg'.delete hnot, rfl,
    rfl, fun b hb => (Function.update_of_ne hb ..).trans (congrFun hsame.packet b)⟩
  rw [ReceptionQueue.expireOfSource, hfirst, PacketLinks.deref_some hlive, Option.bind_some, hh',
    Option.map_some, hflag]

/-- Packets of the source expire. -/
theorem expireLoopOfSource_global {O R : List ℕ} :
    ∀ {q : ReceptionQueue} {before : Option ℕ} {l : List ℕ} (nonempty : Bool),
      q.links.GlobalLinked none l.head? l.getLast? l → SourceLinked q s before (O ++ R) →
      (∀ a ∈ O, a ∈ l) →
      ∃ nonempty' q', expireLoopOfSource s O.length nonempty q = some (O, nonempty', q') ∧
        q'.links.GlobalLinked none (l.diff O).head? (l.diff O).getLast? (l.diff O) ∧
        (O ≠ [] → nonempty' = decide (l.diff O ≠ [])) ∧
        q'.recvFirst = q.recvFirst ∧ q'.recvLast = q.recvLast ∧
        ∀ b ∉ O, q'.links.packet b = q.links.packet b := by
  induction O with
  | nil =>
      intro q before l nonempty hg _ _
      exact ⟨nonempty, q, rfl, hg, fun h => absurd rfl h, rfl, rfl, fun _ _ => rfl⟩
  | cons a O ih =>
      intro q before l nonempty hg hsrc hO
      obtain ⟨q₁, hq₁, hg₁, hfirst₁, hlast₁, hpacket₁⟩ :=
        expireOfSource_global hg hsrc.piece.first_eq (hO a List.mem_cons_self)
      obtain ⟨-, -, l', hl', hsrc₁⟩ := expireOfSource_spec hsrc hq₁
      cases hl'
      have hO₁ : ∀ b ∈ O, b ∈ l.erase a := by
        intro b hb
        have hne : b ≠ a := by
          rintro rfl
          exact (List.nodup_cons.mp hsrc.nodup).1 (List.mem_append_left R hb)
        exact (List.mem_erase_of_ne hne).mpr (hO b (List.mem_cons_of_mem a hb))
      obtain ⟨nonempty', q', hq', hg', hflag, hfirst', hlast', hpacket'⟩ := ih _ hg₁ hsrc₁ hO₁
      refine ⟨nonempty', q', ?_, ?_, ?_, hfirst'.trans hfirst₁, hlast'.trans hlast₁, fun b hb => ?_⟩
      · rw [List.length_cons, expireLoopOfSource, hq₁, Option.bind_some, hq', Option.map_some]
      · rw [List.diff_cons]
        exact hg'
      · intro _
        rw [List.diff_cons]
        cases O with
        | nil =>
            cases hq'
            rfl
        | cons b O => exact hflag (List.cons_ne_nil b O)
      · obtain ⟨hba, hbO⟩ := not_or.mp (List.mem_cons.not.mp hb)
        rw [hpacket' b hbO, hpacket₁ b hba]

/-- The first packet of all stays the first. -/
theorem head?_diff {O : List ℕ} (hnodup : l.Nodup) (hfirst : ∀ a ∈ l.head?, a ∉ O) :
    (l.diff O).head? = l.head? := by
  rw [hnodup.sdiff_eq_filter]
  cases l with
  | nil => rfl
  | cons a l =>
      rw [List.filter_cons_of_pos (by simpa using hfirst a rfl)]
      rfl

/-- The last packet of all stays the last. -/
theorem getLast?_diff {O : List ℕ} (hnodup : l.Nodup) (hlast : ∀ a ∈ l.getLast?, a ∉ O) :
    (l.diff O).getLast? = l.getLast? := by
  rw [hnodup.sdiff_eq_filter]
  obtain rfl | ⟨l', a, rfl⟩ := List.eq_nil_or_concat' l
  · rfl
  · rw [List.getLast?_concat] at hlast ⊢
    rw [List.filter_append, List.filter_cons_of_pos (by simpa using hlast a rfl), List.filter_nil,
      List.getLast?_concat]

/-- The last packet of all is the last one of its source, so others of the source do not come
behind it. -/
theorem notMem_of_mem_getLast? {p : ℕ → Bool} {O R : List ℕ} (hnodup : l.Nodup)
    (hsplit : l.filter p = O ++ R) (hR : R ≠ []) : ∀ a ∈ l.getLast?, a ∉ O := by
  intro a ha haO
  obtain ⟨l', rfl⟩ := List.getLast?_eq_some_iff.mp ha
  have hpa : p a = true := by
    have hmem : a ∈ (l' ++ [a]).filter p := by
      rw [hsplit]
      exact List.mem_append_left R haO
    exact (List.mem_filter.mp hmem).2
  rw [List.filter_append, List.filter_cons_of_pos hpa, List.filter_nil] at hsplit
  obtain ⟨R', b, rfl⟩ := (List.eq_nil_or_concat' R).resolve_left hR
  rw [← List.append_assoc] at hsplit
  obtain ⟨hO, hab⟩ := List.append_inj' hsplit rfl
  cases hab
  have hnot : a ∉ l' := fun h => (List.nodup_append.mp hnodup).2.2 a h a List.mem_cons_self rfl
  have hmem : a ∈ l'.filter p := by
    rw [hO]
    exact List.mem_append_left R' haO
  exact hnot (List.mem_filter.mp hmem).1

/-- Where the first packet of the source that does not expire is in the global queue. -/
theorem split_of_filter_eq {p : ℕ → Bool} {O R : List ℕ} (hnodup : l.Nodup)
    (hsplit : l.filter p = O ++ a :: R) :
    ∃ l₁ l₂, l = l₁ ++ a :: l₂ ∧ a ∉ l₁ ∧ l.takeWhile (fun b => b ≠ a) = l₁ ∧
      l.diff O = l₁.filter (fun b => b ∉ O) ++ a :: l₂.filter (fun b => b ∉ O) := by
  have haO : a ∉ O := by
    have hnodup' := hnodup.filter p
    rw [hsplit] at hnodup'
    exact fun h => (List.nodup_append.mp hnodup').2.2 a h a List.mem_cons_self rfl
  have hal : a ∈ l := by
    have hmem : a ∈ l.filter p := by
      rw [hsplit]
      simp
    exact (List.mem_filter.mp hmem).1
  obtain ⟨l₁, l₂, rfl⟩ := List.append_of_mem hal
  have ha₁ : a ∉ l₁ := fun h => (List.nodup_append.mp hnodup).2.2 a h a List.mem_cons_self rfl
  refine ⟨l₁, l₂, rfl, ha₁, ?_, ?_⟩
  · rw [List.takeWhile_append_of_pos (fun b hb => by
      simpa using fun heq : b = a => ha₁ (heq ▸ hb)), List.takeWhile_cons_of_neg (by simp),
      List.append_nil]
  · rw [hnodup.sdiff_eq_filter, List.filter_append, List.filter_cons_of_pos (by simpa using haO)]

/-- What a source specific query needs to keep the lists in order, when of the packets `l` it
lets `O` expire and those behind them of the source are given: the ends of the global queue do
not expire, unless the query resets them, and no packet is taken with another one of the source
behind it. -/
def QueryKeeps (h : PacketLinks) (timestamp : BitVec 32) (l O : List ℕ) : List ℕ → Prop
  | [] => l = O ∨ (∀ b ∈ l.head?, b ∉ O) ∧ ∀ b ∈ l.getLast?, b ∉ O
  | a :: R =>
      if timestamp < (h.packet a).elim 0 WaitingPacket.timestamp then ∀ b ∈ l.head?, b ∉ O
      else R = [] ∧ ((∀ b ∈ l.head?, b ∉ O) ∨ l.takeWhile (fun b => b ≠ a) = O)

/-- The packet selected is taken out of the global queue, and the ends of the queue are set. -/
theorem unlinkSelected_global (hg : q.links.GlobalLinked none first last (l₁ ++ a :: l₂))
    (hfirst : l₁ ≠ [] → q.recvFirst = l₁.head?) (hlast : l₂ ≠ [] → q.recvLast = l₂.getLast?) :
    ∃ q', q.unlinkSelected a = some q' ∧
      q'.links.GlobalLinked none q'.recvFirst q'.recvLast (l₁ ++ l₂) ∧
      PacketLinks.SameSources q.links q'.links ∧ q'.sources = q.sources := by
  obtain ⟨hnext, hprev⟩ := hg.links
  rw [Option.or_none] at hprev
  obtain ⟨h', hh', hsame, hg'⟩ := hg.unlink
  refine ⟨_, Option.map_eq_some_iff.mpr ⟨h', hh', rfl⟩, ?_, hsame, rfl⟩
  have hfirst' : (if q.links.prev a = none then q.links.next a else q.recvFirst)
      = (l₁ ++ l₂).head? := by
    rw [hprev, hnext]
    obtain rfl | ⟨l', c, hl'⟩ := List.eq_nil_or_concat' l₁
    · rfl
    · have hne : l₁ ≠ [] := by
        rw [hl']
        simp
      rw [if_neg (by rw [hl', List.getLast?_concat]; exact Option.some_ne_none c), hfirst hne]
      cases l₁ with
      | nil => exact absurd rfl hne
      | cons b l₁ => rfl
  have hlast' : (if q.links.next a = none then q.links.prev a else q.recvLast)
      = (l₁ ++ l₂).getLast? := by
    rw [hprev, hnext]
    cases l₂ with
    | nil =>
        rw [List.append_nil]
        rfl
    | cons b l₂ =>
        rw [List.head?_cons, if_neg (Option.some_ne_none b), hlast (List.cons_ne_nil b l₂),
          List.getLast?_append_cons]
  rw [setEnds_recvFirst, setEnds_recvLast, hfirst', hlast']
  exact hg'

section Finish

variable {O R : List ℕ} {timestamp : BitVec 32} {nonempty : Bool}
  (hg : q.links.GlobalLinked none (l.diff O).head? (l.diff O).getLast? (l.diff O))
  (hnodup : l.Nodup) (hfirst : q.recvFirst = l.head?) (hlast : q.recvLast = l.getLast?)

include hg hnodup hfirst hlast

/-- No packet of the source is left. -/
theorem finishOfSource_nil (hnone : (q.sources s).first = none)
    (hflag : nonempty = decide (l.diff O ≠ []))
    (hkeeps : QueryKeeps q.links timestamp l O []) :
    ∃ q', q.finishOfSource s timestamp nonempty = some (none, q') ∧
      q'.links.GlobalLinked none q'.recvFirst q'.recvLast (l.diff O) := by
  rw [finishOfSource, hnone]
  refine ⟨_, rfl, ?_⟩
  by_cases hempty : l.diff O = []
  · have hfalse : nonempty = false := by
      rw [hflag]
      simpa using hempty
    rw [hempty] at hg ⊢
    rw [hfalse, if_neg Bool.false_ne_true]
    exact hg
  · have htrue : nonempty = true := by
      rw [hflag]
      simpa using hempty
    rw [htrue, if_pos rfl]
    rcases hkeeps with rfl | ⟨hhead, hend⟩
    · refine absurd ?_ hempty
      rw [hnodup.sdiff_eq_filter]
      simp
    · rw [head?_diff hnodup hhead, getLast?_diff hnodup hend, ← hfirst, ← hlast] at hg
      exact hg

/-- There are only newer packets. -/
theorem finishOfSource_newer {p : ℕ → Bool} (hsome : (q.sources s).first = some a)
    {n : WaitingPacket}
    (hn : q.links.packet a = some n) (hlt : timestamp < n.timestamp)
    (hsplit : l.filter p = O ++ a :: R) (hkeeps : QueryKeeps q.links timestamp l O (a :: R)) :
    ∃ q', q.finishOfSource s timestamp nonempty = some (none, q') ∧
      q'.links.GlobalLinked none q'.recvFirst q'.recvLast (l.diff O) := by
  rw [QueryKeeps, hn, Option.elim_some, if_pos hlt] at hkeeps
  rw [finishOfSource, hsome]
  dsimp only
  rw [hn, Option.bind_some, if_pos hlt, PacketLinks.setSrcPrev_some (by rw [hn]; rfl)]
  refine ⟨_, rfl, ?_⟩
  rw [head?_diff hnodup hkeeps,
    getLast?_diff hnodup (notMem_of_mem_getLast? hnodup hsplit (List.cons_ne_nil a R)), ← hfirst,
    ← hlast] at hg
  exact hg.congr (fun _ _ => rfl) rfl rfl

/-- The first packet of the source is the one asked for. -/
theorem finishOfSource_found {p : ℕ → Bool} (hsrc : SourceLinked q s before (a :: R))
    {n : WaitingPacket} (hn : q.links.packet a = some n) (hlt : ¬ timestamp < n.timestamp)
    (hsplit : l.filter p = O ++ a :: R) (hkeeps : QueryKeeps q.links timestamp l O (a :: R)) :
    R = [] ∧ ∃ q', q.finishOfSource s timestamp nonempty = some (some a, q') ∧
      q'.links.GlobalLinked none q'.recvFirst q'.recvLast (l.diff (O ++ [a])) := by
  rw [QueryKeeps, hn, Option.elim_some, if_neg hlt] at hkeeps
  obtain ⟨rfl, hkeeps⟩ := hkeeps
  refine ⟨rfl, ?_⟩
  -- what is left of the global queue, before the packet and behind it
  obtain ⟨l₁, l₂, rfl, ha₁, htake, hdiff⟩ := split_of_filter_eq hnodup hsplit
  have hhead : l₁.filter (fun b => b ∉ O) ≠ [] →
      q.recvFirst = (l₁.filter (fun b => b ∉ O)).head? := by
    intro hne
    rcases hkeeps with hkeeps | hkeeps
    · rw [hfirst, ← head?_diff hnodup hkeeps, hdiff]
      obtain ⟨c, m, hm⟩ := List.exists_cons_of_ne_nil hne
      rw [hm]
      rfl
    · rw [htake] at hkeeps
      refine absurd (List.filter_eq_nil_iff.mpr (fun b hb => ?_)) hne
      rw [hkeeps] at hb
      simpa using hb
  have hend : l₂.filter (fun b => b ∉ O) ≠ [] →
      q.recvLast = (l₂.filter (fun b => b ∉ O)).getLast? := by
    intro hne
    rw [hlast, ← getLast?_diff hnodup
      (notMem_of_mem_getLast? hnodup hsplit (List.cons_ne_nil a [])), hdiff,
      List.getLast?_append_cons]
    obtain ⟨c, m, hm⟩ := List.exists_cons_of_ne_nil hne
    rw [hm, List.getLast?_cons_cons]
  rw [hdiff] at hg
  obtain ⟨q₁, hq₁, hg₁, hsame, hsources⟩ := unlinkSelected_global hg hhead hend
  have hnext : q₁.links.srcNext a = none := by
    obtain ⟨r, -, hr, -, hrest⟩ := piece_cons.mp hsrc.piece
    rw [hsame.srcNext]
    exact (Option.some_inj.mp hr).trans (piece_nil.mp hrest).1
  have hlist : (l₁ ++ a :: l₂).diff (O ++ [a])
      = l₁.filter (fun b => b ∉ O) ++ l₂.filter (fun b => b ∉ O) := by
    rw [List.diff_append, hdiff, List.diff_cons, List.diff_nil,
      List.erase_append_right _ (fun h => ha₁ (List.mem_filter.mp h).1), List.erase_cons_head]
  refine ⟨(q₁.setFirst s none).setLast s none, ?_, ?_⟩
  · rw [finishOfSource, hsrc.piece.first_eq]
    dsimp only
    rw [hn, Option.bind_some, if_neg hlt, takeOfSource, hq₁, Option.bind_some, if_pos hnext]
    rfl
  · rw [hlist]
    exact hg₁

end Finish

/-- The queues when the old packets `O` of the source have expired, with `R` of the source behind
them. -/
structure ExpiredOf (q₁ : ReceptionQueue) (s : ℕ) (l O R : List ℕ) (nonempty : Bool) : Prop where
  global : q₁.links.GlobalLinked none (l.diff O).head? (l.diff O).getLast? (l.diff O)
  flag : O ≠ [] → nonempty = decide (l.diff O ≠ [])
  recvFirst : q₁.recvFirst = l.head?
  recvLast : q₁.recvLast = l.getLast?
  linked : ∃ before, SourceLinked q₁ s before R

/-- The old packets of the source expire. -/
theorem Passing.expiredOf (h : Passing q none l) {O R : List ℕ} {timestamp : BitVec 32}
    {delayed : ℕ → Bool}
    (hO : (l.filter (q.links.ofSource s)).takeWhile (isOld q.links timestamp delayed) = O)
    (hR : (l.filter (q.links.ofSource s)).dropWhile (isOld q.links timestamp delayed) = R)
    (hnone : (q.sources s).first ≠ none) :
    ∃ q₁ nonempty, ExpiredOf q₁ s l O R nonempty ∧
      (∀ a ∉ O, q₁.links.packet a = q.links.packet a) ∧
      q.getWaitingOf s timestamp delayed
        = (q₁.finishOfSource s timestamp nonempty).map (fun r => ⟨r.1, O, r.2⟩) := by
  have hsplit : l.filter (q.links.ofSource s) = O ++ R := by
    rw [← hO, ← hR, List.takeWhile_append_dropWhile]
  have hsrc := h.sources.linked s
  have hfirst := h.global.piece.first_eq_or
  have hlast := h.global.piece.last_eq_or
  rw [Option.or_none] at hfirst hlast
  have hlen : (l.filter (q.links.ofSource s)).length ≤ q.fresh :=
    length_le_of_nodup_of_lt hsrc.nodup
      (fun a ha => h.sources.below a (PacketLinks.isSome_of_ofSource (hsrc.ofSource a ha)))
  have hcount : countOld q.links q.links.srcNext (isOld q.links timestamp delayed) q.fresh
      (q.sources s).first = some (O.length, R.head?) := by
    rw [countOld_eq hsrc.piece.forward
      (fun a ha => PacketLinks.isSome_of_ofSource (hsrc.ofSource a ha)) hlen, hO, hR]
  have hmem : ∀ a ∈ O, a ∈ l := by
    intro a ha
    have hfilter : a ∈ l.filter (q.links.ofSource s) := by
      rw [hsplit]
      exact List.mem_append_left R ha
    exact (List.mem_filter.mp hfilter).1
  rw [hsplit] at hsrc
  have hg := h.global
  rw [hfirst, hlast] at hg
  obtain ⟨nonempty, q₁, hq₁, hg₁, hflag, hfirst₁, hlast₁, hpacket₁⟩ :=
    expireLoopOfSource_global false hg hsrc hmem
  have hlt : ∀ a ∈ O ++ R, a < q.fresh := fun a ha =>
    h.sources.below a (PacketLinks.isSome_of_ofSource (hsrc.ofSource a ha))
  obtain ⟨-, R', before, heq, hsrc₁, -⟩ := expireLoopOfSource_spec hsrc (stale_none q) hlt hq₁
  obtain rfl : R = R' := List.append_cancel_left heq
  refine ⟨q₁, nonempty, ⟨hg₁, hflag, hfirst₁.trans hfirst, hlast₁.trans hlast, before, hsrc₁⟩,
    hpacket₁, ?_⟩
  rw [ReceptionQueue.getWaitingOf, if_neg hnone, hcount, Option.bind_some]
  dsimp only
  rw [hq₁, Option.bind_some]

/-- **A source specific query that keeps the lists** returns, and what is left of the global
queue is in order. -/
theorem Passing.getWaitingOf (h : Passing q none l) {O R : List ℕ} {timestamp : BitVec 32}
    {delayed : ℕ → Bool}
    (hO : (l.filter (q.links.ofSource s)).takeWhile (isOld q.links timestamp delayed) = O)
    (hR : (l.filter (q.links.ofSource s)).dropWhile (isOld q.links timestamp delayed) = R)
    (hkeeps : QueryKeeps q.links timestamp l O R) :
    ∃ r, q.getWaitingOf s timestamp delayed = some r ∧
      r.queue.links.GlobalLinked none r.queue.recvFirst r.queue.recvLast
        (l.diff (r.expired ++ r.result.toList)) ∧
      (r.result = none ∨ l.filter (q.links.ofSource s) = r.expired ++ r.result.toList) := by
  have hsplit : l.filter (q.links.ofSource s) = O ++ R := by
    rw [← hO, ← hR, List.takeWhile_append_dropWhile]
  have hsrcFirst := (h.sources.linked s).piece.first_eq_or
  rw [Option.or_none, hsplit] at hsrcFirst
  by_cases hnone : (q.sources s).first = none
  · refine ⟨⟨none, [], q⟩, ?_, h.global, Or.inl rfl⟩
    rw [ReceptionQueue.getWaitingOf, if_pos hnone]
  · obtain ⟨q₁, nonempty, ⟨hg₁, hflag, hfirst₁, hlast₁, before, hsrc₁⟩, hpacket₁, heq⟩ :=
      h.expiredOf hO hR hnone
    rw [heq]
    cases R with
    | nil =>
        have hO' : O ≠ [] := by
          rintro rfl
          exact hnone hsrcFirst
        obtain ⟨q₂, hq₂, hg₂⟩ := finishOfSource_nil hg₁ h.global.nodup hfirst₁ hlast₁
          (piece_nil.mp hsrc₁.piece).1 (hflag hO') hkeeps
        rw [hq₂]
        refine ⟨_, rfl, ?_, Or.inl rfl⟩
        rw [Option.toList_none, List.append_nil]
        exact hg₂
    | cons a R =>
        -- the timestamp is the one of before
        have hnodup := (h.sources.linked s).nodup
        rw [hsplit] at hnodup
        have haO : a ∉ O :=
          fun ha => (List.nodup_append.mp hnodup).2.2 a ha a List.mem_cons_self rfl
        have hkeeps₁ : QueryKeeps q₁.links timestamp l O (a :: R) := by
          rw [QueryKeeps, hpacket₁ a haO]
          exact hkeeps
        obtain ⟨n, hn⟩ := Option.isSome_iff_exists.mp
          (PacketLinks.isSome_of_ofSource (hsrc₁.ofSource a List.mem_cons_self))
        by_cases hnewer : timestamp < n.timestamp
        · obtain ⟨q₂, hq₂, hg₂⟩ := finishOfSource_newer hg₁ h.global.nodup hfirst₁ hlast₁
            hsrc₁.piece.first_eq hn hnewer hsplit hkeeps₁
          rw [hq₂]
          refine ⟨_, rfl, ?_, Or.inl rfl⟩
          rw [Option.toList_none, List.append_nil]
          exact hg₂
        · obtain ⟨rfl, q₂, hq₂, hg₂⟩ := finishOfSource_found hg₁ h.global.nodup hfirst₁ hlast₁
            hsrc₁ hn hnewer hsplit hkeeps₁
          rw [hq₂]
          exact ⟨_, rfl, hg₂, Or.inr hsplit⟩

/-! ## Both queries -/

/-- What is left behind the packets that leave. -/
theorem filter_notMem_append {O R : List ℕ} (hnodup : (O ++ R).Nodup) :
    (O ++ R).filter (fun a => a ∉ O) = R := by
  have hleft : O.filter (fun a => a ∉ O) = [] :=
    List.filter_eq_nil_iff.mpr (fun a ha => by simpa using ha)
  have hright : R.filter (fun a => a ∉ O) = R := by
    apply List.filter_eq_self.mpr
    intro a ha
    simpa using fun haO => (List.nodup_append.mp hnodup).2.2 a haO a ha rfl
  rw [List.filter_append, hleft, hright, List.nil_append]

/-- A source unspecific query, with the link deleted. -/
theorem Passing.getData_all (h : Passing q none l) (stamp : BitVec 32) (delayed : ℕ → Bool) :
    ∃ r l', q.getData stamp none delayed = some r ∧ Passing r.queue none l' ∧
      ∀ a, a ∈ l' ↔ a ∈ l ∧ a ∉ r.expired ++ r.result.toList := by
  obtain ⟨r, l', hr, -, -, rfl, hpass, -⟩ := h.getWaitingOfAll stamp delayed
  have hnodup := h.global.nodup
  rw [← List.append_assoc] at hnodup
  refine ⟨_, l', Option.map_eq_some_iff.mpr ⟨r, hr, rfl⟩, ?_, fun a => ?_⟩
  · cases hresult : r.result with
    | none => exact hpass
    | some a =>
        rw [hresult] at hnodup
        refine hpass.deleteLink (fun ha => ?_)
        exact (List.nodup_append.mp hnodup).2.2 a (by simp) a ha rfl
  · have hfilter := filter_notMem_append hnodup
    have hmem : a ∈ l' ↔ a ∈ r.expired ++ r.result.toList ++ l' ∧
        a ∉ r.expired ++ r.result.toList := by
      conv_lhs => rw [← hfilter]
      rw [List.mem_filter, decide_eq_true_iff]
    rw [hmem, List.append_assoc]

/-- A source specific query that keeps the lists, of a source of the queue. -/
theorem Passing.getWaiting_of (h : Passing q none l) {timestamp : BitVec 32} {delayed : ℕ → Bool}
    (hkeeps : QueryKeeps q.links timestamp l
      ((l.filter (q.links.ofSource s)).takeWhile (isOld q.links timestamp delayed))
      ((l.filter (q.links.ofSource s)).dropWhile (isOld q.links timestamp delayed))) :
    ∃ r, q.getWaitingOf s timestamp delayed = some r ∧
      Passing r.queue none (l.filter (fun a => a ∉ r.expired ++ r.result.toList)) := by
  obtain ⟨r, hr, hg, hrest⟩ := h.getWaitingOf rfl rfl hkeeps
  have hnodup := h.global.nodup
  have hsrc := h.sources.linked s
  have hlt : ∀ a ∈ l.filter (q.links.ofSource s), a < q.fresh := fun a ha =>
    h.sources.below a (PacketLinks.isSome_of_ofSource (hsrc.ofSource a ha))
  obtain ⟨honly, S', before, hS, hlinked, -, hbefore⟩ :=
    getWaitingOf_spec hsrc (stale_none q) hlt hr
  have hnone : before = none := by
    apply hbefore rfl
    rcases hrest with hnone | hall
    · exact Or.inr hnone
    · left
      rw [hall, ← List.append_assoc] at hS
      simpa using hS
  subst hnone
  rw [hnodup.sdiff_eq_filter] at hg
  refine ⟨r, hr, hg, (h.sources.update honly hlinked (stale_none _)).congr (fun s' => ?_)
    (fun s' => ?_)⟩
  · rcases eq_or_ne s' s with rfl | hs'
    · rw [Function.update_self]
    · rw [Function.update_of_ne hs']
  · set removed := r.expired ++ r.result.toList with hremoved
    rw [← List.append_assoc, ← hremoved] at hS
    rw [honly.filter_eq hg.live, List.filter_comm]
    rcases eq_or_ne s' s with rfl | hs'
    · have hnodup' := hnodup.filter (q.links.ofSource s')
      rw [Function.update_self, hS]
      rw [hS] at hnodup'
      exact filter_notMem_append hnodup'
    · rw [Function.update_of_ne hs']
      apply List.filter_eq_self.mpr
      intro a ha
      -- what leaves is of the other source
      have hnot : a ∉ removed := by
        intro har
        have haS : a ∈ l.filter (q.links.ofSource s) := by
          rw [hS]
          exact List.mem_append_left S' har
        exact hs' (PacketLinks.ofSource_unique (List.mem_filter.mp ha).2 (List.mem_filter.mp haS).2)
      simpa using hnot

/-- The same, with the link deleted. -/
theorem Passing.getData_of (h : Passing q none l) {stamp : BitVec 32} {delayed : ℕ → Bool}
    (hmine : q.isMine s = true)
    (hkeeps : QueryKeeps q.links stamp l
      ((l.filter (q.links.ofSource s)).takeWhile (isOld q.links stamp delayed))
      ((l.filter (q.links.ofSource s)).dropWhile (isOld q.links stamp delayed))) :
    ∃ r l', q.getData stamp (some s) delayed = some r ∧ Passing r.queue none l' ∧
      ∀ a, a ∈ l' ↔ a ∈ l ∧ a ∉ r.expired ++ r.result.toList := by
  obtain ⟨r, hr, hpass⟩ := h.getWaiting_of hkeeps
  have hmem : ∀ a, a ∈ l.filter (fun a => a ∉ r.expired ++ r.result.toList) ↔
      a ∈ l ∧ a ∉ r.expired ++ r.result.toList := by
    intro a
    rw [List.mem_filter, decide_eq_true_iff]
  refine ⟨{ r with queue := r.result.elim r.queue r.queue.deleteLink }, _, ?_, ?_, hmem⟩
  · rw [getData, getWaiting, if_pos hmine, hr]
    rfl
  · cases hresult : r.result with
    | none =>
        rw [hresult] at hpass
        exact hpass
    | some a =>
        rw [hresult] at hpass hmem
        exact hpass.deleteLink (fun ha => ((hmem a).mp ha).2 (by simp))

end ReceptionQueue
