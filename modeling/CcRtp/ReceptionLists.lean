/-
# The lists of the reception queue

What the calls on a `ReceptionQueue` do to the global queue, and that insertion returns.  The
packets of each source are those of the global queue that are its own, in the same order.

* `GlobalLinked.unlink`, `GlobalLinked.linkBehindOf`, `GlobalLinked.linkBefore` : a link leaves
  the global queue, or comes to the end of it or before another one;
* `Listed` : the lists of all packets and of each source;
* `Listed.insertRecvPacket` : a packet comes into both lists at corresponding places.

Insertion does not need `recvFirst` to lead to the first packet, so `Listed` does not ask for it.
-/
import CcRtp.SourceQueues
import CcRtp.AlongRun

namespace PacketLinks

variable {h h' : PacketLinks} {p v before first last : Option ℕ} {a b link : ℕ} {l l₁ l₂ : List ℕ}

/-- The links `l` form the global queue. -/
structure GlobalLinked (h : PacketLinks) (before first last : Option ℕ) (l : List ℕ) : Prop where
  nodup : l.Nodup
  live : ∀ a ∈ l, (h.packet a).isSome = true
  piece : Piece (follow h.next) (follow h.prev) before first last none l

/-- What belongs to the global queue is the same. -/
theorem GlobalLinked.congr (hg : GlobalLinked h before first last l)
    (hpacket : ∀ a ∈ l, h'.packet a = h.packet a) (hnext : h'.next = h.next)
    (hprev : h'.prev = h.prev) :
    GlobalLinked h' before first last l where
  nodup := hg.nodup
  live := fun a ha => by rw [hpacket a ha]; exact hg.live a ha
  piece := by
    rw [hnext, hprev]
    exact hg.piece

/-- A new link is not in the queue. -/
theorem GlobalLinked.new (hg : GlobalLinked h before first last l) (ha : a ∉ l)
    (n : WaitingPacket) :
    GlobalLinked (h.new a n) before first last l := by
  have hne : ∀ b ∈ l, b ≠ a := by
    rintro b hb rfl
    exact ha hb
  refine ⟨hg.nodup, fun b hb => ?_, hg.piece.congr (fun b hb => ?_) (fun b hb => ?_)⟩
  · have hpacket : (h.new a n).packet b = h.packet b := Function.update_of_ne (hne b hb) ..
    rw [hpacket]
    exact hg.live b hb
  · exact congrArg some (Function.update_of_ne (hne b hb) ..)
  · exact congrArg some (Function.update_of_ne (hne b hb) ..)

/-- A link that is not in the queue is deleted. -/
theorem GlobalLinked.delete (hg : GlobalLinked h before first last l) (ha : a ∉ l) :
    GlobalLinked (h.delete a) before first last l := by
  refine hg.congr (fun b hb => Function.update_of_ne ?_ ..) rfl rfl
  rintro rfl
  exact ha hb

/-- **An assignment** to a pointer of the link that `p` leads to, if it leads to one. -/
theorem assignOf_eq (f : LinkPointer) (hp : ∀ a ∈ p, (h.packet a).isSome = true) :
    ∃ h', (if p = none then some h else h.assign p v f) = some h' ∧ h'.packet = h.packet ∧
      (∀ f' ≠ f, h'.pointer f' = h.pointer f') ∧ (∀ a ∈ p, h'.pointer f a = v) ∧
      ∀ a ∉ p, h'.pointer f a = h.pointer f a := by
  cases p with
  | none =>
      exact ⟨h, rfl, rfl, fun _ _ => rfl, fun _ ha => absurd ha (Option.not_mem_none _),
        fun _ _ => rfl⟩
  | some b =>
      refine ⟨_, map_deref_eq_some.mpr ⟨b, rfl, hp b rfl, rfl⟩, packet_withPointer _ f,
        fun f' hne => pointer_withPointer_of_ne _ hne, ?_, ?_⟩
      · rintro a ⟨⟩
        rw [pointer_withPointer_self, Function.update_self]
      · intro a ha
        rw [pointer_withPointer_self, Function.update_of_ne]
        rintro rfl
        exact ha rfl

/-- What `if (p) p->setNext(v)` does. -/
theorem setNextOf_eq (hp : ∀ a ∈ p, (h.packet a).isSome = true) :
    ∃ h', h.setNextOf p v = some h' ∧ h'.packet = h.packet ∧ h'.prev = h.prev ∧
      (∀ a ∈ p, h'.next a = v) ∧ ∀ a ∉ p, h'.next a = h.next a := by
  obtain ⟨h', hh', hpacket, hframe, hvalues⟩ := assignOf_eq (v := v) .next hp
  exact ⟨h', hh', hpacket, hframe .prev (by decide), hvalues⟩

/-- What `if (p) p->setPrev(v)` does. -/
theorem setPrevOf_eq (hp : ∀ a ∈ p, (h.packet a).isSome = true) :
    ∃ h', h.setPrevOf p v = some h' ∧ h'.packet = h.packet ∧ h'.next = h.next ∧
      (∀ a ∈ p, h'.prev a = v) ∧ ∀ a ∉ p, h'.prev a = h.prev a := by
  obtain ⟨h', hh', hpacket, hframe, hvalues⟩ := assignOf_eq (v := v) .prev hp
  exact ⟨h', hh', hpacket, hframe .next (by decide), hvalues⟩

/-- What a link of the queue links to. -/
theorem GlobalLinked.links (hg : GlobalLinked h before first last (l₁ ++ a :: l₂)) :
    h.next a = l₂.head? ∧ h.prev a = l₁.getLast?.or before := by
  obtain ⟨hnext, hprev⟩ := hg.piece.links_of_mem
  rw [follow_apply, Option.some_inj] at hnext hprev
  rw [hnext, hprev, Option.or_none]
  exact ⟨rfl, rfl⟩

/-- **A link is taken out of the global queue.** -/
theorem GlobalLinked.unlink (hg : GlobalLinked h none first last (l₁ ++ a :: l₂)) :
    ∃ h', h.unlink a = some h' ∧ SameSources h h' ∧
      GlobalLinked h' none (l₁ ++ l₂).head? (l₁ ++ l₂).getLast? (l₁ ++ l₂) := by
  obtain ⟨hnext, hprev⟩ := hg.links
  rw [Option.or_none] at hprev
  have hnodup := hg.nodup
  rw [List.nodup_append, List.nodup_cons] at hnodup
  obtain ⟨-, ⟨ha₂, -⟩, hdisj⟩ := hnodup
  have ha₁ : a ∉ l₁ := fun h₁ => hdisj a h₁ a List.mem_cons_self rfl
  have hlive₁ : ∀ c ∈ h.prev a, (h.packet c).isSome = true := by
    intro c hc
    rw [hprev] at hc
    exact hg.live c (List.mem_append_left _ (List.mem_of_mem_getLast? hc))
  obtain ⟨h₁, hh₁, hpacket₁, hprev₁, hset₁, hother₁⟩ := setNextOf_eq (v := h.next a) hlive₁
  have hnexta : h₁.next a = h.next a := by
    apply hother₁
    rw [hprev]
    exact fun hc => ha₁ (List.mem_of_mem_getLast? hc)
  have hlive₂ : ∀ c ∈ h₁.next a, (h₁.packet c).isSome = true := by
    intro c hc
    rw [hnexta, hnext] at hc
    rw [hpacket₁]
    exact hg.live c (List.mem_append_right _ (List.mem_cons_of_mem a (List.mem_of_mem_head? hc)))
  obtain ⟨h₂, hh₂, hpacket₂, hnext₂, hset₂, hother₂⟩ := setPrevOf_eq (v := h₁.prev a) hlive₂
  have hunlink : h.unlink a = some h₂ := by
    rw [PacketLinks.unlink, hh₁]
    exact hh₂
  refine ⟨h₂, hunlink, sameSources_unlink hunlink, ?_, ?_, ?_⟩
  · exact hg.nodup.sublist ((List.sublist_cons_self a l₂).append_left l₁)
  · intro c hc
    rw [hpacket₂, hpacket₁]
    exact hg.live c ((List.sublist_cons_self a l₂).append_left l₁ |>.subset hc)
  · have hremove : Piece (follow h₂.next) (follow h₂.prev) none ((l₁ ++ l₂).head?.or none)
        ((l₁ ++ l₂).getLast?.or none) none (l₁ ++ l₂) := by
      apply hg.piece.remove hg.nodup
      · intro c hc
        rw [follow_apply, hnext₂, hset₁ c (by rw [hprev]; exact hc), hnext, Option.or_none]
      · intro c hc
        rw [follow_apply, hset₂ c (by rw [hnexta, hnext]; exact hc), hprev₁, hprev, Option.or_none]
      · intro c _ hcl
        rw [follow_apply, hnext₂, hother₁ c (by rw [hprev]; exact hcl)]
        rfl
      · intro c _ hcl
        rw [follow_apply, hother₂ c (by rw [hnexta, hnext]; exact hcl), hprev₁]
        rfl
    rwa [Option.or_none, Option.or_none] at hremove

/-- A link that is in no queue. -/
structure Detached (h : PacketLinks) (link : ℕ) : Prop where
  live : (h.packet link).isSome = true
  next : h.next link = none
  prev : h.prev link = none

/-- The test for a null pointer is passed. -/
theorem linkBehindOf_of_ne_none (hp : p ≠ none) : h.linkBehindOf p link = h.linkBehind p link :=
  if_neg hp

/-- What linking behind another link does. -/
theorem linkBehindOf_eq (hlink : Detached h link) (hp : ∀ c ∈ p, (h.packet c).isSome = true) :
    ∃ h', h.linkBehindOf p link = some h' ∧ h'.packet = h.packet ∧
      (∀ c ∈ p, h'.next c = some link) ∧ (∀ c ∉ p, h'.next c = h.next c) ∧
      h'.prev link = p ∧ ∀ c ≠ link, h'.prev c = h.prev c := by
  cases p with
  | none =>
      exact ⟨h, rfl, rfl, fun _ hc => absurd hc (Option.not_mem_none _), fun _ _ => rfl, hlink.prev,
        fun _ _ => rfl⟩
  | some b =>
      refine ⟨_, (linkBehindOf_of_ne_none (Option.some_ne_none b)).trans
        (linkBehind_eq_some.mpr ⟨b, rfl, hp b rfl, hlink.live, rfl⟩), rfl, ?_, ?_,
        Function.update_self .., fun c hc => Function.update_of_ne hc ..⟩
      · rintro c ⟨⟩
        exact Function.update_self ..
      · intro c hc
        refine Function.update_of_ne ?_ ..
        rintro rfl
        exact hc rfl

/-- **A link goes to the end of the global queue.** -/
theorem GlobalLinked.linkBehindOf (hg : GlobalLinked h none first last l) (hlink : Detached h link)
    (ha : link ∉ l) :
    ∃ h', h.linkBehindOf last link = some h' ∧ SameSources h h' ∧
      GlobalLinked h' none (l.head?.or (some link)) (some link) (l ++ [link]) := by
  have hlast := hg.piece.last_eq_or
  rw [Option.or_none] at hlast
  subst hlast
  have hne : ∀ a ∈ l, a ≠ link := by
    rintro a hal rfl
    exact ha hal
  obtain ⟨h', hh', hpacket, hnext, hnext', hprev, hprev'⟩ :=
    linkBehindOf_eq hlink (fun c hc => hg.live c (List.mem_of_mem_getLast? hc))
  refine ⟨h', hh', sameSources_linkBehindOf hh', ?_, ?_, ?_⟩
  · exact List.nodup_append.mpr ⟨hg.nodup, List.nodup_singleton link, fun a hal b hb =>
      List.mem_singleton.mp hb ▸ hne a hal⟩
  · intro a hal
    rw [hpacket]
    rcases List.mem_append.mp hal with hal | hal
    · exact hg.live a hal
    · rw [List.mem_singleton.mp hal]
      exact hlink.live
  · have hpiece := hg.piece
    have hnodup := hg.nodup
    rw [← List.append_nil l] at hpiece hnodup
    apply hpiece.insert hnodup
    · exact fun c hc => congrArg some (hnext c hc)
    · exact fun c hc => absurd hc (Option.not_mem_none _)
    · have hnextLink : h'.next link = none := by
        rw [hnext' link (fun hc => ha (List.mem_of_mem_getLast? hc)), hlink.next]
      exact congrArg some hnextLink
    · rw [Option.or_none]
      exact congrArg some hprev
    · exact fun c _ hc => congrArg some (hnext' c hc)
    · intro c hc _
      rw [List.append_nil] at hc
      exact congrArg some (hprev' c (hne c hc))

/-- **A link goes before another one.** -/
theorem GlobalLinked.linkBefore (hg : GlobalLinked h none first last (l₁ ++ b :: l₂))
    (hlink : Detached h link) (ha : link ∉ l₁ ++ b :: l₂) :
    ∃ h₁ h₂, h.getPrev (some b) = some l₁.getLast? ∧ h.linkBehindOf l₁.getLast? link = some h₁ ∧
      h₁.linkAhead (some b) link = some h₂ ∧ SameSources h h₂ ∧
      GlobalLinked h₂ none (l₁.head?.or (some link)) last (l₁ ++ link :: b :: l₂) := by
  have hb : (h.packet b).isSome = true := hg.live b (by simp)
  have hne : ∀ a ∈ l₁ ++ b :: l₂, a ≠ link := by
    rintro a hal rfl
    exact ha hal
  have hbl := hne b (by simp)
  have hget : h.getPrev (some b) = some l₁.getLast? := by
    rw [getPrev, deref_some hb, Option.map_some, hg.links.2, Option.or_none]
  obtain ⟨h₁, hh₁, hpacket, hnext, hnext', hprev, hprev'⟩ := linkBehindOf_eq hlink
    (fun c hc => hg.live c (List.mem_append_left _ (List.mem_of_mem_getLast? hc)))
  have hahead : h₁.linkAhead (some b) link = some _ := linkAhead_eq_some.mpr
    ⟨b, rfl, by rw [hpacket]; exact hb, by rw [hpacket]; exact hlink.live, rfl⟩
  refine ⟨h₁, _, hget, hh₁, hahead,
    (sameSources_linkBehindOf hh₁).trans (sameSources_linkAhead hahead), ?_, ?_, ?_⟩
  · rw [List.nodup_middle]
    exact List.nodup_cons.mpr ⟨ha, hg.nodup⟩
  · intro a hal
    show (h₁.packet a).isSome = true
    rw [hpacket]
    rw [List.mem_append, List.mem_cons] at hal
    rcases hal with hal | rfl | hal
    · exact hg.live a (List.mem_append_left _ hal)
    · exact hlink.live
    · exact hg.live a (List.mem_append_right _ hal)
  · have hlast : last = (b :: l₂).getLast?.or (some link) := by
      have hor := hg.piece.last_eq_or
      rw [List.getLast?_append_cons] at hor
      rw [hor]
      exact getLast?_or_of_ne_nil (List.cons_ne_nil b l₂) ..
    rw [hlast]
    apply hg.piece.insert hg.nodup
    · intro c hc
      have hcl := hne c (List.mem_append_left _ (List.mem_of_mem_getLast? hc))
      simp [follow_apply, Function.update_of_ne hcl, hnext c hc]
    · simp [follow_apply]
    · simp [follow_apply]
    · simp [follow_apply, Function.update_of_ne hbl.symm, hprev]
    · intro c hc hcl
      simp [follow_apply, Function.update_of_ne (hne c hc), hnext' c hcl]
    · intro c hc hcb
      have hcb' : c ≠ b := by
        rintro rfl
        exact hcb rfl
      simp [follow_apply, Function.update_of_ne hcb', hprev' c (hne c hc)]

end PacketLinks

namespace ReceptionQueue

variable {q q' : ReceptionQueue} {s a b c link : ℕ} {before first last : Option ℕ}
  {l l₁ l₂ S : List ℕ}

/-! ## Insertion -/

/-- What a branch of `insertRecvPacket` leaves: a new link in the global queue, which becomes
the first one only if there was none. -/
structure Enqueued (q q' : ReceptionQueue) (link : ℕ) (l₁ l₂ : List ℕ) : Prop where
  global : q'.links.GlobalLinked none (l₁.head?.or (some link)) q'.recvLast (l₁ ++ link :: l₂)
  recvFirst : q'.recvFirst = if l₁ ++ l₂ = [] then some link else q.recvFirst

/-- The search from the end of the queue returns. -/
theorem searchPlace_eq {h : PacketLinks} {seq : BitVec 16} :
    ∀ {rounds : ℕ} {p : Option ℕ}, Segment (follow h.srcPrev) p l none →
      (∀ a ∈ l, (h.packet a).isSome = true) → l.length ≤ rounds →
      searchPlace h seq rounds p = some (l.dropWhile (h.higher seq)).head? := by
  intro rounds p hseg hlive hlen
  refine hseg.loop_induction (motive := fun rounds p l => (∀ a ∈ l, (h.packet a).isSome = true) →
    searchPlace h seq rounds p = some (l.dropWhile (h.higher seq)).head?) ?_ ?_ hlen hlive
  · intro rounds _
    cases rounds <;> rfl
  · intro rounds a p l hp ih hlive
    rw [follow_apply, Option.some_inj] at hp
    obtain ⟨n, hn⟩ := Option.isSome_iff_exists.mp (hlive a List.mem_cons_self)
    have hhigher : h.higher seq a = decide (seq < n.seqNum) := by
      rw [PacketLinks.higher, PacketLinks.seqOf, hn]
      rfl
    rw [searchPlace, hn, Option.bind_some]
    by_cases hlt : seq < n.seqNum
    · rw [if_pos hlt, List.dropWhile_cons_of_pos (by rw [hhigher]; exact decide_eq_true hlt), hp]
      exact ih (fun b hb => hlive b (List.mem_cons_of_mem a hb))
    · rw [if_neg hlt, List.dropWhile_cons_of_neg (by rw [hhigher]; simpa using hlt)]
      rfl

/-- The first packet of a source goes to the end. -/
theorem insertOnly_enqueued (hg : q.links.GlobalLinked none first q.recvLast l)
    (hfirst : q.recvFirst = none ↔ l = []) (hlink : q.links.Detached link) (ha : link ∉ l) :
    ∃ q', q.insertOnly s link = some q' ∧ Enqueued q q' link l [] := by
  obtain ⟨h', hh', -, hg'⟩ := hg.linkBehindOf hlink ha
  refine ⟨_, Option.map_eq_some_iff.mpr ⟨h', hh', rfl⟩, hg', ?_⟩
  simp only [setEnds_recvFirst, List.append_nil]
  exact if_congr hfirst rfl rfl

/-- A packet behind the last one of its source goes to the end, too. -/
theorem insertLast_enqueued (hg : q.links.GlobalLinked none first q.recvLast l)
    (hlink : q.links.Detached link) (ha : link ∉ l) (hlast : (q.sources s).last = some c)
    (hc : c ∈ l) : ∃ q', q.insertLast s link = some q' ∧ Enqueued q q' link l [] := by
  have hsrc := PacketLinks.linkSrcBehind_eq_some.mpr ⟨c, hlast, hg.live c hc, hlink.live, rfl⟩
  have hg₁ : PacketLinks.GlobalLinked { q.links with
      srcNext := Function.update q.links.srcNext c (some link),
      srcPrev := Function.update q.links.srcPrev link (some c) } none first q.recvLast l :=
    hg.congr (fun _ _ => rfl) rfl rfl
  obtain ⟨h', hh', -, hg'⟩ := hg₁.linkBehindOf ⟨hlink.live, hlink.next, hlink.prev⟩ ha
  have hne : q.recvLast ≠ none := by
    have hor := hg.piece.last_eq_or
    rw [Option.or_none] at hor
    rw [hor, Ne, List.getLast?_eq_none_iff]
    exact List.ne_nil_of_mem hc
  rw [PacketLinks.linkBehindOf_of_ne_none hne] at hh'
  refine ⟨_, Option.bind_eq_some_iff.mpr ⟨_, hsrc, Option.map_eq_some_iff.mpr ⟨h', hh', rfl⟩⟩,
    hg', ?_⟩
  rw [List.append_nil, if_neg (List.ne_nil_of_mem hc)]
  rfl

/-- A packet in front of the first one of its source goes there. -/
theorem insertFront_enqueued (hg : q.links.GlobalLinked none first q.recvLast (l₁ ++ b :: l₂))
    (hlink : q.links.Detached link) (ha : link ∉ l₁ ++ b :: l₂)
    (hfirst : (q.sources s).first = some b) :
    ∃ q', q.insertFront s link = some q' ∧ Enqueued q q' link l₁ (b :: l₂) := by
  have hb : (q.links.packet b).isSome = true := hg.live b (by simp)
  have hsrc := PacketLinks.linkSrcAhead_eq_some.mpr ⟨b, hfirst, hb, hlink.live, rfl⟩
  have hg₁ : PacketLinks.GlobalLinked { q.links with
      srcPrev := Function.update q.links.srcPrev b (some link),
      srcNext := Function.update q.links.srcNext link (some b) } none first q.recvLast
        (l₁ ++ b :: l₂) :=
    hg.congr (fun _ _ => rfl) rfl rfl
  obtain ⟨h₁, h₂, hget, hh₁, hh₂, -, hg'⟩ := hg₁.linkBefore ⟨hlink.live, hlink.next, hlink.prev⟩ ha
  rw [← hfirst] at hget hh₂
  refine ⟨_, Option.bind_eq_some_iff.mpr ⟨_, hsrc, Option.bind_eq_some_iff.mpr ⟨_, hget,
    Option.bind_eq_some_iff.mpr ⟨h₁, hh₁, Option.map_eq_some_iff.mpr ⟨h₂, hh₂, rfl⟩⟩⟩⟩, hg', ?_⟩
  rw [if_neg (by simp)]
  rfl

/-- A packet between two of its source goes in front of the second one. -/
theorem insertMiddle_enqueued (hg : q.links.GlobalLinked none first q.recvLast (l₁ ++ b :: l₂))
    (hl₁ : l₁ ≠ []) (hlink : q.links.Detached link) (ha : link ∉ l₁ ++ b :: l₂) {plink : ℕ}
    (hp : (q.links.packet plink).isSome = true) (hnext : q.links.srcNext plink = some b) :
    ∃ q', q.insertMiddle link plink = some q' ∧ Enqueued q q' link l₁ (b :: l₂) := by
  have hb : (q.links.packet b).isSome = true := hg.live b (by simp)
  have hget₀ : q.links.getSrcNext (some plink) = some (some b) := by
    rw [PacketLinks.getSrcNext, PacketLinks.deref_some hp, Option.map_some, hnext]
  have hsrc := PacketLinks.linkSrcAhead_eq_some.mpr ⟨b, rfl, hb, hlink.live, rfl⟩
  have hg₁ : PacketLinks.GlobalLinked { q.links with
      srcPrev := Function.update q.links.srcPrev b (some link),
      srcNext := Function.update q.links.srcNext link (some b) } none first q.recvLast
        (l₁ ++ b :: l₂) :=
    hg.congr (fun _ _ => rfl) rfl rfl
  obtain ⟨h₁, h₂, hget, hh₁, hh₂, hsame, hg'⟩ :=
    hg₁.linkBefore ⟨hlink.live, hlink.next, hlink.prev⟩ ha
  rw [PacketLinks.linkBehindOf_of_ne_none (by rwa [Ne, List.getLast?_eq_none_iff])] at hh₁
  have hsrc₂ := PacketLinks.linkSrcBehind_eq_some.mpr ⟨plink, rfl,
    show (h₂.packet plink).isSome = true by rw [hsame.packet]; exact hp,
    show (h₂.packet link).isSome = true by rw [hsame.packet]; exact hlink.live, rfl⟩
  refine ⟨_, Option.bind_eq_some_iff.mpr ⟨_, hget₀, Option.bind_eq_some_iff.mpr ⟨_, hsrc,
    Option.bind_eq_some_iff.mpr ⟨_, hget, Option.bind_eq_some_iff.mpr ⟨h₁, hh₁,
      Option.bind_eq_some_iff.mpr ⟨h₂, hh₂, Option.map_eq_some_iff.mpr ⟨_, hsrc₂, rfl⟩⟩⟩⟩⟩⟩,
    hg'.congr (fun _ _ => rfl) rfl rfl, ?_⟩
  rw [if_neg (by simp)]
  rfl

/-- The packets of all sources are linked in the order of the global queue, whose last packet
is known. -/
structure Listed (q : ReceptionQueue) (l : List ℕ) : Prop where
  global : q.links.GlobalLinked none l.head? q.recvLast l
  sources : SourcesLinked q (fun _ => none) (fun s => l.filter (q.links.ofSource s))

namespace Listed

/-- All links of the list have been made. -/
theorem below (h : Listed q l) : ∀ a ∈ l, a < q.fresh :=
  fun a ha => h.sources.below a (h.global.live a ha)

/-- The next link is not in the list yet. -/
theorem fresh_notMem (h : Listed q l) : q.fresh ∉ l := fun hmem => (h.below _ hmem).false

/-- The first packet of a source. -/
theorem first_eq (h : Listed q l) (s : ℕ) :
    (q.sources s).first = (l.filter (q.links.ofSource s)).head? := by
  rw [(h.sources.linked s).piece.first_eq_or, Option.or_none]

/-- The last packet of a source. -/
theorem last_eq (h : Listed q l) (s : ℕ) :
    (q.sources s).last = (l.filter (q.links.ofSource s)).getLast? := by
  rw [(h.sources.linked s).piece.last_eq_or, Option.or_none]

end Listed

/-- A disordered packet goes before `b`, in both queues.  `q` has the new link already. -/
theorem insertDisordered_enqueued {D T : List ℕ}
    (hg : q.links.GlobalLinked none first q.recvLast l) (hlink : q.links.Detached link)
    (ha : link ∉ l) (hsrc : SourceLinked q s none (D ++ b :: T))
    (hS : D ++ b :: T = l.filter (q.links.ofSource s)) :
    ∃ q' l₁ l₂, q.insertDisordered s link D.getLast? = some q' ∧ l = l₁ ++ b :: l₂ ∧
      Enqueued q q' link l₁ (b :: l₂) ∧ D = l₁.filter (q.links.ofSource s) ∧
      T = l₂.filter (q.links.ofSource s) := by
  have hof : q.links.ofSource s b = true := hsrc.ofSource b (by simp)
  have hmem : ∀ a ∈ D ++ b :: T, a ∈ l := by
    intro a haS
    rw [hS] at haS
    exact (List.mem_filter.mp haS).1
  obtain ⟨l₁, l₂, rfl⟩ := List.append_of_mem (hmem b (by simp))
  rw [List.filter_append, List.filter_cons_of_pos hof] at hS
  obtain ⟨hD, -, hT⟩ := (List.append_cons_inj_of_notMem
    (fun hb => (List.nodup_append.mp hsrc.nodup).2.2 b hb b List.mem_cons_self rfl)
    (List.nodup_cons.mp (List.nodup_append.mp hsrc.nodup).2.1).1).mp hS
  obtain rfl | ⟨D', plink, rfl⟩ := List.eq_nil_or_concat' D
  · obtain ⟨q', hq', henq⟩ := insertFront_enqueued hg hlink ha hsrc.piece.first_eq
    exact ⟨q', l₁, l₂, hq', rfl, henq, hD, hT⟩
  · have hl₁ : l₁ ≠ [] := by
      rintro rfl
      cases (List.append_eq_nil_iff.mp hD).2
    have hlive : (q.links.packet plink).isSome = true := hg.live plink (hmem plink (by simp))
    have hnext : q.links.srcNext plink = some b := by
      rw [List.append_assoc, List.singleton_append] at hsrc
      exact Option.some_inj.mp hsrc.piece.links_of_mem.1
    obtain ⟨q', hq', henq⟩ := insertMiddle_enqueued hg hl₁ hlink ha hlive hnext
    rw [List.getLast?_concat]
    exact ⟨q', l₁, l₂, hq', rfl, henq, hD, hT⟩

/-- The branches for a queue of the source that is not empty. -/
theorem insertBehind_enqueued {n : WaitingPacket} {S : List ℕ}
    (hg : q.links.GlobalLinked none first q.recvLast l) (hlink : q.links.Detached link)
    (ha : link ∉ l) (hsrc : SourceLinked q n.sourceLink none (S ++ [c]))
    (hS : S ++ [c] = l.filter (q.links.ofSource n.sourceLink))
    (hlen : (S ++ [c]).length ≤ q.fresh) :
    (∃ q', q.insertBehind n link c = some (false, q')) ∨
      ∃ q' l₁ l₂, q.insertBehind n link c = some (true, q') ∧ l = l₁ ++ l₂ ∧
        Enqueued q q' link l₁ l₂ ∧
        (S ++ [c]).rdropWhile (q.links.higher n.seqNum) =
          l₁.filter (q.links.ofSource n.sourceLink) ∧
        (S ++ [c]).rtakeWhile (q.links.higher n.seqNum) =
          l₂.filter (q.links.ofSource n.sourceLink) ∧
        l₂.head? = (l₂.filter (q.links.ofSource n.sourceLink)).head? := by
  have hmem : ∀ a ∈ S ++ [c], a ∈ l := by
    intro a haS
    rw [hS] at haS
    exact (List.mem_filter.mp haS).1
  have hlive : ∀ a ∈ S ++ [c], (q.links.packet a).isSome = true :=
    fun a haS => hg.live a (hmem a haS)
  have hlast := hsrc.piece.last_eq
  obtain ⟨m, hm⟩ := Option.isSome_iff_exists.mp (hlive c (by simp))
  have hhigher : q.links.higher n.seqNum c = decide (n.seqNum < m.seqNum) := by
    rw [PacketLinks.higher, PacketLinks.seqOf, hm]
    rfl
  rw [insertBehind, hm, Option.bind_some]
  by_cases hlt : n.seqNum < m.seqNum
  · right
    rw [if_pos hlt]
    have hback := hsrc.piece.backward
    rw [hlast] at hback
    have hsearch : searchPlace q.links n.seqNum q.fresh (some c)
        = some ((S ++ [c]).rdropWhile (q.links.higher n.seqNum)).getLast? := by
      rw [searchPlace_eq hback (fun a haS => hlive a (List.mem_reverse.mp haS))
        (by rw [List.length_reverse]; exact hlen), List.rdropWhile, List.getLast?_reverse]
    have hsplit : (S ++ [c]).rdropWhile (q.links.higher n.seqNum)
        ++ (S ++ [c]).rtakeWhile (q.links.higher n.seqNum) = S ++ [c] :=
      List.rdropWhile_append_rtakeWhile
    have htake : (S ++ [c]).rtakeWhile (q.links.higher n.seqNum) ≠ [] := by
      rw [List.rtakeWhile_concat_pos _ _ _ (by rw [hhigher]; exact decide_eq_true hlt)]
      simp
    rw [hsearch, Option.bind_some]
    obtain ⟨b, T, hT⟩ := List.exists_cons_of_ne_nil htake
    rw [hT] at hsplit ⊢
    rw [← hsplit] at hS hsrc
    have hof : q.links.ofSource n.sourceLink b = true := hsrc.ofSource b (by simp)
    obtain ⟨q', l₁, l₂, hq', rfl, henq, hD, hT'⟩ := insertDisordered_enqueued hg hlink ha hsrc hS
    refine ⟨q', l₁, b :: l₂, Option.map_eq_some_iff.mpr ⟨q', hq', rfl⟩, rfl, henq, hD, ?_, ?_⟩
    · rw [List.filter_cons_of_pos hof, hT']
    · rw [List.filter_cons_of_pos hof]
      rfl
  · rw [if_neg hlt]
    by_cases heq : n.seqNum = m.seqNum
    · rw [if_pos heq]
      exact Or.inl ⟨_, rfl⟩
    · right
      rw [if_neg heq]
      have hnot : ¬ q.links.higher n.seqNum c = true := by
        rw [hhigher]
        simpa using hlt
      obtain ⟨q', hq', henq⟩ := insertLast_enqueued hg hlink ha hlast (hmem c (by simp))
      refine ⟨q', l, [], Option.map_eq_some_iff.mpr ⟨q', hq', rfl⟩, (List.append_nil l).symm, henq,
        ?_, ?_, rfl⟩
      · rw [List.rdropWhile_concat_neg _ _ _ hnot, hS]
      · rw [List.rtakeWhile_concat_neg _ _ _ hnot]
        rfl

/-- A new link is not linked to any other. -/
theorem detached_newLink (q : ReceptionQueue) (n : WaitingPacket) :
    (q.newLink n).links.Detached q.fresh where
  live := by
    have hpacket : (q.newLink n).links.packet q.fresh = some n := Function.update_self ..
    rw [hpacket]
    rfl
  next := Function.update_self ..
  prev := Function.update_self ..

/-- Packets that were there before a new link was made. -/
theorem ofSource_newLink (n : WaitingPacket) (s : ℕ) (hne : a ≠ q.fresh) :
    (q.newLink n).links.ofSource s a = q.links.ofSource s a :=
  PacketLinks.ofSource_congr (Function.update_of_ne hne ..)

/-- The branches of `insertRecvPacket` return. -/
theorem Listed.insertRecvPacket_enqueued (h : Listed q l) (hfirst : q.recvFirst = none ↔ l = [])
    (n : WaitingPacket) :
    (∃ q', q.insertRecvPacket n = some (false, q')) ∨
      ∃ q' l₁ l₂, q.insertRecvPacket n = some (true, q') ∧ l = l₁ ++ l₂ ∧
        Enqueued q q' q.fresh l₁ l₂ ∧
        (l.filter (q.links.ofSource n.sourceLink)).rdropWhile ((q.newLink n).links.higher n.seqNum)
          = l₁.filter (q.links.ofSource n.sourceLink) ∧
        (l.filter (q.links.ofSource n.sourceLink)).rtakeWhile ((q.newLink n).links.higher n.seqNum)
          = l₂.filter (q.links.ofSource n.sourceLink) ∧
        l₂.head? = (l₂.filter (q.links.ofSource n.sourceLink)).head? := by
  have hfresh := h.fresh_notMem
  have hfilter : ∀ l' : List ℕ, (∀ a ∈ l', a ∈ l) →
      l'.filter ((q.newLink n).links.ofSource n.sourceLink) =
        l'.filter (q.links.ofSource n.sourceLink) := by
    intro l' hl'
    apply List.filter_congr
    intro a ha
    exact ofSource_newLink n _ (fun heq => hfresh (heq ▸ hl' a ha))
  have hg : (q.newLink n).links.GlobalLinked none l.head? (q.newLink n).recvLast l :=
    h.global.new hfresh n
  have hsrc := (h.sources.newLink n).linked n.sourceLink
  have hlast := h.last_eq n.sourceLink
  have hlink := detached_newLink q n
  rw [insertRecvPacket]
  obtain hnil | ⟨S, c, hS⟩ := List.eq_nil_or_concat' (l.filter (q.links.ofSource n.sourceLink))
  · -- the only packet of its source
    have hnone : ((q.newLink n).sources n.sourceLink).last = none := by
      rw [hnil] at hlast
      exact hlast
    rw [hnone, hnil]
    obtain ⟨q', hq', henq⟩ := insertOnly_enqueued (s := n.sourceLink) hg hfirst hlink hfresh
    exact Or.inr ⟨q', l, [], Option.map_eq_some_iff.mpr ⟨q', hq', rfl⟩, (List.append_nil l).symm,
      ⟨henq.global, henq.recvFirst⟩, hnil.symm, rfl, rfl⟩
  · have hsome : ((q.newLink n).sources n.sourceLink).last = some c := by
      rw [hS, List.getLast?_concat] at hlast
      exact hlast
    have hS' := hS
    rw [← hfilter l (fun _ ha => ha)] at hS'
    have hlen : (S ++ [c]).length ≤ (q.newLink n).fresh := by
      rw [← hS]
      exact ((List.length_filter_le ..).trans
        (length_le_of_nodup_of_lt h.global.nodup h.below)).trans (Nat.le_succ _)
    rw [hsome]
    dsimp only at hsrc ⊢
    rw [hS] at hsrc ⊢
    rcases insertBehind_enqueued hg hlink hfresh hsrc hS'.symm hlen with
      hfalse | ⟨q', l₁, l₂, hq', rfl, henq, hD, hT, hhead⟩
    · exact Or.inl hfalse
    · rw [hfilter l₁ (fun a ha => List.mem_append_left _ ha)] at hD
      rw [hfilter l₂ (fun a ha => List.mem_append_right _ ha)] at hT hhead
      exact Or.inr ⟨q', l₁, l₂, hq', rfl, ⟨henq.global, henq.recvFirst⟩, hD, hT, hhead⟩

/-- Queues of sources that are the sub-sequences of the global queue. -/
theorem Listed.of_sources (hg : q.links.GlobalLinked none l.head? q.recvLast l)
    {befores : ℕ → Option ℕ} {S : ℕ → List ℕ} (hsrc : SourcesLinked q befores S)
    (hbefores : ∀ s, befores s = none) (hS : ∀ s, S s = l.filter (q.links.ofSource s)) :
    Listed q l :=
  ⟨hg, hsrc.congr (fun s => (hbefores s).symm) (fun s => (hS s).symm)⟩

/-- **Insertion** puts a packet into both queues at corresponding places, or does nothing. -/
theorem Listed.insertRecvPacket (h : Listed q l) (hfirst : q.recvFirst = none ↔ l = [])
    (n : WaitingPacket) :
    (∃ q', q.insertRecvPacket n = some (false, q') ∧ Listed q' l ∧ q'.recvFirst = q.recvFirst) ∨
      ∃ q' l₁ l₂, q.insertRecvPacket n = some (true, q') ∧ l = l₁ ++ l₂ ∧
        Listed q' (l₁ ++ q.fresh :: l₂) ∧
        q'.recvFirst = (if l = [] then some q.fresh else q.recvFirst) ∧
        (l.filter (q.links.ofSource n.sourceLink)).rdropWhile ((q.newLink n).links.higher n.seqNum)
          = l₁.filter (q.links.ofSource n.sourceLink) ∧
        l₂.head? = (l₂.filter (q.links.ofSource n.sourceLink)).head? := by
  rcases h.insertRecvPacket_enqueued hfirst n with
    ⟨q', hq'⟩ | ⟨q', l₁, l₂, hq', rfl, henq, hD, hT, hhead⟩
  · left
    obtain ⟨rfl, -, hsrc⟩ := h.sources.insertRecvPacket_false hq'
    have hg : ((q.newLink n).deleteLink q.fresh).links.GlobalLinked none l.head? q.recvLast l :=
      (h.global.new h.fresh_notMem n).delete h.fresh_notMem
    refine ⟨_, hq', Listed.of_sources hg hsrc (fun _ => rfl) (fun s => ?_), rfl⟩
    apply List.filter_congr
    intro a ha
    have hne : a ≠ q.fresh := fun heq => h.fresh_notMem (heq ▸ ha)
    have hpacket : ((q.newLink n).deleteLink q.fresh).links.packet a = q.links.packet a :=
      (Function.update_of_ne hne ..).trans (Function.update_of_ne hne ..)
    rw [PacketLinks.ofSource_congr hpacket]
  · right
    obtain ⟨honly, before, hbefore, hsrc⟩ := h.sources.insertRecvPacket hq'
    have hg := henq.global
    have hhd : l₁.head?.or (some q.fresh) = (l₁ ++ q.fresh :: l₂).head? := by
      rw [List.head?_append]
      rfl
    rw [hhd] at hg
    refine ⟨q', l₁, l₂, hq', rfl, Listed.of_sources hg hsrc ?_ ?_, henq.recvFirst, hD, hhead⟩
    · intro s
      rcases eq_or_ne s n.sourceLink with rfl | hs
      · rw [Function.update_self]
        exact hbefore rfl
      · rw [Function.update_of_ne hs]
    · intro s
      -- the packets of the global queue are those that were there, and the new one
      have hpacket : ∀ a ∈ l₁ ++ q.fresh :: l₂,
          q'.links.ofSource s a = (q.newLink n).links.ofSource s a := by
        intro a ha
        exact PacketLinks.ofSource_congr (honly.packet_of_isSome (hg.live a ha))
      have hold : ∀ a ∈ l₁ ++ l₂, (q.newLink n).links.ofSource s a = q.links.ofSource s a :=
        fun a ha => ofSource_newLink n s (fun heq => h.fresh_notMem (heq ▸ ha))
      have hfilter : (l₁ ++ q.fresh :: l₂).filter (q'.links.ofSource s)
          = l₁.filter (q.links.ofSource s) ++ if (q.newLink n).links.ofSource s q.fresh = true
              then q.fresh :: l₂.filter (q.links.ofSource s)
              else l₂.filter (q.links.ofSource s) := by
        rw [List.filter_congr hpacket, List.filter_append, List.filter_cons,
          List.filter_congr (fun a ha => hold a (List.mem_append_left _ ha)),
          List.filter_congr (fun a ha => hold a (List.mem_append_right _ ha))]
      rw [hfilter]
      have hnew := (unlinked_newLink q n).ofSource
      rcases eq_or_ne s n.sourceLink with rfl | hs
      · rw [Function.update_self, placed, hD, hT, if_pos hnew]
      · have hnot : ¬ (q.newLink n).links.ofSource s q.fresh = true :=
          fun hof => hs (PacketLinks.ofSource_unique hof hnew)
        rw [Function.update_of_ne hs, if_neg hnot, List.filter_append]

end ReceptionQueue
