/-
# Queries for packets of one source

`getWaiting` with a source, on any reception queue whose lists are in order.  What expires and
what is given back is always right.  What is left of the lists is in order unless the query runs
into one of the slips that `QueryKeeps` excludes, and then it is not.

* `Passing.getWaitingOf_result` : what a query that returns gives;
* `Passing.queryKeeps_of_wellFormed` : if the lists are in order behind it, the condition holds;
* `source_specific_retrieval_iff` : the condition is exact.
-/
import CcRtp.WaitingQueries

namespace ReceptionQueue

variable {q q' : ReceptionQueue} {s a b : ℕ} {l l₁ l₂ O R : List ℕ} {timestamp : BitVec 32}
  {delayed : ℕ → Bool} {nonempty : Bool} {result : Option ℕ}

/-! ## What a query gives -/

/-- What becomes of the packets when the one selected leaves both queues. -/
theorem takeOfSource_frame (hq : q.takeOfSource s a = some q') :
    q'.links.packet = q.links.packet ∧ q'.links.srcPrev = q.links.srcPrev ∧
      q'.recvFirst = if q.links.prev a = none then q.links.next a else q.recvFirst := by
  obtain ⟨q₁, hq₁, hq⟩ := Option.bind_eq_some_iff.mp hq
  have hframe : q₁.links.packet = q.links.packet ∧ q₁.links.srcPrev = q.links.srcPrev ∧
      q₁.recvFirst = if q.links.prev a = none then q.links.next a else q.recvFirst := by
    obtain ⟨h₁, hh₁, rfl⟩ := Option.map_eq_some_iff.mp hq₁
    have hsame := PacketLinks.sameSources_unlink hh₁
    exact ⟨hsame.packet, hsame.srcPrev, rfl⟩
  obtain ⟨hpacket, hsrcPrev, hfirst⟩ := hframe
  by_cases hnone : q₁.links.srcNext a = none
  · rw [if_pos hnone] at hq
    cases hq
    exact ⟨hpacket, hsrcPrev, hfirst⟩
  · rw [if_neg hnone] at hq
    obtain ⟨h₂, hh₂, rfl⟩ := Option.map_eq_some_iff.mp hq
    have hsame := PacketLinks.sameSources_setPrev hh₂
    exact ⟨hsame.packet.trans hpacket, hsame.srcPrev.trans hsrcPrev, hfirst⟩

/-- The end of a query gives the first packet of the source, if that is not newer. -/
theorem finishOfSource_result (hq : q.finishOfSource s timestamp nonempty = some (result, q')) :
    result = (q.sources s).first.filter (fun a => timestamp ≥ q.links.timestampOf a) ∧
      q'.links.packet = q.links.packet := by
  rw [finishOfSource] at hq
  cases hfirst : (q.sources s).first with
  | none =>
      rw [hfirst] at hq
      cases hq
      refine ⟨rfl, ?_⟩
      split_ifs <;> rfl
  | some a =>
      rw [hfirst] at hq
      obtain ⟨n, hn, hq⟩ := Option.bind_eq_some_iff.mp hq
      have hstamp : q.links.timestampOf a = n.timestamp := by
        rw [PacketLinks.timestampOf, hn]
        rfl
      rw [Option.filter_some, hstamp]
      split_ifs at hq with hnewer
      · obtain ⟨h₁, hh₁, heq⟩ := Option.map_eq_some_iff.mp hq
        cases heq
        obtain ⟨_, -, -, rfl⟩ := PacketLinks.map_deref_eq_some.mp hh₁
        rw [if_neg (by simpa using hnewer)]
        exact ⟨rfl, rfl⟩
      · obtain ⟨q₁, hq₁, heq⟩ := Option.map_eq_some_iff.mp hq
        cases heq
        rw [if_pos (by simpa using hnewer)]
        exact ⟨rfl, (takeOfSource_frame hq₁).1⟩

/-- **What a query gives**: the old packets expire, from the front of the queue of the source,
and the next one is given back if it has the timestamp asked for. -/
theorem Passing.getWaitingOf_result (h : Passing q none l) {r : Retrieval}
    (hr : q.getWaitingOf s timestamp delayed = some r) :
    r.expired = (l.filter (q.links.ofSource s)).takeWhile (isOld q.links timestamp delayed) ∧
      r.result = ((l.filter (q.links.ofSource s)).dropWhile
        (isOld q.links timestamp delayed)).head?.filter (fun a => q.links.timestampOf a =
          timestamp) ∧
      ∀ a ∉ r.expired, r.queue.links.packet a = q.links.packet a := by
  have hsrc := h.sources.linked s
  have hsrcFirst := hsrc.piece.first_eq_or
  rw [Option.or_none] at hsrcFirst
  by_cases hnone : (q.sources s).first = none
  · rw [ReceptionQueue.getWaitingOf, if_pos hnone] at hr
    cases hr
    rw [hnone] at hsrcFirst
    rw [List.head?_eq_none_iff.mp hsrcFirst.symm]
    exact ⟨rfl, rfl, fun _ _ => rfl⟩
  · obtain ⟨q₁, nonempty, ⟨-, -, -, -, before, hsrc₁⟩, hpacket₁, heq⟩ := h.expiredOf rfl rfl hnone
    rw [heq] at hr
    obtain ⟨⟨result, q₂⟩, hq₂, rfl⟩ := Option.map_eq_some_iff.mp hr
    obtain ⟨hresult, hpacket₂⟩ := finishOfSource_result hq₂
    have hfirst₁ := hsrc₁.piece.first_eq_or
    rw [Option.or_none] at hfirst₁
    refine ⟨rfl, ?_, fun a ha => by rw [hpacket₂, hpacket₁ a ha]⟩
    rw [hresult, hfirst₁]
    set S := l.filter (q.links.ofSource s)
    cases hhead : (S.dropWhile (isOld q.links timestamp delayed)).head? with
    | none => rfl
    | some a =>
        have hmem : a ∈ S.dropWhile (isOld q.links timestamp delayed) := List.mem_of_mem_head? hhead
        have hlive : (q.links.packet a).isSome = true :=
          PacketLinks.isSome_of_ofSource (hsrc.ofSource a ((List.dropWhile_sublist _).subset hmem))
        have hold := List.head?_dropWhile_not (isOld q.links timestamp delayed) S
        rw [hhead] at hold
        -- it has not expired, so its timestamp is the one of before
        have hnot : a ∉ S.takeWhile (isOld q.links timestamp delayed) := by
          have hnodup := hsrc.nodup
          rw [← List.takeWhile_append_dropWhile (p := isOld q.links timestamp delayed) (l := S)]
            at hnodup
          exact fun ha => (List.nodup_append.mp hnodup).2.2 a ha a hmem rfl
        have hstamp : q₁.links.timestampOf a = q.links.timestampOf a := by
          rw [PacketLinks.timestampOf, PacketLinks.timestampOf, hpacket₁ a hnot]
        rw [Option.filter_some, Option.filter_some, hstamp]
        exact if_congr (by simpa using le_iff_of_not_isOld hlive (by simpa using hold)) rfl rfl

/-! ## What is left of the lists -/

/-- The ends of the global queue behind a query that has selected no packet. -/
theorem recvFirst_of_finishOfSource (hq : q.finishOfSource s timestamp nonempty = some (none, q'))
    (hflag : (q.sources s).first = none → nonempty = true) :
    q'.recvFirst = q.recvFirst ∧ q'.recvLast = q.recvLast := by
  rw [finishOfSource] at hq
  cases hfirst : (q.sources s).first with
  | none =>
      rw [hfirst] at hq
      cases hq
      rw [hflag hfirst, if_pos rfl]
      exact ⟨rfl, rfl⟩
  | some a =>
      rw [hfirst] at hq
      obtain ⟨n, -, hq⟩ := Option.bind_eq_some_iff.mp hq
      split_ifs at hq
      · obtain ⟨h₁, -, heq⟩ := Option.map_eq_some_iff.mp hq
        cases heq
        exact ⟨rfl, rfl⟩
      · obtain ⟨_, -, heq⟩ := Option.map_eq_some_iff.mp hq
        cases heq

/-- A packet that is given back has been taken out of both queues. -/
theorem takeOfSource_of_finishOfSource
    (hq : q.finishOfSource s timestamp nonempty = some (some a, q')) :
    q.takeOfSource s a = some q' := by
  rw [finishOfSource] at hq
  cases hfirst : (q.sources s).first with
  | none =>
      rw [hfirst] at hq
      cases hq
  | some b =>
      rw [hfirst] at hq
      obtain ⟨n, -, hq⟩ := Option.bind_eq_some_iff.mp hq
      split_ifs at hq
      · obtain ⟨_, -, heq⟩ := Option.map_eq_some_iff.mp hq
        cases heq
      · obtain ⟨q₁, hq₁, heq⟩ := Option.map_eq_some_iff.mp hq
        cases heq
        exact hq₁

/-- Where the ends of the global queue are as before, they have not left it. -/
theorem WellFormed.of_mem_head? {P : ℕ → Bool} (h : WellFormed q (l.filter P))
    (hfirst : q.recvFirst = l.head?) : ∀ b ∈ l.head?, P b = true := by
  intro b hb
  rw [← hfirst, h.global.first_eq] at hb
  exact (List.mem_filter.mp (List.mem_of_mem_head? hb)).2

theorem WellFormed.of_mem_getLast? {P : ℕ → Bool} (h : WellFormed q (l.filter P))
    (hlast : q.recvLast = l.getLast?) : ∀ b ∈ l.getLast?, P b = true := by
  intro b hb
  rw [← hlast, h.global.last_eq] at hb
  exact (List.mem_filter.mp (List.mem_of_mem_getLast? hb)).2

/-- Behind the packet that a query selects, no other one of the source still links back to it. -/
theorem takeOfSource_nil {before : Option ℕ} (hsrc : SourceLinked q s before (a :: R))
    (hq : q.takeOfSource s a = some q') {m : List ℕ} (h : WellFormed q' m) : R = [] := by
  obtain ⟨honly, before', -, hsrc'⟩ := takeOfSource_spec hsrc hq
  cases R with
  | nil => rfl
  | cons b R =>
      have hprev : q.links.srcPrev b = some a := by
        obtain ⟨r, -, -, -, hrest⟩ := piece_cons.mp hsrc.piece
        obtain ⟨-, -, -, hprev, -⟩ := piece_cons.mp hrest
        exact Option.some_inj.mp hprev
      have hlinked := (wellFormed_iff.mp h).sources.linked s
      have hfirst := hsrc'.piece.first_eq
      have hhead := hlinked.piece.first_eq_or
      rw [hfirst, Option.or_none] at hhead
      obtain ⟨m', hm'⟩ := List.head?_eq_some_iff.mp hhead.symm
      rw [hm'] at hlinked
      obtain ⟨-, -, -, hprev', -⟩ := piece_cons.mp hlinked.piece
      rw [follow_apply, (takeOfSource_frame hq).2.1, hprev] at hprev'
      cases hprev'

/-- If no packet is left before the one that a query selects, they all have expired. -/
theorem takeWhile_eq_of_prev {p : ℕ → Bool} (hnodup : l.Nodup) (hsplit : l.filter p = O ++ [a])
    {first last : Option ℕ} (hg : q.links.GlobalLinked none first last (l.diff O))
    (hprev : q.links.prev a = none) : l.takeWhile (fun b => b ≠ a) = O := by
  obtain ⟨l₁, l₂, rfl, ha₁, htake, hdiff⟩ := split_of_filter_eq hnodup hsplit
  rw [hdiff] at hg
  have hlinks := hg.links.2
  rw [hprev, Option.or_none] at hlinks
  have hnil : l₁.filter (fun b => b ∉ O) = [] := List.getLast?_eq_none_iff.mp hlinks.symm
  have hexpired : ∀ b ∈ l₁, b ∈ O := by
    intro b hb
    by_contra hnot
    exact List.filter_eq_nil_iff.mp hnil b hb (by simpa using hnot)
  have hp : ∀ b ∈ O ++ [a], p b = true := by
    intro b hb
    rw [← hsplit] at hb
    exact (List.mem_filter.mp hb).2
  have hall : l₁.filter p = l₁ := List.filter_eq_self.mpr
    (fun b hb => hp b (List.mem_append_left _ (hexpired b hb)))
  have ha₂ : a ∉ l₂.filter p := fun h =>
    (List.nodup_cons.mp (List.nodup_append.mp hnodup).2.1).1 (List.mem_filter.mp h).1
  rw [List.filter_append, hall, List.filter_cons_of_pos (hp a (by simp))] at hsplit
  rw [htake]
  exact ((List.append_cons_inj_of_notMem ha₁ ha₂).mp hsplit).1

/-- **A query behind which the lists are in order has run into no slip.** -/
theorem Passing.queryKeeps_of_wellFormed (h : Passing q none l) {r : Retrieval}
    (hO : (l.filter (q.links.ofSource s)).takeWhile (isOld q.links timestamp delayed) = O)
    (hR : (l.filter (q.links.ofSource s)).dropWhile (isOld q.links timestamp delayed) = R)
    (hr : q.getWaitingOf s timestamp delayed = some r)
    (hwf : WellFormed r.queue (l.filter (fun a => a ∉ r.expired ++ r.result.toList))) :
    QueryKeeps q.links timestamp l O R := by
  have hnodup := h.global.nodup
  have hsplit : l.filter (q.links.ofSource s) = O ++ R := by
    rw [← hO, ← hR, List.takeWhile_append_dropWhile]
  have hsrcFirst := (h.sources.linked s).piece.first_eq_or
  rw [Option.or_none, hsplit] at hsrcFirst
  by_cases hnone : (q.sources s).first = none
  · -- the source has no packets
    rw [hnone] at hsrcFirst
    obtain ⟨rfl, rfl⟩ := List.append_eq_nil_iff.mp (List.head?_eq_none_iff.mp hsrcFirst.symm)
    exact Or.inr ⟨fun _ _ => List.not_mem_nil, fun _ _ => List.not_mem_nil⟩
  · obtain ⟨q₁, nonempty, ⟨hg₁, hflag, hfirst₁, hlast₁, before, hsrc₁⟩, hpacket₁, heq⟩ :=
      h.expiredOf hO hR hnone
    rw [heq] at hr
    obtain ⟨⟨result, q₂⟩, hq₂, rfl⟩ := Option.map_eq_some_iff.mp hr
    dsimp only at hwf
    have hhead : q₂.recvFirst = l.head? → ∀ b ∈ l.head?, b ∉ O := by
      intro hfirst b hb hbO
      have hnot := hwf.of_mem_head? hfirst b hb
      simp [hbO] at hnot
    cases R with
    | nil =>
        rw [QueryKeeps]
        by_cases hall : l = O
        · exact Or.inl hall
        · right
          have hleft : l.diff O ≠ [] := by
            intro hnil
            rw [hnodup.sdiff_eq_filter] at hnil
            apply hall
            rw [List.append_nil] at hsplit
            rw [← hsplit, eq_comm, List.filter_eq_self]
            intro b hb
            have hbO : b ∈ O := by
              by_contra hnot
              exact List.filter_eq_nil_iff.mp hnil b hb (by simpa using hnot)
            rw [← hsplit] at hbO
            exact (List.mem_filter.mp hbO).2
          have hO' : O ≠ [] := by
            rintro rfl
            exact hnone hsrcFirst
          have hnil := (piece_nil.mp hsrc₁.piece).1
          have hresult := (finishOfSource_result hq₂).1
          rw [hnil, Option.filter_none] at hresult
          subst hresult
          obtain ⟨hfirst₂, hlast₂⟩ := recvFirst_of_finishOfSource hq₂ (fun _ => by
            rw [hflag hO']
            exact decide_eq_true hleft)
          refine ⟨hhead (hfirst₂.trans hfirst₁), fun b hb hbO => ?_⟩
          have hnot := hwf.of_mem_getLast? (hlast₂.trans hlast₁) b hb
          simp [hbO] at hnot
    | cons a R =>
        have haO : a ∉ O := by
          have hnodup' := (h.sources.linked s).nodup
          rw [hsplit] at hnodup'
          exact fun ha => (List.nodup_append.mp hnodup').2.2 a ha a List.mem_cons_self rfl
        have hstamp : q₁.links.timestampOf a =
            (q.links.packet a).elim 0 WaitingPacket.timestamp := by
          rw [PacketLinks.timestampOf, hpacket₁ a haO]
        have hfirst := hsrc₁.piece.first_eq
        have hresult := (finishOfSource_result hq₂).1
        rw [hfirst, Option.filter_some, hstamp] at hresult
        rw [QueryKeeps]
        split_ifs with hnewer
        · rw [if_neg (by simpa using hnewer)] at hresult
          subst hresult
          obtain ⟨hfirst₂, -⟩ := recvFirst_of_finishOfSource hq₂ (fun hnil => by
            rw [hfirst] at hnil
            cases hnil)
          exact hhead (hfirst₂.trans hfirst₁)
        · rw [if_pos (by simpa using hnewer)] at hresult
          subst hresult
          have htake := takeOfSource_of_finishOfSource hq₂
          obtain rfl := takeOfSource_nil hsrc₁ htake hwf
          refine ⟨rfl, ?_⟩
          have hfirst₂ := (takeOfSource_frame htake).2.2
          by_cases hprev : q₁.links.prev a = none
          · exact Or.inr (takeWhile_eq_of_prev hnodup hsplit hg₁ hprev)
          · rw [if_neg hprev] at hfirst₂
            exact Or.inl (hhead (hfirst₂.trans hfirst₁))

end ReceptionQueue

open ReceptionQueue

/-- **Source specific retrieval.**  On every queue whose lists are in order, a query does all of
what it should if and only if it runs into none of the slips: it returns, old packets of the
source expire and no others, the next one is given back exactly if it has the timestamp asked
for, and the lists without these packets are in order. -/
theorem source_specific_retrieval_iff {q : ReceptionQueue} {l : List ℕ} (h : WellFormed q l) {s : ℕ}
    (hmine : q.isMine s = true) (timestamp : BitVec 32) (delayed : ℕ → Bool) :
    (∃ r, q.getWaiting timestamp (some s) delayed = some r ∧
      r.expired = (q.packetsOf s).takeWhile (isOld q.links timestamp delayed) ∧
      r.result = ((q.packetsOf s).dropWhile (isOld q.links timestamp delayed)).head?.filter
        (fun a => q.links.timestampOf a = timestamp) ∧ Leaves q l r) ↔
      q.KeepsLists (.getData timestamp (some s) delayed) := by
  have hpass := wellFormed_iff.mp h
  rw [KeepsLists, getWaiting, if_pos hmine, hpass.packets_eq, h.packetsOf_eq, imp_iff_right hmine]
  constructor
  · rintro ⟨r, hr, -, -, hleaves⟩
    exact hpass.queryKeeps_of_wellFormed rfl rfl hr hleaves.wellFormed
  · intro hkeeps
    obtain ⟨r, hr, hwf⟩ := hpass.getWaiting_of hkeeps
    obtain ⟨hexpired, hresult, hpacket⟩ := hpass.getWaitingOf_result hr
    exact ⟨r, hr, hexpired, hresult, h.leaves (wellFormed_iff.mpr hwf) hpacket⟩

/-- Of two sources, the one with the later packet is asked. -/
theorem source_specific_retrieval_last_packet :
    ∃ q r, WellFormed q [0, 1] ∧ q.getWaiting 160 (some 1) (fun _ => false) = some r ∧
      r.result = some 1 ∧ Leaves q [0, 1] r := by
  have hrun : ([⟨7, 0, 0⟩, ⟨1, 160, 1⟩].foldl (partialStep received)
      (some (.new (fun _ => true)))).any (fun q => decide (q.packets = [0, 1]) && q.isMine 1 &&
        decide (q.KeepsLists (.getData 160 (some 1) (fun _ => false))) &&
        decide (((q.packetsOf 1).dropWhile (isOld q.links 160 (fun _ => false))).head?.filter
          (fun a => q.links.timestampOf a = 160) = some 1)) = true := by
    decide
  obtain ⟨q, hq, h⟩ := wellFormed_received (fun _ => true) [⟨7, 0, 0⟩, ⟨1, 160, 1⟩] (by decide)
  rw [hq, Option.any_some, Bool.and_eq_true, Bool.and_eq_true, Bool.and_eq_true,
    decide_eq_true_iff, decide_eq_true_iff, decide_eq_true_iff] at hrun
  obtain ⟨⟨⟨hpackets, hmine⟩, hkeeps⟩, hresult⟩ := hrun
  rw [hpackets] at h
  obtain ⟨r, hr, -, hresult', hleaves⟩ :=
    (source_specific_retrieval_iff h hmine 160 (fun _ => false)).mpr hkeeps
  exact ⟨q, r, h, hr, hresult'.trans hresult, hleaves⟩

/-- Of two packets of a source the first one is taken: the second one still links back to it. -/
theorem source_specific_retrieval_dangling :
    ∃ q, WellFormed q [0, 1] ∧ q.isMine 0 = true ∧
      ¬ ∃ r, q.getWaiting 0 (some 0) (fun _ => false) = some r ∧ Leaves q [0, 1] r := by
  have hrun : ([⟨5, 0, 0⟩, ⟨6, 160, 0⟩].foldl (partialStep received)
      (some (.new (fun _ => true)))).any (fun q => decide (q.packets = [0, 1]) && q.isMine 0 &&
        (q.getWaiting 0 (some 0) (fun _ => false)).any (fun r =>
          decide ((r.queue.sources 0).first = some 1) &&
            decide (r.queue.links.srcPrev 1 = some 0))) = true := by
    decide
  obtain ⟨q, hq, h⟩ := wellFormed_received (fun _ => true) [⟨5, 0, 0⟩, ⟨6, 160, 0⟩] (by decide)
  rw [hq, Option.any_some, Bool.and_eq_true, Bool.and_eq_true, decide_eq_true_iff] at hrun
  obtain ⟨⟨hpackets, hmine⟩, hout⟩ := hrun
  rw [hpackets] at h
  refine ⟨q, h, hmine, ?_⟩
  rintro ⟨r, hr, hleaves⟩
  rw [hr, Option.any_some, Bool.and_eq_true, decide_eq_true_iff, decide_eq_true_iff] at hout
  -- so the first packet of the source links back to another one
  have hsource := hleaves.wellFormed.source 0
  have hhead := hsource.first_eq
  rw [hout.1] at hhead
  obtain ⟨m, hm⟩ := List.head?_eq_some_iff.mp hhead.symm
  rw [hm] at hsource
  obtain ⟨-, -, -, hprev, -⟩ := piece_cons.mp hsource.piece
  rw [follow_apply, hout.2] at hprev
  cases hprev
