/-
# Removal from the membership table

What `removeSource` (`src/members.cpp`) leaves of a table that requests have filled.  The links
to the source before are never set, so the source removed stays linked in the list of all
sources, and the head of a bucket, `first` and `last` are not looked at.

* `RemovesSource` : a source is removed from all lists;
* `unlinkSource_keeps` : the list of all sources still leads to the source removed;
* `source_removal_iff` : after every run of requests, removal is right exactly for SSRCs that
  are not in the table.
-/
import CcRtp.MembershipCalls

namespace MembershipBookkeeping

variable {n : ℕ} [NeZero n] {uninit : ℕ → Bool} {m m' : MembershipBookkeeping n}
  {chains : Fin n → List ℕ} {link : BitVec 32 → ℕ} {reqs : List (BitVec 32)} {ssrc : BitVec 32}

/-- The objects of a list, without those of the SSRC. -/
def without (m : MembershipBookkeeping n) (ssrc : BitVec 32) (l : List ℕ) : List ℕ :=
  l.filter (fun a => m.idOf a ≠ ssrc)

/-- **The removal of a source**: whether it was registered; then it is not, and all others are
as before.  The collision lists and the list of all sources are the old ones without it, and
the next request creates it again. -/
structure RemovesSource (uninit : ℕ → Bool) (m : MembershipBookkeeping n) (ssrc : BitVec 32)
    (found : Bool) (m' : MembershipBookkeeping n) : Prop where
  found_iff : found = true ↔ m.isRegistered ssrc = some true
  removed : m'.isRegistered ssrc = some false
  others : ∀ x, x ≠ ssrc → m'.isRegistered x = m.isRegistered x
  chain : ∀ i l, Segment (m.links.view SyncSourceLink.nextCollis) (m.sourceLinks i) l none →
    Segment (m'.links.view SyncSourceLink.nextCollis) (m'.sourceLinks i) (m.without ssrc l) none
  listed : ∀ l, Segment (m.links.view SyncSourceLink.next) m.first l none → m.last = l.getLast? →
    Segment (m'.links.view SyncSourceLink.next) m'.first (m.without ssrc l) none ∧
      m'.last = (m.without ssrc l).getLast?
  afresh : ∃ a m'', m'.getSourceBySSRC uninit ssrc = some (a, true, m'')

/-! ## The list of all sources -/

omit [NeZero n] in
/-- An assignment to an object of the table. -/
theorem modifyLink_eq_some {a : ℕ} {f : SyncSourceLink → SyncSourceLink}
    (h : m.modifyLink a f = some m') : ∃ sl, m.links a = some sl ∧ m' = m.setLink a (f sl) := by
  obtain ⟨links, hlinks, rfl⟩ := Option.map_eq_some_iff.mp h
  obtain ⟨sl, hsl, rfl⟩ := Heap.modify_eq_some.mp hlinks
  exact ⟨sl, hsl, rfl⟩

omit [NeZero n] in
/-- Assignments to other members leave the list of all sources alone. -/
theorem modifyLink_keeps {a : ℕ} {f : SyncSourceLink → SyncSourceLink}
    (h : m.modifyLink a f = some m') (hf : ∀ sl, (f sl).next = sl.next) :
    m'.first = m.first ∧ m'.links.view SyncSourceLink.next = m.links.view SyncSourceLink.next := by
  obtain ⟨sl, hsl, rfl⟩ := modifyLink_eq_some h
  exact ⟨rfl, Heap.view_write_of_eq hsl (hf sl)⟩

omit [NeZero n] in
/-- **The list of all sources still leads to the source removed**, since no source links to the
one before it. -/
theorem unlinkSource_keeps {old : Option ℕ} {a : ℕ} {s : SyncSourceLink} (hprev : s.prev = none)
    (h : m.unlinkSource old a s = some m') : m'.first = m.first ∧
      ∀ b, b ≠ a → m'.links.view SyncSourceLink.next b = m.links.view SyncSourceLink.next b := by
  unfold unlinkSource at h
  simp only [hprev] at h
  obtain ⟨m₃, h₃, rfl⟩ := Option.map_eq_some_iff.mp h
  obtain ⟨m₂, h₂, h₃⟩ := Option.bind_eq_some_iff.mp h₃
  obtain ⟨m₁, h₁, heq⟩ := Option.bind_eq_some_iff.mp h₂
  obtain rfl : m₁ = m₂ := Option.some_inj.mp heq
  have hcollis : m₁.first = m.first ∧
      m₁.links.view SyncSourceLink.next = m.links.view SyncSourceLink.next := by
    cases old with
    | none =>
        cases h₁
        exact ⟨rfl, rfl⟩
    | some o =>
        have hset : m.modifyLink o (fun sl => { sl with nextCollis := s.nextCollis }) = some m₁ :=
          h₁
        exact modifyLink_keeps hset (fun _ => rfl)
  have hback : m₃.first = m₁.first ∧
      m₃.links.view SyncSourceLink.next = m₁.links.view SyncSourceLink.next := by
    cases hq : s.next with
    | none =>
        rw [hq] at h₃
        cases h₃
        exact ⟨rfl, rfl⟩
    | some q =>
        rw [hq] at h₃
        have hset : m₁.modifyLink q (fun sl => { sl with prev := none }) = some m₃ := h₃
        exact modifyLink_keeps hset (fun _ => rfl)
  refine ⟨hback.1.trans hcollis.1, fun b hb => ?_⟩
  rw [Heap.view_delete, Function.update_of_ne hb, hback.2, hcollis.2]

/-- The source that `removeSource` finds. -/
theorem Table.removeSource_of_mem (h : Table m chains) (hssrc : ssrc ∈ m.idsFor chains ssrc)
    {found : Bool} (hremove : m.removeSource ssrc = some (found, m')) :
    ∃ old a s, a ∈ chains (hash ssrc) ∧ m.links a = some s ∧ s.id = ssrc ∧
      m.unlinkSource old a s = some m' := by
  rw [MembershipBookkeeping.removeSource, removeLoop_eq ssrc none (h.chain _) (h.length_le _)]
    at hremove
  obtain ⟨l₁, l₂, hl, h₁, ⟨a, l₃, rfl, rfl, hplace⟩ | ⟨h₂, -⟩⟩ := h.place_cases ssrc
  · rw [hplace] at hremove
    obtain ⟨s, hs, hremove⟩ := Option.bind_eq_some_iff.mp hremove
    obtain ⟨m'', hunlink, heq⟩ := Option.map_eq_some_iff.mp hremove
    cases heq
    refine ⟨_, a, s, ?_, hs, (idOf_eq hs).symm, hunlink⟩
    rw [hl]
    exact List.mem_append_right l₁ List.mem_cons_self
  · exact absurd hssrc (notMem_idsFor hl h₁ h₂)

/-- An SSRC that is not in the table is not found. -/
theorem Table.removeSource_of_notMem (h : Table m chains) (hssrc : ssrc ∉ m.idsFor chains ssrc) :
    m.removeSource ssrc = some (false, m) := by
  rw [MembershipBookkeeping.removeSource, removeLoop_eq ssrc none (h.chain _) (h.length_le _)]
  obtain ⟨l₁, l₂, hl, h₁, ⟨a, l₃, rfl, rfl, hplace⟩ | ⟨h₂, hplace⟩⟩ := h.place_cases ssrc
  · refine absurd ?_ hssrc
    rw [idsFor, hl]
    exact List.mem_map_of_mem (List.mem_append_right l₁ List.mem_cons_self)
  · rw [hplace]
    cases l₂ <;> rfl

/-! ## Tables filled by requests -/

/-- Requests keep the table in order. -/
theorem Orderly.requestAll (h : Orderly m chains) {reqs : List (BitVec 32)}
    {out : List (ℕ × Bool)} (hrun : m.requestAll uninit reqs = some (out, m')) :
    ∃ chains', Orderly m' chains' := by
  induction reqs generalizing m chains out with
  | nil =>
      cases hrun
      exact ⟨chains, h⟩
  | cons ssrc reqs ih =>
      obtain ⟨a, created, m₁, chains₁, hget, hrequested⟩ := h.getSourceBySSRC uninit ssrc
      rw [MembershipBookkeeping.requestAll, hget, Option.bind_some] at hrun
      obtain ⟨⟨out', m₂⟩, hrest, heq⟩ := Option.map_eq_some_iff.mp hrun
      cases heq
      exact ih hrequested.orderly hrest

omit [NeZero n] in
/-- A source that is not there is removed from no list. -/
theorem without_of_notMem {l : List ℕ} (hl : ∀ a ∈ l, m.idOf a ≠ ssrc) : m.without ssrc l = l :=
  List.filter_eq_self.mpr (fun a ha => decide_eq_true (hl a ha))

/-- The SSRCs of a bucket are those requested. -/
theorem Refines.mem_idsFor (h : Refines m chains link reqs) :
    ssrc ∈ m.idsFor chains ssrc ↔ ssrc ∈ reqs := by
  rw [idsFor, h.mem_ids, and_iff_left rfl]

/-- **An SSRC that was not requested** is not found, and nothing changes. -/
theorem Refines.removesSource (h : Refines m chains link reqs) (hssrc : ssrc ∉ reqs) :
    RemovesSource uninit m ssrc false m := by
  have hnot : ssrc ∉ m.idsFor chains ssrc := mt h.mem_idsFor.mp hssrc
  have hreg : m.isRegistered ssrc = some false := by
    rw [h.table.isRegistered_eq, decide_eq_false hnot]
  have hne : ∀ s ∈ reqs, m.idOf (link s) ≠ ssrc := by
    rintro s hs heq
    rw [h.id_link s hs] at heq
    exact hssrc (heq ▸ hs)
  refine ⟨?_, hreg, fun _ _ => rfl, fun i l hl => ?_, fun l hl hlast => ?_, ?_⟩
  · rw [hreg]
    simp
  · obtain rfl := hl.unique (h.table.chain i)
    rw [without_of_notMem]
    · exact hl
    · intro a ha
      obtain ⟨s, hs, rfl, -⟩ := (h.mem_chain i a).mp ha
      exact hne s hs
  · obtain rfl := hl.unique h.listed
    rw [without_of_notMem]
    · exact ⟨hl, hlast⟩
    · intro a ha
      obtain ⟨s, hs, rfl⟩ := List.mem_map.mp ha
      exact hne s (mem_firstRequests.mp hs)
  · obtain ⟨m', chains', hget, -⟩ := h.request_new uninit hssrc
    exact ⟨_, m', hget⟩

/-- **A source that is there** stays in the list of all sources. -/
theorem Refines.not_removesSource (h : Refines m chains link reqs) (hssrc : ssrc ∈ reqs)
    (hprev : ∀ a s, m.links a = some s → s.prev = none) {found : Bool}
    (hremove : m.removeSource ssrc = some (found, m')) :
      ¬ RemovesSource uninit m ssrc found m' := by
  intro hright
  obtain ⟨old, a, s, ha, hs, hid, hunlink⟩ :=
    h.table.removeSource_of_mem (h.mem_idsFor.mpr hssrc) hremove
  obtain ⟨hfirst, hnext⟩ := unlinkSource_keeps (hprev a s hs) hunlink
  obtain rfl : link ssrc = a := by
    obtain ⟨r, hr, rfl, -⟩ := (h.mem_chain _ _).mp ha
    rw [← idOf_eq hs, h.id_link r hr] at hid
    rw [hid]
  obtain ⟨r₁, r₂, hr⟩ := List.append_of_mem (mem_firstRequests.mpr hssrc)
  have hnodup := nodup_firstRequests reqs
  have hmem : ∀ r ∈ r₁ ++ r₂, r ∈ reqs ∧ r ≠ ssrc := by
    intro r hrmem
    rw [hr, List.nodup_middle, List.nodup_cons] at hnodup
    refine ⟨mem_firstRequests.mp ?_, fun heq => hnodup.1 (heq ▸ hrmem)⟩
    rw [hr, List.mem_append, List.mem_cons]
    exact (List.mem_append.mp hrmem).imp_right Or.inr
  have hids : ∀ b ∈ (r₁ ++ r₂).map link, m.idOf b ≠ ssrc := by
    intro b hb heq
    obtain ⟨r, hrmem, rfl⟩ := List.mem_map.mp hb
    rw [h.id_link r (hmem r hrmem).1] at heq
    exact (hmem r hrmem).2 heq
  have hwithout : m.without ssrc ((firstRequests reqs).map link) = (r₁ ++ r₂).map link := by
    rw [hr, List.map_append, List.map_cons, without, List.filter_append,
      List.filter_cons_of_neg (by simp [h.id_link ssrc hssrc]), ← List.filter_append,
      ← List.map_append]
    exact without_of_notMem hids
  have hnot : link ssrc ∉ (r₁ ++ r₂).map link := fun hb => hids _ hb (h.id_link ssrc hssrc)
  rw [List.map_append, List.mem_append, not_or] at hnot
  -- the sources in front of it lead to it, before and after
  have hafter := (hright.listed _ h.listed h.last).1
  have hbefore := h.listed
  rw [hwithout, List.map_append, hfirst] at hafter
  rw [hr, List.map_append] at hbefore
  obtain ⟨p, hp, rfl, -⟩ := segment_append.mp hbefore
  obtain ⟨p', hp', hrest⟩ := segment_append.mp hafter
  have hsame := hp.congr (fun b hb => hnext b (fun heq => hnot.1 (heq ▸ hb)))
  have heq := hsame.end_unique hp'
  rw [hrest.eq_head?] at heq
  exact hnot.2 (List.mem_of_mem_head? (Option.mem_def.mpr heq.symm))

end MembershipBookkeeping

open MembershipBookkeeping in
/-- **Removal from the table.**  After every run of requests, the removal of an SSRC returns and
is right exactly if the SSRC has not been requested: a source that is there stays in the list of
all sources. -/
theorem source_removal_iff {n : ℕ} [NeZero n] (uninit : ℕ → Bool) (reqs : List (BitVec 32))
    {out : List (ℕ × Bool)} {m : MembershipBookkeeping n}
    (hrun : (empty n).requestAll uninit reqs = some (out, m)) (ssrc : BitVec 32) :
    (∃ found m', m.removeSource ssrc = some (found, m') ∧ RemovesSource uninit m ssrc found m') ↔
      ssrc ∉ reqs := by
  obtain ⟨out', m', chains, link, hrun', h, -⟩ :=
    Refines.requestAll uninit reqs (refines_empty (n := n) (fun _ => 0))
  rw [hrun] at hrun'
  cases hrun'
  rw [List.nil_append] at h
  obtain ⟨chains', horderly⟩ := orderly_empty.requestAll hrun
  constructor
  · rintro ⟨found, m', hremove, hright⟩ hssrc
    exact h.not_removesSource hssrc (fun a s hs => horderly.prev_eq_none hs) hremove hright
  · intro hssrc
    exact ⟨false, m, h.table.removeSource_of_notMem (mt h.mem_idsFor.mp hssrc),
      h.removesSource hssrc⟩

open MembershipBookkeeping in
/-- An SSRC that falls into the bucket of two others but is not there. -/
theorem source_removal_absent : ∃ (out : List (ℕ × Bool)) (m : MembershipBookkeeping 11),
    (empty 11).requestAll (fun _ => false) [33, 11] = some (out, m) ∧
      ∃ found m', m.removeSource 44 = some (found, m') ∧
        RemovesSource (fun _ => false) m 44 found m' := by
  have hruns : ((empty 11).requestAll (fun _ => false) [33, 11]).isSome = true := by decide
  obtain ⟨⟨out, m⟩, hrun⟩ := Option.isSome_iff_exists.mp hruns
  exact ⟨out, m, hrun, (source_removal_iff (fun _ => false) [33, 11] hrun 44).mpr (by decide)⟩

open MembershipBookkeeping in
/-- The only source is removed: its object is deleted, and `isRegistered` follows the bucket's
pointer to it. -/
theorem removal_leaves_bucket : ∃ (out : List (ℕ × Bool)) (m : MembershipBookkeeping 11),
    (empty 11).requestAll (fun _ => false) [33] = some (out, m) ∧
      ¬ ∃ found m', m.removeSource 33 = some (found, m') ∧
        RemovesSource (fun _ => false) m 33 found m' := by
  have hruns : ((empty 11).requestAll (fun _ => false) [33]).isSome = true := by decide
  obtain ⟨⟨out, m⟩, hrun⟩ := Option.isSome_iff_exists.mp hruns
  refine ⟨out, m, hrun, ?_⟩
  rintro ⟨found, m', hremove, hright⟩
  have hlookup : (((empty 11).requestAll (fun _ => false) [33]).bind (fun r =>
      r.2.removeSource 33)).bind (fun r => r.2.isRegistered 33) = none := by decide
  rw [hrun, Option.bind_some, hremove, Option.bind_some, hright.removed] at hlookup
  cases hlookup
