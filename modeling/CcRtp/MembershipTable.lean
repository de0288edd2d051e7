/-
# Membership tables in order

What the lookup functions of `MembershipBookkeeping` do to a table whose collision lists
are linked, sorted and in their buckets.

* `LinkedNew`, `Created` : what a new source changes, in its collision list and in the whole
  table;
* `Table.isRegistered_eq`, `Table.getSourceBySSRC_of_mem`,
  `Table.getSourceBySSRC_of_notMem` : the answers of the lookup functions;
* `membership_refines_insertion_order` : along every run of requests the table is a set of
  SSRCs with their order of first request.
-/
import CcRtp.Membership

namespace MembershipBookkeeping

variable {n : ℕ} {m : MembershipBookkeeping n} {ssrc : BitVec 32}

/-! ## Linking a new source -/

/-- `setNextCollis` of an object that is there. -/
theorem setNextCollis_eq {a : ℕ} {sl : SyncSourceLink} (h : m.links a = some sl)
    (q : Option ℕ) :
    m.setNextCollis (some a) q
      = some { m with links := m.links.write a { sl with nextCollis := q } } := by
  rw [setNextCollis, Option.bind_some, modifyLink, Heap.modify, h]
  rfl

/-- A member of the link objects that linking does not touch. -/
def IgnoresLinks {β : Type} (g : SyncSourceLink → β) : Prop :=
  ∀ sl p q, g { sl with next := p, nextCollis := q } = g sl

section Linking

variable [NeZero n] (uninit : ℕ → Bool)

/-- A new source has been linked between `l₁` and `l₂` in the list of its bucket. -/
structure LinkedNew (m : MembershipBookkeeping n) (ssrc : BitVec 32) (l₁ l₂ : List ℕ)
    (m₁ : MembershipBookkeeping n) : Prop where
  segment : Segment (m₁.links.view SyncSourceLink.nextCollis) (m₁.sourceLinks (hash ssrc))
    (l₁ ++ m.fresh :: l₂) none
  others : ∀ b, b ≠ m.fresh → b ∉ l₁ → m₁.links.view SyncSourceLink.nextCollis b
    = m.links.view SyncSourceLink.nextCollis b
  buckets : ∀ i, i ≠ hash ssrc → m₁.sourceLinks i = m.sourceLinks i
  next : m₁.links.view SyncSourceLink.next
    = Function.update (m.links.view SyncSourceLink.next) m.fresh (some none)
  member : ∀ {β : Type} (g : SyncSourceLink → β), IgnoresLinks g → m₁.links.view g
    = Function.update (m.links.view g) m.fresh (some (g (.new ssrc (uninit m.fresh))))
  frame : m₁.first = m.first ∧ m₁.last = m.last ∧ m₁.members = m.members ∧
    m₁.activeSenders = m.activeSenders ∧ m₁.fresh = m.fresh + 1

variable {uninit} {l₁ l₂ : List ℕ} {m₁ : MembershipBookkeeping n}

/-- The new object as the head of the bucket. -/
theorem linkedNew_setBucket (uninit : ℕ → Bool) : LinkedNew uninit m ssrc [] []
    ((m.newLink uninit ssrc).setBucket (hash ssrc) (some m.fresh)) := by
  have hview : ((m.newLink uninit ssrc).setBucket (hash ssrc) (some m.fresh)).links.view
      SyncSourceLink.nextCollis
      = Function.update (m.links.view SyncSourceLink.nextCollis) m.fresh (some none) :=
    Heap.view_write ..
  refine ⟨?_, ?_, ?_, Heap.view_write .., fun g _ => Heap.view_write .., rfl, rfl, rfl, rfl, rfl⟩
  · rw [hview, List.nil_append, segment_singleton]
    exact ⟨Function.update_self .., Function.update_self ..⟩
  · intro b hb _
    rw [hview, Function.update_of_ne hb]
  · intro i hi
    exact Function.update_of_ne hi ..

/-- The new object behind another one; what came there before is cut off. -/
theorem linkedNew_behind (uninit : ℕ → Bool) {p : ℕ} {q : Option ℕ} (hp : p ∉ l₁)
    (hfresh : m.fresh ∉ l₁ ++ [p])
    (h : Segment (m.links.view SyncSourceLink.nextCollis) (m.sourceLinks (hash ssrc))
      (l₁ ++ [p]) q) :
    ∃ m₁, (m.newLink uninit ssrc).setNextCollis (some p) (some m.fresh) = some m₁ ∧
      LinkedNew uninit m ssrc (l₁ ++ [p]) [] m₁ := by
  obtain ⟨sl, hsl, -⟩ := Heap.view_eq_some.mp (segment_concat.mp h).2
  have hne : p ≠ m.fresh := by
    rintro rfl
    exact hfresh (List.mem_append_right l₁ List.mem_cons_self)
  have hsl' : (m.newLink uninit ssrc).links p = some sl := by
    rw [← hsl]
    exact Heap.write_of_ne hne _
  refine ⟨_, setNextCollis_eq hsl' _, ?_, ?_, fun i _ => rfl, ?_, ?_, rfl, rfl, rfl, rfl, rfl⟩
  · rw [Heap.view_write, newLink, Heap.view_write, segment_concat]
    refine ⟨(h.update_of_notMem _ hfresh).redirect _ hp, ?_⟩
    rw [Function.update_of_ne hne.symm, Function.update_self]
    rfl
  · intro b hb hl
    have hbp : b ≠ p := by
      rintro rfl
      exact hl (List.mem_append_right l₁ List.mem_cons_self)
    rw [Heap.view_write, Function.update_of_ne hbp, newLink, Heap.view_write,
      Function.update_of_ne hb]
  · refine (Heap.view_write_of_eq hsl' ?_).trans (Heap.view_write ..)
    rfl
  · intro β g hg
    exact (Heap.view_write_of_eq hsl' (hg sl sl.next _)).trans (Heap.view_write ..)

/-- What was cut off is linked behind the new object. -/
theorem LinkedNew.setNextCollis {q : Option ℕ} (hnew : LinkedNew uninit m ssrc l₁ [] m₁)
    (hfresh₁ : m.fresh ∉ l₁) (hfresh₂ : m.fresh ∉ l₂) (hdisj : l₁.Disjoint l₂)
    (h : Segment (m.links.view SyncSourceLink.nextCollis) q l₂ none) :
    ∃ m₂, m₁.setNextCollis (some m.fresh) q = some m₂ ∧ LinkedNew uninit m ssrc l₁ l₂ m₂ := by
  obtain ⟨sl, hsl, -⟩ := Heap.view_eq_some.mp (segment_concat.mp hnew.segment).2
  refine ⟨_, setNextCollis_eq hsl _, ?_, ?_, hnew.buckets, ?_, ?_, hnew.frame⟩
  · rw [Heap.view_write]
    have h₁ := hnew.segment.redirect q hfresh₁
    have h₂ : Segment (m₁.links.view SyncSourceLink.nextCollis) q l₂ none := by
      refine h.congr (fun b hb => hnew.others b ?_ (fun hb₁ => hdisj hb₁ hb))
      rintro rfl
      exact hfresh₂ hb
    rw [List.append_cons]
    exact h₁.append (h₂.update_of_notMem _ hfresh₂)
  · intro b hb hl
    rw [Heap.view_write, Function.update_of_ne hb]
    exact hnew.others b hb hl
  · refine (Heap.view_write_of_eq hsl ?_).trans hnew.next
    rfl
  · intro β g hg
    exact (Heap.view_write_of_eq hsl (hg sl sl.next _)).trans (hnew.member g hg)

end Linking

/-! ## Tables -/

section Tables

variable [NeZero n] (uninit : ℕ → Bool) (m)

/-- The table is in order: every bucket links the objects of its list, sorted by SSRC, and
the SSRCs belong to the bucket. -/
structure Table (chains : Fin n → List ℕ) : Prop where
  chain : ∀ i, Segment (m.links.view SyncSourceLink.nextCollis) (m.sourceLinks i) (chains i) none
  sorted : ∀ i, (chains i).Pairwise (fun a b => m.idOf a < m.idOf b)
  hash_eq : ∀ i, ∀ a ∈ chains i, hash (m.idOf a) = i
  bound : ∀ a, m.fresh ≤ a → m.links a = none

/-- The end of the list of all sources can be linked on. -/
def LastAlive : Prop := m.first.isSome = true → ∃ b, m.last = some b ∧ (m.links b).isSome = true

/-- The SSRCs in the bucket of an SSRC. -/
def idsFor (chains : Fin n → List ℕ) (ssrc : BitVec 32) : List (BitVec 32) :=
  (chains (hash ssrc)).map m.idOf

variable {m} {uninit} {chains : Fin n → List ℕ}

namespace Table

theorem isSome_of_mem (h : Table m chains) {i : Fin n} {a : ℕ} (ha : a ∈ chains i) :
    (m.links a).isSome = true := by
  have hview := (h.chain i).isSome_of_mem ha
  rwa [Heap.view, Option.isSome_map] at hview

theorem lt_fresh (h : Table m chains) {i : Fin n} {a : ℕ} (ha : a ∈ chains i) : a < m.fresh := by
  by_contra hge
  have hsome := h.isSome_of_mem ha
  rw [h.bound a (not_lt.mp hge)] at hsome
  cases hsome

theorem fresh_notMem (h : Table m chains) (i : Fin n) : m.fresh ∉ chains i :=
  fun hmem => (h.lt_fresh hmem).false

theorem nodup (h : Table m chains) (i : Fin n) : (chains i).Nodup := by
  refine (h.sorted i).imp (fun {a b} hab => ?_)
  rintro rfl
  exact BitVec.lt_irrefl _ hab

/-- A collision list is not longer than the number of rounds a loop gets. -/
theorem length_le (h : Table m chains) (i : Fin n) : (chains i).length ≤ m.fresh :=
  length_le_of_nodup_of_lt (h.nodup i) (fun _ ha => h.lt_fresh ha)

/-- **The search in a table.** -/
theorem place_cases (h : Table m chains) (ssrc : BitVec 32) :
    ∃ l₁ l₂, chains (hash ssrc) = l₁ ++ l₂ ∧ (∀ a ∈ l₁, m.idOf a < ssrc) ∧
      ((∃ a l₃, l₂ = a :: l₃ ∧ m.idOf a = ssrc ∧
          m.place ssrc none (chains (hash ssrc)) = .found l₁.getLast? a) ∨
        ((∀ a ∈ l₂, ssrc < m.idOf a) ∧ m.place ssrc none (chains (hash ssrc))
          = match l₂ with
            | [] => .atEnd l₁.getLast?
            | a :: _ => .before l₁.getLast? a)) := by
  obtain ⟨l₁, l₂, hl, hsmall, hcases⟩ := place_of_sorted ssrc none (h.sorted (hash ssrc))
  rw [Option.or_none] at hcases
  exact ⟨l₁, l₂, hl, hsmall, hcases⟩

/-- With only smaller and greater ones in the bucket, the SSRC is not there. -/
theorem notMem_idsFor {l₁ l₂ : List ℕ} (hl : chains (hash ssrc) = l₁ ++ l₂)
    (h₁ : ∀ a ∈ l₁, m.idOf a < ssrc) (h₂ : ∀ a ∈ l₂, ssrc < m.idOf a) :
    ssrc ∉ m.idsFor chains ssrc := by
  rw [idsFor, hl]
  intro hmem
  obtain ⟨a, ha, rfl⟩ := List.mem_map.mp hmem
  rcases List.mem_append.mp ha with ha | ha
  · exact BitVec.lt_irrefl _ (h₁ a ha)
  · exact BitVec.lt_irrefl _ (h₂ a ha)

/-- **`isRegistered` finds the sources of the table.** -/
theorem isRegistered_eq (h : Table m chains) (ssrc : BitVec 32) :
    m.isRegistered ssrc = some (decide (ssrc ∈ m.idsFor chains ssrc)) := by
  rw [isRegistered, isRegisteredLoop_eq none (h.chain _) (h.length_le _)]
  obtain ⟨l₁, l₂, hl, h₁, ⟨a, l₃, rfl, rfl, hplace⟩ | ⟨h₂, hplace⟩⟩ := h.place_cases ssrc
  · have hmem : m.idOf a ∈ m.idsFor chains (m.idOf a) := by
      rw [idsFor, hl]
      exact List.mem_map_of_mem (List.mem_append_right l₁ List.mem_cons_self)
    rw [hplace, decide_eq_true hmem]
  · rw [hplace, decide_eq_false (notMem_idsFor hl h₁ h₂)]
    cases l₂ <;> rfl

/-- A source of the table is found. -/
theorem getSourceBySSRC_of_mem (uninit : ℕ → Bool) (h : Table m chains) {a : ℕ}
    (ha : a ∈ chains (hash (m.idOf a))) :
    m.getSourceBySSRC uninit (m.idOf a) = some (a, false, m) := by
  obtain ⟨l₁, l₂, hl, h₁, ⟨b, l₃, rfl, hb, hplace⟩ | ⟨h₂, hplace⟩⟩ := h.place_cases (m.idOf a)
  · -- no other source of the sorted list has the same SSRC
    have hab : b = a := by
      by_contra hne
      have hsorted := h.sorted (hash (m.idOf a))
      rw [hl] at ha hsorted
      obtain ⟨-, htail, -⟩ := List.pairwise_append.mp hsorted
      rcases List.mem_append.mp ha with ha | ha
      · exact BitVec.lt_irrefl _ (h₁ a ha)
      · rcases List.mem_cons.mp ha with rfl | ha
        · exact hne rfl
        · have hlt := (List.pairwise_cons.mp htail).1 a ha
          rw [hb] at hlt
          exact BitVec.lt_irrefl _ hlt
    subst hab
    have hchain := h.chain (hash (m.idOf b))
    have hsearch := searchLoop_eq (m.idOf b) none hchain (h.length_le _)
    rw [hchain.eq_head?, hplace] at hsearch
    rw [getSourceBySSRC, hchain.eq_head?]
    cases hhead : (chains (hash (m.idOf b))).head? with
    | none =>
        rw [List.head?_eq_none_iff.mp hhead] at ha
        cases ha
    | some head =>
        rw [hhead] at hsearch
        simp only
        rw [hsearch]
        rfl
  · exact absurd (List.mem_map_of_mem ha) (notMem_idsFor hl h₁ h₂)

end Table

variable (uninit m)

/-- What the creation of a source does. -/
structure Created (ssrc : BitVec 32) (chains : Fin n → List ℕ) (m' : MembershipBookkeeping n)
    (chains' : Fin n → List ℕ) : Prop where
  table : Table m' chains'
  chain : ∃ l₁ l₂, chains (hash ssrc) = l₁ ++ l₂ ∧
    chains' = Function.update chains (hash ssrc) (l₁ ++ m.fresh :: l₂)
  first : m'.first = m.first.or (some m.fresh)
  last : m'.last = some m.fresh
  next : ∀ b, m'.links.view SyncSourceLink.next b = if b = m.fresh then some none
    else if m.first.isSome = true ∧ m.last = some b then some (some m.fresh)
    else m.links.view SyncSourceLink.next b
  member : ∀ {β : Type} (g : SyncSourceLink → β), IgnoresLinks g → m'.links.view g
    = Function.update (m.links.view g) m.fresh (some (g (.new ssrc (uninit m.fresh))))
  counts : m'.members = m.members + 1 ∧ m'.activeSenders = m.activeSenders
  fresh : m'.fresh = m.fresh + 1

variable {uninit m}

/-- The table after a source was linked. -/
theorem LinkedNew.table {l₁ l₂ : List ℕ} {m₁ m' : MembershipBookkeeping n} (h : Table m chains)
    (hl : chains (hash ssrc) = l₁ ++ l₂) (h₁ : ∀ a ∈ l₁, m.idOf a < ssrc)
    (h₂ : ∀ a ∈ l₂, ssrc < m.idOf a) (hnew : LinkedNew uninit m ssrc l₁ l₂ m₁)
    (hcollis : m'.links.view SyncSourceLink.nextCollis = m₁.links.view SyncSourceLink.nextCollis)
    (hid : m'.links.view SyncSourceLink.id = m₁.links.view SyncSourceLink.id)
    (hbuckets : m'.sourceLinks = m₁.sourceLinks) (hfresh : m'.fresh = m.fresh + 1) :
    Table m' (Function.update chains (hash ssrc) (l₁ ++ m.fresh :: l₂)) := by
  have hids : m'.links.view SyncSourceLink.id
      = Function.update (m.links.view SyncSourceLink.id) m.fresh (some ssrc) :=
    hid.trans (hnew.member SyncSourceLink.id (fun _ _ _ => rfl))
  have hfreshId : m'.idOf m.fresh = ssrc := by
    rw [idOf_of_view hids, if_pos rfl]
  have hold : ∀ i, ∀ a ∈ chains i, m'.idOf a = m.idOf a := by
    intro i a ha
    rw [idOf_of_view hids, if_neg (h.lt_fresh ha).ne]
  have hmem₁ : ∀ a ∈ l₁, a ∈ chains (hash ssrc) :=
    fun a ha => hl ▸ List.mem_append_left l₂ ha
  have hmem₂ : ∀ a ∈ l₂, a ∈ chains (hash ssrc) :=
    fun a ha => hl ▸ List.mem_append_right l₁ ha
  refine ⟨?_, ?_, ?_, ?_⟩
  · intro i
    rw [hcollis, hbuckets]
    by_cases hi : i = hash ssrc
    · subst hi
      rw [Function.update_self]
      exact hnew.segment
    · rw [Function.update_of_ne hi, hnew.buckets i hi]
      refine (h.chain i).congr (fun a ha => hnew.others a (h.lt_fresh ha).ne (fun hl₁ => hi ?_))
      rw [← h.hash_eq i a ha, h.hash_eq _ a (hmem₁ a hl₁)]
  · intro i
    by_cases hi : i = hash ssrc
    · subst hi
      have hsorted := h.sorted (hash ssrc)
      rw [hl] at hsorted
      rw [Function.update_self]
      obtain ⟨hs₁, hs₂, hs₁₂⟩ := List.pairwise_append.mp hsorted
      refine List.pairwise_append.mpr ⟨?_, List.pairwise_cons.mpr ⟨?_, ?_⟩, ?_⟩
      · refine hs₁.imp_of_mem (fun ha hb hab => ?_)
        rwa [hold _ _ (hmem₁ _ ha), hold _ _ (hmem₁ _ hb)]
      · intro b hb
        rw [hfreshId, hold _ b (hmem₂ b hb)]
        exact h₂ b hb
      · refine hs₂.imp_of_mem (fun ha hb hab => ?_)
        rwa [hold _ _ (hmem₂ _ ha), hold _ _ (hmem₂ _ hb)]
      · intro a ha b hb
        rw [hold _ a (hmem₁ a ha)]
        rcases List.mem_cons.mp hb with rfl | hb
        · rw [hfreshId]
          exact h₁ a ha
        · rw [hold _ b (hmem₂ b hb)]
          exact hs₁₂ a ha b hb
    · rw [Function.update_of_ne hi]
      refine (h.sorted i).imp_of_mem (fun ha hb hab => ?_)
      rwa [hold _ _ ha, hold _ _ hb]
  · intro i a ha
    by_cases hi : i = hash ssrc
    · subst hi
      rw [Function.update_self] at ha
      rcases List.mem_append.mp ha with ha | ha
      · rw [hold _ a (hmem₁ a ha)]
        exact h.hash_eq _ a (hmem₁ a ha)
      · rcases List.mem_cons.mp ha with rfl | ha
        · rw [hfreshId]
        · rw [hold _ a (hmem₂ a ha)]
          exact h.hash_eq _ a (hmem₂ a ha)
    · rw [Function.update_of_ne hi] at ha
      rw [hold i a ha]
      exact h.hash_eq i a ha
  · intro a ha
    rw [hfresh] at ha
    rw [← Heap.view_eq_none (g := SyncSourceLink.id), hids, Function.update_of_ne (by omega),
      Heap.view_eq_none]
    exact h.bound a (by omega)

/-- The source is put at the end of the list of all sources. -/
theorem LinkedNew.enlist {l₁ l₂ : List ℕ} {m₁ : MembershipBookkeeping n} (h : Table m chains)
    (hlast : m.LastAlive) (hl : chains (hash ssrc) = l₁ ++ l₂) (h₁ : ∀ a ∈ l₁, m.idOf a < ssrc)
    (h₂ : ∀ a ∈ l₂, ssrc < m.idOf a) (hnew : LinkedNew uninit m ssrc l₁ l₂ m₁) :
    ∃ m', m₁.enlist m.fresh = some m' ∧ m.Created uninit ssrc chains m'
      (Function.update chains (hash ssrc) (l₁ ++ m.fresh :: l₂)) := by
  obtain ⟨hfirst₁, hlast₁, hmembers, hsenders, hfresh⟩ := hnew.frame
  have hcounts : m₁.members + 1 = m.members + 1 := by rw [hmembers]
  cases hfirst : m.first with
  | none =>
      rw [hfirst] at hfirst₁
      refine ⟨{ m₁ with first := some m.fresh, last := some m.fresh, members := m₁.members + 1 },
        ?_, ?_⟩
      · rw [MembershipBookkeeping.enlist, hfirst₁]
        rfl
      · refine ⟨hnew.table h hl h₁ h₂ rfl rfl rfl hfresh, ⟨l₁, l₂, hl, rfl⟩, ?_, rfl, ?_, ?_,
          ⟨hcounts, hsenders⟩, hfresh⟩
        · rw [hfirst]
          rfl
        · intro b
          rw [hfirst, hnew.next, Function.update_apply]
          rfl
        · exact fun g hg => hnew.member g hg
  | some f =>
      obtain ⟨b, hb, hsome⟩ := hlast (by rw [hfirst]; rfl)
      obtain ⟨old, hold⟩ := Option.isSome_iff_exists.mp hsome
      have hne : b ≠ m.fresh := by
        rintro rfl
        rw [h.bound _ le_rfl] at hold
        cases hold
      have hview : m₁.links.view SyncSourceLink.id b = some old.id := by
        rw [hnew.member SyncSourceLink.id (fun _ _ _ => rfl), Function.update_of_ne hne, Heap.view,
          hold]
        rfl
      obtain ⟨sl, hsl, -⟩ := Heap.view_eq_some.mp hview
      refine ⟨{ m₁ with
          links := m₁.links.write b { sl with next := some m.fresh }
          last := some m.fresh
          members := m₁.members + 1 }, ?_, ?_⟩
      · have hmod : m₁.modifyLink b (fun sl => { sl with next := some m.fresh })
            = some { m₁ with links := m₁.links.write b { sl with next := some m.fresh } } := by
          rw [modifyLink, Heap.modify, hsl]
          rfl
        rw [MembershipBookkeeping.enlist, if_pos (by rw [hfirst₁, hfirst]; rfl), hlast₁.trans hb,
          Option.bind_some, hmod]
        rfl
      · refine ⟨hnew.table h hl h₁ h₂ ?_ ?_ rfl hfresh, ⟨l₁, l₂, hl, rfl⟩, ?_, rfl, ?_, ?_,
          ⟨hcounts, hsenders⟩, hfresh⟩
        · exact Heap.view_write_of_eq hsl rfl
        · exact Heap.view_write_of_eq hsl rfl
        · rw [hfirst₁, hfirst]
          rfl
        · intro c
          rw [Heap.view_write, hnew.next, hfirst, hb]
          by_cases hc : c = b
          · subst hc
            rw [Function.update_self, if_neg hne, if_pos ⟨rfl, rfl⟩]
          · have hcb : ¬ ((some f).isSome = true ∧ some b = some c) := by
              rintro ⟨-, heq⟩
              exact hc (Option.some_inj.mp heq).symm
            rw [Function.update_of_ne hc, if_neg hcb, Function.update_apply]
        · intro β g hg
          refine (Heap.view_write_of_eq hsl ?_).trans (hnew.member g hg)
          exact hg sl _ sl.nextCollis

/-- **A new source is created.** -/
theorem Table.getSourceBySSRC_of_notMem (uninit : ℕ → Bool) (h : Table m chains)
    (hlast : m.LastAlive)
    (hssrc : ssrc ∉ m.idsFor chains ssrc) :
    ∃ m' chains', m.getSourceBySSRC uninit ssrc = some (m.fresh, true, m') ∧
      m.Created uninit ssrc chains m' chains' := by
  obtain ⟨l₁, l₂, hl, h₁, ⟨a, l₃, rfl, rfl, -⟩ | ⟨h₂, hplace⟩⟩ := h.place_cases ssrc
  · refine absurd ?_ hssrc
    rw [idsFor, hl]
    exact List.mem_map_of_mem (List.mem_append_right l₁ List.mem_cons_self)
  · have hchain := h.chain (hash ssrc)
    have hnodup := h.nodup (hash ssrc)
    have hfresh := h.fresh_notMem (hash ssrc)
    have hsearch := searchLoop_eq ssrc none hchain (h.length_le _)
    rw [hplace] at hsearch
    rw [hl] at hchain hnodup hfresh
    obtain ⟨q, hseg₁, hseg₂⟩ := segment_append.mp hchain
    obtain ⟨hfresh₁, hfresh₂⟩ := not_or.mp (mt List.mem_append.mpr hfresh)
    obtain ⟨hnodup₁, -, hdisj⟩ := List.nodup_append'.mp hnodup
    rw [getSourceBySSRC]
    simp only
    -- the four branches: is there a source in front, and one behind
    rcases List.eq_nil_or_concat l₁ with rfl | ⟨l, p, rfl⟩
    · cases l₂ with
      | nil =>
          have hempty : m.sourceLinks (hash ssrc) = none := hchain
          obtain ⟨m', hm', hcreated⟩ :=
            (linkedNew_setBucket uninit).enlist h hlast hl h₁ h₂
          rw [hempty]
          simp only
          rw [Option.bind_some, hm']
          exact ⟨m', _, rfl, hcreated⟩
      | cons a l₃ =>
          have hhead : m.sourceLinks (hash ssrc) = some a := hchain.1
          rw [hhead] at hsearch ⊢
          have hq : q = some a := hseg₂.1
          obtain ⟨m₂, hm₂, hnew⟩ := (linkedNew_setBucket uninit).setNextCollis hfresh₁
            hfresh₂ hdisj hseg₂
          obtain ⟨m', hm', hcreated⟩ := hnew.enlist h hlast hl h₁ h₂
          simp only
          rw [hsearch, Option.bind_some]
          simp only [List.getLast?_nil]
          rw [linkBefore, Option.bind_some, ← hq, hm₂, Option.bind_some, hm']
          exact ⟨m', _, rfl, hcreated⟩
    · rw [List.concat_eq_append] at *
      have hp : p ∉ l := fun hmem => (List.nodup_append'.mp hnodup₁).2.2 hmem List.mem_cons_self
      obtain ⟨head, hhead⟩ : ∃ head, m.sourceLinks (hash ssrc) = some head := by
        rw [hchain.eq_head?]
        cases l <;> exact ⟨_, rfl⟩
      obtain ⟨m₁, hm₁, hbehind⟩ := linkedNew_behind uninit hp hfresh₁ hseg₁
      rw [hhead] at hsearch ⊢
      simp only
      rw [hsearch, Option.bind_some]
      simp only [List.getLast?_concat]
      cases l₂ with
      | nil =>
          obtain ⟨m', hm', hcreated⟩ := hbehind.enlist h hlast hl h₁ h₂
          simp only
          rw [hm₁, Option.bind_some, hm']
          exact ⟨m', _, rfl, hcreated⟩
      | cons a l₃ =>
          have hq : q = some a := hseg₂.1
          obtain ⟨m₂, hm₂, hnew⟩ := hbehind.setNextCollis hfresh₁ hfresh₂ hdisj hseg₂
          obtain ⟨m', hm', hcreated⟩ := hnew.enlist h hlast hl h₁ h₂
          simp only [linkBefore]
          rw [hm₁, Option.bind_some, ← hq, hm₂, Option.bind_some, hm']
          exact ⟨m', _, rfl, hcreated⟩

end Tables

/-! ## Runs of requests -/

/-- One request after the other: the answers, and the table at the end. -/
def requestAll [NeZero n] (uninit : ℕ → Bool) : MembershipBookkeeping n → List (BitVec 32) →
    Option (List (ℕ × Bool) × MembershipBookkeeping n)
  | m, [] => some ([], m)
  | m, ssrc :: l =>
      (m.getSourceBySSRC uninit ssrc).bind (fun (a, created, m) =>
        (requestAll uninit m l).map (fun (out, m) => ((a, created) :: out, m)))

end MembershipBookkeeping

/-- The abstract table: the SSRCs in the order of their first request. -/
def firstRequests (reqs : List (BitVec 32)) : List (BitVec 32) :=
  reqs.foldl (fun seen ssrc => if ssrc ∈ seen then seen else seen ++ [ssrc]) []

theorem firstRequests_concat (reqs : List (BitVec 32)) (ssrc : BitVec 32) :
    firstRequests (reqs ++ [ssrc])
      = if ssrc ∈ firstRequests reqs then firstRequests reqs else firstRequests reqs ++ [ssrc] :=
  List.foldl_concat ..

/-- The abstract table holds what was requested. -/
theorem mem_firstRequests {reqs : List (BitVec 32)} {ssrc : BitVec 32} :
    ssrc ∈ firstRequests reqs ↔ ssrc ∈ reqs := by
  induction reqs using List.reverseRecOn with
  | nil => rfl
  | append_singleton reqs s ih =>
      rw [firstRequests_concat, List.mem_append, List.mem_singleton]
      split_ifs with hs
      · rw [ih]
        refine ⟨Or.inl, fun h => h.elim id ?_⟩
        rintro rfl
        exact ih.mp hs
      · rw [List.mem_append, List.mem_singleton, ih]

/-- Each SSRC once. -/
theorem nodup_firstRequests (reqs : List (BitVec 32)) : (firstRequests reqs).Nodup := by
  induction reqs using List.reverseRecOn with
  | nil => exact List.nodup_nil
  | append_singleton reqs s ih =>
      rw [firstRequests_concat]
      split_ifs with hs
      · exact ih
      · exact List.nodup_append'.mpr ⟨ih, List.nodup_singleton s, List.disjoint_singleton.mpr hs⟩

namespace MembershipBookkeeping

variable {n : ℕ} [NeZero n] {uninit : ℕ → Bool} {m : MembershipBookkeeping n}
  {chains : Fin n → List ℕ} {link : BitVec 32 → ℕ} {reqs : List (BitVec 32)} {ssrc : BitVec 32}

/-- **The abstraction relation**: the table and the list of sources hold the requested
SSRCs, each with its link object. -/
structure Refines (m : MembershipBookkeeping n) (chains : Fin n → List ℕ) (link : BitVec 32 → ℕ)
    (reqs : List (BitVec 32)) : Prop where
  table : Table m chains
  mem_chain : ∀ i a, a ∈ chains i ↔ ∃ ssrc ∈ reqs, link ssrc = a ∧ hash ssrc = i
  id_link : ∀ ssrc ∈ reqs, m.idOf (link ssrc) = ssrc
  listed : Segment (m.links.view SyncSourceLink.next) m.first ((firstRequests reqs).map link) none
  last : m.last = ((firstRequests reqs).map link).getLast?

theorem refines_empty (link : BitVec 32 → ℕ) : Refines (empty n) (fun _ => []) link [] := by
  refine ⟨⟨fun _ => rfl, fun _ => List.Pairwise.nil, ?_, fun _ _ => rfl⟩, ?_, ?_, rfl, rfl⟩
  · intro i a ha
    cases ha
  · intro i a
    simp
  · intro ssrc hssrc
    cases hssrc

namespace Refines

theorem link_mem (h : Refines m chains link reqs) (hssrc : ssrc ∈ reqs) :
    link ssrc ∈ chains (hash ssrc) :=
  (h.mem_chain _ _).mpr ⟨ssrc, hssrc, rfl, rfl⟩

/-- The SSRCs of a bucket are those that were requested. -/
theorem mem_ids (h : Refines m chains link reqs) (i : Fin n) (ssrc : BitVec 32) :
    ssrc ∈ (chains i).map m.idOf ↔ ssrc ∈ reqs ∧ hash ssrc = i := by
  rw [List.mem_map]
  constructor
  · rintro ⟨a, ha, rfl⟩
    obtain ⟨s, hs, rfl, hi⟩ := (h.mem_chain i a).mp ha
    rw [h.id_link s hs]
    exact ⟨hs, hi⟩
  · rintro ⟨hs, rfl⟩
    exact ⟨link ssrc, h.link_mem hs, h.id_link ssrc hs⟩

theorem lastAlive (h : Refines m chains link reqs) : m.LastAlive := by
  intro hfirst
  rw [h.listed.eq_head?] at hfirst
  rcases List.eq_nil_or_concat (firstRequests reqs) with hnil | ⟨l, ssrc, hl⟩
  · rw [hnil] at hfirst
    cases hfirst
  · have hmem : ssrc ∈ reqs := by
      rw [← mem_firstRequests, hl, List.concat_eq_append]
      exact List.mem_append_right l List.mem_cons_self
    refine ⟨link ssrc, ?_, h.table.isSome_of_mem (h.link_mem hmem)⟩
    rw [h.last, hl, List.concat_eq_append, List.map_append, List.map_singleton,
      List.getLast?_concat]

/-- A repeated request. -/
theorem request_again (uninit : ℕ → Bool) (h : Refines m chains link reqs) (hssrc : ssrc ∈ reqs) :
    m.getSourceBySSRC uninit ssrc = some (link ssrc, false, m) ∧
      Refines m chains link (reqs ++ [ssrc]) := by
  have hid := h.id_link ssrc hssrc
  have hmem : ∀ s, s ∈ reqs ++ [ssrc] ↔ s ∈ reqs := by
    intro s
    rw [List.mem_append, List.mem_singleton]
    exact or_iff_left_of_imp (fun hs => hs ▸ hssrc)
  have hfirsts : firstRequests (reqs ++ [ssrc]) = firstRequests reqs := by
    rw [firstRequests_concat, if_pos (mem_firstRequests.mpr hssrc)]
  constructor
  · have hfound := h.table.getSourceBySSRC_of_mem uninit (a := link ssrc)
      (by rw [hid]; exact h.link_mem hssrc)
    rwa [hid] at hfound
  · refine ⟨h.table, ?_, ?_, ?_, ?_⟩
    · intro i a
      simp only [hmem]
      exact h.mem_chain i a
    · intro s hs
      exact h.id_link s ((hmem s).mp hs)
    · rw [hfirsts]
      exact h.listed
    · rw [hfirsts]
      exact h.last

/-- The list of all sources after a creation. -/
theorem listed_created {m' : MembershipBookkeeping n} {chains' : Fin n → List ℕ} {nodes : List ℕ}
    (hcreated : m.Created uninit ssrc chains m' chains')
    (hlisted : Segment (m.links.view SyncSourceLink.next) m.first nodes none)
    (hlast : m.last = nodes.getLast?) (hnodup : nodes.Nodup) (hfresh : m.fresh ∉ nodes) :
    Segment (m'.links.view SyncSourceLink.next) m'.first (nodes ++ [m.fresh]) none := by
  have hfirst := hlisted.eq_head?
  rw [segment_concat]
  refine ⟨?_, by rw [hcreated.next, if_pos rfl]⟩
  rw [hcreated.first]
  rcases List.eq_nil_or_concat nodes with rfl | ⟨l, b, rfl⟩
  · rw [hfirst]
    rfl
  · rw [List.concat_eq_append] at *
    rw [List.getLast?_concat] at hlast
    have hsome : m.first.isSome = true := by
      rw [hfirst]
      cases l <;> rfl
    have hb : b ∉ l := fun hmem => (List.nodup_append'.mp hnodup).2.2 hmem List.mem_cons_self
    rw [Option.or_of_isSome hsome]
    -- the link of the last source is the only one that changes
    refine (hlisted.redirect (some m.fresh) hb).congr (fun c hc => ?_)
    have hcf : c ≠ m.fresh := by
      rintro rfl
      exact hfresh hc
    rw [hcreated.next, if_neg hcf, hlast, Function.update_apply]
    refine if_congr ?_ rfl rfl
    rw [and_iff_right hsome, Option.some_inj]
    exact eq_comm

/-- A new request. -/
theorem request_new (uninit : ℕ → Bool) (h : Refines m chains link reqs) (hssrc : ssrc ∉ reqs) :
    ∃ m' chains', m.getSourceBySSRC uninit ssrc = some (m.fresh, true, m') ∧
      Refines m' chains' (Function.update link ssrc m.fresh) (reqs ++ [ssrc]) := by
  have hnot : ssrc ∉ m.idsFor chains ssrc := fun hmem => hssrc ((h.mem_ids _ _).mp hmem).1
  obtain ⟨m', chains', hget, hcreated⟩ :=
    h.table.getSourceBySSRC_of_notMem uninit h.lastAlive hnot
  have hsame : ∀ s ∈ reqs, Function.update link ssrc m.fresh s = link s := by
    intro s hs
    refine Function.update_of_ne ?_ ..
    rintro rfl
    exact hssrc hs
  have hfirsts : (firstRequests (reqs ++ [ssrc])).map (Function.update link ssrc m.fresh)
      = (firstRequests reqs).map link ++ [m.fresh] := by
    rw [firstRequests_concat, if_neg (mt mem_firstRequests.mp hssrc), List.map_append,
      List.map_singleton, Function.update_self]
    congr 1
    exact List.map_congr_left (fun s hs => hsame s (mem_firstRequests.mp hs))
  have hnodes : ∀ a ∈ (firstRequests reqs).map link, ∃ s ∈ reqs, link s = a := by
    intro a ha
    obtain ⟨s, hs, rfl⟩ := List.mem_map.mp ha
    exact ⟨s, mem_firstRequests.mp hs, rfl⟩
  have hfresh : m.fresh ∉ (firstRequests reqs).map link := by
    intro hmem
    obtain ⟨s, hs, heq⟩ := hnodes _ hmem
    exact (h.table.lt_fresh (h.link_mem hs)).ne heq
  have hids := hcreated.member SyncSourceLink.id (fun _ _ _ => rfl)
  refine ⟨m', chains', hget, hcreated.table, ?_, ?_, ?_, ?_⟩
  · intro i a
    obtain ⟨l₁, l₂, hl, rfl⟩ := hcreated.chain
    have hold := h.mem_chain i a
    constructor
    · intro ha
      by_cases hi : i = hash ssrc
      · subst hi
        rw [Function.update_self, List.mem_append, List.mem_cons] at ha
        rw [hl, List.mem_append] at hold
        rcases or_left_comm.mp ha with rfl | ha
        · exact ⟨ssrc, List.mem_append_right reqs List.mem_cons_self, Function.update_self ..,
            rfl⟩
        · obtain ⟨s, hs, hlink, hhash⟩ := hold.mp ha
          exact ⟨s, List.mem_append_left _ hs, (hsame s hs).trans hlink, hhash⟩
      · rw [Function.update_of_ne hi] at ha
        obtain ⟨s, hs, hlink, hhash⟩ := hold.mp ha
        exact ⟨s, List.mem_append_left _ hs, (hsame s hs).trans hlink, hhash⟩
    · rintro ⟨s, hs, rfl, rfl⟩
      rcases List.mem_append.mp hs with hs | hs
      · rw [hsame s hs]
        have hmem := h.link_mem hs
        by_cases hi : hash (n := n) s = hash ssrc
        · rw [hi, Function.update_self, List.mem_append, List.mem_cons]
          rw [hi, hl, List.mem_append] at hmem
          exact or_left_comm.mpr (Or.inr hmem)
        · rwa [Function.update_of_ne hi]
      · rw [List.mem_singleton.mp hs, Function.update_self, Function.update_self]
        exact List.mem_append_right l₁ List.mem_cons_self
  · intro s hs
    rw [idOf_of_view hids]
    rcases List.mem_append.mp hs with hs | hs
    · rw [hsame s hs, if_neg (h.table.lt_fresh (h.link_mem hs)).ne, h.id_link s hs]
    · rw [List.mem_singleton.mp hs, Function.update_self, if_pos rfl]
      rfl
  · rw [hfirsts]
    refine listed_created hcreated h.listed h.last ?_ hfresh
    refine (nodup_firstRequests reqs).map_on (fun s hs s' hs' heq => ?_)
    rw [← h.id_link s (mem_firstRequests.mp hs), heq, h.id_link s' (mem_firstRequests.mp hs')]
  · rw [hfirsts, List.getLast?_concat]
    exact hcreated.last

/-- **The run lemma**: requests behind requests. -/
theorem requestAll (uninit : ℕ → Bool) (rest : List (BitVec 32)) :
    ∀ {m : MembershipBookkeeping n} {chains : Fin n → List ℕ} {link : BitVec 32 → ℕ}
      {reqs : List (BitVec 32)}, Refines m chains link reqs →
    ∃ out m' chains' link', m.requestAll uninit rest = some (out, m') ∧
      Refines m' chains' link' (reqs ++ rest) ∧ out.length = rest.length ∧
      (∀ ssrc ∈ reqs, link' ssrc = link ssrc) ∧
      ∀ k ssrc, rest[k]? = some ssrc →
        out[k]? = some (link' ssrc, decide (ssrc ∉ reqs ++ rest.take k)) := by
  induction rest with
  | nil =>
      intro m chains link reqs h
      refine ⟨[], m, chains, link, rfl, ?_, rfl, fun _ _ => rfl, fun k ssrc hk => ?_⟩
      · rwa [List.append_nil]
      · cases hk
  | cons ssrc rest ih =>
      intro m chains link reqs h
      -- either way the request is answered with the link that the rest of the run keeps
      obtain ⟨a, m₁, chains₁, link₁, hget, h₁, ha, hkeep⟩ : ∃ a m₁ chains₁ link₁,
          m.getSourceBySSRC uninit ssrc = some (a, decide (ssrc ∉ reqs), m₁) ∧
          Refines m₁ chains₁ link₁ (reqs ++ [ssrc]) ∧ link₁ ssrc = a ∧
          ∀ s ∈ reqs, link₁ s = link s := by
        by_cases hssrc : ssrc ∈ reqs
        · obtain ⟨hget, hagain⟩ := h.request_again uninit hssrc
          rw [decide_eq_false (not_not.mpr hssrc)]
          exact ⟨_, _, _, _, hget, hagain, rfl, fun _ _ => rfl⟩
        · obtain ⟨m', chains', hget, hnew⟩ := h.request_new uninit hssrc
          rw [decide_eq_true hssrc]
          refine ⟨_, _, _, _, hget, hnew, Function.update_self .., fun s hs => ?_⟩
          refine Function.update_of_ne ?_ ..
          rintro rfl
          exact hssrc hs
      obtain ⟨out, m', chains', link', hrun, h', hlen, hkeep', hout⟩ := ih h₁
      rw [List.append_assoc, List.singleton_append] at h'
      refine ⟨(a, decide (ssrc ∉ reqs)) :: out, m', chains', link', ?_, h', ?_, ?_, ?_⟩
      · rw [MembershipBookkeeping.requestAll, hget, Option.bind_some]
        simp only
        rw [hrun]
        rfl
      · rw [List.length_cons, List.length_cons, hlen]
      · intro s hs
        rw [hkeep' s (List.mem_append_left _ hs), hkeep s hs]
      · intro k s hk
        have hlink : link' ssrc = a := by
          rw [hkeep' ssrc (List.mem_append_right reqs List.mem_cons_self), ha]
        cases k with
        | zero =>
            rw [List.getElem?_cons_zero, Option.some_inj] at hk
            subst hk
            rw [List.getElem?_cons_zero, hlink, List.take_zero, List.append_nil]
        | succ k =>
            rw [List.getElem?_cons_succ] at hk
            have hrest := hout k s hk
            rw [List.append_assoc, List.singleton_append] at hrest
            rw [List.getElem?_cons_succ, List.take_succ_cons, hrest]

end Refines

end MembershipBookkeeping

open MembershipBookkeeping in
/-- **The membership table refines a set with insertion order.**  A run of requests from
the empty table returns.  Each SSRC has one link object, which every request for it gets;
it is created by the first one.  Each collision list holds the requested SSRCs of its
bucket, strictly increasing; `isRegistered` answers whether an SSRC was requested; and the
list of all sources leads through each of them once, in the order of the first requests,
to `last`. -/
theorem membership_refines_insertion_order {n : ℕ} [NeZero n] (uninit : ℕ → Bool)
    (reqs : List (BitVec 32)) :
    ∃ (out : List (ℕ × Bool)) (m : MembershipBookkeeping n) (link : BitVec 32 → ℕ),
      (empty n).requestAll uninit reqs = some (out, m) ∧ out.length = reqs.length ∧
      (∀ k ssrc, reqs[k]? = some ssrc →
        out[k]? = some (link ssrc, decide (ssrc ∉ reqs.take k))) ∧
      (∀ ssrc ∈ reqs, m.idOf (link ssrc) = ssrc) ∧
      (∀ i, ∃ chain,
        Segment (m.links.view SyncSourceLink.nextCollis) (m.sourceLinks i) chain none ∧
        (chain.map m.idOf).Pairwise (· < ·) ∧
        ∀ ssrc, ssrc ∈ chain.map m.idOf ↔ ssrc ∈ reqs ∧ MembershipBookkeeping.hash ssrc = i) ∧
      (∀ ssrc, m.isRegistered ssrc = some (decide (ssrc ∈ reqs))) ∧
      Segment (m.links.view SyncSourceLink.next) m.first ((firstRequests reqs).map link) none ∧
      m.last = ((firstRequests reqs).map link).getLast? ∧
      (firstRequests reqs).Nodup ∧ ∀ ssrc, ssrc ∈ firstRequests reqs ↔ ssrc ∈ reqs := by
  obtain ⟨out, m, chains, link, hrun, h, hlen, -, hout⟩ :=
    Refines.requestAll uninit reqs (refines_empty (n := n) (fun _ => 0))
  rw [List.nil_append] at h
  refine ⟨out, m, link, hrun, hlen, ?_, h.id_link, ?_, ?_, h.listed, h.last,
    nodup_firstRequests reqs, fun ssrc => mem_firstRequests⟩
  · intro k ssrc hk
    rw [hout k ssrc hk, List.nil_append]
  · intro i
    exact ⟨chains i, h.table.chain i, List.pairwise_map.mpr (h.table.sorted i), h.mem_ids i⟩
  · intro ssrc
    have hmem := h.mem_ids (hash ssrc) ssrc
    rw [and_iff_left rfl] at hmem
    rw [h.table.isRegistered_eq, Option.some_inj, decide_eq_decide]
    exact hmem

open MembershipBookkeeping in
/-- Requests that collide in the default table of eleven buckets, one of them repeated. -/
theorem membership_refines_default_size : ∃ (out : List (ℕ × Bool)) (m : MembershipBookkeeping 11),
    (empty 11).requestAll (fun _ => false) [33, 11, 33, 22] = some (out, m) ∧
      m.isRegistered 22 = some true ∧ m.isRegistered 44 = some false := by
  obtain ⟨out, m, _, hrun, -, -, -, -, hreg, -⟩ :=
    membership_refines_insertion_order (n := 11) (fun _ => false) [33, 11, 33, 22]
  exact ⟨out, m, hrun, hreg 22, hreg 44⟩

open MembershipBookkeeping in
example : ((empty 11).requestAll (fun _ => false) [33, 11, 33, 22]).map Prod.fst
    = some [(0, true), (1, true), (0, false), (2, true)] := by
  decide
