/-
# The members and senders counts

The counters of `Members` (`src/ccrtp/iqueue.h`) over runs of the calls that touch them.

Beside the table stand two records of history that no function looks at: which sources have
said BYE, and for which ones `recordReception` has set the sender flag.

* `members_count_exact` : the members count is right along a run exactly as long as as many
  sources leave by every BYE packet as are discounted, and none is removed after that;
* `senders_count_exact` : the senders count is right along a run exactly as long as no data
  packet makes a sender.
-/
import CcRtp.MembershipCalls

/-- A BYE packet: the word behind its header, and the sources that it lists.  They begin with
that word, and there are as many as the block count says. -/
structure ByePacket where
  ssrc : BitVec 32
  sources : List (BitVec 32)
  head : ∀ x ∈ sources.head?, x = ssrc
  blockCount_lt : sources.length < 2 ^ 5

/-- A packet that lists one source. -/
def ByePacket.ofOne (ssrc : BitVec 32) : ByePacket where
  ssrc := ssrc
  sources := [ssrc]
  head := fun _ hx => (Option.some_inj.mp hx).symm
  blockCount_lt := Nat.one_lt_two_pow (by decide)

/-- The calls that touch the counters: a request for a source, a BYE packet, one in
`getOnlyBye`, a data packet, the removal of a source. -/
inductive MemberCall : Type where
  | getSourceBySSRC (ssrc : BitVec 32)
  | getBYE (pkt : ByePacket)
  | getOnlyBye (pkt : ByePacket)
  | recordReception (ssrc : BitVec 32) (pkt : ReceivedPacket)
  | removeSource (ssrc : BitVec 32)

/-- The table, the sources that have said BYE, since they were removed the last time, and the
registered ones that `recordReception` has made senders. -/
structure Session (n : ℕ) where
  table : MembershipBookkeeping n
  left : List (BitVec 32)
  senders : List (BitVec 32)

namespace Session

variable {n : ℕ} [NeZero n] (uninit : ℕ → Bool) (policy : ReceptionPolicy)

/-- The session before anything was received. -/
def start (n : ℕ) : Session n := ⟨.empty n, [], []⟩

/-- One call.  Of a BYE packet the code takes the first source only, but all that it lists have
said BYE. -/
def perform (s : Session n) : MemberCall → Option (Session n)
  | .getSourceBySSRC ssrc =>
      (s.table.getSourceBySSRC uninit ssrc).map (fun r => { s with table := r.2.2 })
  | .getBYE pkt =>
      (s.table.getBYE uninit pkt.ssrc pkt.sources.length).map (fun m =>
        { s with table := m, left := pkt.sources ++ s.left })
  | .getOnlyBye pkt =>
      (s.table.sayBYE uninit pkt.ssrc).map (fun m =>
        { s with table := m, left := pkt.sources ++ s.left })
  | .recordReception ssrc pkt =>
      (s.table.recordPacket uninit policy ssrc pkt).map (fun (sets, m) =>
        { s with table := m, senders := if sets then ssrc :: s.senders else s.senders })
  | .removeSource ssrc =>
      (s.table.removeSource ssrc).map (fun (found, m) =>
        if found then ⟨m, s.left.filter (· ≠ ssrc), s.senders.filter (· ≠ ssrc)⟩ else s)

/-- One call in a run. -/
def step : Option (Session n) → MemberCall → Option (Session n) :=
  partialStep (fun s call => s.perform uninit policy call)

/-- The registered sources. -/
def registered (s : Session n) : Set (BitVec 32) := {ssrc | s.table.isRegistered ssrc = some true}

/-- `getMembersCount()` is the number of registered sources that have not said BYE. -/
def MembersCounted (s : Session n) : Prop :=
  s.table.members.toNat = {ssrc ∈ s.registered | ssrc ∉ s.left}.ncard

/-- `getSendersCount()` is the number of registered sources that `recordReception` has made
senders. -/
def SendersCounted (s : Session n) : Prop :=
  s.table.activeSenders.toNat = {ssrc ∈ s.registered | ssrc ∈ s.senders}.ncard

end Session

/-! ## One call -/

namespace Session

open MembershipBookkeeping

variable {n : ℕ} [NeZero n] {uninit : ℕ → Bool} {policy : ReceptionPolicy} {s s' : Session n}
  {chains : Fin n → List ℕ} {ssrc : BitVec 32}

/-- The table is in order. -/
def Sound (s : Session n) : Prop := ∃ chains, Orderly s.table chains

/-- The registered sources are those of the table. -/
theorem mem_registered (h : Table s.table chains) (x : BitVec 32) :
    x ∈ s.registered ↔ x ∈ s.table.idsFor chains x := by
  rw [registered, Set.mem_ofPred_eq, h.isRegistered_eq, Option.some_inj, decide_eq_true_iff]

/-- What a call leaves: the registered sources, those that have said BYE, and the members
count. -/
structure Leaves (s' : Session n) (R : Set (BitVec 32)) (L : List (BitVec 32)) (M : BitVec 32) :
    Prop where
  sound : s'.Sound
  registered : s'.registered = R
  left : s'.left = L
  members : s'.table.members = M

/-- A source that is looked up is a member from then on. -/
theorem perform_getSourceBySSRC (uninit : ℕ → Bool) (policy : ReceptionPolicy)
    (h : Orderly s.table chains) (ssrc : BitVec 32) :
    ∃ s', s.perform uninit policy (.getSourceBySSRC ssrc) = some s' ∧
      s'.Leaves (insert ssrc s.registered) s.left
        (s.table.members + if ssrc ∉ s.table.idsFor chains ssrc then 1 else 0) ∧
      s'.table.activeSenders = s.table.activeSenders ∧ s'.senders = s.senders ∧
      (s.table.Unheard → s'.table.Unheard) := by
  obtain ⟨a, created, m', chains', hget, hreq⟩ := h.getSourceBySSRC uninit ssrc
  refine ⟨{ s with table := m' }, ?_, ⟨⟨chains', hreq.orderly⟩, ?_, rfl, ?_⟩, hreq.senders, rfl,
    hreq.unheard⟩
  · rw [perform, hget]
    rfl
  · ext x
    rw [mem_registered hreq.orderly.table, hreq.ids, Set.mem_insert_iff, mem_registered h.table]
  · have hmembers : m'.members = _ := hreq.members
    rw [hmembers]
    simp only [hreq.created_iff]
    split_ifs <;> simp

/-- A data packet makes its source a member, and the first valid one makes it a sender. -/
theorem perform_recordReception (uninit : ℕ → Bool) (policy : ReceptionPolicy)
    (h : Orderly s.table chains) (ssrc : BitVec 32) (pkt : ReceivedPacket) :
    ∃ s' sets, s.perform uninit policy (.recordReception ssrc pkt) = some s' ∧
      s'.Leaves (insert ssrc s.registered) s.left
        (s.table.members + if ssrc ∉ s.table.idsFor chains ssrc then 1 else 0) ∧
      s'.table.activeSenders = s.table.activeSenders ∧
      s'.senders = (if sets then ssrc :: s.senders else s.senders) ∧
      (s.table.Unheard →
        ((sets = true ↔ s.table.IsFirstPacket uninit policy ssrc pkt) ∧
          (sets = false → s'.table.Unheard))) := by
  obtain ⟨sets, m', chains', hrec, hrecorded⟩ :=
    h.recordPacket uninit policy ssrc pkt
  refine ⟨⟨m', s.left, if sets then ssrc :: s.senders else s.senders⟩, sets, ?_,
    ⟨⟨chains', hrecorded.orderly⟩, ?_, rfl, ?_⟩, hrecorded.senders, rfl,
    fun hm => ⟨hrecorded.sets_iff hm, hrecorded.unheard hm⟩⟩
  · rw [perform, hrec]
    rfl
  · ext x
    rw [mem_registered hrecorded.orderly.table, hrecorded.ids, Set.mem_insert_iff,
      mem_registered h.table]
  · have hmembers : m'.members = _ := hrecorded.members
    rw [hmembers]
    split_ifs <;> simp

/-- BYEs of an SSRC, `k` of them, in a packet that lists the given sources. -/
theorem leaves_saidBYE {k : ℕ} {m' : MembershipBookkeeping n} {chains' : Fin n → List ℕ}
    (h : Orderly s.table chains) (hk : 0 < k) (hbye : SaidBYE s.table chains ssrc k m' chains')
    (sources : List (BitVec 32)) :
    Leaves { s with table := m', left := sources ++ s.left } (insert ssrc s.registered)
      (sources ++ s.left)
      (s.table.members + (if ssrc ∉ s.table.idsFor chains ssrc then 1 else 0)
        - BitVec.ofNat 32 k) := by
  refine ⟨⟨chains', hbye.orderly⟩, ?_, rfl, ?_⟩
  · ext x
    rw [mem_registered hbye.orderly.table, hbye.ids, Set.mem_insert_iff, mem_registered h.table,
      and_iff_right hk]
  · have hmembers := hbye.members
    simp only [hk, true_and] at hmembers
    exact eq_sub_of_add_eq hmembers

/-- As many members are discounted as the packet lists sources. -/
theorem perform_getBYE (uninit : ℕ → Bool) (policy : ReceptionPolicy)
    (h : Orderly s.table chains) {pkt : ByePacket} (hlists : pkt.sources ≠ []) :
    ∃ s', s.perform uninit policy (.getBYE pkt) = some s' ∧
      s'.Leaves (insert pkt.ssrc s.registered) (pkt.sources ++ s.left)
        (s.table.members + (if pkt.ssrc ∉ s.table.idsFor chains pkt.ssrc then 1 else 0)
          - BitVec.ofNat 32 pkt.sources.length) ∧
      s'.table.activeSenders = s.table.activeSenders ∧ s'.senders = s.senders ∧
      (s.table.Unheard → s'.table.Unheard) := by
  obtain ⟨m', chains', hget, hbye⟩ :=
    h.getBYE uninit pkt.ssrc pkt.sources.length
  refine ⟨{ s with table := m', left := pkt.sources ++ s.left }, ?_,
    leaves_saidBYE h (List.length_pos_of_ne_nil hlists) hbye pkt.sources, hbye.senders, rfl,
    hbye.unheard⟩
  rw [perform, hget]
  rfl

/-- One member is discounted, however many sources the packet lists. -/
theorem perform_getOnlyBye (uninit : ℕ → Bool) (policy : ReceptionPolicy)
    (h : Orderly s.table chains) (pkt : ByePacket) :
    ∃ s', s.perform uninit policy (.getOnlyBye pkt) = some s' ∧
      s'.Leaves (insert pkt.ssrc s.registered) (pkt.sources ++ s.left)
        (s.table.members + (if pkt.ssrc ∉ s.table.idsFor chains pkt.ssrc then 1 else 0)
          - BitVec.ofNat 32 1) ∧
      s'.table.activeSenders = s.table.activeSenders ∧ s'.senders = s.senders ∧
      (s.table.Unheard → s'.table.Unheard) := by
  obtain ⟨m', chains', hget, hbye⟩ := h.sayBYE uninit pkt.ssrc
  refine ⟨{ s with table := m', left := pkt.sources ++ s.left }, ?_,
    leaves_saidBYE h Nat.one_pos hbye pkt.sources, hbye.senders, rfl, hbye.unheard⟩
  rw [perform, hget]
  rfl

/-- A source that is removed is discounted, whether it has said BYE or not. -/
theorem perform_removeSource (uninit : ℕ → Bool) (policy : ReceptionPolicy)
    (h : Orderly s.table chains) (hclean : s.table.RemovesCleanly ssrc) :
    (ssrc ∉ s.registered ∧ s.perform uninit policy (.removeSource ssrc) = some s) ∨
      (ssrc ∈ s.registered ∧ ∃ s' a sl,
        s.perform uninit policy (.removeSource ssrc) = some s' ∧
        s'.Leaves (s.registered \ {ssrc}) (s.left.filter (· ≠ ssrc)) (s.table.members - 1) ∧
        s.table.links a = some sl ∧
        s.table.getSourceBySSRC uninit ssrc = some (a, false, s.table) ∧
        s'.table.activeSenders = (if sl.activeSender then s.table.activeSenders - 1
          else s.table.activeSenders) ∧
        s'.senders = s.senders.filter (· ≠ ssrc) ∧ (s.table.Unheard → s'.table.Unheard)) := by
  rw [mem_registered h.table]
  rcases h.removeSource hclean with
    ⟨hnot, hrem⟩ | ⟨hmem, a, sl, m', chains', hsl, rfl, hchain, hrem, hout⟩
  · refine Or.inl ⟨hnot, ?_⟩
    rw [perform, hrem]
    rfl
  · refine Or.inr ⟨hmem, ⟨m', s.left.filter (· ≠ sl.id), s.senders.filter (· ≠ sl.id)⟩, a, sl, ?_,
      ⟨⟨chains', hout.orderly⟩, ?_, rfl, hout.members⟩, hsl, ?_, hout.senders, rfl, ?_⟩
    · rw [perform, hrem]
      rfl
    · ext x
      rw [mem_registered hout.orderly.table, hout.ids, Set.mem_sdiff, Set.mem_singleton_iff,
        mem_registered h.table, and_comm]
    · have hfound := h.table.getSourceBySSRC_of_mem (a := a) uninit (by rwa [idOf_eq hsl])
      rwa [idOf_eq hsl] at hfound
    · intro hm b
      have hview : m'.links.view SyncSourceLink.obsPacketCount = _ :=
        hout.member SyncSourceLink.obsPacketCount (fun _ _ _ => rfl)
      rw [hview, Function.update_apply]
      split_ifs
      · exact Or.inl rfl
      · exact hm b

/-! ## The members count -/

/-- The registered sources that have not said BYE. -/
def present (s : Session n) : Set (BitVec 32) := {ssrc ∈ s.registered | ssrc ∉ s.left}

/-- The members: registered, and BYE not said. -/
theorem mem_present {x : BitVec 32} : x ∈ s.present ↔ x ∈ s.registered ∧ x ∉ s.left := Iff.rfl

/-- The sources that leave by a BYE packet: of the listed ones those that are registered and have
not said BYE, and the first one if it is new. -/
def leaving (s : Session n) (pkt : ByePacket) : Set (BitVec 32) :=
  {x | x ∈ pkt.sources ∧ (x ∈ s.present ∨ (x = pkt.ssrc ∧ pkt.ssrc ∉ s.registered))}

/-- The call does not make the members count wrong: a new source must not have said BYE before,
nor be the last one that the counter has room for; as many sources leave by a BYE packet as are
discounted, which is the block count in `getBYE` and one in `getOnlyBye`, unless the packet lists
nobody and makes a source known that has said BYE before; and a source is removed without having
said BYE. -/
def KeepsMembersCount (s : Session n) : MemberCall → Prop
  | .getSourceBySSRC ssrc =>
      ssrc ∈ s.registered ∨ (ssrc ∉ s.left ∧ s.table.members ≠ BitVec.allOnes 32)
  | .recordReception ssrc _ =>
      ssrc ∈ s.registered ∨ (ssrc ∉ s.left ∧ s.table.members ≠ BitVec.allOnes 32)
  | .getBYE pkt => (s.leaving pkt).ncard = pkt.sources.length
  | .getOnlyBye pkt =>
      (s.leaving pkt).ncard = 1 ∨
        (pkt.sources = [] ∧ pkt.ssrc ∉ s.registered ∧ pkt.ssrc ∈ s.left)
  | .removeSource ssrc => ssrc ∈ s.registered → ssrc ∉ s.left

/-- Removals leave no dangling pointer in the table. -/
def Clean (s : Session n) : MemberCall → Prop
  | .removeSource ssrc => s.table.RemovesCleanly ssrc
  | _ => True

/-- The invariant: the table is in order, and the count is right. -/
structure MembersInv (s : Session n) : Prop where
  sound : s.Sound
  counted : s.MembersCounted

/-- The sources that are present with another one known. -/
theorem present_insert (s : Session n) (ssrc : BitVec 32) :
    {x ∈ insert ssrc s.registered | x ∉ s.left}
      = if ssrc ∈ s.left then s.present else insert ssrc s.present := by
  split_ifs with hleft
  · ext x
    refine ⟨fun hx => ⟨Set.mem_of_mem_insert_of_ne hx.1 ?_, hx.2⟩,
      fun hx => ⟨Set.mem_insert_of_mem _ hx.1, hx.2⟩⟩
    rintro rfl
    exact hx.2 hleft
  · ext x
    constructor
    · rintro ⟨rfl | hx, hnot⟩
      · exact Or.inl rfl
      · exact Or.inr ⟨hx, hnot⟩
    · rintro (rfl | hx)
      · exact ⟨Set.mem_insert .., hleft⟩
      · exact ⟨Set.mem_insert_of_mem _ hx.1, hx.2⟩

/-- A new source is one more. -/
theorem Leaves.membersCounted_request {chains : Fin n → List ℕ} (h : Orderly s.table chains)
    (hcounted : s.MembersCounted)
    (hs' : s'.Leaves (insert ssrc s.registered) s.left
      (s.table.members + if ssrc ∉ s.table.idsFor chains ssrc then 1 else 0)) :
    s'.MembersCounted ↔
      (ssrc ∈ s.registered ∨ (ssrc ∉ s.left ∧ s.table.members ≠ BitVec.allOnes 32)) := by
  have hcount : s.table.members.toNat = s.present.ncard := hcounted
  have hids := mem_registered h.table ssrc
  have hlt := s.table.members.isLt
  have hone : (1 : BitVec 32).toNat = 1 := rfl
  rw [MembersCounted, hs'.registered, hs'.left, hs'.members]
  by_cases hreg : ssrc ∈ s.registered
  · rw [Set.insert_eq_of_mem hreg, if_neg (not_not.mpr (hids.mp hreg)), add_zero]
    exact iff_of_true hcount (Or.inl hreg)
  · have hnot : ssrc ∉ s.present := fun hmem => hreg hmem.1
    rw [if_pos (mt hids.mpr hreg), present_insert, or_iff_right hreg, BitVec.toNat_add, hone, ne_eq,
      ← BitVec.toNat_inj, BitVec.toNat_allOnes]
    split_ifs with hleft
    · -- it has said BYE before it was known
      rw [← hcount]
      refine iff_of_false ?_ (fun hboth => hboth.1 hleft)
      omega
    · rw [Set.ncard_insert_of_notMem hnot, ← hcount, and_iff_right hleft]
      omega

/-- A packet may list a source twice. -/
theorem ncard_listed_le (pkt : ByePacket) : {x | x ∈ pkt.sources}.ncard ≤ pkt.sources.length := by
  rw [← List.coe_toFinset, Set.ncard_coe_finset]
  exact pkt.sources.toFinset_card_le

/-- **All that a packet lists leave** if it lists none of them twice, and each is present or, if it
is the first one, new. -/
theorem ncard_leaving_iff (s : Session n) (pkt : ByePacket) :
    (s.leaving pkt).ncard = pkt.sources.length ↔ pkt.sources.Nodup ∧
      ∀ x ∈ pkt.sources, x ∈ s.present ∨ (x = pkt.ssrc ∧ pkt.ssrc ∉ s.registered) := by
  have hsub : s.leaving pkt ⊆ {x | x ∈ pkt.sources} := fun x hx => hx.1
  have hle := Set.ncard_le_ncard hsub
  have hlisted : {x | x ∈ pkt.sources}.ncard = pkt.sources.dedup.length := by
    rw [← List.coe_toFinset, Set.ncard_coe_finset, List.card_toFinset]
  constructor
  · intro hall
    have hlength : pkt.sources.dedup.length = pkt.sources.length :=
      le_antisymm (List.dedup_sublist _).length_le (by omega)
    have hnodup : pkt.sources.Nodup :=
      (List.dedup_sublist _).eq_of_length hlength ▸ pkt.sources.nodup_dedup
    refine ⟨hnodup, fun x hx => ?_⟩
    have heq := Set.eq_of_subset_of_ncard_le hsub (by omega)
    have hmem : x ∈ s.leaving pkt := heq ▸ hx
    exact hmem.2
  · rintro ⟨hnodup, hleave⟩
    have heq : s.leaving pkt = {x | x ∈ pkt.sources} :=
      Set.Subset.antisymm hsub (fun x hx => ⟨hx, hleave x hx⟩)
    rw [heq, hlisted, hnodup.dedup]

/-- Nobody leaves by a packet without sources. -/
theorem leaving_of_nobody {pkt : ByePacket} (hlists : pkt.sources = []) : s.leaving pkt = ∅ := by
  ext x
  refine iff_of_false (fun hx => ?_) (Set.notMem_empty x)
  exact List.not_mem_nil (hlists ▸ hx.1)

/-- The first source leaves with the others only if it is present or new. -/
theorem leaving_of_registered {pkt : ByePacket} (hreg : pkt.ssrc ∈ s.registered) :
    s.leaving pkt = s.present ∩ {x | x ∈ pkt.sources} := by
  ext x
  constructor
  · rintro ⟨hx, hpresent | ⟨-, hnew⟩⟩
    · exact ⟨hpresent, hx⟩
    · exact absurd hreg hnew
  · rintro ⟨hpresent, hx⟩
    exact ⟨hx, Or.inl hpresent⟩

/-- The source of the packet becomes a member and leaves at once. -/
theorem leaving_of_new {pkt : ByePacket} (hnew : pkt.ssrc ∉ s.registered)
    (hfirst : pkt.ssrc ∈ pkt.sources) :
    s.leaving pkt = insert pkt.ssrc (s.present ∩ {x | x ∈ pkt.sources}) := by
  ext x
  constructor
  · rintro ⟨hx, hpresent | ⟨rfl, -⟩⟩
    · exact Or.inr ⟨hpresent, hx⟩
    · exact Or.inl rfl
  · rintro (rfl | ⟨hpresent, hx⟩)
    · exact ⟨hfirst, Or.inr ⟨rfl, hnew⟩⟩
    · exact ⟨hx, Or.inl hpresent⟩

/-- **The sources of a BYE packet leave, and `k` are discounted.** -/
theorem Leaves.membersCounted_bye {chains : Fin n → List ℕ} {pkt : ByePacket}
    (h : Orderly s.table chains) (hcounted : s.MembersCounted) (hlists : pkt.sources ≠ []) {k : ℕ}
    (hk : k < 2 ^ 5)
    (hs' : s'.Leaves (insert pkt.ssrc s.registered) (pkt.sources ++ s.left)
      (s.table.members + (if pkt.ssrc ∉ s.table.idsFor chains pkt.ssrc then 1 else 0)
        - BitVec.ofNat 32 k)) :
    s'.MembersCounted ↔ (s.leaving pkt).ncard = k := by
  have hcount : s.table.members.toNat = s.present.ncard := hcounted
  have hlt := s.table.members.isLt
  have hone : (1 : BitVec 32).toNat = 1 := rfl
  have hfirst : pkt.ssrc ∈ pkt.sources := by
    obtain ⟨x, l, hl⟩ := List.exists_cons_of_ne_nil hlists
    have hx := pkt.head x (by rw [hl]; rfl)
    rw [hl, hx]
    exact List.mem_cons_self
  have hpresent : {x ∈ insert pkt.ssrc s.registered | x ∉ pkt.sources ++ s.left}
      = s.present \ {x | x ∈ pkt.sources} := by
    ext x
    constructor
    · rintro ⟨hx, hnot⟩
      rw [List.mem_append, not_or] at hnot
      refine ⟨⟨Set.mem_of_mem_insert_of_ne hx ?_, hnot.2⟩, hnot.1⟩
      rintro rfl
      exact hnot.1 hfirst
    · rintro ⟨⟨hx, hleft⟩, hnot⟩
      exact ⟨Set.mem_insert_of_mem _ hx, fun hmem => (List.mem_append.mp hmem).elim hnot hleft⟩
  have hsplit := Set.ncard_inter_add_ncard_sdiff_eq_ncard s.present {x | x ∈ pkt.sources}
  have hlisted := Set.ncard_inter_le_ncard_right s.present {x | x ∈ pkt.sources}
  have hsources := ncard_listed_le pkt
  have hblocks := pkt.blockCount_lt
  have hids := mem_registered h.table pkt.ssrc
  rw [MembersCounted, hs'.registered, hs'.left, hs'.members, hpresent, BitVec.toNat_sub,
    BitVec.toNat_add, BitVec.toNat_ofNat]
  by_cases hreg : pkt.ssrc ∈ s.registered
  · have hzero : (0 : BitVec 32).toNat = 0 := rfl
    rw [leaving_of_registered hreg, if_neg (not_not.mpr (hids.mp hreg)), hzero]
    omega
  · have hnot : pkt.ssrc ∉ s.present ∩ {x | x ∈ pkt.sources} := fun hmem => hreg hmem.1.1
    rw [leaving_of_new hreg hfirst, Set.ncard_insert_of_notMem hnot, if_pos (mt hids.mpr hreg),
      hone]
    omega

/-- **A BYE packet that lists nobody**, from which one source is discounted. -/
theorem Leaves.membersCounted_nobody {chains : Fin n → List ℕ} (h : Orderly s.table chains)
    (hcounted : s.MembersCounted)
    (hs' : s'.Leaves (insert ssrc s.registered) s.left
      (s.table.members + (if ssrc ∉ s.table.idsFor chains ssrc then 1 else 0)
        - BitVec.ofNat 32 1)) :
    s'.MembersCounted ↔ ssrc ∉ s.registered ∧ ssrc ∈ s.left := by
  have hcount : s.table.members.toNat = s.present.ncard := hcounted
  have hids := mem_registered h.table ssrc
  have hlt := s.table.members.isLt
  have hone : (1 : BitVec 32).toNat = 1 := rfl
  rw [MembersCounted, hs'.registered, hs'.left, hs'.members, BitVec.toNat_sub, BitVec.toNat_ofNat]
  by_cases hreg : ssrc ∈ s.registered
  · rw [Set.insert_eq_of_mem hreg, if_neg (not_not.mpr (hids.mp hreg)), add_zero]
    refine iff_of_false ?_ (fun hboth => hboth.1 hreg)
    show ¬ _ = s.present.ncard
    omega
  · have hnot : ssrc ∉ s.present := fun hmem => hreg hmem.1
    rw [if_pos (mt hids.mpr hreg), present_insert, BitVec.toNat_add, hone, and_iff_right hreg]
    split_ifs with hleft
    · rw [← hcount]
      refine iff_of_true ?_ hleft
      omega
    · rw [Set.ncard_insert_of_notMem hnot, ← hcount]
      refine iff_of_false ?_ hleft
      omega

/-- A source is removed. -/
theorem Leaves.membersCounted_remove (hcounted : s.MembersCounted) (hreg : ssrc ∈ s.registered)
    (hs' : s'.Leaves (s.registered \ {ssrc}) (s.left.filter (· ≠ ssrc)) (s.table.members - 1)) :
    s'.MembersCounted ↔ ssrc ∉ s.left := by
  have hcount : s.table.members.toNat = s.present.ncard := hcounted
  have hlt := s.table.members.isLt
  have hone : (1 : BitVec 32).toNat = 1 := rfl
  have hpresent : {x ∈ s.registered \ {ssrc} | x ∉ s.left.filter (· ≠ ssrc)}
      = s.present \ {ssrc} := by
    ext x
    constructor
    · rintro ⟨⟨hx, hne⟩, hnot⟩
      refine ⟨⟨hx, fun hleft => hnot ?_⟩, hne⟩
      exact List.mem_filter.mpr ⟨hleft, decide_eq_true hne⟩
    · rintro ⟨⟨hx, hleft⟩, hne⟩
      exact ⟨⟨hx, hne⟩, fun hmem => hleft (List.mem_filter.mp hmem).1⟩
  rw [MembersCounted, hs'.registered, hs'.left, hs'.members, hpresent, BitVec.toNat_sub, hone]
  by_cases hleft : ssrc ∈ s.left
  · have hnot : ssrc ∉ s.present := fun hmem => hmem.2 hleft
    rw [Set.sdiff_singleton_eq_self hnot, ← hcount]
    refine iff_of_false ?_ (not_not.mpr hleft)
    omega
  · have hmem : ssrc ∈ s.present := ⟨hreg, hleft⟩
    have hminus := Set.ncard_sdiff_singleton_add_one hmem
    refine iff_of_true ?_ hleft
    omega

/-- **One call**: it returns, and the members count is right afterwards exactly if the call
keeps it. -/
theorem MembersInv.perform (uninit : ℕ → Bool) (policy : ReceptionPolicy) (hinv : s.MembersInv)
    (call : MemberCall) (hclean : s.Clean call) :
    ∃ s', s.perform uninit policy call = some s' ∧
      (s'.MembersCounted ↔ s.KeepsMembersCount call) ∧
      (s.KeepsMembersCount call → s'.MembersInv) := by
  obtain ⟨chains, h⟩ := hinv.sound
  have hdone : ∀ s' : Session n, s'.Sound → (s'.MembersCounted ↔ s.KeepsMembersCount call) →
      (s'.MembersCounted ↔ s.KeepsMembersCount call) ∧
        (s.KeepsMembersCount call → s'.MembersInv) :=
    fun s' hsound hs' => ⟨hs', fun hkeeps => ⟨hsound, hs'.mpr hkeeps⟩⟩
  cases call with
  | getSourceBySSRC ssrc =>
      obtain ⟨s', hs', hleaves, -⟩ :=
        perform_getSourceBySSRC uninit policy h ssrc
      exact ⟨s', hs', hdone s' hleaves.sound (hleaves.membersCounted_request h hinv.counted)⟩
  | getBYE pkt =>
      by_cases hlists : pkt.sources = []
      · have hkeeps : s.KeepsMembersCount (.getBYE pkt) := by
          rw [KeepsMembersCount, leaving_of_nobody hlists, hlists, Set.ncard_empty]
          rfl
        refine ⟨s, ?_, iff_of_true hinv.counted hkeeps, fun _ => hinv⟩
        rw [Session.perform, hlists]
        rfl
      · obtain ⟨s', hs', hleaves, -⟩ := perform_getBYE uninit policy h hlists
        exact ⟨s', hs', hdone s' hleaves.sound
          (hleaves.membersCounted_bye h hinv.counted hlists pkt.blockCount_lt)⟩
  | getOnlyBye pkt =>
      obtain ⟨s', hs', hleaves, -⟩ := perform_getOnlyBye uninit policy h pkt
      refine ⟨s', hs', hdone s' hleaves.sound ?_⟩
      by_cases hlists : pkt.sources = []
      · have hnone : ¬ (s.leaving pkt).ncard = 1 := by
          rw [leaving_of_nobody hlists, Set.ncard_empty]
          exact Nat.zero_ne_one
        rw [hlists] at hleaves
        rw [KeepsMembersCount, or_iff_right hnone, and_iff_right hlists]
        exact hleaves.membersCounted_nobody h hinv.counted
      · rw [KeepsMembersCount, or_iff_left (fun hnobody => hlists hnobody.1)]
        exact hleaves.membersCounted_bye h hinv.counted hlists (by decide)
  | recordReception ssrc pkt =>
      obtain ⟨s', -, hs', hleaves, -⟩ :=
        perform_recordReception uninit policy h ssrc pkt
      exact ⟨s', hs', hdone s' hleaves.sound (hleaves.membersCounted_request h hinv.counted)⟩
  | removeSource ssrc =>
      rcases perform_removeSource uninit policy h hclean with
        ⟨hnot, hsame⟩ | ⟨hreg, s', a, sl, hs', hleaves, -⟩
      · exact ⟨s, hsame, iff_of_true hinv.counted (fun hreg => absurd hreg hnot), fun _ => hinv⟩
      · refine ⟨s', hs', hdone s' hleaves.sound ?_⟩
        rw [KeepsMembersCount, forall_prop_of_true hreg]
        exact hleaves.membersCounted_remove hinv.counted hreg

/-- At the beginning nobody is registered. -/
theorem registered_start : (start n).registered = ∅ := by
  ext x
  rw [mem_registered (s := start n) orderly_empty.table]
  exact iff_of_false (List.not_mem_nil) (Set.notMem_empty x)

/-- At the beginning the count is right. -/
theorem membersInv_start : (start n).MembersInv := by
  refine ⟨⟨_, orderly_empty⟩, ?_⟩
  rw [MembersCounted, registered_start]
  simp [start, empty]

end Session

open Session in
/-- **The members count is right exactly as long as every call keeps it.**  In every run
whose removals leave no dangling pointer in the table, `getMembersCount()` is the number of
registered sources that have not said BYE after each call, if and only if `getBYE` is called for
packets by which all that they list leave, and `getOnlyBye` for packets by which one source leaves,
no source becomes known or is removed after it has said BYE, and there are never `2^32` sources. -/
theorem members_count_exact {n : ℕ} [NeZero n] (uninit : ℕ → Bool) (policy : ReceptionPolicy)
    (calls : List MemberCall)
    (hclean : AlongRun (step uninit policy) (fun s call => ∀ t ∈ s, t.Clean call)
      (some (start n)) calls) :
    AlongRun (step uninit policy)
        (fun s call => ∃ t, step uninit policy s call = some t ∧ t.MembersCounted)
        (some (start n)) calls ↔
      AlongRun (step uninit policy) (fun s call => ∀ t ∈ s, t.KeepsMembersCount call)
        (some (start n)) calls := by
  have hstep : ∀ (s : Session n) (call : MemberCall), s.MembersInv → s.Clean call →
      ∃ t, s.perform uninit policy call = some t ∧
        (t.MembersCounted ↔ s.KeepsMembersCount call) ∧
        (s.KeepsMembersCount call → t.MembersInv) :=
    fun s call hinv hpre => hinv.perform uninit policy call hpre
  exact alongRun_partial_iff hstep membersInv_start hclean

/-- A BYE packet of the sources 7 and 4. -/
def sevenAndFour : ByePacket := ⟨7, [7, 4], fun _ hx => (Option.some_inj.mp hx).symm, by decide⟩

open Session in
/-- One of two sources is removed, and the other one leaves together with a new one. -/
theorem members_count_exact_two_leave :
    AlongRun (step (fun _ => false) .default)
      (fun s call => ∃ t, step (fun _ => false) .default s call = some t ∧ t.MembersCounted)
      (some (start 11))
      [.getSourceBySSRC 15, .getSourceBySSRC 4, .removeSource 15, .getBYE sevenAndFour] := by
  refine (members_count_exact (fun _ => false) .default _ ?_).mpr ?_
  · refine ⟨fun _ _ => trivial, fun _ _ => trivial, ?_, fun _ _ => trivial, trivial⟩
    rintro t ⟨⟩ a sl hsl hid
    match a with
    | 0 =>
        cases hsl
        refine ⟨by decide, by decide, fun q hq => ?_⟩
        cases hq
        decide
    | 1 =>
        cases hsl
        exact absurd hid (by decide)
    | a + 2 => cases hsl
  · refine ⟨?_, ?_, ?_, ?_, trivial⟩
    · rintro t ⟨⟩
      exact Or.inr ⟨by decide, by decide⟩
    · rintro t ⟨⟩
      exact Or.inr ⟨by decide, by decide⟩
    · rintro t ⟨⟩ -
      exact List.not_mem_nil
    · rintro t ⟨⟩
      refine (ncard_leaving_iff _ sevenAndFour).mpr ⟨by decide, fun x hx => ?_⟩
      rcases List.mem_pair.mp hx with rfl | rfl
      · refine Or.inr ⟨rfl, ?_⟩
        rw [registered, Set.mem_ofPred_eq]
        decide
      · exact Or.inl ⟨rfl, List.not_mem_nil⟩

open Session in
/-- **A repeated BYE wraps the count**: one source that says BYE twice. -/
theorem repeated_bye_wraps_members :
    (([.getSourceBySSRC 15, .getBYE (.ofOne 15), .getBYE (.ofOne 15)] : List MemberCall).foldl
        (step (fun _ => false) .default) (some (start 11))).map (fun s => s.table.members)
      = some 0xFFFFFFFF ∧
    ¬ AlongRun (step (fun _ => false) .default)
      (fun s call => ∃ t, step (fun _ => false) .default s call = some t ∧ t.MembersCounted)
      (some (start 11)) [.getSourceBySSRC 15, .getBYE (.ofOne 15), .getBYE (.ofOne 15)] := by
  refine ⟨by decide, ?_⟩
  rintro ⟨-, -, ⟨t, ht, hcounted⟩, -⟩
  have hpresent : ∀ s : Session 11, (s.leaving (.ofOne 15)).ncard = 1 → 15 ∈ s.registered →
      15 ∉ s.left := by
    intro s hone hreg
    rcases ((ncard_leaving_iff s (.ofOne 15)).mp hone).2 15 (List.mem_singleton_self _) with
      hpresent | ⟨-, hnew⟩
    · exact hpresent.2
    · exact absurd hreg hnew
  obtain ⟨s₁, hs₁, -, hinv₁⟩ := (membersInv_start (n := 11)).perform (fun _ => false) .default
    (.getSourceBySSRC 15) trivial
  cases hs₁
  obtain ⟨s₂, hs₂, -, hinv₂⟩ := (hinv₁ (Or.inr ⟨by decide, by decide⟩)).perform (fun _ => false)
    .default (.getBYE (.ofOne 15)) trivial
  cases hs₂
  obtain ⟨s₃, hs₃, hiff, -⟩ := (hinv₂ (by
    refine (ncard_leaving_iff _ (.ofOne 15)).mpr ⟨by decide, fun x hx => Or.inl ?_⟩
    cases List.mem_singleton.mp hx
    exact ⟨rfl, List.not_mem_nil⟩)).perform (fun _ => false) .default (.getBYE (.ofOne 15)) trivial
  cases hs₃
  cases ht
  exact hpresent _ (hiff.mp hcounted) rfl List.mem_cons_self

/-! ## The senders count -/

namespace Session

open MembershipBookkeeping

variable {n : ℕ} [NeZero n] {s s' : Session n}

variable (uninit : ℕ → Bool) (policy : ReceptionPolicy)

/-- The call does not make the senders count wrong: no packet is the first valid one of its
source, as nothing counts the sender then; and no source is removed that has the sender flag
from the start, as it was never counted. -/
def KeepsSendersCount (s : Session n) : MemberCall → Prop
  | .recordReception ssrc pkt => ¬ s.table.IsFirstPacket uninit policy ssrc pkt
  | .removeSource ssrc => ∀ a sl, s.table.getSourceBySSRC uninit ssrc = some (a, false, s.table) →
      s.table.links a = some sl → sl.activeSender = false
  | _ => True

variable {uninit policy}

/-- The invariant: nobody has been heard, and nothing is counted. -/
structure SendersInv (s : Session n) : Prop where
  sound : s.Sound
  unheard : s.table.Unheard
  senders : s.senders = []
  activeSenders : s.table.activeSenders = 0

/-- Without senders, the right count is zero. -/
theorem sendersCounted_iff (hs : s.senders = []) :
    s.SendersCounted ↔ s.table.activeSenders = 0 := by
  have hempty : {ssrc ∈ s.registered | ssrc ∈ s.senders} = ∅ := by
    ext x
    rw [hs]
    exact iff_of_false (fun hmem => List.not_mem_nil hmem.2) (Set.notMem_empty x)
  rw [SendersCounted, hempty, Set.ncard_empty, ← BitVec.toNat_inj]
  rfl

/-- The first packet of a source makes a sender that is not counted. -/
theorem not_sendersCounted {ssrc : BitVec 32} (hreg : ssrc ∈ s.registered)
    (hs : s.senders = [ssrc]) (hzero : s.table.activeSenders = 0) : ¬ s.SendersCounted := by
  have hone : {x ∈ s.registered | x ∈ s.senders} = {ssrc} := by
    ext x
    rw [hs, Set.mem_singleton_iff]
    constructor
    · rintro ⟨-, hx⟩
      exact List.mem_singleton.mp hx
    · rintro rfl
      exact ⟨hreg, List.mem_cons_self⟩
  rw [SendersCounted, hone, Set.ncard_singleton, hzero]
  exact Nat.zero_ne_one

/-- **One call**: it returns, and the senders count is right afterwards exactly if the call
keeps it. -/
theorem SendersInv.perform (uninit : ℕ → Bool) (policy : ReceptionPolicy) (hinv : s.SendersInv)
    (call : MemberCall) (hclean : s.Clean call) :
    ∃ s', s.perform uninit policy call = some s' ∧
      (s'.SendersCounted ↔ s.KeepsSendersCount uninit policy call) ∧
      (s.KeepsSendersCount uninit policy call → s'.SendersInv) := by
  obtain ⟨chains, h⟩ := hinv.sound
  have hquiet : ∀ s' : Session n, s'.Sound → s'.table.activeSenders = s.table.activeSenders →
      s'.senders = s.senders → (s.table.Unheard → s'.table.Unheard) → s'.SendersInv := by
    intro s' hsound hsenders hhistory hunheard
    exact ⟨hsound, hunheard hinv.unheard, hhistory.trans hinv.senders,
      hsenders.trans hinv.activeSenders⟩
  have hcounted : ∀ s' : Session n, s'.SendersInv → s'.SendersCounted :=
    fun s' h' => (sendersCounted_iff h'.senders).mpr h'.activeSenders
  cases call with
  | getSourceBySSRC ssrc =>
      obtain ⟨s', hs', hleaves, hsenders, hhistory, hunheard⟩ :=
        perform_getSourceBySSRC uninit policy h ssrc
      have hs := hquiet s' hleaves.sound hsenders hhistory hunheard
      exact ⟨s', hs', iff_of_true (hcounted s' hs) trivial, fun _ => hs⟩
  | getBYE pkt =>
      by_cases hlists : pkt.sources = []
      · refine ⟨s, ?_, iff_of_true (hcounted s hinv) trivial, fun _ => hinv⟩
        rw [Session.perform, hlists]
        rfl
      · obtain ⟨s', hs', hleaves, hsenders, hhistory, hunheard⟩ :=
          perform_getBYE uninit policy h hlists
        have hs := hquiet s' hleaves.sound hsenders hhistory hunheard
        exact ⟨s', hs', iff_of_true (hcounted s' hs) trivial, fun _ => hs⟩
  | getOnlyBye pkt =>
      obtain ⟨s', hs', hleaves, hsenders, hhistory, hunheard⟩ :=
        perform_getOnlyBye uninit policy h pkt
      have hs := hquiet s' hleaves.sound hsenders hhistory hunheard
      exact ⟨s', hs', iff_of_true (hcounted s' hs) trivial, fun _ => hs⟩
  | recordReception ssrc pkt =>
      obtain ⟨s', sets, hs', hleaves, hsenders, hhistory, hfirst⟩ :=
        perform_recordReception uninit policy h ssrc pkt
      obtain ⟨hsets, hunheard⟩ := hfirst hinv.unheard
      have hzero := hsenders.trans hinv.activeSenders
      refine ⟨s', hs', ?_⟩
      cases sets with
      | true =>
          have hkeeps : ¬ s.KeepsSendersCount uninit policy (.recordReception ssrc pkt) :=
            not_not.mpr (hsets.mp rfl)
          have hreg : ssrc ∈ s'.registered := by
            rw [hleaves.registered]
            exact Set.mem_insert ..
          rw [hinv.senders, if_pos rfl] at hhistory
          exact ⟨iff_of_false (not_sendersCounted hreg hhistory hzero) hkeeps,
            fun hk => absurd hk hkeeps⟩
      | false =>
          have hs : s'.SendersInv :=
            ⟨hleaves.sound, hunheard rfl, hhistory.trans hinv.senders, hzero⟩
          exact ⟨iff_of_true (hcounted s' hs) (fun hp => Bool.false_ne_true (hsets.mpr hp)),
            fun _ => hs⟩
  | removeSource ssrc =>
      rcases perform_removeSource uninit policy h hclean with
        ⟨hnot, hsame⟩ | ⟨hreg, s', a, sl, hs', hleaves, hsl, hfound, hsenders, hhistory, hunheard⟩
      · refine ⟨s, hsame, iff_of_true (hcounted s hinv) ?_, fun _ => hinv⟩
        intro a sl hget
        obtain ⟨a', created, m', chains', hget', hreq⟩ := h.getSourceBySSRC uninit ssrc
        rw [hget', Option.some_inj] at hget
        cases hget
        rw [mem_registered h.table] at hnot
        exact absurd (hreq.created_iff.mpr hnot) Bool.false_ne_true
      · rw [hinv.senders, List.filter_nil] at hhistory
        refine ⟨s', hs', ?_⟩
        have hkeeps : s.KeepsSendersCount uninit policy (.removeSource ssrc) ↔
            sl.activeSender = false := by
          constructor
          · intro hk
            exact hk a sl hfound hsl
          · intro hflag a' sl' hfound' hsl'
            rw [hfound, Option.some_inj] at hfound'
            cases hfound'
            rw [hsl, Option.some_inj] at hsl'
            rwa [← hsl']
        rw [hkeeps, sendersCounted_iff hhistory, hsenders, hinv.activeSenders]
        cases hflag : sl.activeSender with
        | true =>
            refine ⟨iff_of_false (by decide) (by decide), fun hfalse => ?_⟩
            cases hfalse
        | false =>
            rw [hflag, hinv.activeSenders] at hsenders
            exact ⟨iff_of_true rfl rfl,
              fun _ => ⟨hleaves.sound, hunheard hinv.unheard, hhistory, hsenders⟩⟩

/-- At the beginning the count of senders is right. -/
theorem sendersInv_start : (start n).SendersInv :=
  ⟨⟨_, orderly_empty⟩, fun _ => Or.inl rfl, rfl, rfl⟩

end Session

open Session in
/-- **The senders count is right exactly as long as every call keeps it.**  In every run
whose removals leave no dangling pointer in the table, `getSendersCount()` is the number of
registered sources that `recordReception` has made senders after each call, if and only if
no packet is the first valid one of its source and no source is removed whose sender flag is
set from the start. -/
theorem senders_count_exact {n : ℕ} [NeZero n] (uninit : ℕ → Bool) (policy : ReceptionPolicy)
    (calls : List MemberCall)
    (hclean : AlongRun (step uninit policy) (fun s call => ∀ t ∈ s, t.Clean call)
      (some (start n)) calls) :
    AlongRun (step uninit policy)
        (fun s call => ∃ t, step uninit policy s call = some t ∧ t.SendersCounted)
        (some (start n)) calls ↔
      AlongRun (step uninit policy)
        (fun s call => ∀ t ∈ s, t.KeepsSendersCount uninit policy call)
        (some (start n)) calls := by
  have hstep : ∀ (s : Session n) (call : MemberCall), s.SendersInv → s.Clean call →
      ∃ t, s.perform uninit policy call = some t ∧
        (t.SendersCounted ↔ s.KeepsSendersCount uninit policy call) ∧
        (s.KeepsSendersCount uninit policy call → t.SendersInv) :=
    fun s call hinv hpre => hinv.perform uninit policy call hpre
  exact alongRun_partial_iff hstep sendersInv_start hclean

open Session in
/-- A session with control packets only. -/
theorem senders_count_exact_control_only :
    AlongRun (step (fun _ => false) .default)
      (fun s call => ∃ t, step (fun _ => false) .default s call = some t ∧ t.SendersCounted)
      (some (start 11)) [.getSourceBySSRC 15, .getSourceBySSRC 4, .removeSource 15] := by
  refine (senders_count_exact (fun _ => false) .default _ ?_).mpr ?_
  · refine ⟨fun _ _ => trivial, fun _ _ => trivial, ?_, trivial⟩
    rintro t ⟨⟩ a sl hsl hid
    match a with
    | 0 =>
        cases hsl
        refine ⟨by decide, by decide, fun q hq => ?_⟩
        cases hq
        decide
    | 1 =>
        cases hsl
        exact absurd hid (by decide)
    | a + 2 => cases hsl
  · refine ⟨fun _ _ => trivial, fun _ _ => trivial, ?_, trivial⟩
    rintro t ⟨⟩ a sl hfound hsl
    cases hfound
    cases hsl
    rfl

open Session in
/-- **The first packet makes a sender that is not counted**; when the source is removed, the
count wraps. -/
theorem first_packet_not_counted :
    (([.recordReception 15 ⟨1, 160, 0⟩, .getSourceBySSRC 4, .removeSource 15] :
        List MemberCall).foldl (step (fun _ => false) .default) (some (start 11))).map
        (fun s => s.table.activeSenders) = some 0xFFFFFFFF ∧
    ¬ AlongRun (step (fun _ => false) .default)
      (fun s call => ∃ t, step (fun _ => false) .default s call = some t ∧ t.SendersCounted)
      (some (start 11)) [.recordReception 15 ⟨1, 160, 0⟩] := by
  refine ⟨by decide, ?_⟩
  rintro ⟨⟨t, ht, hcounted⟩, -⟩
  have hreg : (15 : BitVec 32) ∈ t.registered := by
    cases ht
    rfl
  have hsenders : t.senders = [15] := by
    cases ht
    rfl
  have hcount : t.table.activeSenders = 0 := by
    cases ht
    rfl
  exact not_sendersCounted hreg hsenders hcount hcounted
