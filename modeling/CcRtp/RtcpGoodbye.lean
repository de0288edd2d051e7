/-
# What a BYE packet does

A BYE packet lists the sources that leave the session.  `QueueRTCPManager::getBYE`
(`src/control.cpp`) runs through as many rounds as there are sources in the list, but every
round takes the first one; `BYESource` lowers the number of members whatever the state of the
source is; and the loop of `takeInControlPacket` goes on looking at the first BYE packet after
the offset has been taken behind it.

* `SaidGoodbye` : what a BYE packet is for;
* `iterate_leave` : what the rounds of `getBYE` come to;
* `getBYE_said_iff` : when this is the same;
* `walkByes_processed_iff` : the same for the BYE packets of a compound.
-/
import CcRtp.RtcpWalk

namespace QueueRTCPManager

open RTCPPacket

/-! ## The purpose of a BYE packet -/

/-- The sources that a BYE packet lists. -/
def byeSSRCs (buf : Memory) (p : ℕ) : List (BitVec 32) :=
  (List.range (blockCount buf p).toNat).map
    (fun i => BitVec.ofNat 32 (ofBigEndian (buf.octets (p + 4 + 4 * i) 4)))

/-- A BYE packet that lists somebody, with the list inside the packet. -/
def ListsSources (buf : Memory) (p : ℕ) : Prop :=
  1 ≤ (blockCount buf p).toNat ∧ 4 + 4 * (blockCount buf p).toNat ≤ getLength buf p

instance (buf : Memory) (p : ℕ) : Decidable (ListsSources buf p) :=
  inferInstanceAs (Decidable (_ ∧ _))

theorem ListsSources.blocks {buf : Memory} {p : ℕ} (h : ListsSources buf p) :
    blockCount buf p ≠ 0 := by
  intro hzero
  have hone := h.1
  rw [hzero] at hone
  exact absurd hone (by decide)

/-- How many sources of a list have a property. -/
def countSources (ssrcs : List (BitVec 32)) (P : BitVec 32 → Prop) [DecidablePred P] : ℕ :=
  (ssrcs.toFinset.filter P).card

/-- **The sources of the list have left**: each of them is registered and marked as leaving, its
goodbye has been reported once if it had announced itself, and it has been discounted if it was
not leaving already; and the other sources are as before. -/
structure SaidGoodbye (m : QueueRTCPManager) (ssrcs : List (BitVec 32)) (m' : QueueRTCPManager) :
    Prop where
  leaving : ∀ x ∈ ssrcs, (m'.sources x).map ControlSource.state = some .leaving
  others : ∀ x ∉ ssrcs, m'.sources x = m.sources x
  goodbyes : ∃ calls, m'.goodbyes = m.goodbyes ++ calls ∧
    ∀ x, (calls.map Prod.fst).count x = if x ∈ ssrcs ∧ (m.source x).flag = true then 1 else 0
  members : m'.members +
    BitVec.ofNat 32 (countSources ssrcs (fun x => (m.source x).state ≠ .leaving))
    = m.members + BitVec.ofNat 32 (countSources ssrcs (fun x => m.sources x = none))

variable {m m' : QueueRTCPManager} {buf : Memory} {len rounds pkt pointer k : ℕ}
  {ssrc : BitVec 32} {reason : Octets} {na : InetAddress} {tp : BitVec 16}

/-! ## The rounds of `getBYE` -/

/-- What `k` rounds for a source leave. -/
structure Left (m : QueueRTCPManager) (ssrc : BitVec 32) (reason : Octets) (k : ℕ)
    (m' : QueueRTCPManager) : Prop where
  source : ∃ s, m'.sources ssrc = some s ∧ s.state = .leaving ∧ s.flag = false
  others : ∀ x, x ≠ ssrc → m'.sources x = m.sources x
  goodbyes : m'.goodbyes
    = m.goodbyes ++ if (m.source ssrc).flag = true then [(ssrc, reason)] else []
  members : m'.members + BitVec.ofNat 32 k
    = m.members + if m.sources ssrc = none then 1 else 0

theorem sources_getSourceBySSRC_of_ne (m : QueueRTCPManager) {x : BitVec 32} (hx : x ≠ ssrc) :
    (m.getSourceBySSRC ssrc).2.sources x = m.sources x := by
  rw [getSourceBySSRC]
  cases m.sources ssrc with
  | some s => rfl
  | none => exact Function.update_of_ne hx _ _

theorem goodbyes_getSourceBySSRC (m : QueueRTCPManager) (ssrc : BitVec 32) :
    (m.getSourceBySSRC ssrc).2.goodbyes = m.goodbyes := by
  rw [getSourceBySSRC]
  cases m.sources ssrc <;> rfl

theorem members_getSourceBySSRC (m : QueueRTCPManager) (ssrc : BitVec 32) :
    (m.getSourceBySSRC ssrc).2.members = m.members + if m.sources ssrc = none then 1 else 0 := by
  rw [getSourceBySSRC]
  cases m.sources ssrc with
  | some s =>
      rw [if_neg (Option.some_ne_none s), add_zero]
  | none => rfl

/-- `getGoodbye` changes the source alone, and notes its goodbye down. -/
theorem getGoodbye_spec (m : QueueRTCPManager) (ssrc : BitVec 32) (reason : Octets) :
    ((m.getGoodbye ssrc reason).source ssrc).flag = false ∧
      (∀ x, x ≠ ssrc → (m.getGoodbye ssrc reason).sources x = m.sources x) ∧
      (m.getGoodbye ssrc reason).goodbyes
        = m.goodbyes ++ (if (m.source ssrc).flag = true then [(ssrc, reason)] else []) ∧
      (m.getGoodbye ssrc reason).members = m.members := by
  rw [getGoodbye]
  split_ifs with hflag
  · refine ⟨?_, fun x hx => Function.update_of_ne hx _ _, rfl, rfl⟩
    exact congrArg ControlSource.flag
      (m.source_modifySource_self ssrc (fun s => { s with flag := false }))
  · exact ⟨Bool.eq_false_iff.mpr hflag, fun _ _ => rfl, (List.append_nil _).symm, rfl⟩

/-- **One round.** -/
theorem left_leave (m : QueueRTCPManager) (ssrc : BitVec 32) (reason : Octets) :
    Left m ssrc reason 1 (m.leave ssrc reason) := by
  set m₁ := (m.getSourceBySSRC ssrc).2 with hm₁
  obtain ⟨hflag, hothers, hgoodbyes, hmembers⟩ := m₁.getGoodbye_spec ssrc reason
  set m₂ := m₁.getGoodbye ssrc reason with hm₂
  have hsource : (m.leave ssrc reason).sources ssrc
      = some { m₂.source ssrc with state := .leaving } := Function.update_self _ _ _
  refine ⟨⟨_, hsource, rfl, hflag⟩, fun x hx => ?_, ?_, ?_⟩
  · have hleave : (m.leave ssrc reason).sources x = m₂.sources x := Function.update_of_ne hx _ _
    rw [hleave, hothers x hx]
    exact m.sources_getSourceBySSRC_of_ne hx
  · have hleave : (m.leave ssrc reason).goodbyes = m₂.goodbyes := rfl
    rw [hleave, hgoodbyes, m.goodbyes_getSourceBySSRC, hm₁, source_getSourceBySSRC]
  · have hleave : (m.leave ssrc reason).members = m₂.members - 1 := rfl
    rw [hleave, hmembers, ← m.members_getSourceBySSRC]
    exact BitVec.sub_add_cancel _ _

/-- **The rounds of `getBYE`**: the source leaves in the first one, and is discounted in all. -/
theorem iterate_leave (ssrc : BitVec 32) (reason : Octets) (k : ℕ) :
    ∀ m : QueueRTCPManager, Left m ssrc reason (k + 1)
      ((fun m => m.leave ssrc reason)^[k + 1] m) := by
  induction k with
  | zero =>
      intro m
      exact m.left_leave ssrc reason
  | succ k ih =>
      intro m
      have hfirst := m.left_leave ssrc reason
      obtain ⟨s, hs, -, hflag⟩ := hfirst.source
      have hrest := ih (m.leave ssrc reason)
      have hsource : (m.leave ssrc reason).source ssrc = s := by
        rw [source, hs, Option.getD_some]
      rw [Function.iterate_succ_apply]
      refine ⟨hrest.source, fun x hx => (hrest.others x hx).trans (hfirst.others x hx), ?_, ?_⟩
      · have hgoodbyes := hrest.goodbyes
        rw [hsource, hflag, if_neg Bool.false_ne_true, List.append_nil] at hgoodbyes
        rw [hgoodbyes, hfirst.goodbyes]
      · have hmembers := hrest.members
        rw [if_neg (by rw [hs]; exact Option.some_ne_none s), add_zero] at hmembers
        rw [← hfirst.members, ← hmembers, BitVec.add_assoc, ← BitVec.ofNat_add]

/-- What `getBYE` leaves. -/
theorem left_getBYE (m : QueueRTCPManager) (h : ListsSources buf pkt) (pointer : ℕ) :
    Left m (getSSRC buf pkt) (byeReason buf pkt pointer) (blockCount buf pkt).toNat
      (m.getBYE buf pkt pointer).2 := by
  obtain ⟨k, hk⟩ : ∃ k, (blockCount buf pkt).toNat = k + 1 :=
    ⟨(blockCount buf pkt).toNat - 1, by have := h.1; omega⟩
  rw [getBYE, if_neg h.blocks, hk]
  exact iterate_leave _ _ k m

/-! ## When this is what a BYE packet is for -/

/-- A property that only one source of a list can have. -/
theorem countSources_of_unique {ssrcs : List (BitVec 32)} {P : BitVec 32 → Prop} [DecidablePred P]
    (hmem : ssrc ∈ ssrcs) (h : ∀ x ∈ ssrcs, P x → x = ssrc) :
    countSources ssrcs P = if P ssrc then 1 else 0 := by
  rw [countSources]
  split_ifs with hP
  · rw [Finset.card_eq_one]
    refine ⟨ssrc, ?_⟩
    ext x
    rw [Finset.mem_filter, List.mem_toFinset, Finset.mem_singleton]
    constructor
    · rintro ⟨hx, hPx⟩
      exact h x hx hPx
    · rintro rfl
      exact ⟨hmem, hP⟩
  · rw [Finset.card_eq_zero, Finset.filter_eq_empty_iff]
    intro x hx hPx
    rw [List.mem_toFinset] at hx
    exact hP (h x hx hPx ▸ hPx)

theorem getSSRC_mem_byeSSRCs (h : ListsSources buf pkt) : getSSRC buf pkt ∈ byeSSRCs buf pkt := by
  refine List.mem_map.mpr ⟨0, List.mem_range.mpr h.1, ?_⟩
  rw [Nat.mul_zero, Nat.add_zero, getSSRC]

theorem byeSSRCs_of_one (h : (blockCount buf pkt).toNat = 1) :
    byeSSRCs buf pkt = [getSSRC buf pkt] := by
  rw [byeSSRCs, h, List.range_one, List.map_singleton, Nat.mul_zero, Nat.add_zero, getSSRC]

/-- **When the rounds do what a list of sources asks for**: it has one entry, and this source is
not leaving already. -/
theorem Left.said_iff {ssrcs : List (BitVec 32)} (h : Left m ssrc reason k m') (hmem : ssrc ∈ ssrcs)
    (hk : 1 ≤ k ∧ k < 2 ^ 32) (hone : k = 1 → ssrcs = [ssrc]) :
    SaidGoodbye m ssrcs m' ↔ k = 1 ∧ (m.source ssrc).state ≠ .leaving := by
  obtain ⟨s, hs, hleaving, -⟩ := h.source
  constructor
  · intro hsaid
    -- of the others, all are leaving before
    have hothers : ∀ x ∈ ssrcs, x ≠ ssrc → m.sources x ≠ none ∧ (m.source x).state = .leaving := by
      intro x hx hne
      have hx' := hsaid.leaving x hx
      rw [h.others x hne] at hx'
      obtain ⟨t, ht, hstate⟩ := Option.map_eq_some_iff.mp hx'
      refine ⟨by rw [ht]; exact Option.some_ne_none t, ?_⟩
      rw [QueueRTCPManager.source, ht]
      exact hstate
    have hcount := countSources_of_unique (P := fun x => (m.source x).state ≠ .leaving) hmem
      (fun x hx hP => by_contra (fun hne => hP (hothers x hx hne).2))
    have hnew := countSources_of_unique (P := fun x => m.sources x = none) hmem
      (fun x hx hP => by_contra (fun hne => (hothers x hx hne).1 hP))
    have hmembers := hsaid.members
    rw [hcount, hnew, apply_ite (BitVec.ofNat 32) (m.sources ssrc = none)] at hmembers
    have heq : m'.members + BitVec.ofNat 32 k
        = m'.members + BitVec.ofNat 32 (if (m.source ssrc).state ≠ .leaving then 1 else 0) :=
      h.members.trans hmembers.symm
    have hk' := congrArg BitVec.toNat (add_left_cancel heq)
    rw [BitVec.toNat_ofNat, BitVec.toNat_ofNat, Nat.mod_eq_of_lt hk.2] at hk'
    split_ifs at hk' with hstate
    · exact ⟨hk', hstate⟩
    · omega
  · rintro ⟨rfl, hstate⟩
    have hlist := hone rfl
    subst hlist
    refine ⟨fun x hx => ?_, fun x hx => h.others x (fun heq => hx (List.mem_singleton.mpr heq)),
      ⟨_, h.goodbyes, ?_⟩, ?_⟩
    · rw [List.mem_singleton.mp hx, hs]
      exact congrArg some hleaving
    · intro x
      by_cases hx : x = ssrc
      · subst hx
        simp only [List.mem_singleton, true_and]
        split_ifs
        · exact List.count_singleton_self
        · rfl
      · have hunlisted : ¬ (x ∈ [ssrc] ∧ (m.source x).flag = true) :=
          fun hlisted => hx (List.mem_singleton.mp hlisted.1)
        rw [if_neg hunlisted, List.count_eq_zero]
        split_ifs
        · exact fun hcalled => hx (List.mem_singleton.mp hcalled)
        · exact List.not_mem_nil
    · have hcount := countSources_of_unique (P := fun x => (m.source x).state ≠ .leaving) hmem
        (fun x hx _ => List.mem_singleton.mp hx)
      have hnew := countSources_of_unique (P := fun x => m.sources x = none) hmem
        (fun x hx _ => List.mem_singleton.mp hx)
      rw [hcount, hnew, if_pos hstate, apply_ite (BitVec.ofNat 32)]
      exact h.members

/-- **`getBYE` does what the packet asks for** exactly if it lists one source, and this one is
not leaving already. -/
theorem getBYE_said_iff (m : QueueRTCPManager) (h : ListsSources buf pkt) (pointer : ℕ) :
    SaidGoodbye m (byeSSRCs buf pkt) (m.getBYE buf pkt pointer).2 ↔
      (blockCount buf pkt).toNat = 1 ∧ (m.source (getSSRC buf pkt)).state ≠ .leaving := by
  have hmax := (blockCount buf pkt).isLt
  exact (m.left_getBYE h pointer).said_iff (getSSRC_mem_byeSSRCs h) ⟨h.1, by omega⟩ byeSSRCs_of_one

/-! ## The BYE packets of a compound -/

/-- The manager when the packet at `p` has been looked up and checked. -/
def checked (buf : Memory) (na : InetAddress) (tp : BitVec 16) (m : QueueRTCPManager) (p : ℕ) :
    QueueRTCPManager := (checkPacket buf na tp ⟨p, [], false, m⟩).2

/-- **The BYE packets at the offsets have been processed**, one behind the other. -/
def ByesProcessed (buf : Memory) (na : InetAddress) (tp : BitVec 16) :
    QueueRTCPManager → List ℕ → QueueRTCPManager → Prop
  | m, [], m' => m' = m
  | m, p :: os, m' => ∃ m₁, SaidGoodbye (checked buf na tp m p) (byeSSRCs buf p) m₁ ∧
      ByesProcessed buf na tp m₁ os m'

/-- The check leaves the states of the sources. -/
theorem state_checked (buf : Memory) (na : InetAddress) (tp : BitVec 16) (m : QueueRTCPManager)
    (p : ℕ) (x : BitVec 32) : ((checked buf na tp m p).source x).state = (m.source x).state := by
  set ssrc := getSSRC buf p with hssrc
  set m₁ := (m.getSourceBySSRC ssrc).2 with hm₁
  have hchecked : checked buf na tp m p
      = (m₁.checkSSRCInRTCPPkt ssrc (m.getSourceBySSRC ssrc).1 na tp).2 := rfl
  rw [hchecked, ← m.source_getSourceBySSRC ssrc x, ← hm₁]
  rcases checkSSRCInRTCPPkt_frame ControlSource.state (fun _ _ _ _ => rfl) m₁ ssrc
    (m.getSourceBySSRC ssrc).1 na tp x with hsame | ⟨-, -, -, hinit⟩
  · exact hsame
  · exact hinit

/-- A round of the loop over BYE packets looks at the packet, whatever it does. -/
theorem visited_byeBody {w w' : Walk} (h : byeBody buf na tp pkt w = some w') :
    w'.visited = w.visited ++ [pkt] := by
  rw [byeBody_eq, Option.some_inj] at h
  subst h
  split_ifs <;> rfl

/-- The loop looks at the same packet all the time. -/
theorem visited_byeLoop {cond : Walk → Bool} {w w' : Walk}
    (h : whileLoop cond (byeBody buf na tp pkt) rounds w = some w') :
    ∃ k, w'.visited = w.visited ++ List.replicate k pkt := by
  refine (whileLoop_invariant (fun v : Walk => ∃ k, v.visited = w.visited ++ List.replicate k pkt)
    (fun v v' hv _ hv' => ?_) rounds ⟨0, (List.append_nil _).symm⟩ h).1
  obtain ⟨k, hk⟩ := hv
  refine ⟨k + 1, ?_⟩
  rw [visited_byeBody hv', hk, List.append_assoc, List.replicate_succ']

/-- A loop that has looked at a packet, and then at no other, had one round. -/
theorem byeLoop_one_round {cond : Walk → Bool} {w w' : Walk} {os : List ℕ} (hcond : cond w = true)
    (hloop : whileLoop cond (byeBody buf na tp pkt) rounds w = some w')
    (hvisited : w'.visited = w.visited ++ pkt :: os) (hnext : ∀ o ∈ os.head?, o ≠ pkt) :
    os = [] ∧ byeBody buf na tp pkt w = some w' ∧ cond w' = false := by
  obtain ⟨w₁, rounds₁, hw₁, hloop₁⟩ := exists_round_of_whileLoop hcond hloop
  have hone : cond w₁ = false := by
    rw [← Bool.not_eq_true]
    intro hcond₁
    -- a second round would look at the packet again
    obtain ⟨w₂, rounds₂, hw₂, hloop₂⟩ := exists_round_of_whileLoop hcond₁ hloop₁
    obtain ⟨k, hk⟩ := visited_byeLoop hloop₂
    rw [visited_byeBody hw₂, visited_byeBody hw₁, hvisited, List.append_assoc, List.append_assoc,
      List.append_cancel_left_eq, List.singleton_append, List.cons.injEq,
      List.singleton_append] at hk
    obtain ⟨-, rfl⟩ := hk
    exact hnext pkt rfl rfl
  rw [whileLoop_of_false hone, Option.some_inj] at hloop₁
  subst hloop₁
  rw [visited_byeBody hw₁, List.append_cancel_left_eq, List.cons.injEq] at hvisited
  exact ⟨hvisited.2.symm, hw₁, hone⟩

/-- **One round is enough** for a BYE packet at the end of the compound whose source passes the
check. -/
theorem walkByes_of_last {w : Walk} (hbye : type buf w.pointer = tBYE)
    (hlists : ListsSources buf w.pointer) (hlen : w.pointer + getLength buf w.pointer = len)
    (hno : ¬ w.manager.Repeats na tp (getSSRC buf w.pointer)) (hrounds : 1 ≤ rounds) :
    walkByes rounds buf len na tp w = some { w with
      pointer := len
      visited := w.visited ++ [w.pointer]
      manager := ((checked buf na tp w.manager w.pointer).getBYE buf w.pointer w.pointer).2 } := by
  obtain ⟨rounds, rfl⟩ : ∃ r, rounds = r + 1 := ⟨rounds - 1, by omega⟩
  have hfour := (getLength_bounds buf w.pointer).1
  have hcheck : (checkPacket buf na tp { w with pointer := w.pointer }).1 = true :=
    (checkPacket_spec buf na tp w).1.mpr hno
  set cond : Walk → Bool := fun v => v.pointer < len ∧ type buf w.pointer = tBYE with hconds
  have hcond : cond w = true := decide_eq_true ⟨by omega, hbye⟩
  have hpointer := (checked buf na tp w.manager w.pointer).getBYE_pointer buf w.pointer w.pointer
  rw [if_neg hlists.blocks, hlen] at hpointer
  have hchecked : checked buf na tp w.manager w.pointer
      = (checkPacket buf na tp { w with pointer := w.pointer }).2 := rfl
  have hround := byeBody_eq buf na tp w.pointer w
  rw [if_pos hcheck, ← hchecked, hpointer] at hround
  rw [walkByes, ← hconds, whileLoop_of_true hcond hround]
  refine whileLoop_of_false ?_ rounds
  exact decide_eq_false (fun h => absurd h.1 (lt_irrefl len))

/-- **When the loop processes the BYE packets that stand at its offset**: there is one, at the end
of the compound, whose source passes the check; it lists this source alone; and this is not
leaving already. -/
theorem walkByes_processed_iff {os : List ℕ} {q : ℕ} {w : Walk}
    (h : Stretch buf (fun t => t = tBYE) w.pointer os q) (hne : os ≠ []) (hq : q ≤ len)
    (hlists : ∀ p ∈ os, ListsSources buf p) (hrounds : 1 ≤ rounds) (na : InetAddress)
    (tp : BitVec 16) :
    (∃ w', walkByes rounds buf len na tp w = some w' ∧ w'.visited = w.visited ++ os ∧
        w'.pointer = q ∧ ByesProcessed buf na tp w.manager os w'.manager) ↔
      os = [w.pointer] ∧ q = len ∧ ¬ w.manager.Repeats na tp (getSSRC buf w.pointer) ∧
        (blockCount buf w.pointer).toNat = 1 ∧
        (w.manager.source (getSSRC buf w.pointer)).state ≠ .leaving := by
  obtain ⟨o, os, rfl⟩ := List.exists_cons_of_ne_nil hne
  obtain ⟨rfl, hbye, hrest⟩ := h
  have hfour := (getLength_bounds buf w.pointer).1
  have hle := hrest.le
  have hfirst : ListsSources buf w.pointer := hlists _ List.mem_cons_self
  set cond : Walk → Bool := fun v => v.pointer < len ∧ type buf w.pointer = tBYE with hconds
  have hcond : cond w = true := decide_eq_true ⟨by omega, hbye⟩
  constructor
  · rintro ⟨w', hw', hvisited, hpointer, m₁, hsaid, hothers⟩
    have hnext : ∀ o ∈ os.head?, o ≠ w.pointer := by
      intro o ho
      obtain ⟨os, rfl⟩ := List.head?_eq_some_iff.mp ho
      have hbehind := hrest.1
      omega
    obtain ⟨rfl, hw₁, hone⟩ := byeLoop_one_round hcond hw' hvisited hnext
    have hend : ¬ w'.pointer < len := fun hlt => of_decide_eq_false hone ⟨hlt, hbye⟩
    have hqlen : q = len := by omega
    have hround := byeBody_spec buf na tp w.pointer w
    obtain ⟨w₂, hw₂, -, hgoes⟩ := hround
    rw [hw₁, Option.some_inj] at hw₂
    subst hw₂
    have hno : ¬ w.manager.Repeats na tp (getSSRC buf w.pointer) := by
      intro hrepeats
      rw [if_pos (Or.inr hrepeats)] at hgoes
      omega
    have hprocessed := walkByes_of_last hbye hfirst
      (show w.pointer + getLength buf w.pointer = len from hrest.trans hqlen) hno hrounds
    rw [hprocessed, Option.some_inj] at hw'
    have hmanager := congrArg Walk.manager hw'
    rw [show w'.manager = m₁ from hothers] at hmanager
    rw [← hmanager] at hsaid
    obtain ⟨hcount, hstate⟩ := (getBYE_said_iff _ hfirst w.pointer).mp hsaid
    rw [state_checked] at hstate
    exact ⟨rfl, hqlen, hno, hcount, hstate⟩
  · rintro ⟨hos, rfl, hno, hcount, hstate⟩
    rw [List.cons.injEq] at hos
    obtain ⟨-, rfl⟩ := hos
    refine ⟨_, walkByes_of_last hbye hfirst hrest hno hrounds, rfl, rfl, _, ?_, rfl⟩
    refine (getBYE_said_iff _ hfirst w.pointer).mpr ⟨hcount, ?_⟩
    rw [state_checked]
    exact hstate

/-- A BYE packet of the sources 7 and 9. -/
def twoLeave : Memory := .ofOctets [0x82, 203, 0, 2, 0, 0, 0, 7, 0, 0, 0, 9]

/-- **The second source never leaves.** -/
theorem second_source_never_leaves :
    ListsSources twoLeave 0 ∧
      ¬ SaidGoodbye alone (byeSSRCs twoLeave 0) (alone.getBYE twoLeave 0 0).2 := by
  refine ⟨by decide, fun hsaid => ?_⟩
  have hleaving := hsaid.leaving 9 (by decide)
  have hunknown : (alone.getBYE twoLeave 0 0).2.sources 9 = none := rfl
  rw [hunknown] at hleaving
  cases hleaving

end QueueRTCPManager
