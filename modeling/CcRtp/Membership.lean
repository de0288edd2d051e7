/-
# The membership table

Models `MembershipBookkeeping` of `src/members.cpp`: a hash table of the sources of a
session.  The sources of one bucket form a list, linked by `nextCollis` and sorted by SSRC;
a second list, linked by `next`, threads all sources in the order in which they were made.

The link objects live in a heap.  A call that follows a null pointer or one to a deleted
object is `none`.  Loops are given as many rounds as objects were ever made: a list without
a cycle is not longer.

* `searchLoop_eq`, `isRegisteredLoop_eq`, `removeLoop_eq` : the three loops over a collision
  list end at the same place of the list;
* `place_of_sorted` : where that is in a sorted list.
-/
import CcRtp.LinkedList
import CcRtp.AlongRun

/-- A network address; only equality of addresses is ever tested. -/
abbrev InetAddress := BitVec 32

/-- The address of a socket: a network address and a port. -/
structure SocketAddress where
  networkAddress : InetAddress
  transportPort : BitVec 16
  deriving DecidableEq

/-- `ConflictingTransportAddress`, without its link and the time of the last packet. -/
structure ConflictingTransportAddress where
  networkAddress : InetAddress
  dataTransportPort : BitVec 16
  controlTransportPort : BitVec 16
  deriving DecidableEq

/-- `SyncSourceLink` and the `SyncSource` it owns, without the packet queue, the stored
reports and the arrival times. -/
structure SyncSourceLink where
  -- the source
  id : BitVec 32
  activeSender : Bool
  networkAddress : InetAddress
  dataTransportPort : BitVec 16
  controlTransportPort : BitVec 16
  -- the lists of sources
  next : Option ℕ
  prev : Option ℕ
  nextCollis : Option ℕ
  prevConflict : Option ConflictingTransportAddress
  -- statistics
  obsPacketCount : BitVec 32
  obsOctetCount : BitVec 32
  maxSeqNum : BitVec 16
  initialDataTimestamp : BitVec 32
  flag : Bool
  badSeqNum : BitVec 32
  probation : BitVec 8
  seqNumAccum : BitVec 32

/-- The table, the list of sources, the two counters of `Members`, and the objects.
`fresh` is where the next object will be made. -/
structure MembershipBookkeeping (n : ℕ) where
  sourceLinks : Fin n → Option ℕ
  first : Option ℕ
  last : Option ℕ
  members : BitVec 32
  activeSenders : BitVec 32
  links : Heap ℕ SyncSourceLink
  fresh : ℕ

/-! ## The functions of the source -/

namespace SyncSourceLink

/-- `2^16` -/
abbrev seqNumMod : ℕ := 2 ^ 16

/-- The link of a new source.  The constructor of `SyncSource` leaves `activeSender` as the
memory has it. -/
def new (ssrc : BitVec 32) (activeSender : Bool) : SyncSourceLink where
  id := ssrc
  activeSender := activeSender
  networkAddress := 0
  dataTransportPort := 0
  controlTransportPort := 0
  next := none
  prev := none
  nextCollis := none
  prevConflict := none
  obsPacketCount := 0
  obsOctetCount := 0
  maxSeqNum := 0
  initialDataTimestamp := 0
  flag := false
  badSeqNum := BitVec.ofNat 32 (seqNumMod + 1)
  probation := 0
  seqNumAccum := 0

end SyncSourceLink

/-- Where the search in a collision list ends: at the source, in front of a greater one, or
behind all of them; with the object passed last. -/
inductive Place : Type where
  | found (prev : Option ℕ) (a : ℕ)
  | before (prev : Option ℕ) (a : ℕ)
  | atEnd (prev : Option ℕ)

namespace MembershipBookkeeping

variable {n : ℕ}

/-- The table before anything was received. -/
def empty (n : ℕ) : MembershipBookkeeping n where
  sourceLinks := fun _ => none
  first := none
  last := none
  members := 0
  activeSenders := 0
  links := fun _ => none
  fresh := 0

/-- `HASH(a)` -/
def hash [NeZero n] (ssrc : BitVec 32) : Fin n := Fin.ofNat n (ssrc + ssrc >>> 8).toNat

/-- The loop of `isRegistered`. -/
def isRegisteredLoop (m : MembershipBookkeeping n) (ssrc : BitVec 32) :
    ℕ → Option ℕ → Option Bool
  | _, none => some false
  | 0, some _ => none
  | rounds + 1, some a =>
      (m.links a).bind (fun sl =>
        if ssrc = sl.id then some true
        else if ssrc < sl.id then some false
        else isRegisteredLoop m ssrc rounds sl.nextCollis)

/-- `isRegistered(ssrc)` -/
def isRegistered [NeZero n] (m : MembershipBookkeeping n) (ssrc : BitVec 32) : Option Bool :=
  m.isRegisteredLoop ssrc m.fresh (m.sourceLinks (hash ssrc))

/-- The search loop of `getSourceBySSRC`. -/
def searchLoop (m : MembershipBookkeeping n) (ssrc : BitVec 32) :
    ℕ → Option ℕ → Option ℕ → Option Place
  | _, prev, none => some (.atEnd prev)
  | 0, _, some _ => none
  | rounds + 1, prev, some a =>
      (m.links a).bind (fun sl =>
        if ssrc = sl.id then some (.found prev a)
        else if ssrc > sl.id then searchLoop m ssrc rounds (some a) sl.nextCollis
        else some (.before prev a))

/-- An assignment to a member of a link object. -/
def modifyLink (m : MembershipBookkeeping n) (a : ℕ) (f : SyncSourceLink → SyncSourceLink) :
    Option (MembershipBookkeeping n) :=
  (m.links.modify a f).map (fun links => { m with links := links })

/-- `setNextCollis`, for a pointer that may be null. -/
def setNextCollis (m : MembershipBookkeeping n) (p : Option ℕ) (q : Option ℕ) :
    Option (MembershipBookkeeping n) :=
  p.bind (fun a => m.modifyLink a (fun sl => { sl with nextCollis := q }))

/-- An assignment to the head of a bucket. -/
def setBucket (m : MembershipBookkeeping n) (i : Fin n) (q : Option ℕ) :
    MembershipBookkeeping n :=
  { m with sourceLinks := Function.update m.sourceLinks i q }

section

-- what the memory of a new object holds where the constructor does not write
variable (uninit : ℕ → Bool)

/-- `new SyncSourceLink(this, new SyncSource(ssrc))`; its address is the old `fresh`. -/
def newLink (m : MembershipBookkeeping n) (ssrc : BitVec 32) : MembershipBookkeeping n :=
  { m with
    links := m.links.write m.fresh (SyncSourceLink.new ssrc (uninit m.fresh))
    fresh := m.fresh + 1 }

/-- What `getSourceBySSRC` does behind the search if a source was created. -/
def enlist (m : MembershipBookkeeping n) (a : ℕ) : Option (MembershipBookkeeping n) :=
  let listed : Option (MembershipBookkeeping n) :=
    if m.first.isSome then
      m.last.bind (fun b => m.modifyLink b (fun sl => { sl with next := some a }))
    else some { m with first := some a }
  listed.map (fun m => { m with last := some a, members := m.members + 1 })

/-- A new link in front of a greater one. -/
def linkBefore [NeZero n] (m : MembershipBookkeeping n) (ssrc : BitVec 32) (prev : Option ℕ)
    (result : ℕ) : Option (MembershipBookkeeping n) :=
  let a := m.fresh
  let linked := match prev with
    | some p => (m.newLink uninit ssrc).setNextCollis (some p) (some a)
    | none => some ((m.newLink uninit ssrc).setBucket (hash ssrc) (some a))
  linked.bind (fun m => m.setNextCollis (some a) (some result))

/-- `getSourceBySSRC(ssrc, created)`: the link, whether it was created, and the table. -/
def getSourceBySSRC [NeZero n] (m : MembershipBookkeeping n) (ssrc : BitVec 32) :
    Option (ℕ × Bool × MembershipBookkeeping n) :=
  let hashing : Fin n := hash ssrc
  let a := m.fresh
  let created (m : Option (MembershipBookkeeping n)) :
      Option (ℕ × Bool × MembershipBookkeeping n) :=
    (m.bind (fun m => m.enlist a)).map (fun m => (a, true, m))
  match m.sourceLinks hashing with
  | none => created (some ((m.newLink uninit ssrc).setBucket hashing (some a)))
  | some head =>
      (m.searchLoop ssrc m.fresh none (some head)).bind (fun
        | .found _ result => some (result, false, m)
        | .before prev result => created (m.linkBefore uninit ssrc prev result)
        -- at the end of the collision list
        | .atEnd prev => created ((m.newLink uninit ssrc).setNextCollis prev (some a)))

end

/-- `BYESource(ssrc)` -/
def BYESource [NeZero n] (m : MembershipBookkeeping n) (ssrc : BitVec 32) :
    Option (Bool × MembershipBookkeeping n) :=
  (m.isRegistered ssrc).map (fun found =>
    (found, if found then { m with members := m.members - 1 } else m))

/-- What `removeSource` does when it has found the source: the collision list, the list of
all sources, the counters, and then the object itself. -/
def unlinkSource (m : MembershipBookkeeping n) (old : Option ℕ) (a : ℕ) (s : SyncSourceLink) :
    Option (MembershipBookkeeping n) :=
  -- the head of the bucket is not looked at, and neither are `first` and `last`
  let m₁ := match old with
    | some o => m.setNextCollis (some o) s.nextCollis
    | none => some m
  let m₂ := m₁.bind (fun m => match s.prev with
    | some p => m.modifyLink p (fun sl => { sl with next := s.next })
    | none => some m)
  let m₃ := m₂.bind (fun m => match s.next with
    | some q => m.modifyLink q (fun sl => { sl with prev := s.prev })
    | none => some m)
  m₃.map (fun m =>
    { m with
      members := m.members - 1
      activeSenders := if s.activeSender then m.activeSenders - 1 else m.activeSenders
      links := m.links.delete a })

/-- The loop of `removeSource`. -/
def removeLoop (m : MembershipBookkeeping n) (ssrc : BitVec 32) :
    ℕ → Option ℕ → Option ℕ → Option (Bool × MembershipBookkeeping n)
  | _, _, none => some (false, m)
  | 0, _, some _ => none
  | rounds + 1, old, some a =>
      (m.links a).bind (fun s =>
        if s.id = ssrc then (m.unlinkSource old a s).map (fun m => (true, m))
        else if s.id > ssrc then some (false, m)
        else removeLoop m ssrc rounds (some a) s.nextCollis)

/-- `removeSource(ssrc)` -/
def removeSource [NeZero n] (m : MembershipBookkeeping n) (ssrc : BitVec 32) :
    Option (Bool × MembershipBookkeeping n) :=
  m.removeLoop ssrc m.fresh none (m.sourceLinks (hash ssrc))

/-! ## Searching a collision list -/

/-- SSRCs are compared in three ways. -/
theorem ssrc_trichotomy (x y : BitVec 32) :
    (x < y ∧ x ≠ y ∧ ¬ y < x) ∨ x = y ∨ (y < x ∧ x ≠ y ∧ ¬ x < y) := by
  simp only [BitVec.lt_def, ne_eq, ← BitVec.toNat_inj]
  omega

/-- The SSRC of the source of a link object. -/
def idOf (m : MembershipBookkeeping n) (a : ℕ) : BitVec 32 :=
  ((m.links.view SyncSourceLink.id) a).getD 0

variable {m : MembershipBookkeeping n} {ssrc : BitVec 32}

theorem idOf_eq {a : ℕ} {sl : SyncSourceLink} (h : m.links a = some sl) : m.idOf a = sl.id := by
  rw [idOf, Heap.view, h]
  rfl

/-- The SSRCs after an object was made. -/
theorem idOf_of_view {m' : MembershipBookkeeping n}
    (h : m'.links.view SyncSourceLink.id = Function.update (m.links.view SyncSourceLink.id) m.fresh
      (some ssrc)) (b : ℕ) : m'.idOf b = if b = m.fresh then ssrc else m.idOf b := by
  rw [idOf, h]
  split_ifs with hb
  · rw [hb, Function.update_self]
    rfl
  · rw [Function.update_of_ne hb]
    rfl

/-- Where the search in a collision list ends, in terms of the list. -/
def place (m : MembershipBookkeeping n) (ssrc : BitVec 32) : Option ℕ → List ℕ → Place
  | prev, [] => .atEnd prev
  | prev, a :: l =>
      if ssrc = m.idOf a then .found prev a
      else if ssrc > m.idOf a then place m ssrc (some a) l
      else .before prev a

/-- The search follows the list. -/
theorem searchLoop_eq (ssrc : BitVec 32) (prev : Option ℕ) {l : List ℕ} {rounds : ℕ}
    {p : Option ℕ}
    (h : Segment (m.links.view SyncSourceLink.nextCollis) p l none) (hlen : l.length ≤ rounds) :
    m.searchLoop ssrc rounds prev p = some (m.place ssrc prev l) := by
  refine h.loop_induction (motive := fun rounds p l => ∀ prev,
    m.searchLoop ssrc rounds prev p = some (m.place ssrc prev l)) ?_ ?_ hlen prev
  · intro rounds prev
    cases rounds <;> rfl
  · intro rounds a p l hp ih prev
    obtain ⟨sl, hsl, rfl⟩ := Heap.view_eq_some.mp hp
    rw [searchLoop, hsl, Option.bind_some, place, idOf_eq hsl, ih (some a)]
    split_ifs <;> rfl

/-- So does the loop of `isRegistered`. -/
theorem isRegisteredLoop_eq {l : List ℕ} {rounds : ℕ} {p : Option ℕ} (prev : Option ℕ)
    (h : Segment (m.links.view SyncSourceLink.nextCollis) p l none) (hlen : l.length ≤ rounds) :
    m.isRegisteredLoop ssrc rounds p
      = some (match m.place ssrc prev l with
        | .found _ _ => true
        | _ => false) := by
  refine h.loop_induction (motive := fun rounds p l => ∀ prev,
    m.isRegisteredLoop ssrc rounds p = some (match m.place ssrc prev l with
      | .found _ _ => true
      | _ => false)) ?_ ?_ hlen prev
  · intro rounds prev
    cases rounds <;> rfl
  · intro rounds a p l hp ih prev
    obtain ⟨sl, hsl, rfl⟩ := Heap.view_eq_some.mp hp
    rw [isRegisteredLoop, hsl, Option.bind_some, place, idOf_eq hsl, ih (some a)]
    rcases ssrc_trichotomy ssrc sl.id with ⟨hlt, hne, hngt⟩ | heq | ⟨hgt, hne, hnlt⟩
    · rw [if_neg hne, if_pos hlt, if_neg hne, if_neg hngt]
    · rw [if_pos heq, if_pos heq]
    · rw [if_neg hne, if_neg hnlt, if_neg hne, if_pos hgt]

/-- And the loop of `removeSource`. -/
theorem removeLoop_eq (ssrc : BitVec 32) (old : Option ℕ) {l : List ℕ} {rounds : ℕ}
    {p : Option ℕ}
    (h : Segment (m.links.view SyncSourceLink.nextCollis) p l none) (hlen : l.length ≤ rounds) :
    m.removeLoop ssrc rounds old p
      = (match m.place ssrc old l with
        | .found old a => (m.links a).bind (fun s =>
            (m.unlinkSource old a s).map (fun m => (true, m)))
        | _ => some (false, m)) := by
  refine h.loop_induction (motive := fun rounds p l => ∀ old,
    m.removeLoop ssrc rounds old p = (match m.place ssrc old l with
      | .found old a => (m.links a).bind (fun s =>
          (m.unlinkSource old a s).map (fun m => (true, m)))
      | _ => some (false, m))) ?_ ?_ hlen old
  · intro rounds old
    cases rounds <;> rfl
  · intro rounds a p l hp ih old
    obtain ⟨sl, hsl, rfl⟩ := Heap.view_eq_some.mp hp
    rw [removeLoop, hsl, Option.bind_some, place, idOf_eq hsl, ih (some a)]
    rcases ssrc_trichotomy ssrc sl.id with ⟨hlt, hne, hngt⟩ | heq | ⟨hgt, hne, hnlt⟩
    · rw [if_neg hne.symm, if_pos hlt, if_neg hne, if_neg hngt]
    · rw [if_pos heq.symm, if_pos heq]
      simp only [hsl, Option.bind_some]
    · rw [if_neg hne.symm, if_neg hnlt, if_neg hne, if_pos hgt]

/-- **The outcome of the search in a sorted list**: the smaller sources are passed; behind
them comes the source itself, or only greater ones. -/
theorem place_of_sorted (ssrc : BitVec 32) {l : List ℕ} (prev : Option ℕ)
    (hsorted : l.Pairwise (fun a b => m.idOf a < m.idOf b)) :
    ∃ l₁ l₂, l = l₁ ++ l₂ ∧ (∀ a ∈ l₁, m.idOf a < ssrc) ∧
      ((∃ a l₃, l₂ = a :: l₃ ∧ m.idOf a = ssrc ∧
          m.place ssrc prev l = .found (l₁.getLast?.or prev) a) ∨
        ((∀ a ∈ l₂, ssrc < m.idOf a) ∧ m.place ssrc prev l
          = match l₂ with
            | [] => .atEnd (l₁.getLast?.or prev)
            | a :: _ => .before (l₁.getLast?.or prev) a)) := by
  induction l generalizing prev with
  | nil => exact ⟨[], [], rfl, by simp, Or.inr ⟨by simp, rfl⟩⟩
  | cons a l ih =>
      obtain ⟨ha, hl⟩ := List.pairwise_cons.mp hsorted
      rcases ssrc_trichotomy ssrc (m.idOf a) with ⟨hlt, hne, hngt⟩ | heq | ⟨hgt, hne, hnlt⟩
      · refine ⟨[], a :: l, rfl, by simp, Or.inr ⟨?_, ?_⟩⟩
        · intro b hb
          rcases List.mem_cons.mp hb with rfl | hb
          · exact hlt
          · exact BitVec.lt_trans hlt (ha b hb)
        · rw [place, if_neg hne, if_neg hngt]
          rfl
      · refine ⟨[], a :: l, rfl, by simp, Or.inl ⟨a, l, rfl, heq.symm, ?_⟩⟩
        rw [place, if_pos heq]
        rfl
      · obtain ⟨l₁, l₂, rfl, hsmall, hcases⟩ := ih (some a) hl
        have hlast : (a :: l₁).getLast?.or prev = l₁.getLast?.or (some a) := by
          rw [List.getLast?_cons]
          cases l₁.getLast? <;> rfl
        refine ⟨a :: l₁, l₂, rfl, ?_, ?_⟩
        · intro b hb
          rcases List.mem_cons.mp hb with rfl | hb
          · exact hgt
          · exact hsmall b hb
        · rw [place, if_neg hne, if_pos hgt, hlast]
          exact hcases

end MembershipBookkeeping
