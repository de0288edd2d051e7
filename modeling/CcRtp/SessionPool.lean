/-
# The descriptor set of a session pool

Models the loop of `SingleRTPSessionPool::run` that rebuilds the set of descriptors for `select`
(`src/pool.cpp`).  `highestSocket` is meant to be the highest socket number plus one
(`src/ccrtp/pool.h`), but a socket number is compared with `highestSocket + 1`: the two numbers
behind the highest one are passed over.

* `mem_recvSocketSet` : every socket of a session is placed in the set;
* `highestSocket_iff` : `select` is told to watch all of them exactly if the greatest one begins a
  run of its own (`InRuns`).
-/
import Mathlib

/-! ## The functions of the source -/

/-- What the loop reads of a session: its `getDataRecvSocket()`. -/
structure RTPSessionBase where
  dataRecvSocket : ℕ
  deriving DecidableEq

/-- `SessionListElement`: a session of the pool, or none when it has been cleared. -/
structure SessionListElement where
  elem : Option RTPSessionBase

/-- `isCleared()` -/
def SessionListElement.isCleared (e : SessionListElement) : Bool := e.elem.isNone

/-- What the loop rebuilds. -/
structure DescriptorSet where
  recvSocketSet : Finset ℕ
  highestSocket : ℕ

namespace DescriptorSet

/-- `FD_ZERO`, and the highest socket is forgotten. -/
def empty : DescriptorSet := ⟨∅, 0⟩

/-- `FD_SET` for the socket `s`, and the test for a new highest one. -/
def add (d : DescriptorSet) (s : ℕ) : DescriptorSet where
  recvSocketSet := insert s d.recvSocketSet
  highestSocket := if s > d.highestSocket + 1 then s + 1 else d.highestSocket

/-- The body of the loop: cleared sessions are passed over. -/
def addElement (d : DescriptorSet) (e : SessionListElement) : DescriptorSet :=
  match e.elem with
  | some session => d.add session.dataRecvSocket
  | none => d

/-- The loop over the sessions of the pool. -/
def rebuild (sessions : List SessionListElement) : DescriptorSet := sessions.foldl addElement empty

end DescriptorSet

/-! ## What `select` should be told -/

/-- The sockets of the sessions that are not cleared, in order. -/
def dataRecvSockets (sessions : List SessionListElement) : List ℕ :=
  (sessions.filterMap SessionListElement.elem).map RTPSessionBase.dataRecvSocket

namespace DescriptorSet

/-- The first argument of `select` lies above every socket in the set: it is the greatest one plus
one, or zero. -/
structure Watched (d : DescriptorSet) : Prop where
  above : ∀ s ∈ d.recvSocketSet, s < d.highestSocket
  greatest : d.highestSocket = d.recvSocketSet.sup Nat.succ

/-- A list of socket numbers falls into runs.  The numbers of a run are at most `low`; the first
number above it begins the next run, whose numbers are at most two above that one.  The numbers of
the last run stay below its first one. -/
inductive InRuns : ℕ → List ℕ → Prop
  | last {low : ℕ} {l : List ℕ} (h : ∀ s ∈ l, s + 2 ≤ low) : InRuns low l
  | next {low s : ℕ} {l l' : List ℕ} (hl : ∀ t ∈ l, t ≤ low) (hs : low < s)
      (h : InRuns (s + 2) l') : InRuns low (l ++ s :: l')

variable {s : ℕ} {l : List ℕ}

/-- The loop over the sockets alone. -/
theorem rebuild_eq_foldl (sessions : List SessionListElement) :
    rebuild sessions = (dataRecvSockets sessions).foldl add empty := by
  unfold rebuild dataRecvSockets
  generalize empty = d
  induction sessions generalizing d with
  | nil => rfl
  | cons e sessions ih =>
      rw [List.foldl_cons, ih]
      cases h : e.elem with
      | none => rw [List.filterMap_cons_none h, addElement, h]
      | some session =>
          rw [List.filterMap_cons_some h, List.map_cons, List.foldl_cons, addElement, h]

/-- **The sockets that are watched** are placed in the set, one after the other. -/
theorem recvSocketSet_foldl (d : DescriptorSet) (l : List ℕ) :
    (l.foldl add d).recvSocketSet = d.recvSocketSet ∪ l.toFinset := by
  induction l generalizing d with
  | nil => rw [List.foldl_nil, List.toFinset_nil, Finset.union_empty]
  | cons s l ih =>
      rw [List.foldl_cons, ih, List.toFinset_cons]
      show insert s d.recvSocketSet ∪ l.toFinset = _
      rw [Finset.insert_union, Finset.union_insert]

theorem mem_recvSocketSet (sessions : List SessionListElement) :
    s ∈ (rebuild sessions).recvSocketSet ↔ s ∈ dataRecvSockets sessions := by
  rw [rebuild_eq_foldl, recvSocketSet_foldl]
  show s ∈ (∅ : Finset ℕ) ∪ _ ↔ _
  rw [Finset.empty_union, List.mem_toFinset]

/-- The highest socket plus one does not get smaller, and it is that of a socket. -/
theorem highestSocket_foldl (d : DescriptorSet) (l : List ℕ) :
    d.highestSocket ≤ (l.foldl add d).highestSocket ∧
      ((l.foldl add d).highestSocket = d.highestSocket ∨
        ∃ s ∈ l, (l.foldl add d).highestSocket = s + 1) := by
  induction l generalizing d with
  | nil => exact ⟨le_rfl, Or.inl rfl⟩
  | cons s l ih =>
      obtain ⟨hle, hcases⟩ := ih (d.add s)
      rw [List.foldl_cons]
      by_cases hs : s > d.highestSocket + 1
      · have hadd : (d.add s).highestSocket = s + 1 := if_pos hs
        rw [hadd] at hle hcases
        refine ⟨by omega, Or.inr ?_⟩
        rcases hcases with heq | ⟨t, ht, heq⟩
        · exact ⟨s, List.mem_cons_self, heq⟩
        · exact ⟨t, List.mem_cons_of_mem s ht, heq⟩
      · have hadd : (d.add s).highestSocket = d.highestSocket := if_neg hs
        rw [hadd] at hle hcases
        refine ⟨hle, hcases.imp_right ?_⟩
        rintro ⟨t, ht, heq⟩
        exact ⟨t, List.mem_cons_of_mem s ht, heq⟩

/-- Numbers that are not above the highest one plus one leave it. -/
theorem highestSocket_foldl_of_le (d : DescriptorSet) (h : ∀ s ∈ l, s ≤ d.highestSocket + 1) :
    (l.foldl add d).highestSocket = d.highestSocket := by
  induction l generalizing d with
  | nil => rfl
  | cons s l ih =>
      have hs : (d.add s).highestSocket = d.highestSocket :=
        if_neg (Nat.not_lt.mpr (h s List.mem_cons_self))
      rw [List.foldl_cons, ih (d.add s), hs]
      intro t ht
      rw [hs]
      exact h t (List.mem_cons_of_mem s ht)

/-- **When the loop ends above all numbers.** -/
theorem above_iff_inRuns (d : DescriptorSet) (l : List ℕ) :
    (∀ s ∈ l, s < (l.foldl add d).highestSocket) ↔ InRuns (d.highestSocket + 1) l := by
  constructor
  · intro h
    induction l generalizing d with
    | nil => exact .last (fun s hs => absurd hs List.not_mem_nil)
    | cons a l ih =>
        have hrest := ih (d.add a) (fun s hs => h s (List.mem_cons_of_mem a hs))
        by_cases ha : a > d.highestSocket + 1
        · have hadd : (d.add a).highestSocket = a + 1 := if_pos ha
          rw [hadd] at hrest
          exact .next (l := []) (fun t ht => absurd ht List.not_mem_nil) ha hrest
        · have hadd : (d.add a).highestSocket = d.highestSocket := if_neg ha
          rw [hadd] at hrest
          cases hrest with
          | last hl =>
              -- nothing behind `a` moves the highest socket, so `a` is below it already
              have hstay := highestSocket_foldl_of_le (l := l) (d.add a) (fun s hs => by
                have hle := hl s hs
                omega)
              have hlt := h a List.mem_cons_self
              rw [List.foldl_cons, hstay, hadd] at hlt
              refine .last (fun s hs => ?_)
              rcases List.mem_cons.mp hs with rfl | hs
              · omega
              · exact hl s hs
          | @next _ s l l' hl hs hnext =>
              refine .next (l := a :: l) (fun t ht => ?_) hs hnext
              rcases List.mem_cons.mp ht with rfl | ht
              · exact Nat.le_of_not_lt ha
              · exact hl t ht
  · intro h
    generalize hlow : d.highestSocket + 1 = low at h
    induction h generalizing d with
    | @last low l hl =>
        intro s hs
        have hle := (highestSocket_foldl d l).1
        have hs := hl s hs
        omega
    | @next low s l l' hl hs _ ih =>
        have hfirst := highestSocket_foldl_of_le (l := l) d (by rw [hlow]; exact hl)
        have hadd : ((l.foldl add d).add s).highestSocket = s + 1 := if_pos (by omega)
        have hle := (highestSocket_foldl ((l.foldl add d).add s) l').1
        rw [List.foldl_append, List.foldl_cons]
        intro t ht
        rcases List.mem_append.mp ht with ht | ht
        · have ht := hl t ht
          omega
        · rcases List.mem_cons.mp ht with rfl | ht
          · omega
          · exact ih _ (by rw [hadd]) t ht

/-- **The first argument of `select`** lies above every socket in the set, and so is the greatest
one plus one, exactly if the socket numbers fall into runs: numbers up to one first; then runs that
begin at least three above the beginning of the run before, with numbers at most two above their
beginning; and the numbers of the last run are below its beginning. -/
theorem highestSocket_iff (sessions : List SessionListElement) :
    (rebuild sessions).Watched ↔ InRuns 1 (dataRecvSockets sessions) := by
  have hmem : ∀ s, s ∈ (rebuild sessions).recvSocketSet ↔ s ∈ dataRecvSockets sessions :=
    fun s => mem_recvSocketSet sessions
  have habove := above_iff_inRuns empty (dataRecvSockets sessions)
  have hattained := (highestSocket_foldl empty (dataRecvSockets sessions)).2
  rw [← rebuild_eq_foldl] at habove hattained
  constructor
  · intro h
    exact habove.mp (fun s hs => h.above s ((hmem s).mpr hs))
  · intro h
    have hall := habove.mpr h
    refine ⟨fun s hs => hall s ((hmem s).mp hs), le_antisymm ?_ ?_⟩
    · rcases hattained with hzero | ⟨s, hs, heq⟩
      · rw [hzero]
        exact Nat.zero_le _
      · rw [heq]
        exact Finset.le_sup (f := Nat.succ) ((hmem s).mpr hs)
    · exact Finset.sup_le (fun s hs => hall s ((hmem s).mp hs))

/-- **Two sessions whose control sockets lie between their data sockets**: the second one is not
watched. -/
theorem second_session_not_watched :
    ¬ (rebuild [⟨some ⟨3⟩⟩, ⟨some ⟨5⟩⟩]).Watched := by
  intro h
  exact absurd (h.above 5 (by decide)) (by decide)

end DescriptorSet
