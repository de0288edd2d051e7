/-
# The service thread of a session pool

Models `RTPSessionPool::addSession`, `removeSession` and `SingleRTPSessionPool::run`
(`src/pool.cpp`, `src/ccrtp/pool.h`).  The application adds and removes sessions while the thread
goes over a copy of the list, one session at a time; what happens under one hold of `poolLock` is
one step, and the steps of both sides come in any order.  Sessions and list elements are objects in
memory, and a step that uses a deleted one has no outcome.

* `Sound.perform` : what every step keeps;
* `pool_refines_registration` : no run uses a deleted object, and only registered sessions are
  served;
* `pass_serves_registered` : which sessions a pass serves;
* `session_served_on_its_own` : what a session is served with does not depend on the other sessions.
-/
import CcRtp.SessionPool
import CcRtp.LinkedList

/-! ## The functions of the source -/

/-- `SessionListElement`, with the address of its session. -/
structure PoolElement where
  elem : Option ℕ
  cleared : Bool

/-- Where the thread is in its loop, with the elements that it has still to visit. -/
inductive PoolPhase : Type where
  | copy
  | control (todo : List ℕ)
  | rebuild
  | select
  | data (ready : Finset ℕ) (n : ℤ) (todo : List ℕ)
  | purge

/-- The elements that are still to be visited. -/
def PoolPhase.todo : PoolPhase → List ℕ
  | .control todo => todo
  | .data _ _ todo => todo
  | _ => []

/-- The elements that the first loop has still to visit. -/
def PoolPhase.controlTodo : PoolPhase → List ℕ
  | .control todo => todo
  | _ => []

/-- The elements that the last loop has still to visit, of all. -/
def PoolPhase.dataTodo (all : List ℕ) : PoolPhase → List ℕ
  | .data _ _ todo => todo
  | .purge | .copy => []
  | _ => all

/-- What `select` reports, and what the visited session answers to `getSchedulingTimeout` and
`getRTCPCheckInterval`. -/
structure PoolInputs where
  ready : Finset ℕ
  n : ℤ
  schedulingTimeout : BitVec 32
  maxWait : BitVec 32

/-- What happens to sessions.  `dataServed` says whether `takeInDataPacket` and
`dispatchDataPacket` were called. -/
inductive PoolEvent : Type where
  | added (s : ℕ) (result : Bool)
  | removed (s : ℕ) (result : Bool)
  | controlServed (s : ℕ)
  | dataServed (s : ℕ) (taken dispatched : Bool)
  deriving DecidableEq

/-- The pool and its thread: the objects in memory, the list of the pool, and what is local to
`run`. -/
structure SingleRTPSessionPool where
  objects : Heap ℕ RTPSessionBase
  elements : Heap ℕ PoolElement
  sessionList : List ℕ
  sessions : List ℕ
  descriptors : DescriptorSet
  packetTimeout : BitVec 32
  phase : PoolPhase

/-- A step of the application or of the thread.  New objects are put at an address that is given. -/
inductive PoolAction : Type where
  | newSession (s : ℕ) (object : RTPSessionBase)
  | deleteSession (s : ℕ)
  | addSession (s : ℕ) (element : ℕ)
  | removeSession (s : ℕ)
  | run (inputs : PoolInputs)

namespace SingleRTPSessionPool

/-- The constructors. -/
def new : SingleRTPSessionPool where
  objects := fun _ => none
  elements := fun _ => none
  sessionList := []
  sessions := []
  descriptors := DescriptorSet.empty
  packetTimeout := 0
  phase := .copy

variable (q : SingleRTPSessionPool)

/-- `std::find_if` with `PredEquals`: the first element with the session. -/
def findSession (s : ℕ) : List ℕ → Option (Option ℕ)
  | [] => some none
  | a :: l => (q.elements a).bind (fun e => if e.elem = some s then some (some a)
      else findSession s l)

/-- A new element behind the others. -/
def pushElement (s a : ℕ) : SingleRTPSessionPool :=
  { q with
    elements := q.elements.write a ⟨some s, false⟩
    sessionList := q.sessionList ++ [a] }

/-- `addSession(session)`, whose element is put at `a`. -/
def addSession (s a : ℕ) : Option (Bool × SingleRTPSessionPool) :=
  (q.findSession s q.sessionList).map (fun
    | none => (true, q.pushElement s a)
    | some _ => (false, q))

/-- `delete` of a session. -/
def deleteObject (s : ℕ) : SingleRTPSessionPool := { q with objects := q.objects.delete s }

/-- An element without a session. -/
def clearElement (a : ℕ) : SingleRTPSessionPool :=
  { q with elements := q.elements.write a ⟨none, true⟩ }

/-- `SessionListElement::clear()`, which deletes the session. -/
def clear (a : ℕ) : Option SingleRTPSessionPool :=
  (q.elements a).bind (fun e =>
    match e.elem with
    | none => some (q.clearElement a)
    | some s => (q.objects s).map (fun _ => (q.deleteObject s).clearElement a))

/-- `removeSession(session)` -/
def removeSession (s : ℕ) : Option (Bool × SingleRTPSessionPool) :=
  (q.findSession s q.sessionList).bind (fun
    | some a => (q.clear a).map (fun q => (true, q))
    | none => some (false, q))

/-- The session of an element that is not cleared, and its address. -/
def visit (a : ℕ) : Option (Option (ℕ × RTPSessionBase)) :=
  (q.elements a).bind (fun e =>
    if e.cleared then some none
    else e.elem.bind (fun s => (q.objects s).map (fun object => some (s, object))))

/-- The loop that rebuilds the descriptor set. -/
def rebuild : Option DescriptorSet :=
  (q.sessions.mapM q.visit).map (fun l => .rebuild (l.map (fun v => ⟨v.map Prod.snd⟩)))

/-- The loop that erases and deletes the elements of removed sessions. -/
def purgeLoop : List ℕ → Heap ℕ PoolElement → Option (List ℕ × Heap ℕ PoolElement)
  | [], elements => some ([], elements)
  | a :: l, elements =>
      (elements a).bind (fun e =>
        if e.cleared then purgeLoop l (elements.delete a)
        else (purgeLoop l elements).map (fun (kept, elements) => (a :: kept, elements)))

/-- A visit of the last loop to the session at `s`. -/
def serveData (ready : Finset ℕ) (n : ℤ) (todo : List ℕ) (inputs : PoolInputs) (s : ℕ)
    (object : RTPSessionBase) : List PoolEvent × SingleRTPSessionPool :=
  let isSet := decide (object.dataRecvSocket ∈ ready)
  let taken := isSet && decide (0 < n)
  let n := if isSet then n - 1 else n
  let packetTimeout :=
    if q.packetTimeout < 1000 then inputs.schedulingTimeout else q.packetTimeout
  let packetTimeout := if packetTimeout > inputs.maxWait then inputs.maxWait else packetTimeout
  let dispatched := decide (packetTimeout < 1000)
  ([.dataServed s taken dispatched], { q with
    phase := .data ready n todo
    packetTimeout := if dispatched then packetTimeout else 0 })

/-- The next step of `run`. -/
def runThread (inputs : PoolInputs) : Option (List PoolEvent × SingleRTPSessionPool) :=
  match q.phase with
  | .copy => some ([], { q with sessions := q.sessionList, phase := .control q.sessionList })
  | .control [] => some ([], { q with phase := .rebuild })
  | .control (a :: todo) =>
      (q.visit a).map (fun
        | some (s, _) => ([.controlServed s], { q with phase := .control todo })
        | none => ([], { q with phase := .control todo }))
  | .rebuild => q.rebuild.map (fun d => ([], { q with descriptors := d, phase := .select }))
  | .select => some ([], { q with phase := .data inputs.ready inputs.n q.sessions })
  | .data _ _ [] => some ([], { q with phase := .purge })
  | .data ready n (a :: todo) =>
      (q.visit a).map (fun
        | some (s, object) => q.serveData ready n todo inputs s object
        | none => ([], { q with phase := .data ready n todo }))
  | .purge =>
      (purgeLoop q.sessionList q.elements).map (fun (kept, elements) =>
        ([], { q with sessionList := kept, elements := elements, phase := .copy }))

/-- One step, by the application or by the thread. -/
def perform : PoolAction → Option (List PoolEvent × SingleRTPSessionPool)
  | .newSession s object => some ([], { q with objects := q.objects.write s object })
  | .deleteSession s => (q.objects s).map (fun _ => ([], q.deleteObject s))
  | .addSession s a => (q.addSession s a).map (fun (result, q) => ([.added s result], q))
  | .removeSession s => (q.removeSession s).map (fun (result, q) => ([.removed s result], q))
  | .run inputs => q.runThread inputs

/-! ## Registration -/

/-- The session of an element. -/
def sessionOf (a : ℕ) : Option ℕ := (q.elements a).bind PoolElement.elem

/-- The sessions that are registered, in the order of the list. -/
def registered : List ℕ := q.sessionList.filterMap q.sessionOf

end SingleRTPSessionPool

/-- What a pool is for: sessions join once and leave once, and only those that are there are
served. -/
def registrationStep (R : List ℕ) : PoolEvent → Option (List ℕ)
  | .added s true => if s ∈ R then none else some (R ++ [s])
  | .added s false => if s ∈ R then some R else none
  | .removed s true => if s ∈ R then some (R.erase s) else none
  | .removed s false => if s ∈ R then none else some R
  | .controlServed s => if s ∈ R then some R else none
  | .dataServed s _ _ => if s ∈ R then some R else none

namespace SingleRTPSessionPool

/-! ## What every step keeps -/

/-- What the environment of a pool may do: the allocator gives out free memory, no two sessions have
the same socket, and the application adds sessions that exist and deletes only such as exist and are
not registered, since the pool owns those that are. -/
def Allowed (q : SingleRTPSessionPool) : PoolAction → Prop
  | .newSession s object => q.objects s = none ∧
      ∀ t object', q.objects t = some object' → object'.dataRecvSocket ≠ object.dataRecvSocket
  | .deleteSession s => s ∉ q.registered ∧ (q.objects s).isSome = true
  | .addSession s a => (q.objects s).isSome = true ∧ q.elements a = none
  | .removeSession _ => True
  | .run _ => True

/-- What `select(highestSocket, &recvSocketSet, …)` may report: it fails, or the sockets that are
left in the set were in it before, and those of them below `highestSocket` are counted.  It does not
look at the others, which may be left as they are. -/
def Selects (q : SingleRTPSessionPool) (inputs : PoolInputs) : Prop :=
  inputs.n = -1 ∨ inputs.ready ⊆ q.descriptors.recvSocketSet ∧
    inputs.n = (inputs.ready.filter (· < q.descriptors.highestSocket)).card

/-- The environment with what `select` may report, in runs where `select` is told to watch all
sockets (the module `SessionPool` says when it is). -/
def Reported (q : SingleRTPSessionPool) (action : PoolAction) : Prop :=
  q.Allowed action ∧ ∀ inputs, action = .run inputs → q.phase = .select →
    q.descriptors.Watched ∧ q.Selects inputs

/-- The elements of the list are the ones in memory, a session belongs to one of them at most, and
the thread has none to visit that has been deleted. -/
structure Sound (q : SingleRTPSessionPool) : Prop where
  nodup : q.sessionList.Nodup
  owned : ∀ a, (q.elements a).isSome = true ↔ a ∈ q.sessionList
  cleared : ∀ a e, q.elements a = some e → (e.cleared = true ↔ e.elem = none)
  live : ∀ a s, q.sessionOf a = some s → (q.objects s).isSome = true
  unique : ∀ a b s, q.sessionOf a = some s → q.sessionOf b = some s → a = b
  copied : q.phase = .copy ∨ ∀ a ∈ q.sessions, a ∈ q.sessionList
  todo : q.phase.todo <:+ q.sessions

variable {q q' : SingleRTPSessionPool} {s a b : ℕ} {e : PoolElement} {object : RTPSessionBase}

/-- An empty pool is sound. -/
theorem sound_new : new.Sound := by
  refine ⟨List.nodup_nil, fun a => ?_, ?_, ?_, ?_, Or.inl rfl, List.suffix_rfl⟩
  · constructor
    · intro h
      cases h
    · intro h
      cases h
  · intro a e h
    cases h
  · intro a s h
    cases h
  · intro a b s h
    cases h

theorem sessionOf_eq_some : q.sessionOf a = some s ↔ ∃ e, q.elements a = some e ∧ e.elem = some s :=
  Option.bind_eq_some_iff

/-- A registered session belongs to an element of the list. -/
theorem mem_registered : s ∈ q.registered ↔ ∃ a ∈ q.sessionList, q.sessionOf a = some s :=
  List.mem_filterMap

namespace Sound

variable (h : q.Sound)

include h

/-- The elements of the list are in memory. -/
theorem exists_element (ha : a ∈ q.sessionList) : ∃ e, q.elements a = some e :=
  Option.isSome_iff_exists.mp ((h.owned a).mpr ha)

/-- An element with a session is in the list. -/
theorem mem_of_sessionOf (ha : q.sessionOf a = some s) : a ∈ q.sessionList := by
  obtain ⟨e, he, -⟩ := sessionOf_eq_some.mp ha
  exact (h.owned a).mp (by rw [he]; rfl)

/-- No session is registered twice. -/
theorem nodup_registered : q.registered.Nodup :=
  h.nodup.filterMap (fun a b s ha hb => h.unique a b s ha hb)

/-- What is to be visited is in the list, once the copy has been made. -/
theorem mem_of_todo (hcopy : q.phase ≠ .copy) (ha : a ∈ q.phase.todo) : a ∈ q.sessionList :=
  (h.copied.resolve_left hcopy) a (h.todo.subset ha)

/-- **A visit** finds the session, if the element has one. -/
theorem visit_of_some (ha : q.sessionOf a = some s) :
    ∃ object, q.objects s = some object ∧ q.visit a = some (some (s, object)) := by
  obtain ⟨object, hobject⟩ := Option.isSome_iff_exists.mp (h.live a s ha)
  obtain ⟨e, he, helem⟩ := sessionOf_eq_some.mp ha
  have hcleared : e.cleared = false := by
    rw [← Bool.not_eq_true, h.cleared a e he, helem]
    exact Option.some_ne_none s
  refine ⟨object, hobject, ?_⟩
  rw [visit, he, Option.bind_some, hcleared, helem, Option.bind_some, hobject]
  rfl

theorem visit_of_none (ha : a ∈ q.sessionList) (hnone : q.sessionOf a = none) :
    q.visit a = some none := by
  obtain ⟨e, he⟩ := h.exists_element ha
  have helem : e.elem = none := by
    rw [sessionOf, he] at hnone
    exact hnone
  rw [visit, he, Option.bind_some, if_pos ((h.cleared a e he).mpr helem)]

/-- The search meets no deleted element. -/
theorem findSession_eq (s : ℕ) {l : List ℕ} (hl : ∀ a ∈ l, a ∈ q.sessionList) :
    q.findSession s l = some (l.find? (fun a => decide (q.sessionOf a = some s))) := by
  induction l with
  | nil => rfl
  | cons a l ih =>
      obtain ⟨e, he⟩ := h.exists_element (hl a List.mem_cons_self)
      have hsession : q.sessionOf a = e.elem := by
        rw [sessionOf, he, Option.bind_some]
      rw [findSession, he, Option.bind_some, List.find?_cons, hsession,
        ih (fun b hb => hl b (List.mem_cons_of_mem a hb))]
      by_cases helem : e.elem = some s
      · rw [if_pos helem, decide_eq_true helem]
      · rw [if_neg helem, decide_eq_false helem]

/-- **What the search finds**: nothing, or the element of the session. -/
theorem findSession_cases (s : ℕ) :
    (q.findSession s q.sessionList = some none ∧ s ∉ q.registered) ∨
      ∃ a ∈ q.sessionList, q.findSession s q.sessionList = some (some a) ∧
        q.sessionOf a = some s := by
  have heq := h.findSession_eq s (fun a ha => ha)
  cases hfind : q.sessionList.find? (fun a => decide (q.sessionOf a = some s)) with
  | none =>
      refine Or.inl ⟨heq.trans (congrArg some hfind), fun hmem => ?_⟩
      obtain ⟨a, ha, hsession⟩ := mem_registered.mp hmem
      exact List.find?_eq_none.mp hfind a ha (decide_eq_true hsession)
  | some a =>
      have hsession := List.find?_some hfind
      exact Or.inr ⟨a, List.mem_of_find?_eq_some hfind, heq.trans (congrArg some hfind),
        of_decide_eq_true hsession⟩

end Sound

/-! ## Adding and removing -/

/-- The new element has the session, and the others keep theirs. -/
theorem sessionOf_pushElement (s a b : ℕ) :
    (q.pushElement s a).sessionOf b = if b = a then some s else q.sessionOf b := by
  unfold sessionOf pushElement
  dsimp only
  split_ifs with hb
  · rw [hb, Heap.write_self]
    rfl
  · rw [Heap.write_of_ne hb]

/-- The element has lost its session, and the others keep theirs. -/
theorem sessionOf_clearElement (a b : ℕ) :
    (q.clearElement a).sessionOf b = if b = a then none else q.sessionOf b := by
  unfold sessionOf clearElement
  dsimp only
  split_ifs with hb
  · rw [hb, Heap.write_self]
    rfl
  · rw [Heap.write_of_ne hb]

namespace Sound

variable (h : q.Sound)

include h

/-- A free address belongs to no element of the list. -/
theorem notMem_of_free (hfree : q.elements a = none) : a ∉ q.sessionList := by
  intro hmem
  obtain ⟨e, he⟩ := h.exists_element hmem
  rw [hfree] at he
  cases he

/-- **A session joins** behind the others. -/
theorem pushElement (hobject : (q.objects s).isSome = true) (hfree : q.elements a = none)
    (hs : s ∉ q.registered) :
    (q.pushElement s a).Sound ∧ (q.pushElement s a).registered = q.registered ++ [s] := by
  have hnotMem := h.notMem_of_free hfree
  have hne : ∀ b ∈ q.sessionList, b ≠ a := by
    rintro b hb rfl
    exact hnotMem hb
  have hother : ∀ b, q.sessionOf b ≠ some s := fun b hb =>
    hs (mem_registered.mpr ⟨b, h.mem_of_sessionOf hb, hb⟩)
  refine ⟨⟨?_, fun b => ?_, fun b e he => ?_, fun b t hb => ?_, fun b c t hb hc => ?_,
    h.copied.imp_right fun hall b hb => List.mem_append_left _ (hall b hb), h.todo⟩, ?_⟩
  · exact List.nodup_append.mpr ⟨h.nodup, List.nodup_singleton a, fun b hb c hc heq =>
      hne b hb (heq.trans (List.mem_singleton.mp hc))⟩
  · show (q.elements.write a _ b).isSome = true ↔ b ∈ q.sessionList ++ [a]
    rw [List.mem_append, List.mem_singleton, ← h.owned b]
    by_cases hb : b = a
    · rw [hb, Heap.write_self]
      exact ⟨fun _ => Or.inr rfl, fun _ => rfl⟩
    · rw [Heap.write_of_ne hb]
      exact ⟨Or.inl, fun hor => hor.resolve_right hb⟩
  · by_cases hb : b = a
    · subst hb
      change q.elements.write b _ b = some e at he
      rw [Heap.write_self, Option.some_inj] at he
      subst he
      exact ⟨fun hcleared => (by cases hcleared), fun hnone => (by cases hnone)⟩
    · change q.elements.write a _ b = some e at he
      rw [Heap.write_of_ne hb] at he
      exact h.cleared b e he
  · rw [sessionOf_pushElement] at hb
    split_ifs at hb with heq
    · cases hb
      exact hobject
    · exact h.live b t hb
  · rw [sessionOf_pushElement] at hb hc
    split_ifs at hb hc with heq heq' heq'
    · exact heq.trans heq'.symm
    · cases hb
      exact absurd hc (hother c)
    · cases hc
      exact absurd hb (hother b)
    · exact h.unique b c t hb hc
  · show (q.sessionList ++ [a]).filterMap (q.pushElement s a).sessionOf = _
    have hself : (q.pushElement s a).sessionOf a = some s := by
      rw [sessionOf_pushElement, if_pos rfl]
    rw [List.filterMap_append, List.filterMap_cons_some hself, List.filterMap_nil]
    refine congrArg (· ++ [s]) (List.filterMap_congr fun b hb => ?_)
    rw [sessionOf_pushElement, if_neg (hne b hb)]

/-- The sessions that are registered without that of one element. -/
theorem registered_clearElement (ha : q.sessionOf a = some s) :
    (q.clearElement a).registered = q.registered.erase s := by
  obtain ⟨front, back, hsplit⟩ := List.append_of_mem (h.mem_of_sessionOf ha)
  have hnodup := h.nodup
  rw [hsplit, List.nodup_middle, List.nodup_cons] at hnodup
  have hnone : (q.clearElement a).sessionOf a = none := by
    rw [sessionOf_clearElement, if_pos rfl]
  have hsame : ∀ l : List ℕ, a ∉ l →
      l.filterMap (q.clearElement a).sessionOf = l.filterMap q.sessionOf := by
    intro l hl
    refine List.filterMap_congr fun b hb => ?_
    rw [sessionOf_clearElement, if_neg]
    rintro rfl
    exact hl hb
  have hfront : a ∉ front := fun hmem => hnodup.1 (List.mem_append_left _ hmem)
  have hback : a ∉ back := fun hmem => hnodup.1 (List.mem_append_right _ hmem)
  have hfirst : s ∉ front.filterMap q.sessionOf := by
    intro hmem
    obtain ⟨b, hb, hsession⟩ := List.mem_filterMap.mp hmem
    exact hfront (h.unique b a s hsession ha ▸ hb)
  unfold registered
  show q.sessionList.filterMap _ = _
  rw [hsplit, List.filterMap_append, List.filterMap_append, List.filterMap_cons_none hnone,
    List.filterMap_cons_some ha, hsame front hfront, hsame back hback,
    List.erase_append_right _ hfirst, List.erase_cons_head]

/-- **A session leaves** and is deleted. -/
theorem clear (ha : q.sessionOf a = some s) :
    ∃ q', q.clear a = some q' ∧ q'.Sound ∧ q'.registered = q.registered.erase s ∧
      q' = (q.deleteObject s).clearElement a := by
  obtain ⟨e, he, helem⟩ := sessionOf_eq_some.mp ha
  obtain ⟨object, hobject⟩ := Option.isSome_iff_exists.mp (h.live a s ha)
  refine ⟨(q.deleteObject s).clearElement a, ?_, ⟨h.nodup, fun b => ?_, fun b e' he' => ?_,
    fun b t hb => ?_, fun b c t hb hc => ?_, h.copied, h.todo⟩, h.registered_clearElement ha, rfl⟩
  · rw [SingleRTPSessionPool.clear, he, Option.bind_some, helem]
    dsimp only
    rw [hobject, Option.map_some]
  · show (q.elements.write a _ b).isSome = true ↔ b ∈ q.sessionList
    by_cases hb : b = a
    · rw [hb, Heap.write_self]
      exact ⟨fun _ => h.mem_of_sessionOf ha, fun _ => rfl⟩
    · rw [Heap.write_of_ne hb]
      exact h.owned b
  · change q.elements.write a _ b = some e' at he'
    by_cases hb : b = a
    · rw [hb, Heap.write_self, Option.some_inj] at he'
      subst he'
      exact ⟨fun _ => rfl, fun _ => rfl⟩
    · rw [Heap.write_of_ne hb] at he'
      exact h.cleared b e' he'
  · rw [sessionOf_clearElement] at hb
    split_ifs at hb with heq
    have hne : t ≠ s := by
      rintro rfl
      exact heq (h.unique b a t hb ha)
    show (q.objects.delete s t).isSome = true
    rw [Heap.delete_of_ne hne]
    exact h.live b t hb
  · rw [sessionOf_clearElement] at hb hc
    split_ifs at hb hc
    exact h.unique b c t hb hc

end Sound

/-! ## The thread -/

/-- An element that is not cleared. -/
def keeps (elements : Heap ℕ PoolElement) (a : ℕ) : Bool :=
  (elements a).any (fun e => !e.cleared)

/-- **The purge** deletes the elements that are cleared, and no others. -/
theorem purgeLoop_eq {elements : Heap ℕ PoolElement} {l : List ℕ} (hnodup : l.Nodup)
    (hl : ∀ a ∈ l, (elements a).isSome = true) :
    ∃ elements', purgeLoop l elements = some (l.filter (keeps elements), elements') ∧
      ∀ a, elements' a = if a ∈ l ∧ keeps elements a = false then none else elements a := by
  induction l generalizing elements with
  | nil =>
      refine ⟨elements, rfl, fun a => ?_⟩
      rw [if_neg (fun hand => List.not_mem_nil hand.1)]
  | cons b l ih =>
      obtain ⟨hb, hnodup⟩ := List.nodup_cons.mp hnodup
      obtain ⟨e, he⟩ := Option.isSome_iff_exists.mp (hl b List.mem_cons_self)
      have hne : ∀ a ∈ l, a ≠ b := by
        rintro a ha rfl
        exact hb ha
      rw [purgeLoop, he, Option.bind_some]
      cases hcleared : e.cleared with
      | true =>
          have hkeeps : keeps elements b = false := by
            rw [keeps, he, Option.any_some, hcleared]
            rfl
          have hsame : ∀ a ∈ l, elements.delete b a = elements a := fun a ha =>
            Heap.delete_of_ne (hne a ha)
          have hl' : ∀ a ∈ l, (elements.delete b a).isSome := fun a ha =>
            (hsame a ha).symm ▸ hl a (List.mem_cons_of_mem b ha)
          obtain ⟨elements', hloop, hall⟩ := ih hnodup hl'
          have hfilter : l.filter (keeps (elements.delete b)) = l.filter (keeps elements) :=
            List.filter_congr fun a ha => by rw [keeps, keeps, hsame a ha]
          refine ⟨elements', ?_, fun a => ?_⟩
          · rw [if_pos rfl, hloop, hfilter, List.filter_cons_of_neg]
            rw [hkeeps]
            exact Bool.false_ne_true
          · rw [hall a]
            by_cases hab : a = b
            · subst hab
              rw [Heap.delete_self, ite_self, if_pos ⟨List.mem_cons_self, hkeeps⟩]
            · have hdelete : elements.delete b a = elements a := Heap.delete_of_ne hab
              have hmem : a ∈ l ↔ a ∈ b :: l := by
                rw [List.mem_cons]
                exact (or_iff_right hab).symm
              rw [hdelete, keeps, hdelete]
              exact if_congr (and_congr_left' hmem) rfl rfl
      | false =>
          have hkeeps : keeps elements b = true := by
            rw [keeps, he, Option.any_some, hcleared]
            rfl
          obtain ⟨elements', hloop, hall⟩ := ih hnodup
            (fun a ha => hl a (List.mem_cons_of_mem b ha))
          refine ⟨elements', ?_, fun a => ?_⟩
          · rw [if_neg Bool.false_ne_true, hloop, Option.map_some, List.filter_cons_of_pos hkeeps]
          · rw [hall a]
            by_cases hab : a = b
            · subst hab
              rw [if_neg (fun hand => hb hand.1), if_neg]
              rintro ⟨-, hfalse⟩
              rw [hkeeps] at hfalse
              cases hfalse
            · have hmem : a ∈ l ↔ a ∈ b :: l := by
                rw [List.mem_cons]
                exact (or_iff_right hab).symm
              exact if_congr (and_congr_left' hmem) rfl rfl

namespace Sound

variable (h : q.Sound)

include h

/-- The elements without a session are the ones that are not kept. -/
theorem keeps_eq_false_iff (ha : a ∈ q.sessionList) :
    keeps q.elements a = false ↔ q.sessionOf a = none := by
  obtain ⟨e, he⟩ := h.exists_element ha
  rw [keeps, sessionOf, he, Option.any_some, Option.bind_some, ← h.cleared a e he,
    Bool.not_eq_false']

/-- **The purge of a sound pool**: what is registered stays. -/
theorem purge : ∃ kept elements', purgeLoop q.sessionList q.elements = some (kept, elements') ∧
    ({ q with sessionList := kept, elements := elements', phase := .copy } :
      SingleRTPSessionPool).Sound ∧
    ({ q with sessionList := kept, elements := elements', phase := .copy } :
      SingleRTPSessionPool).registered = q.registered ∧
    ∀ a, (elements' a).bind PoolElement.elem = q.sessionOf a := by
  obtain ⟨elements', hloop, hall⟩ := purgeLoop_eq h.nodup (fun a ha => (h.owned a).mpr ha)
  have hsession : ∀ a, (elements' a).bind PoolElement.elem = q.sessionOf a := by
    intro a
    rw [hall a]
    split_ifs with hand
    · exact ((h.keeps_eq_false_iff hand.1).mp hand.2).symm
    · rfl
  refine ⟨_, elements', hloop, ⟨h.nodup.filter _, fun a => ?_, fun a e he => ?_, fun a s ha => ?_,
    fun a b s ha hb => ?_, Or.inl rfl, List.nil_suffix⟩, ?_, hsession⟩
  · show (elements' a).isSome = true ↔ a ∈ q.sessionList.filter (keeps q.elements)
    rw [hall a, List.mem_filter]
    split_ifs with hand
    · rw [hand.2]
      exact ⟨fun hsome => (by cases hsome), fun hkept => absurd hkept.2 Bool.false_ne_true⟩
    · rw [← h.owned a]
      constructor
      · intro hsome
        refine ⟨hsome, ?_⟩
        rw [← Bool.not_eq_false]
        exact fun hfalse => hand ⟨(h.owned a).mp hsome, hfalse⟩
      · exact And.left
  · change elements' a = some e at he
    rw [hall a] at he
    split_ifs at he
    exact h.cleared a e he
  · exact h.live a s ((hsession a).symm.trans ha)
  · exact h.unique a b s ((hsession a).symm.trans ha) ((hsession b).symm.trans hb)
  · show (q.sessionList.filter (keeps q.elements)).filterMap
      (fun a => (elements' a).bind PoolElement.elem) = q.registered
    rw [List.filterMap_filter]
    refine List.filterMap_congr fun a ha => ?_
    rw [hsession a]
    split_ifs with hkept
    · rfl
    · exact ((h.keeps_eq_false_iff ha).mp (by rwa [Bool.not_eq_true] at hkept)).symm

/-- A step that leaves the objects, the elements and the list. -/
theorem advance {sessions : List ℕ} {descriptors : DescriptorSet} {packetTimeout : BitVec 32}
    {phase : PoolPhase} (hcopied : phase = .copy ∨ ∀ a ∈ sessions, a ∈ q.sessionList)
    (htodo : phase.todo <:+ sessions) :
    ({ q with
        sessions := sessions
        descriptors := descriptors
        packetTimeout := packetTimeout
        phase := phase } : SingleRTPSessionPool).Sound :=
  ⟨h.nodup, h.owned, h.cleared, h.live, h.unique, hcopied, htodo⟩

/-- The descriptor set is rebuilt. -/
theorem rebuild (hcopied : ∀ a ∈ q.sessions, a ∈ q.sessionList) : ∃ d, q.rebuild = some d := by
  have hvisits : ∀ l : List ℕ, (∀ a ∈ l, a ∈ q.sessionList) →
      ∃ visits, l.mapM q.visit = some visits := by
    intro l hl
    induction l with
    | nil => exact ⟨[], rfl⟩
    | cons a l ih =>
        obtain ⟨visits, hvisits⟩ := ih (fun b hb => hl b (List.mem_cons_of_mem a hb))
        obtain ⟨v, hv⟩ : ∃ v, q.visit a = some v := by
          cases hsession : q.sessionOf a with
          | none => exact ⟨none, h.visit_of_none (hl a List.mem_cons_self) hsession⟩
          | some s =>
              obtain ⟨object, -, hv⟩ := h.visit_of_some hsession
              exact ⟨some (s, object), hv⟩
        refine ⟨v :: visits, ?_⟩
        rw [List.mapM_cons, hv, hvisits]
        rfl
  obtain ⟨visits, hl⟩ := hvisits q.sessions hcopied
  exact ⟨_, by rw [SingleRTPSessionPool.rebuild, hl, Option.map_some]⟩

/-- **A step of the thread** uses no deleted object, serves a registered session if any, and changes
nothing about the registration. -/
theorem runThread (inputs : PoolInputs) :
    ∃ events q', q.runThread inputs = some (events, q') ∧ q'.Sound ∧
      q'.registered = q.registered ∧
      events.foldlM registrationStep q.registered = some q.registered := by
  have hphase := h.copied
  have htodo := h.todo
  unfold SingleRTPSessionPool.runThread
  cases hp : q.phase with
  | copy =>
      exact ⟨[], _, rfl, h.advance (Or.inr fun a ha => ha) List.suffix_rfl, rfl, rfl⟩
  | control todo =>
      rw [hp] at hphase htodo
      have hcopied := hphase.resolve_left (by rintro ⟨⟩)
      cases todo with
      | nil => exact ⟨[], _, rfl, h.advance (Or.inr hcopied) List.nil_suffix, rfl, rfl⟩
      | cons a todo =>
          have ha := hcopied a (htodo.subset List.mem_cons_self)
          have hnext : todo <:+ q.sessions := (List.suffix_cons a todo).trans htodo
          dsimp only
          cases hsession : q.sessionOf a with
          | none =>
              rw [h.visit_of_none ha hsession]
              exact ⟨[], _, rfl, h.advance (Or.inr hcopied) hnext, rfl, rfl⟩
          | some s =>
              obtain ⟨object, -, hvisit⟩ := h.visit_of_some hsession
              rw [hvisit]
              refine ⟨[.controlServed s], _, rfl, h.advance (Or.inr hcopied) hnext, rfl, ?_⟩
              exact congrArg (· >>= pure) (if_pos (mem_registered.mpr ⟨a, ha, hsession⟩))
  | rebuild =>
      rw [hp] at hphase
      have hcopied := hphase.resolve_left (by rintro ⟨⟩)
      obtain ⟨d, hd⟩ := h.rebuild hcopied
      dsimp only
      rw [hd]
      exact ⟨[], _, rfl, h.advance (Or.inr hcopied) List.nil_suffix, rfl, rfl⟩
  | select =>
      rw [hp] at hphase
      have hcopied := hphase.resolve_left (by rintro ⟨⟩)
      exact ⟨[], _, rfl, h.advance (Or.inr hcopied) List.suffix_rfl, rfl, rfl⟩
  | data ready n todo =>
      rw [hp] at hphase htodo
      have hcopied := hphase.resolve_left (by rintro ⟨⟩)
      cases todo with
      | nil => exact ⟨[], _, rfl, h.advance (Or.inr hcopied) List.nil_suffix, rfl, rfl⟩
      | cons a todo =>
          have ha := hcopied a (htodo.subset List.mem_cons_self)
          have hnext : todo <:+ q.sessions := (List.suffix_cons a todo).trans htodo
          dsimp only
          cases hsession : q.sessionOf a with
          | none =>
              rw [h.visit_of_none ha hsession]
              exact ⟨[], _, rfl, h.advance (Or.inr hcopied) hnext, rfl, rfl⟩
          | some s =>
              obtain ⟨object, -, hvisit⟩ := h.visit_of_some hsession
              rw [hvisit]
              refine ⟨_, _, rfl, h.advance (Or.inr hcopied) hnext, rfl, ?_⟩
              exact congrArg (· >>= pure) (if_pos (mem_registered.mpr ⟨a, ha, hsession⟩))
  | purge =>
      obtain ⟨kept, elements', hloop, hsound, hregistered, -⟩ := h.purge
      dsimp only
      rw [hloop]
      exact ⟨[], _, rfl, hsound, hregistered, rfl⟩

/-- **Every step** that the environment may take has an outcome, keeps the pool sound, and is one of
registration. -/
theorem perform {action : PoolAction} (hallowed : q.Allowed action) :
    ∃ events q', q.perform action = some (events, q') ∧ q'.Sound ∧
      events.foldlM registrationStep q.registered = some q'.registered := by
  cases action with
  | newSession s object =>
      refine ⟨[], _, rfl,
        ⟨h.nodup, h.owned, h.cleared, fun a t ha => ?_, h.unique, h.copied, h.todo⟩,
        rfl⟩
      exact Heap.isSome_write object (h.live a t ha)
  | deleteSession s =>
      obtain ⟨hs, hobject⟩ := hallowed
      obtain ⟨object, hobject⟩ := Option.isSome_iff_exists.mp hobject
      refine ⟨[], q.deleteObject s, ?_, ⟨h.nodup, h.owned, h.cleared, fun a t ha => ?_, h.unique,
        h.copied, h.todo⟩, rfl⟩
      · rw [SingleRTPSessionPool.perform, hobject, Option.map_some]
      have hne : t ≠ s := by
        rintro rfl
        exact hs (mem_registered.mpr ⟨a, h.mem_of_sessionOf ha, ha⟩)
      show (q.objects.delete s t).isSome = true
      rw [Heap.delete_of_ne hne]
      exact h.live a t ha
  | addSession s a =>
      obtain ⟨hobject, hfree⟩ := hallowed
      unfold SingleRTPSessionPool.perform SingleRTPSessionPool.addSession
      rcases h.findSession_cases s with ⟨hfind, hs⟩ | ⟨b, hb, hfind, hsession⟩
      · obtain ⟨hsound, hregistered⟩ := h.pushElement hobject hfree hs
        dsimp only
        rw [hfind]
        refine ⟨[.added s true], _, rfl, hsound, ?_⟩
        rw [hregistered]
        exact congrArg (· >>= pure) (if_neg hs)
      · dsimp only
        rw [hfind]
        refine ⟨[.added s false], _, rfl, h, ?_⟩
        exact congrArg (· >>= pure) (if_pos (mem_registered.mpr ⟨b, hb, hsession⟩))
  | removeSession s =>
      unfold SingleRTPSessionPool.perform SingleRTPSessionPool.removeSession
      rcases h.findSession_cases s with ⟨hfind, hs⟩ | ⟨b, hb, hfind, hsession⟩
      · dsimp only
        rw [hfind]
        refine ⟨[.removed s false], _, rfl, h, ?_⟩
        exact congrArg (· >>= pure) (if_neg hs)
      · obtain ⟨q', hclear, hsound, hregistered, -⟩ := h.clear hsession
        dsimp only
        rw [hfind, Option.bind_some]
        dsimp only
        rw [hclear]
        refine ⟨[.removed s true], _, rfl, hsound, ?_⟩
        rw [hregistered]
        exact congrArg (· >>= pure) (if_pos (mem_registered.mpr ⟨b, hb, hsession⟩))
  | run inputs =>
      obtain ⟨events, q', hrun, hsound, hregistered, hfold⟩ := h.runThread inputs
      exact ⟨events, q', hrun, hsound, hregistered ▸ hfold⟩

end Sound

/-! ## Runs -/

/-- The runs of a pool from a state on, with all events in order: what the environment may do, in
any order with the steps of the thread. -/
inductive Run (Q : SingleRTPSessionPool → PoolAction → Prop) (q₀ : SingleRTPSessionPool) :
    List PoolEvent → SingleRTPSessionPool → Prop
  | nil : Run Q q₀ [] q₀
  | step {trace events : List PoolEvent} {q q' : SingleRTPSessionPool} (action : PoolAction) :
      Run Q q₀ trace q → Q q action → q.perform action = some (events, q') →
      Run Q q₀ (trace ++ events) q'

/-- Less is asked of the environment. -/
theorem Run.imp {Q Q' : SingleRTPSessionPool → PoolAction → Prop} {q₀ : SingleRTPSessionPool}
    {trace : List PoolEvent} (h : Run Q q₀ trace q) (hQ : ∀ q action, Q q action → Q' q action) :
    Run Q' q₀ trace q := by
  induction h with
  | nil => exact Run.nil
  | step action _ hstep hperform ih => exact ih.step action (hQ _ _ hstep) hperform

/-- **Any run** keeps the pool sound, and its events are those of a register. -/
theorem Run.sound {Q : SingleRTPSessionPool → PoolAction → Prop} {trace : List PoolEvent}
    (hQ : ∀ q action, Q q action → q.Allowed action) (h : Run Q new trace q) :
    q.Sound ∧ trace.foldlM registrationStep [] = some q.registered := by
  induction h with
  | nil => exact ⟨sound_new, rfl⟩
  | step action _ hstep hperform ih =>
      obtain ⟨hsound, hfold⟩ := ih
      obtain ⟨events, q', heq, hsound', hfold'⟩ := hsound.perform (hQ _ _ hstep)
      rw [hperform, Option.some_inj, Prod.mk.injEq] at heq
      obtain ⟨rfl, rfl⟩ := heq
      refine ⟨hsound', ?_⟩
      rw [List.foldlM_append, hfold]
      exact hfold'

/-- **A pool is a register of sessions.**  In whatever order the application and the thread take
their steps, none of them uses or deletes a deleted object, and the events are those of a register:
a session is added if it is not there and removed if it is, and the thread serves only sessions that
are registered at that moment. -/
theorem pool_refines_registration {trace : List PoolEvent} (h : Run Allowed new trace q) :
    trace.foldlM registrationStep [] = some q.registered ∧
      ∀ action, q.Allowed action → ∃ events q', q.perform action = some (events, q') := by
  obtain ⟨hsound, hfold⟩ := h.sound (fun _ _ hallowed => hallowed)
  refine ⟨hfold, fun action hallowed => ?_⟩
  obtain ⟨events, q', hperform, -, -⟩ := hsound.perform hallowed
  exact ⟨events, q', hperform⟩

/-- Two sessions in the pool, and a third one beside it. -/
def twoSessions : SingleRTPSessionPool :=
  (({ new with
      objects := ((new.objects.write 1 ⟨3⟩).write 2 ⟨9⟩).write 3 ⟨6⟩ } :
    SingleRTPSessionPool).pushElement 1 7).pushElement 2 8

/-- The first session has been removed in a pass and the third one added, and the thread is in front
of the second one, whose socket has been reported. -/
def beforeSecond : SingleRTPSessionPool where
  objects := twoSessions.objects.delete 1
  elements := (twoSessions.elements.write 7 ⟨none, true⟩).write 9 ⟨some 3, false⟩
  sessionList := [7, 8, 9]
  sessions := [7, 8]
  descriptors := .rebuild [⟨none⟩, ⟨some ⟨9⟩⟩]
  packetTimeout := 0
  phase := .data {9} 1 [8]

/-- A new object has its socket alone, if it has not that of another one. -/
theorem ne_socket_write {objects : Heap ℕ RTPSessionBase} {socket : ℕ}
    (h : ∀ t object', objects t = some object' → object'.dataRecvSocket ≠ socket)
    (hne : object.dataRecvSocket ≠ socket) (s t : ℕ) (object' : RTPSessionBase)
    (ht : objects.write s object t = some object') : object'.dataRecvSocket ≠ socket := by
  by_cases hts : t = s
  · rw [hts, Heap.write_self, Option.some_inj] at ht
    rwa [← ht]
  · rw [Heap.write_of_ne hts] at ht
    exact h t object' ht

/-- Two sessions are added. -/
theorem run_twoSessions : Run Reported new [.added 1 true, .added 2 true] twoSessions := by
  have hempty : ∀ socket t object', new.objects t = some object' →
      object'.dataRecvSocket ≠ socket := fun socket t object' h => by cases h
  have hnil : Run Reported new [] new := Run.nil
  have hfirst := hnil.step (.newSession 1 ⟨3⟩)
    ⟨⟨rfl, hempty 3⟩, fun _ h => by cases h⟩ rfl
  have hsecond := hfirst.step (.newSession 2 ⟨9⟩)
    ⟨⟨rfl, ne_socket_write (hempty 9) (by decide) 1⟩, fun _ h => by cases h⟩ rfl
  have hthird := hsecond.step (.newSession 3 ⟨6⟩)
    ⟨⟨rfl, ne_socket_write (ne_socket_write (hempty 6) (by decide) 1) (by decide) 2⟩,
      fun _ h => by cases h⟩ rfl
  exact (hthird.step (.addSession 1 7) ⟨⟨rfl, rfl⟩, fun _ h => by cases h⟩ rfl).step
    (.addSession 2 8) ⟨⟨rfl, rfl⟩, fun _ h => by cases h⟩ rfl

/-- In a pass over both, the first one is removed behind its visit and a third one is added. -/
theorem run_beforeSecond : Run Reported new [.added 1 true, .added 2 true, .controlServed 1,
    .removed 1 true, .added 3 true, .controlServed 2] beforeSecond := by
  have hcopied := run_twoSessions.step (.run ⟨∅, 0, 0, 0⟩) ⟨trivial, fun _ _ h => by cases h⟩ rfl
  have hserved := hcopied.step (.run ⟨∅, 0, 0, 0⟩) ⟨trivial, fun _ _ h => by cases h⟩ rfl
  have hremoved := hserved.step (.removeSession 1) ⟨trivial, fun _ h => by cases h⟩ rfl
  have hadded := hremoved.step (.addSession 3 9) ⟨⟨rfl, rfl⟩, fun _ h => by cases h⟩ rfl
  have hvisited := hadded.step (.run ⟨∅, 0, 0, 0⟩) ⟨trivial, fun _ _ h => by cases h⟩ rfl
  have hrebuild := hvisited.step (.run ⟨∅, 0, 0, 0⟩) ⟨trivial, fun _ _ h => by cases h⟩ rfl
  have hselect := hrebuild.step (.run ⟨∅, 0, 0, 0⟩) ⟨trivial, fun _ _ h => by cases h⟩ rfl
  have hdata := hselect.step (.run ⟨{9}, 1, 0, 0⟩) ⟨trivial, fun inputs h _ => by
    cases h
    exact ⟨⟨by decide, by decide⟩, Or.inr ⟨by decide, by decide⟩⟩⟩ rfl
  exact hdata.step (.run ⟨∅, 0, 0, 0⟩) ⟨trivial, fun _ _ h => by cases h⟩ rfl

/-- A pass with a session that is removed and one that is added meanwhile. -/
theorem pool_refines_registration_twoSessions : ∃ q : SingleRTPSessionPool,
    [PoolEvent.added 1 true, .added 2 true, .controlServed 1, .removed 1 true, .added 3 true,
      .controlServed 2, .dataServed 2 true true].foldlM registrationStep [] = some q.registered ∧
    ∃ events q', q.perform (.removeSession 2) = some (events, q') := by
  have hserved := run_beforeSecond.step (.run ⟨∅, 0, 0, 0⟩) ⟨trivial, fun _ _ h => by cases h⟩ rfl
  have hpurge := hserved.step (.run ⟨∅, 0, 0, 0⟩) ⟨trivial, fun _ _ h => by cases h⟩ rfl
  have hend := hpurge.step (.run ⟨∅, 0, 0, 0⟩) ⟨trivial, fun _ _ h => by cases h⟩ rfl
  obtain ⟨hfold, hperform⟩ :=
    pool_refines_registration (hend.imp fun _ _ hreported => hreported.1)
  exact ⟨_, hfold, hperform (.removeSession 2) trivial⟩

/-! ## A pass -/

/-- The sessions that were served by the control services, in order. -/
def controlServedOf (trace : List PoolEvent) : List ℕ :=
  trace.filterMap (fun | .controlServed s => some s | _ => none)

/-- The sessions that were served by the data services, in order. -/
def dataServedOf (trace : List PoolEvent) : List ℕ :=
  trace.filterMap (fun | .dataServed s _ _ => some s | _ => none)

/-- A pass of the thread from a state on, with the steps of the application in between, and its
events. -/
inductive Pass (q₀ : SingleRTPSessionPool) : List PoolEvent → SingleRTPSessionPool → Prop
  | start {events : List PoolEvent} {q : SingleRTPSessionPool} (inputs : PoolInputs) :
      q₀.runThread inputs = some (events, q) → Pass q₀ events q
  | step {trace events : List PoolEvent} {q q' : SingleRTPSessionPool} (action : PoolAction) :
      Pass q₀ trace q → q.phase ≠ .copy → q.Allowed action → q.perform action = some (events, q') →
      Pass q₀ (trace ++ events) q'

/-- The sessions `served` are sessions of `due` in their order, and all of them but such as were
removed. -/
structure Serves (trace : List PoolEvent) (due served : List ℕ) : Prop where
  sublist : served.Sublist due
  complete : ∀ s ∈ due, .removed s true ∉ trace → s ∈ served

/-- How far a pass has come: the elements keep their sessions unless these are removed, and the
sessions of the elements behind the thread have been served. -/
structure Progress (q₀ : SingleRTPSessionPool) (trace : List PoolEvent) (q : SingleRTPSessionPool) :
    Prop where
  sessions : q.sessions = q₀.sessionList
  kept : ∀ a ∈ q₀.sessionList, ∀ s, q₀.sessionOf a = some s →
    q.sessionOf a = some s ∨ .removed s true ∈ trace
  same : ∀ a ∈ q₀.sessionList, ∀ s, q.sessionOf a = some s → q₀.sessionOf a = some s
  control : ∃ done, done ++ q.phase.controlTodo = q₀.sessionList ∧
    Serves trace (done.filterMap q₀.sessionOf) (controlServedOf trace)
  data : ∃ done, done ++ q.phase.dataTodo q₀.sessionList = q₀.sessionList ∧
    Serves trace (done.filterMap q₀.sessionOf) (dataServedOf trace)

namespace Serves

variable {trace events : List PoolEvent} {due served : List ℕ}

/-- Later events take nothing back. -/
theorem more (h : Serves trace due served) : Serves (trace ++ events) due served :=
  ⟨h.sublist, fun s hs hremoved =>
    h.complete s hs (fun hmem => hremoved (List.mem_append_left _ hmem))⟩

/-- One more session is due and is served. -/
theorem serve (h : Serves trace due served) (s : ℕ) :
    Serves (trace ++ events) (due ++ [s]) (served ++ [s]) := by
  refine ⟨h.sublist.append (List.Sublist.refl _), fun t ht hremoved => ?_⟩
  rcases List.mem_append.mp ht with ht | ht
  · exact List.mem_append_left _ (h.more.complete t ht hremoved)
  · exact List.mem_append_right _ ht

/-- One more session is due and has been removed. -/
theorem skip (h : Serves trace due served) {s : ℕ} (hs : .removed s true ∈ trace) :
    Serves (trace ++ events) (due ++ [s]) served := by
  refine ⟨h.sublist.trans (List.sublist_append_left _ _), fun t ht hremoved => ?_⟩
  rcases List.mem_append.mp ht with ht | ht
  · exact h.more.complete t ht hremoved
  · rw [List.mem_singleton.mp ht] at hremoved
    exact absurd (List.mem_append_left _ hs) hremoved

end Serves

/-- **A step of the application** leaves the thread where it is; the elements of the list keep their
sessions, or the session is removed. -/
theorem Sound.application (h : q.Sound) {action : PoolAction} {events : List PoolEvent}
    (hallowed : q.Allowed action) (hnot : ∀ inputs, action ≠ .run inputs)
    (hperform : q.perform action = some (events, q')) :
    (q'.sessions = q.sessions ∧ q'.phase = q.phase) ∧
      (controlServedOf events = [] ∧ dataServedOf events = []) ∧
      ∀ a ∈ q.sessionList, q'.sessionOf a = q.sessionOf a ∨
        (q'.sessionOf a = none ∧ ∃ s, q.sessionOf a = some s ∧ .removed s true ∈ events) := by
  cases action with
  | newSession s object =>
      cases hperform
      exact ⟨⟨rfl, rfl⟩, ⟨rfl, rfl⟩, fun a _ => Or.inl rfl⟩
  | deleteSession s =>
      obtain ⟨object, -, heq⟩ := Option.map_eq_some_iff.mp hperform
      cases heq
      exact ⟨⟨rfl, rfl⟩, ⟨rfl, rfl⟩, fun a _ => Or.inl rfl⟩
  | addSession s b =>
      unfold SingleRTPSessionPool.perform SingleRTPSessionPool.addSession at hperform
      dsimp only at hperform
      rcases h.findSession_cases s with ⟨hfind, -⟩ | ⟨c, -, hfind, -⟩
      · rw [hfind] at hperform
        cases hperform
        refine ⟨⟨rfl, rfl⟩, ⟨rfl, rfl⟩, fun a ha => Or.inl ?_⟩
        rw [sessionOf_pushElement, if_neg]
        rintro rfl
        exact h.notMem_of_free hallowed.2 ha
      · rw [hfind] at hperform
        cases hperform
        exact ⟨⟨rfl, rfl⟩, ⟨rfl, rfl⟩, fun a _ => Or.inl rfl⟩
  | removeSession s =>
      unfold SingleRTPSessionPool.perform SingleRTPSessionPool.removeSession at hperform
      dsimp only at hperform
      rcases h.findSession_cases s with ⟨hfind, -⟩ | ⟨b, -, hfind, hsession⟩
      · rw [hfind] at hperform
        cases hperform
        exact ⟨⟨rfl, rfl⟩, ⟨rfl, rfl⟩, fun a _ => Or.inl rfl⟩
      · obtain ⟨q₁, hclear, -, -, hq₁⟩ := h.clear hsession
        rw [hfind, Option.bind_some] at hperform
        dsimp only at hperform
        rw [hclear] at hperform
        cases hperform
        rw [hq₁]
        refine ⟨⟨rfl, rfl⟩, ⟨rfl, rfl⟩, fun a _ => ?_⟩
        rw [sessionOf_clearElement]
        split_ifs with hab
        · subst hab
          exact Or.inr ⟨rfl, s, hsession, List.mem_cons_self⟩
        · exact Or.inl rfl
  | run inputs => exact absurd rfl (hnot inputs)

namespace Progress

variable {q₀ : SingleRTPSessionPool} {trace events : List PoolEvent} {done todo served : List ℕ}

/-- What the control loop has served in two parts of a run. -/
theorem controlServedOf_append (trace events : List PoolEvent) :
    controlServedOf (trace ++ events) = controlServedOf trace ++ controlServedOf events :=
  List.filterMap_append

/-- What the data loop has served in two parts of a run. -/
theorem dataServedOf_append (trace events : List PoolEvent) :
    dataServedOf (trace ++ events) = dataServedOf trace ++ dataServedOf events :=
  List.filterMap_append

/-- The element in front of the thread has a session, which is served. -/
theorem visit_of_some (h : Progress q₀ trace q) (hsplit : done ++ a :: todo = q₀.sessionList)
    (hserves : Serves trace (done.filterMap q₀.sessionOf) served) (hs : q.sessionOf a = some s) :
    Serves (trace ++ events) ((done ++ [a]).filterMap q₀.sessionOf) (served ++ [s]) := by
  have ha : a ∈ q₀.sessionList := hsplit ▸ List.mem_append_right _ List.mem_cons_self
  rw [List.filterMap_append, List.filterMap_cons_some (h.same a ha s hs), List.filterMap_nil]
  exact hserves.serve s

/-- The element in front of the thread has no session, or none any more. -/
theorem visit_of_none (h : Progress q₀ trace q) (events : List PoolEvent)
    (hsplit : done ++ a :: todo = q₀.sessionList)
    (hserves : Serves trace (done.filterMap q₀.sessionOf) served) (hs : q.sessionOf a = none) :
    Serves (trace ++ events) ((done ++ [a]).filterMap q₀.sessionOf) served := by
  have ha : a ∈ q₀.sessionList := hsplit ▸ List.mem_append_right _ List.mem_cons_self
  rw [List.filterMap_append]
  cases hfirst : q₀.sessionOf a with
  | none =>
      rw [List.filterMap_cons_none hfirst, List.filterMap_nil, List.append_nil]
      exact hserves.more
  | some s =>
      rw [List.filterMap_cons_some hfirst, List.filterMap_nil]
      refine hserves.skip ((h.kept a ha s hfirst).resolve_left ?_)
      rw [hs]
      exact fun hnone => by cases hnone

/-- **The application** may come in between. -/
theorem application (h : Progress q₀ trace q) (hsound : q.Sound) (hcopy : q.phase ≠ .copy)
    {action : PoolAction} (hallowed : q.Allowed action) (hnot : ∀ inputs, action ≠ .run inputs)
    (hperform : q.perform action = some (events, q')) : Progress q₀ (trace ++ events) q' := by
  obtain ⟨⟨hsessions, hphase⟩, ⟨hcontrol, hdata⟩, hall⟩ :=
    hsound.application hallowed hnot hperform
  have hmem : ∀ a ∈ q₀.sessionList, a ∈ q.sessionList := by
    rw [← h.sessions]
    exact hsound.copied.resolve_left hcopy
  obtain ⟨done, hdone, hserves⟩ := h.control
  obtain ⟨done', hdone', hserves'⟩ := h.data
  refine ⟨hsessions.trans h.sessions, fun a ha s hs => ?_, fun a ha s hs => ?_, ⟨done, ?_, ?_⟩,
    ⟨done', ?_, ?_⟩⟩
  · rcases h.kept a ha s hs with hkept | hremoved
    · rcases hall a (hmem a ha) with heq | ⟨-, t, ht, hevent⟩
      · exact Or.inl (heq.trans hkept)
      · rw [hkept, Option.some_inj] at ht
        subst ht
        exact Or.inr (List.mem_append_right _ hevent)
    · exact Or.inr (List.mem_append_left _ hremoved)
  · rcases hall a (hmem a ha) with heq | ⟨hnone, -⟩
    · exact h.same a ha s (heq.symm.trans hs)
    · rw [hnone] at hs
      cases hs
  · rw [hphase]
    exact hdone
  · rw [controlServedOf_append, hcontrol, List.append_nil]
    exact hserves.more
  · rw [hphase]
    exact hdone'
  · rw [dataServedOf_append, hdata, List.append_nil]
    exact hserves'.more

/-- The thread goes on without serving a session. -/
theorem advance (h : Progress q₀ trace q) (hsessions : q'.sessions = q.sessions)
    (hsession : ∀ a, q'.sessionOf a = q.sessionOf a)
    (hcontrol : ∃ done, done ++ q'.phase.controlTodo = q₀.sessionList ∧
      Serves trace (done.filterMap q₀.sessionOf) (controlServedOf trace))
    (hdata : ∃ done, done ++ q'.phase.dataTodo q₀.sessionList = q₀.sessionList ∧
      Serves trace (done.filterMap q₀.sessionOf) (dataServedOf trace)) :
    Progress q₀ (trace ++ []) q' := by
  rw [List.append_nil]
  refine ⟨hsessions.trans h.sessions, fun a ha s hs => ?_, fun a ha s hs => ?_, hcontrol, hdata⟩
  · rw [hsession]
    exact h.kept a ha s hs
  · exact h.same a ha s ((hsession a).symm.trans hs)

/-- **The thread** goes on. -/
theorem thread (h : Progress q₀ trace q) (hsound : q.Sound) (hcopy : q.phase ≠ .copy)
    {inputs : PoolInputs} (hrun : q.runThread inputs = some (events, q')) :
    Progress q₀ (trace ++ events) q' := by
  have hmem := hsound.copied.resolve_left hcopy
  have htodo := hsound.todo
  have hcontrol := h.control
  have hdata := h.data
  unfold runThread at hrun
  cases hp : q.phase with
  | copy => exact absurd hp hcopy
  | control todo =>
      rw [hp] at hrun hcontrol hdata htodo
      cases todo with
      | nil =>
          cases hrun
          exact h.advance rfl (fun _ => rfl) hcontrol hdata
      | cons a todo =>
          obtain ⟨done, hdone, hserves⟩ := hcontrol
          have ha := hmem a (htodo.subset List.mem_cons_self)
          have hnext : (done ++ [a]) ++ todo = q₀.sessionList := by
            rw [List.append_assoc, List.singleton_append]
            exact hdone
          dsimp only at hrun
          cases hsession : q.sessionOf a with
          | none =>
              rw [hsound.visit_of_none ha hsession] at hrun
              cases hrun
              refine h.advance rfl (fun _ => rfl) ⟨done ++ [a], hnext, ?_⟩ hdata
              have hskipped := h.visit_of_none [] hdone hserves hsession
              rwa [List.append_nil] at hskipped
          | some s =>
              obtain ⟨object, -, hvisit⟩ := hsound.visit_of_some hsession
              rw [hvisit] at hrun
              cases hrun
              obtain ⟨done', hdone', hserves'⟩ := hdata
              refine ⟨h.sessions, fun b hb t ht => (h.kept b hb t ht).imp_right
                (List.mem_append_left _), h.same, ⟨done ++ [a], hnext, ?_⟩, done', hdone', ?_⟩
              · rw [controlServedOf_append]
                exact h.visit_of_some hdone hserves hsession
              · rw [dataServedOf_append]
                show Serves _ _ (dataServedOf trace ++ [])
                rw [List.append_nil]
                exact hserves'.more
  | rebuild =>
      rw [hp] at hrun hcontrol hdata
      obtain ⟨d, -, heq⟩ := Option.map_eq_some_iff.mp hrun
      cases heq
      exact h.advance rfl (fun _ => rfl) hcontrol hdata
  | select =>
      rw [hp] at hrun hcontrol hdata
      cases hrun
      refine h.advance rfl (fun _ => rfl) hcontrol ?_
      show ∃ done, done ++ q.sessions = q₀.sessionList ∧ _
      rw [h.sessions]
      exact hdata
  | data ready n todo =>
      rw [hp] at hrun hcontrol hdata htodo
      cases todo with
      | nil =>
          cases hrun
          exact h.advance rfl (fun _ => rfl) hcontrol hdata
      | cons a todo =>
          obtain ⟨done, hdone, hserves⟩ := hdata
          have ha := hmem a (htodo.subset List.mem_cons_self)
          have hnext : (done ++ [a]) ++ todo = q₀.sessionList := by
            rw [List.append_assoc, List.singleton_append]
            exact hdone
          dsimp only at hrun
          cases hsession : q.sessionOf a with
          | none =>
              rw [hsound.visit_of_none ha hsession] at hrun
              cases hrun
              refine h.advance rfl (fun _ => rfl) hcontrol ⟨done ++ [a], hnext, ?_⟩
              have hskipped := h.visit_of_none [] hdone hserves hsession
              rwa [List.append_nil] at hskipped
          | some s =>
              obtain ⟨object, -, hvisit⟩ := hsound.visit_of_some hsession
              rw [hvisit] at hrun
              cases hrun
              obtain ⟨done', hdone', hserves'⟩ := hcontrol
              refine ⟨h.sessions, fun b hb t ht => (h.kept b hb t ht).imp_right
                (List.mem_append_left _), h.same, ⟨done', hdone', ?_⟩, done ++ [a], hnext, ?_⟩
              · rw [controlServedOf_append]
                show Serves _ _ (controlServedOf trace ++ [])
                rw [List.append_nil]
                exact hserves'.more
              · rw [dataServedOf_append]
                exact h.visit_of_some hdone hserves hsession
  | purge =>
      rw [hp] at hrun hcontrol hdata
      obtain ⟨kept, elements', hloop, -, -, hsession⟩ := hsound.purge
      dsimp only at hrun
      rw [hloop] at hrun
      cases hrun
      exact h.advance rfl hsession hcontrol hdata

end Progress

/-- A pass keeps the pool sound, and comes forward. -/
theorem Pass.progress {q₀ : SingleRTPSessionPool} {trace : List PoolEvent} (h : Pass q₀ trace q)
    (hsound : q₀.Sound) (hcopy : q₀.phase = .copy) : q.Sound ∧ Progress q₀ trace q := by
  induction h with
  | start inputs hrun =>
      obtain ⟨events, q', heq, hsound', -, -⟩ := hsound.runThread inputs
      rw [hrun, Option.some_inj, Prod.mk.injEq] at heq
      obtain ⟨rfl, rfl⟩ := heq
      rw [runThread, hcopy] at hrun
      cases hrun
      refine ⟨hsound', rfl, fun a _ s hs => Or.inl hs, fun a _ s hs => hs, ⟨[], rfl, ?_⟩,
        [], rfl, ?_⟩
      · exact ⟨List.Sublist.refl _, fun s hs => absurd hs List.not_mem_nil⟩
      · exact ⟨List.Sublist.refl _, fun s hs => absurd hs List.not_mem_nil⟩
  | @step trace events q q' action _ hphase hallowed hperform ih =>
      obtain ⟨hsound, hprogress⟩ := ih
      obtain ⟨events', q'', heq, hsound', -⟩ := hsound.perform hallowed
      rw [hperform, Option.some_inj, Prod.mk.injEq] at heq
      obtain ⟨rfl, rfl⟩ := heq
      refine ⟨hsound', ?_⟩
      by_cases hthread : ∃ inputs, action = .run inputs
      · obtain ⟨inputs, rfl⟩ := hthread
        exact hprogress.thread hsound hphase hperform
      · exact hprogress.application hsound hphase hallowed (fun inputs heq => hthread ⟨inputs, heq⟩)
          hperform

/-- **Which sessions a pass serves.**  Whatever the application adds and removes while the thread
goes over its copy of the list, both loops serve the sessions that were registered when the pass
began, in the order of their registration, each once at most, and all of them but such as were
removed meanwhile. -/
theorem pass_serves_registered {trace₀ trace : List PoolEvent} {q₀ : SingleRTPSessionPool}
    (hrun : Run Allowed new trace₀ q₀) (hbegin : q₀.phase = .copy) (hpass : Pass q₀ trace q)
    (hend : q.phase = .copy) :
    q₀.registered.Nodup ∧ Serves trace q₀.registered (controlServedOf trace) ∧
      Serves trace q₀.registered (dataServedOf trace) := by
  obtain ⟨hsound, -⟩ := hrun.sound (fun _ _ hallowed => hallowed)
  obtain ⟨-, hprogress⟩ := hpass.progress hsound hbegin
  obtain ⟨done, hdone, hcontrol⟩ := hprogress.control
  obtain ⟨done', hdone', hdata⟩ := hprogress.data
  rw [hend] at hdone hdone'
  have hall : done = q₀.sessionList := by rw [← hdone]; exact (List.append_nil done).symm
  have hall' : done' = q₀.sessionList := by rw [← hdone']; exact (List.append_nil done').symm
  refine ⟨hsound.nodup_registered, ?_, ?_⟩
  · rw [hall] at hcontrol
    exact hcontrol
  · rw [hall'] at hdata
    exact hdata

/-- A session that is removed after its visit and one that is added meanwhile: the data services are
for the second session alone. -/
theorem pass_serves_registered_twoSessions : ∃ q trace, Pass twoSessions trace q ∧
    .removed 1 true ∈ trace ∧ .added 3 true ∈ trace ∧ dataServedOf trace = [2] ∧
    Serves trace twoSessions.registered (controlServedOf trace) ∧
    Serves trace twoSessions.registered (dataServedOf trace) := by
  have hcopied : Pass twoSessions _ _ := Pass.start ⟨∅, 0, 0, 0⟩ rfl
  have hserved := hcopied.step (.run ⟨∅, 0, 0, 0⟩) (by rintro ⟨⟩) trivial rfl
  have hadded := (hserved.step (.removeSession 1) (by rintro ⟨⟩) trivial rfl).step
    (.addSession 3 9) (by rintro ⟨⟩) ⟨rfl, rfl⟩ rfl
  have hrebuild := (hadded.step (.run ⟨∅, 0, 0, 0⟩) (by rintro ⟨⟩) trivial rfl).step
    (.run ⟨∅, 0, 0, 0⟩) (by rintro ⟨⟩) trivial rfl
  have hdata := (hrebuild.step (.run ⟨∅, 0, 0, 0⟩) (by rintro ⟨⟩) trivial rfl).step
    (.run ⟨{9}, 1, 0, 0⟩) (by rintro ⟨⟩) trivial rfl
  have hvisited := (hdata.step (.run ⟨∅, 0, 0, 0⟩) (by rintro ⟨⟩) trivial rfl).step
    (.run ⟨∅, 0, 0, 0⟩) (by rintro ⟨⟩) trivial rfl
  have hend := (hvisited.step (.run ⟨∅, 0, 0, 0⟩) (by rintro ⟨⟩) trivial rfl).step
    (.run ⟨∅, 0, 0, 0⟩) (by rintro ⟨⟩) trivial rfl
  have hrun := run_twoSessions.imp fun _ _ hreported => hreported.1
  obtain ⟨-, hcontrol, hserves⟩ := pass_serves_registered hrun rfl hend rfl
  exact ⟨_, _, hend, by decide, by decide, rfl, hcontrol, hserves⟩

/-! ## What a session is served with -/

/-- The socket of the session of an element. -/
def socketOf (q : SingleRTPSessionPool) (a : ℕ) : Option ℕ :=
  (q.sessionOf a).bind (fun s => (q.objects s).map RTPSessionBase.dataRecvSocket)

/-- How many of the sessions still to be visited have their socket reported. -/
def pending (q : SingleRTPSessionPool) (ready : Finset ℕ) (todo : List ℕ) : ℕ :=
  ((todo.filterMap q.socketOf).filter (· ∈ ready)).length

/-- Unless `select` has failed, the sessions still to be visited whose socket is reported are no
more than the number that is left; and the timeout of the session before has been used up. -/
structure Budget (q : SingleRTPSessionPool) : Prop where
  timeout : q.packetTimeout < 1000
  sockets : ∀ s t object object', q.objects s = some object → q.objects t = some object' →
    object.dataRecvSocket = object'.dataRecvSocket → s = t
  nodup : q.phase = .copy ∨ q.sessions.Nodup
  ready : ∀ ready n todo, q.phase = .data ready n todo → 0 ≤ n → (q.pending ready todo : ℤ) ≤ n

/-- An empty pool has nothing to visit. -/
theorem budget_new : new.Budget := by
  refine ⟨by decide, ?_, Or.inl rfl, ?_⟩
  · intro s t object object' h
    cases h
  · intro ready n todo h
    cases h

/-- The socket of an element is that of its session. -/
theorem socketOf_eq_some {socket : ℕ} : q.socketOf a = some socket ↔
    ∃ s object, q.sessionOf a = some s ∧ q.objects s = some object ∧
    object.dataRecvSocket = socket := by
  unfold socketOf
  constructor
  · intro h
    obtain ⟨s, hs, hmap⟩ := Option.bind_eq_some_iff.mp h
    obtain ⟨object, hobject, heq⟩ := Option.map_eq_some_iff.mp hmap
    exact ⟨s, object, hs, hobject, heq⟩
  · rintro ⟨s, object, hs, hobject, rfl⟩
    rw [hs, Option.bind_some, hobject, Option.map_some]

/-- An element without a session waits for no socket. -/
theorem pending_cons_none {ready : Finset ℕ} {todo : List ℕ} (h : q.socketOf a = none) :
    q.pending ready (a :: todo) = q.pending ready todo := by
  rw [pending, pending, List.filterMap_cons_none h]

/-- The number without a session that is visited. -/
theorem pending_cons_some {ready : Finset ℕ} {todo : List ℕ} {socket : ℕ}
    (h : q.socketOf a = some socket) :
    q.pending ready (a :: todo) = (if socket ∈ ready then 1 else 0) + q.pending ready todo := by
  rw [pending, pending, List.filterMap_cons_some h, List.filter_cons]
  by_cases hready : socket ∈ ready
  · rw [if_pos (decide_eq_true hready), if_pos hready, List.length_cons, Nat.add_comm]
  · rw [decide_eq_false hready, if_neg Bool.false_ne_true, if_neg hready, Nat.zero_add]

/-- Sessions that are gone make the number only smaller. -/
theorem pending_le {ready : Finset ℕ} {todo : List ℕ}
    (h : ∀ a ∈ todo, q'.socketOf a = q.socketOf a ∨ q'.socketOf a = none) :
    q'.pending ready todo ≤ q.pending ready todo := by
  induction todo with
  | nil => exact le_refl _
  | cons a todo ih =>
      have hrest := ih (fun b hb => h b (List.mem_cons_of_mem a hb))
      cases hsocket : q.socketOf a with
      | none =>
          have hnone : q'.socketOf a = none :=
            (h a List.mem_cons_self).elim (fun heq => heq.trans hsocket) id
          rw [pending_cons_none hnone, pending_cons_none hsocket]
          exact hrest
      | some socket =>
          rw [pending_cons_some hsocket]
          rcases h a List.mem_cons_self with heq | hnone
          · rw [pending_cons_some (heq.trans hsocket)]
            exact Nat.add_le_add_left hrest _
          · rw [pending_cons_none hnone]
            exact hrest.trans (Nat.le_add_left _ _)

/-- **At the beginning** the sessions whose socket is reported are no more than the reported
sockets, because no two of them have the same. -/
theorem Budget.pending_le_card (h : q.Budget) (hsound : q.Sound) {todo : List ℕ}
    (hnodup : todo.Nodup) (ready : Finset ℕ) : q.pending ready todo ≤ ready.card := by
  have hsockets : (todo.filterMap q.socketOf).Nodup := by
    refine hnodup.filterMap fun a b socket ha hb => ?_
    obtain ⟨s, object, hs, hobject, heq⟩ := socketOf_eq_some.mp ha
    obtain ⟨t, object', ht, hobject', heq'⟩ := socketOf_eq_some.mp hb
    obtain rfl := h.sockets s t object object' hobject hobject' (heq.trans heq'.symm)
    exact hsound.unique a b s hs ht
  rw [pending, ← List.toFinset_card_of_nodup (hsockets.filter _)]
  refine Finset.card_le_card fun socket hsocket => ?_
  exact of_decide_eq_true (List.mem_filter.mp (List.mem_toFinset.mp hsocket)).2

/-- What the application does to the memory of sessions. -/
theorem Sound.application_objects (h : q.Sound) {action : PoolAction} {events : List PoolEvent}
    (hnot : ∀ inputs, action ≠ .run inputs) (hperform : q.perform action = some (events, q')) :
    q'.packetTimeout = q.packetTimeout ∧ (q'.objects = q.objects ∨
      (∃ s object, action = .newSession s object ∧ q'.objects = q.objects.write s object) ∨
      ∃ s, q'.objects = q.objects.delete s) := by
  cases action with
  | newSession s object =>
      cases hperform
      exact ⟨rfl, Or.inr (Or.inl ⟨s, object, rfl, rfl⟩)⟩
  | deleteSession s =>
      obtain ⟨object, -, heq⟩ := Option.map_eq_some_iff.mp hperform
      cases heq
      exact ⟨rfl, Or.inr (Or.inr ⟨s, rfl⟩)⟩
  | addSession s b =>
      unfold SingleRTPSessionPool.perform SingleRTPSessionPool.addSession at hperform
      dsimp only at hperform
      rcases h.findSession_cases s with ⟨hfind, -⟩ | ⟨c, -, hfind, -⟩
      · rw [hfind] at hperform
        cases hperform
        exact ⟨rfl, Or.inl rfl⟩
      · rw [hfind] at hperform
        cases hperform
        exact ⟨rfl, Or.inl rfl⟩
  | removeSession s =>
      unfold SingleRTPSessionPool.perform SingleRTPSessionPool.removeSession at hperform
      dsimp only at hperform
      rcases h.findSession_cases s with ⟨hfind, -⟩ | ⟨b, -, hfind, hsession⟩
      · rw [hfind] at hperform
        cases hperform
        exact ⟨rfl, Or.inl rfl⟩
      · obtain ⟨q₁, hclear, -, -, rfl⟩ := h.clear hsession
        rw [hfind, Option.bind_some] at hperform
        dsimp only at hperform
        rw [hclear] at hperform
        cases hperform
        exact ⟨rfl, Or.inr (Or.inr ⟨s, rfl⟩)⟩
  | run inputs => exact absurd rfl (hnot inputs)

namespace Budget

variable (h : q.Budget)

include h

/-- **The application** may come in between. -/
theorem application (hsound : q.Sound) {action : PoolAction} {events : List PoolEvent}
    (hallowed : q.Allowed action) (hnot : ∀ inputs, action ≠ .run inputs)
    (hperform : q.perform action = some (events, q')) : q'.Budget := by
  obtain ⟨⟨hsessions, hphase⟩, -, hall⟩ := hsound.application hallowed hnot hperform
  obtain ⟨htimeout, hobjects⟩ := hsound.application_objects hnot hperform
  refine ⟨htimeout ▸ h.timeout, ?_, ?_, fun ready n todo hdata hn => ?_⟩
  · intro s t object object' hs ht heq
    rcases hobjects with hsame | ⟨u, new, haction, hwrite⟩ | ⟨u, hdelete⟩
    · rw [hsame] at hs ht
      exact h.sockets s t object object' hs ht heq
    · subst haction
      rw [hwrite] at hs ht
      by_cases hsu : s = u
      · by_cases htu : t = u
        · exact hsu.trans htu.symm
        · rw [hsu, Heap.write_self, Option.some_inj] at hs
          rw [Heap.write_of_ne htu] at ht
          subst hs
          exact absurd heq.symm (hallowed.2 t object' ht)
      · rw [Heap.write_of_ne hsu] at hs
        by_cases htu : t = u
        · rw [htu, Heap.write_self, Option.some_inj] at ht
          subst ht
          exact absurd heq (hallowed.2 s object hs)
        · rw [Heap.write_of_ne htu] at ht
          exact h.sockets s t object object' hs ht heq
    · rw [hdelete] at hs ht
      have hlive : ∀ {v object}, q.objects.delete u v = some object →
          q.objects v = some object := by
        intro v object hv
        by_cases hvu : v = u
        · rw [hvu, Heap.delete_self] at hv
          cases hv
        · rwa [Heap.delete_of_ne hvu] at hv
      exact h.sockets s t object object' (hlive hs) (hlive ht) heq
  · rw [hphase, hsessions]
    exact h.nodup
  · rw [hphase] at hdata
    have hcopy : q.phase ≠ .copy := by
      rw [hdata]
      rintro ⟨⟩
    refine le_trans (Int.ofNat_le.mpr (pending_le fun a ha => ?_)) (h.ready ready n todo hdata hn)
    have hmem : a ∈ q.sessionList := by
      refine hsound.mem_of_todo hcopy ?_
      rw [hdata]
      exact ha
    rcases hall a hmem with hsame | ⟨hnone, -⟩
    · unfold socketOf
      rw [hsame]
      cases hs : q.sessionOf a with
      | none => exact Or.inl rfl
      | some s =>
          obtain ⟨object, hobject⟩ := Option.isSome_iff_exists.mp (hsound.live a s hs)
          dsimp only [Option.bind_some]
          rcases hobjects with heq | ⟨u, new, haction, hwrite⟩ | ⟨u, hdelete⟩
          · rw [heq]
            exact Or.inl rfl
          · subst haction
            have hne : s ≠ u := by
              rintro rfl
              rw [hallowed.1] at hobject
              cases hobject
            rw [hwrite, Heap.write_of_ne hne]
            exact Or.inl rfl
          · rw [hdelete]
            by_cases hsu : s = u
            · rw [hsu, Heap.delete_self]
              exact Or.inr rfl
            · rw [Heap.delete_of_ne hsu]
              exact Or.inl rfl
    · refine Or.inr ?_
      rw [socketOf, hnone, Option.bind_none]

/-- **The thread** visits a session: what it does for it, and what is left. -/
theorem serveData {ready : Finset ℕ} {n : ℤ} {todo : List ℕ}
    (hp : q.phase = .data ready n (a :: todo))
    (hs : q.sessionOf a = some s) (hobject : q.objects s = some object) (inputs : PoolInputs) :
    (q.serveData ready n todo inputs s object).1 =
        [.dataServed s (decide (object.dataRecvSocket ∈ ready ∧ 0 ≤ n))
          (decide (inputs.schedulingTimeout < 1000 ∨ inputs.maxWait < 1000))] ∧
      (q.serveData ready n todo inputs s object).2.Budget := by
  have hready := h.ready ready n (a :: todo) hp
  have hsocket : q.socketOf a = some object.dataRecvSocket :=
    socketOf_eq_some.mpr ⟨s, object, hs, hobject, rfl⟩
  rw [pending_cons_some hsocket] at hready
  obtain ⟨packetTimeout, hpacketTimeout⟩ : ∃ packetTimeout, packetTimeout =
      if inputs.schedulingTimeout > inputs.maxWait then inputs.maxWait
      else inputs.schedulingTimeout := ⟨_, rfl⟩
  have hcapped : packetTimeout < 1000 ↔
      (inputs.schedulingTimeout < 1000 ∨ inputs.maxWait < 1000) := by
    rw [hpacketTimeout]
    split_ifs with hgt
    · exact ⟨Or.inr, fun hor => hor.elim (fun hlt => BitVec.lt_trans hgt hlt) id⟩
    · refine ⟨Or.inl, fun hor => hor.elim id fun hlt => ?_⟩
      rw [gt_iff_lt, BitVec.lt_def] at hgt
      rw [BitVec.lt_def] at hlt ⊢
      omega
  unfold SingleRTPSessionPool.serveData
  dsimp only
  rw [if_pos h.timeout, ← hpacketTimeout, decide_eq_decide.mpr hcapped]
  have htaken : (object.dataRecvSocket ∈ ready ∧ 0 < n) ↔
      (object.dataRecvSocket ∈ ready ∧ 0 ≤ n) := by
    refine and_congr_right fun hmem => ?_
    rw [if_pos hmem] at hready
    constructor
    · exact le_of_lt
    · intro hn
      have hleft := hready hn
      omega
  refine ⟨?_, ?_, h.sockets, ?_, fun ready' n' todo' heq hn => ?_⟩
  · rw [← Bool.decide_and, decide_eq_decide.mpr htaken]
  · show (if decide _ = true then packetTimeout else 0) < 1000
    split_ifs with hlt
    · exact hcapped.mpr (of_decide_eq_true hlt)
    · decide
  · refine h.nodup.imp (fun hcopy => ?_) id
    rw [hp] at hcopy
    cases hcopy
  · cases heq
    show (q.pending ready todo : ℤ) ≤ _
    by_cases hmem : object.dataRecvSocket ∈ ready
    · rw [if_pos hmem] at hready
      rw [decide_eq_true hmem, if_pos rfl] at hn ⊢
      have hleft := hready (by omega)
      omega
    · rw [if_neg hmem] at hready
      rw [decide_eq_false hmem, if_neg Bool.false_ne_true] at hn ⊢
      have hleft := hready hn
      omega

/-- **The thread** goes on. -/
theorem thread (hsound : q.Sound) {events : List PoolEvent} {inputs : PoolInputs}
    (hselect : q.phase = .select → q.descriptors.Watched ∧ q.Selects inputs)
    (hrun : q.runThread inputs = some (events, q')) : q'.Budget := by
  have hnodup := h.nodup
  have hready := h.ready
  unfold runThread at hrun
  cases hp : q.phase with
  | copy =>
      rw [hp] at hrun
      cases hrun
      exact ⟨h.timeout, h.sockets, Or.inr hsound.nodup, fun _ _ _ heq => by cases heq⟩
  | control todo =>
      rw [hp] at hrun hnodup
      have hcopied := hnodup.resolve_left (by rintro ⟨⟩)
      cases todo with
      | nil =>
          cases hrun
          exact ⟨h.timeout, h.sockets, Or.inr hcopied, fun _ _ _ heq => by cases heq⟩
      | cons a todo =>
          dsimp only at hrun
          obtain ⟨v, -, heq⟩ := Option.map_eq_some_iff.mp hrun
          cases v with
          | none =>
              cases heq
              exact ⟨h.timeout, h.sockets, Or.inr hcopied, fun _ _ _ heq => by cases heq⟩
          | some v =>
              cases heq
              exact ⟨h.timeout, h.sockets, Or.inr hcopied, fun _ _ _ heq => by cases heq⟩
  | rebuild =>
      rw [hp] at hrun hnodup
      have hcopied := hnodup.resolve_left (by rintro ⟨⟩)
      obtain ⟨d, -, heq⟩ := Option.map_eq_some_iff.mp hrun
      cases heq
      exact ⟨h.timeout, h.sockets, Or.inr hcopied, fun _ _ _ heq => by cases heq⟩
  | select =>
      rw [hp] at hrun hnodup
      have hcopied := hnodup.resolve_left (by rintro ⟨⟩)
      cases hrun
      refine ⟨h.timeout, h.sockets, Or.inr hcopied, fun ready n todo heq hn => ?_⟩
      cases heq
      obtain ⟨hwatched, hselects⟩ := hselect hp
      rcases hselects with hfailed | ⟨hsubset, hcounted⟩
      · rw [hfailed] at hn
        exact absurd hn (by decide)
      · have hall : inputs.ready.filter (· < q.descriptors.highestSocket) = inputs.ready :=
          Finset.filter_true_of_mem fun socket hsocket =>
            hwatched.above socket (hsubset hsocket)
        rw [hcounted, hall]
        exact Int.ofNat_le.mpr (h.pending_le_card hsound hcopied inputs.ready)
  | data ready n todo =>
      rw [hp] at hrun hnodup
      have hcopied := hnodup.resolve_left (by rintro ⟨⟩)
      cases todo with
      | nil =>
          cases hrun
          exact ⟨h.timeout, h.sockets, Or.inr hcopied, fun _ _ _ heq => by cases heq⟩
      | cons a todo =>
          have ha : a ∈ q.sessionList := by
            refine hsound.mem_of_todo ?_ ?_
            · rw [hp]
              rintro ⟨⟩
            · rw [hp]
              exact List.mem_cons_self
          dsimp only at hrun
          cases hsession : q.sessionOf a with
          | none =>
              rw [hsound.visit_of_none ha hsession] at hrun
              cases hrun
              refine ⟨h.timeout, h.sockets, Or.inr hcopied, fun _ _ _ heq hn => ?_⟩
              cases heq
              have hleft := hready ready n (a :: todo) hp hn
              rwa [pending_cons_none (by rw [socketOf, hsession, Option.bind_none])] at hleft
          | some s =>
              obtain ⟨object, hobject, hvisit⟩ := hsound.visit_of_some hsession
              rw [hvisit, Option.map_some, Option.some_inj] at hrun
              have hbudget := (h.serveData hp hsession hobject inputs).2
              dsimp only at hrun
              rwa [hrun] at hbudget
  | purge =>
      rw [hp] at hrun
      obtain ⟨kept, hkept, heq⟩ := Option.map_eq_some_iff.mp hrun
      cases heq
      exact ⟨h.timeout, h.sockets, Or.inl rfl, fun _ _ _ heq => by cases heq⟩

end Budget

/-- **Any run** keeps the account of reported sockets. -/
theorem Run.budget {trace : List PoolEvent} (h : Run Reported new trace q) :
    q.Sound ∧ q.Budget := by
  induction h with
  | nil => exact ⟨sound_new, budget_new⟩
  | @step trace events q q' action _ hreported hperform ih =>
      obtain ⟨hsound, hbudget⟩ := ih
      obtain ⟨events', q'', heq, hsound', -⟩ := hsound.perform hreported.1
      rw [hperform, Option.some_inj, Prod.mk.injEq] at heq
      obtain ⟨rfl, rfl⟩ := heq
      refine ⟨hsound', ?_⟩
      by_cases hthread : ∃ inputs, action = .run inputs
      · obtain ⟨inputs, rfl⟩ := hthread
        exact hbudget.thread hsound (hreported.2 inputs rfl) hperform
      · exact hbudget.application hsound hreported.1
          (fun inputs heq => hthread ⟨inputs, heq⟩) hperform

/-- **Every session is served on its own.**  Though the thread counts the reported sockets down over
all sessions and carries a timeout from one session to the next, a session that it visits takes in a
packet exactly if its own socket was reported and `select` has not failed, and sends one exactly if
its own scheduling timeout or its own check interval is below a millisecond.  A socket that `select`
is not told to watch would stay in the set uncounted, and use up the number of another one. -/
theorem session_served_on_its_own {trace : List PoolEvent} {ready : Finset ℕ} {n : ℤ}
    {todo : List ℕ}
    (hrun : Run Reported new trace q) (hp : q.phase = .data ready n (a :: todo))
    (hs : q.sessionOf a = some s) (inputs : PoolInputs) :
    ∃ object q', q.objects s = some object ∧
      q.perform (.run inputs) =
        some ([.dataServed s (decide (object.dataRecvSocket ∈ ready ∧ 0 ≤ n))
        (decide (inputs.schedulingTimeout < 1000 ∨ inputs.maxWait < 1000))], q') := by
  obtain ⟨hsound, hbudget⟩ := hrun.budget
  obtain ⟨object, hobject, hvisit⟩ := hsound.visit_of_some hs
  obtain ⟨hevents, -⟩ := hbudget.serveData hp hs hobject inputs
  refine ⟨object, (q.serveData ready n todo inputs s object).2, hobject, ?_⟩
  unfold SingleRTPSessionPool.perform runThread
  rw [hp]
  dsimp only
  rw [hvisit, Option.map_some, ← hevents]

/-- The second of two sessions, after the first one has been removed. -/
theorem session_served_on_its_own_beforeSecond : ∃ (object : RTPSessionBase)
    (q' : SingleRTPSessionPool), beforeSecond.objects 2 = some object ∧
      beforeSecond.perform (.run ⟨∅, 0, 5000, 0⟩) =
        some ([.dataServed 2 (decide (object.dataRecvSocket ∈ ({9} : Finset ℕ) ∧ (0 : ℤ) ≤ 1))
          true], q') :=
  session_served_on_its_own run_beforeSecond rfl rfl ⟨∅, 0, 5000, 0⟩

end SingleRTPSessionPool
