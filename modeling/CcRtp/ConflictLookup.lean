/-
# Looking up conflicting addresses

Models `ConflictHandler` (`src/incqueue.cpp`, `src/ccrtp/iqueue.h`): the addresses that have been
in conflict with the local source are linked into a list, in the order of `addConflict`.
`searchControlConflict` looks for the end of the list, `searchDataConflict` does not.

* `Lists.addConflict` : what is recorded comes last;
* `search_eq` : a search comes to the earliest entry that passes its test, or to the end;
* `conflict_lookup_iff` : when the searches, and the collisions of the local SSRC that go through
  them, are defined.
-/
import CcRtp.LinkedList
import CcRtp.SourceCollisions

/-! ## The data -/

/-- `ConflictingTransportAddress` with its link and the time of the last packet. -/
structure ConflictNode where
  address : ConflictingTransportAddress
  next : Option ℕ
  lastPacketTime : Timeval

/-- The members of `ConflictHandler`; the next object is made at the address `fresh`. -/
structure ConflictHandler where
  firstConflict : Option ℕ
  lastConflict : Option ℕ
  nodes : Heap ℕ ConflictNode
  fresh : ℕ

namespace ConflictHandler

/-- `ConflictHandler()` -/
def start : ConflictHandler := ⟨none, none, fun _ => none, 0⟩

/-! ## The functions -/

/-- The loop of `searchDataConflict`.  The pointer is followed whether it is null or not. -/
def searchDataLoop (h : ConflictHandler) (na : InetAddress) (dtp : BitVec 16) :
    ℕ → Option ℕ → Option (Option ℕ)
  | 0, _ => none
  | rounds + 1, result =>
      result.bind (fun p => (h.nodes p).bind (fun c =>
        if c.address.networkAddress ≠ na ∨ c.address.dataTransportPort ≠ dtp then
          searchDataLoop h na dtp rounds c.next
        else some (some p)))

/-- `searchDataConflict(na, dtp)` -/
def searchDataConflict (h : ConflictHandler) (rounds : ℕ) (na : InetAddress) (dtp : BitVec 16) :
    Option (Option ℕ) := h.searchDataLoop na dtp rounds h.firstConflict

/-- The loop of `searchControlConflict`, up to a null pointer. -/
def searchControlLoop (h : ConflictHandler) (na : InetAddress) (ctp : BitVec 16) :
    ℕ → Option ℕ → Option (Option ℕ)
  | 0, _ => none
  | _ + 1, none => some none
  | rounds + 1, some p =>
      (h.nodes p).bind (fun c =>
        if c.address.networkAddress ≠ na ∨ c.address.controlTransportPort ≠ ctp then
          searchControlLoop h na ctp rounds c.next
        else some (some p))

/-- `searchControlConflict(na, ctp)` -/
def searchControlConflict (h : ConflictHandler) (rounds : ℕ) (na : InetAddress)
    (ctp : BitVec 16) : Option (Option ℕ) := h.searchControlLoop na ctp rounds h.firstConflict

/-- `updateConflict(ca)` -/
def updateConflict (h : ConflictHandler) (p : ℕ) (now : Timeval) : Option ConflictHandler :=
  (h.nodes.modify p (fun c => { c with lastPacketTime := now })).map (fun nodes =>
    { h with nodes := nodes })

/-- `addConflict(na, dtp, ctp)` -/
def addConflict (h : ConflictHandler) (now : Timeval) (address : ConflictingTransportAddress) :
    Option ConflictHandler :=
  let nc := h.fresh
  let nodes := h.nodes.write nc ⟨address, none, now⟩
  match h.lastConflict with
  | some last =>
      (nodes.modify last (fun c => { c with next := some nc })).map (fun nodes =>
        ⟨h.firstConflict, some nc, nodes, nc + 1⟩)
  | none => some ⟨some nc, some nc, nodes, nc + 1⟩

/-- What a collision of the local SSRC does to the conflicts, after one of the searches: a known
one is updated, and the packet is discarded; for a new one the address of the source is recorded. -/
def localCollision (h : ConflictHandler) (found : Option (Option ℕ)) (now : Timeval)
    (own : ConflictingTransportAddress) : Option (Bool × ConflictHandler) :=
  found.bind (fun
    | some p => (h.updateConflict p now).map (fun h => (false, h))
    | none => (h.addConflict now own).map (fun h => (true, h)))

/-- Calls of `addConflict`, with the times at which they are made. -/
def addConflicts (h : ConflictHandler) :
    List (Timeval × ConflictingTransportAddress) → Option ConflictHandler
  | [] => some h
  | (now, address) :: calls => (h.addConflict now address).bind (fun h => h.addConflicts calls)

/-! ## The list -/

/-- The handler has these entries, each at its place in memory. -/
structure Lists (h : ConflictHandler) (entries : List (ℕ × ConflictingTransportAddress)) :
    Prop where
  linked : Segment (h.nodes.view ConflictNode.next) h.firstConflict (entries.map Prod.fst) none
  last : h.lastConflict = (entries.map Prod.fst).getLast?
  address : ∀ e ∈ entries, h.nodes.view ConflictNode.address e.1 = some e.2
  bound : ∀ e ∈ entries, e.1 < h.fresh
  nodup : (entries.map Prod.fst).Nodup

variable {h : ConflictHandler} {entries : List (ℕ × ConflictingTransportAddress)}

theorem lists_start : start.Lists [] :=
  ⟨rfl, rfl, fun _ he => absurd he List.not_mem_nil, fun _ he => absurd he List.not_mem_nil,
    List.nodup_nil⟩

/-- The next object is none of those in the list. -/
theorem Lists.fresh_notMem (hl : h.Lists entries) : h.fresh ∉ entries.map Prod.fst := by
  intro hmem
  obtain ⟨e, he, heq⟩ := List.mem_map.mp hmem
  exact absurd (hl.bound e he) (by rw [heq]; exact lt_irrefl _)

/-- **What is recorded comes last.** -/
theorem Lists.addConflict (hl : h.Lists entries) (now : Timeval)
    (address : ConflictingTransportAddress) :
    ∃ h', h.addConflict now address = some h' ∧ h'.Lists (entries ++ [(h.fresh, address)]) := by
  have hfresh := hl.fresh_notMem
  have hbound : ∀ e ∈ entries ++ [(h.fresh, address)], e.1 < h.fresh + 1 := by
    intro e he
    rcases List.mem_append.mp he with he | he
    · exact Nat.lt_succ_of_lt (hl.bound e he)
    · rw [List.mem_singleton.mp he]
      exact Nat.lt_succ_self _
  have hnodup : ((entries ++ [(h.fresh, address)]).map Prod.fst).Nodup := by
    rw [List.map_append, List.map_singleton, List.nodup_append]
    refine ⟨hl.nodup, List.nodup_singleton _, ?_⟩
    intro a ha b hb hab
    rw [List.mem_singleton] at hb
    rw [hab, hb] at ha
    exact hfresh ha
  have hlast' : some h.fresh = ((entries ++ [(h.fresh, address)]).map Prod.fst).getLast? := by
    rw [List.map_append, List.map_singleton, List.getLast?_concat]
  have hothers : ∀ e ∈ entries, e.1 ≠ h.fresh := fun e he => (hl.bound e he).ne
  set nodes := h.nodes.write h.fresh ⟨address, none, now⟩ with hnodes
  have hnext : nodes.view ConflictNode.next
      = Function.update (h.nodes.view ConflictNode.next) h.fresh (some none) :=
    Heap.view_write _ _
  have haddress : ∀ e ∈ entries ++ [(h.fresh, address)],
      nodes.view ConflictNode.address e.1 = some e.2 := by
    intro e he
    rw [hnodes, Heap.view_write]
    rcases List.mem_append.mp he with he | he
    · rw [Function.update_of_ne (hothers e he)]
      exact hl.address e he
    · rw [List.mem_singleton.mp he, Function.update_self]
  rw [ConflictHandler.addConflict, ← hnodes]
  cases hlast : h.lastConflict with
  | none =>
      -- the list was empty
      have hnil : entries.map Prod.fst = [] := List.getLast?_eq_none_iff.mp (hl.last ▸ hlast)
      refine ⟨_, rfl, ?_, hlast', haddress, hbound, hnodup⟩
      rw [List.map_append, hnil, hnext]
      exact segment_singleton.mpr ⟨rfl, Function.update_self _ _ _⟩
  | some last =>
      obtain ⟨l, hl'⟩ : ∃ l, entries.map Prod.fst = l ++ [last] :=
        List.getLast?_eq_some_iff.mp (hl.last ▸ hlast)
      have hmem : last ∈ entries.map Prod.fst := hl' ▸ List.mem_concat_self
      have hne : last ≠ h.fresh := fun heq => hfresh (heq ▸ hmem)
      have hseg := hl.linked.update_of_notMem (some none) hfresh
      rw [← hnext, hl'] at hseg
      obtain ⟨c, hc⟩ : ∃ c, nodes last = some c := by
        have hsome := hseg.isSome_of_mem List.mem_concat_self
        rwa [Heap.view, Option.isSome_map, Option.isSome_iff_exists] at hsome
      have hnotMem : last ∉ l := by
        have hdistinct := hl.nodup
        rw [hl', List.nodup_append] at hdistinct
        exact fun hin => hdistinct.2.2 last hin last (List.mem_singleton_self last) rfl
      have hlinked := hseg.redirect (some h.fresh) hnotMem
      refine ⟨⟨h.firstConflict, some h.fresh, nodes.write last { c with next := some h.fresh },
        h.fresh + 1⟩, ?_, ?_, hlast', ?_, hbound, hnodup⟩
      · dsimp only
        rw [Heap.modify, hc]
        rfl
      · rw [List.map_append, List.map_singleton, segment_concat, hl', Heap.view_write]
        refine ⟨hlinked, ?_⟩
        rw [Function.update_of_ne hne.symm, hnext, Function.update_self]
      · have hsame : (nodes.write last { c with next := some h.fresh }).view ConflictNode.address
            = nodes.view ConflictNode.address := Heap.view_write_of_eq hc rfl
        intro e he
        exact hsame ▸ haddress e he

/-- **Every run of `addConflict` calls** gives the list of what was recorded. -/
theorem Lists.addConflicts (calls : List (Timeval × ConflictingTransportAddress)) :
    ∀ {h : ConflictHandler} {entries}, h.Lists entries →
      ∃ h' entries', h.addConflicts calls = some h' ∧ h'.Lists entries' ∧
        entries'.map Prod.snd = entries.map Prod.snd ++ calls.map Prod.snd := by
  induction calls with
  | nil =>
      intro h entries hl
      exact ⟨h, entries, rfl, hl, (List.append_nil _).symm⟩
  | cons call calls ih =>
      intro h entries hl
      obtain ⟨now, address⟩ := call
      obtain ⟨h₁, hadd, hl₁⟩ := hl.addConflict now address
      obtain ⟨h', entries', hrun, hl', hrecorded⟩ := ih hl₁
      refine ⟨h', entries', ?_, hl', ?_⟩
      · rw [ConflictHandler.addConflicts, hadd, Option.bind_some, hrun]
      · rw [hrecorded, List.map_append, List.map_singleton, List.append_assoc, List.map_cons]
        rfl

/-! ## The searches -/

variable {p : Option ℕ} {na : InetAddress} {tp : BitVec 16} {rounds : ℕ}

/-- The object of an entry. -/
theorem exists_node {a : ℕ} {next : Option ℕ} {address : ConflictingTransportAddress}
    (hnext : h.nodes.view ConflictNode.next a = some next)
    (haddress : h.nodes.view ConflictNode.address a = some address) :
    ∃ c, h.nodes a = some c ∧ c.next = next ∧ c.address = address := by
  obtain ⟨c, hc, hc'⟩ := Heap.view_eq_some.mp hnext
  obtain ⟨d, hd, hd'⟩ := Heap.view_eq_some.mp haddress
  rw [hc, Option.some_inj] at hd
  subst hd
  exact ⟨c, hc, hc', hd'⟩

theorem isControlAddress_eq_false_iff {c : ConflictingTransportAddress} :
    QueueRTCPManager.isControlAddress na tp c = false ↔
      c.networkAddress ≠ na ∨ c.controlTransportPort ≠ tp := by
  rw [QueueRTCPManager.isControlAddress, decide_eq_false_iff_not, not_and_or]

theorem isDataAddress_eq_false_iff {c : ConflictingTransportAddress} :
    c.isDataAddress ⟨na, tp⟩ = false ↔ c.networkAddress ≠ na ∨ c.dataTransportPort ≠ tp := by
  rw [ConflictingTransportAddress.isDataAddress, decide_eq_false_iff_not, not_and_or]

/-- **A search along the list** comes to the earliest entry that passes the test, or to the end. -/
theorem search_eq {β : Type*} (test : ConflictingTransportAddress → Bool)
    {loop : ℕ → Option ℕ → β} {missing : β} {hit : ℕ → β}
    (hend : ∀ rounds, loop (rounds + 1) none = missing)
    (hround : ∀ rounds a c, h.nodes a = some c →
      loop (rounds + 1) (some a) = if test c.address = true then hit a else loop rounds c.next)
    (hlinked : Segment (h.nodes.view ConflictNode.next) p (entries.map Prod.fst) none)
    (haddress : ∀ e ∈ entries, h.nodes.view ConflictNode.address e.1 = some e.2)
    (hrounds : entries.length < rounds) :
    loop rounds p = (entries.find? (fun e => test e.2)).elim missing (fun e => hit e.1) := by
  induction entries generalizing p rounds with
  | nil =>
      obtain ⟨rounds, rfl⟩ := Nat.exists_eq_add_one_of_ne_zero (Nat.ne_of_gt hrounds)
      rw [List.map_nil, segment_nil] at hlinked
      rw [hlinked, hend]
      rfl
  | cons e entries ih =>
      obtain ⟨rfl, next, hnext, hrest⟩ := hlinked
      obtain ⟨c, hc, rfl, hc'⟩ := exists_node hnext (haddress e List.mem_cons_self)
      obtain ⟨rounds, rfl⟩ :=
        Nat.exists_eq_add_one_of_ne_zero (Nat.ne_of_gt (Nat.zero_lt_of_lt hrounds))
      rw [hround rounds e.1 c hc, hc']
      split_ifs with htest
      · rw [List.find?_cons_of_pos (by exact htest)]
        rfl
      · rw [List.find?_cons_of_neg (by exact htest)]
        exact ih hrest (fun d hd => haddress d (List.mem_cons_of_mem e hd))
          (Nat.lt_of_succ_lt_succ hrounds)

/-- **The search for a control port** returns the earliest entry, or a null pointer if there is
none. -/
theorem searchControlLoop_eq
    (hlinked : Segment (h.nodes.view ConflictNode.next) p (entries.map Prod.fst) none)
    (haddress : ∀ e ∈ entries, h.nodes.view ConflictNode.address e.1 = some e.2)
    (hrounds : entries.length < rounds) :
    h.searchControlLoop na tp rounds p
      = some ((entries.find? (fun e => QueueRTCPManager.isControlAddress na tp e.2)).map
          Prod.fst) := by
  have hround : ∀ rounds a c, h.nodes a = some c → h.searchControlLoop na tp (rounds + 1) (some a)
      = if QueueRTCPManager.isControlAddress na tp c.address = true then some (some a)
        else h.searchControlLoop na tp rounds c.next := by
    intro rounds a c hc
    rw [searchControlLoop, hc, Option.bind_some]
    cases htest : QueueRTCPManager.isControlAddress na tp c.address with
    | false =>
        rw [if_pos (isControlAddress_eq_false_iff.mp htest), if_neg Bool.false_ne_true]
    | true =>
        rw [if_neg (fun hne => ?_), if_pos rfl]
        rw [isControlAddress_eq_false_iff.mpr hne] at htest
        cases htest
  rw [search_eq (QueueRTCPManager.isControlAddress na tp) (fun _ => rfl) hround hlinked haddress
    hrounds]
  cases entries.find? (fun e => QueueRTCPManager.isControlAddress na tp e.2) with
  | none => rfl
  | some e => rfl

/-- **The search for a data port** returns the earliest entry; if there is none, a null pointer is
followed. -/
theorem searchDataLoop_eq
    (hlinked : Segment (h.nodes.view ConflictNode.next) p (entries.map Prod.fst) none)
    (haddress : ∀ e ∈ entries, h.nodes.view ConflictNode.address e.1 = some e.2)
    (hrounds : entries.length < rounds) :
    h.searchDataLoop na tp rounds p
      = (entries.find? (fun e => e.2.isDataAddress ⟨na, tp⟩)).map (fun e => some e.1) := by
  have hround : ∀ rounds a c, h.nodes a = some c → h.searchDataLoop na tp (rounds + 1) (some a)
      = if c.address.isDataAddress ⟨na, tp⟩ = true then some (some a)
        else h.searchDataLoop na tp rounds c.next := by
    intro rounds a c hc
    rw [searchDataLoop, Option.bind_some, hc, Option.bind_some]
    cases htest : c.address.isDataAddress ⟨na, tp⟩ with
    | false =>
        rw [if_pos (isDataAddress_eq_false_iff.mp htest), if_neg Bool.false_ne_true]
    | true =>
        rw [if_neg (fun hne => ?_), if_pos rfl]
        rw [isDataAddress_eq_false_iff.mpr hne] at htest
        cases htest
  rw [search_eq (fun c => c.isDataAddress ⟨na, tp⟩) (fun _ => rfl) hround hlinked haddress hrounds]
  cases entries.find? (fun e => e.2.isDataAddress ⟨na, tp⟩) with
  | none => rfl
  | some e => rfl

/-- The object of an entry that was found is updated. -/
theorem Lists.updateConflict (hl : h.Lists entries) {a : ℕ} (ha : a ∈ entries.map Prod.fst)
    (now : Timeval) : ∃ h', h.updateConflict a now = some h' ∧ h'.Lists entries := by
  have hsome := hl.linked.isSome_of_mem ha
  rw [Heap.view, Option.isSome_map] at hsome
  obtain ⟨c, hc⟩ := Option.isSome_iff_exists.mp hsome
  refine ⟨{ h with nodes := h.nodes.write a { c with lastPacketTime := now } }, ?_, ?_⟩
  · rw [ConflictHandler.updateConflict, Heap.modify, hc]
    rfl
  · have hnext : (h.nodes.write a { c with lastPacketTime := now }).view ConflictNode.next
        = h.nodes.view ConflictNode.next := Heap.view_write_of_eq hc rfl
    have haddress : (h.nodes.write a { c with lastPacketTime := now }).view ConflictNode.address
        = h.nodes.view ConflictNode.address := Heap.view_write_of_eq hc rfl
    refine ⟨?_, hl.last, ?_, hl.bound, hl.nodup⟩
    · exact hnext ▸ hl.linked
    · exact haddress ▸ hl.address

/-- **A collision is dealt with** as soon as the search has returned. -/
theorem Lists.localCollision (hl : h.Lists entries) (test : ConflictingTransportAddress → Bool)
    (now : Timeval) (own : ConflictingTransportAddress) :
    ∃ r entries', h.localCollision (some ((entries.find? (fun e => test e.2)).map Prod.fst)) now own
      = some r ∧ r.2.Lists entries' := by
  cases hfind : entries.find? (fun e => test e.2) with
  | none =>
      obtain ⟨h', hadd, hl'⟩ := hl.addConflict now own
      refine ⟨(true, h'), _, ?_, hl'⟩
      rw [ConflictHandler.localCollision, Option.map_none, Option.bind_some, hadd, Option.map_some]
  | some e =>
      obtain ⟨h', hupdate, hl'⟩ := hl.updateConflict
        (List.mem_map_of_mem (List.mem_of_find?_eq_some hfind)) now
      refine ⟨(false, h'), entries, ?_, hl'⟩
      rw [ConflictHandler.localCollision, Option.map_some, Option.bind_some]
      dsimp only
      rw [hupdate, Option.map_some]

/-- **The lookups of an address are total**: both searches return, for all numbers of rounds from
some on, the earliest entry with the address, or a null pointer if there is none; and whatever they
return, the collision of the local SSRC is dealt with. -/
structure LookupTotal (h : ConflictHandler) (entries : List (ℕ × ConflictingTransportAddress))
    (addr : SocketAddress) : Prop where
  data : ∃ N, ∀ rounds ≥ N, h.searchDataConflict rounds addr.networkAddress addr.transportPort
    = some ((entries.find? (fun e => e.2.isDataAddress addr)).map Prod.fst)
  control : ∃ N, ∀ rounds ≥ N, h.searchControlConflict rounds addr.networkAddress addr.transportPort
    = some ((entries.find? (fun e => QueueRTCPManager.isControlAddress addr.networkAddress
        addr.transportPort e.2)).map Prod.fst)
  dataCollision : ∀ now own, ∃ N r, ∀ rounds ≥ N, h.localCollision
    (h.searchDataConflict rounds addr.networkAddress addr.transportPort) now own = some r
  controlCollision : ∀ now own, ∃ N r, ∀ rounds ≥ N, h.localCollision
    (h.searchControlConflict rounds addr.networkAddress addr.transportPort) now own = some r

theorem Lists.lookupTotal_iff (hl : h.Lists entries) (addr : SocketAddress) :
    h.LookupTotal entries addr ↔ ∃ c ∈ entries.map Prod.snd, c.isDataAddress addr = true := by
  have hcontrol : ∀ rounds ≥ entries.length + 1,
      h.searchControlConflict rounds addr.networkAddress addr.transportPort
        = some ((entries.find? (fun e => QueueRTCPManager.isControlAddress addr.networkAddress
            addr.transportPort e.2)).map Prod.fst) :=
    fun rounds hrounds => searchControlLoop_eq hl.linked hl.address hrounds
  have hdata : ∀ rounds ≥ entries.length + 1,
      h.searchDataConflict rounds addr.networkAddress addr.transportPort
        = (entries.find? (fun e => e.2.isDataAddress addr)).map (fun e => some e.1) :=
    fun rounds hrounds => searchDataLoop_eq hl.linked hl.address hrounds
  constructor
  · intro htotal
    obtain ⟨N, hN⟩ := htotal.data
    have hreturn := hN (max N (entries.length + 1)) (le_max_left _ _)
    rw [hdata _ (le_max_right _ _)] at hreturn
    cases hfind : entries.find? (fun e => e.2.isDataAddress addr) with
    | none =>
        rw [hfind] at hreturn
        cases hreturn
    | some e =>
        exact ⟨e.2, List.mem_map_of_mem (List.mem_of_find?_eq_some hfind), by
          have htest := List.find?_some hfind
          exact htest⟩
  · rintro ⟨c, hc, htest⟩
    obtain ⟨d, hd, rfl⟩ := List.mem_map.mp hc
    obtain ⟨e, he⟩ : ∃ e, entries.find? (fun e => e.2.isDataAddress addr) = some e := by
      rw [← Option.isSome_iff_exists, List.find?_isSome]
      exact ⟨d, hd, htest⟩
    have hfound : ∀ rounds ≥ entries.length + 1,
        h.searchDataConflict rounds addr.networkAddress addr.transportPort
          = some ((entries.find? (fun e => e.2.isDataAddress addr)).map Prod.fst) := by
      intro rounds hrounds
      rw [hdata rounds hrounds, he]
      rfl
    refine ⟨⟨_, hfound⟩, ⟨_, hcontrol⟩, fun now own => ?_, fun now own => ?_⟩
    · obtain ⟨r, -, hr, -⟩ := hl.localCollision (fun c => c.isDataAddress addr) now own
      refine ⟨entries.length + 1, r, fun rounds hrounds => ?_⟩
      rw [hfound rounds hrounds]
      exact hr
    · obtain ⟨r, -, hr, -⟩ := hl.localCollision (QueueRTCPManager.isControlAddress
        addr.networkAddress addr.transportPort) now own
      refine ⟨entries.length + 1, r, fun rounds hrounds => ?_⟩
      rw [hcontrol rounds hrounds]
      exact hr

end ConflictHandler

/-! ## Collisions of the local SSRC -/

section Collisions

variable {h : ConflictHandler} {entries : List (ℕ × ConflictingTransportAddress)} {rounds : ℕ}

/-- The first address of a list that passes a test, and its entry. -/
theorem find?_map_snd (test : ConflictingTransportAddress → Bool)
    (entries : List (ℕ × ConflictingTransportAddress)) :
    (entries.map Prod.snd).find? test = (entries.find? (fun e => test e.2)).map Prod.snd := by
  rw [List.find?_map]
  rfl

theorem searchDataConflict_eq_find? (addr : SocketAddress) (l : List ConflictingTransportAddress) :
    searchDataConflict addr l = (l.find? (fun c => c.isDataAddress addr)).map some := by
  induction l with
  | nil => rfl
  | cons c l ih =>
      rw [searchDataConflict]
      cases htest : c.isDataAddress addr with
      | false =>
          rw [if_neg Bool.false_ne_true, List.find?_cons_of_neg (by
            rw [htest]
            exact Bool.false_ne_true), ih]
      | true =>
          rw [if_pos rfl, List.find?_cons_of_pos (by exact htest)]
          rfl

/-- The address of an entry that was found. -/
theorem ConflictHandler.Lists.view_of_find? (hl : h.Lists entries)
    (test : ConflictingTransportAddress → Bool) :
    ((entries.find? (fun e => test e.2)).map Prod.fst).bind (h.nodes.view ConflictNode.address)
      = (entries.map Prod.snd).find? test := by
  rw [find?_map_snd]
  cases hfind : entries.find? (fun e => test e.2) with
  | none => rfl
  | some e => exact hl.address e (List.mem_of_find?_eq_some hfind)

/-- **The search in memory finds what the search in the list finds**, for data packets … -/
theorem searchDataConflict_refined (hl : h.Lists entries) (addr : SocketAddress)
    (hrounds : entries.length < rounds) :
    (h.searchDataConflict rounds addr.networkAddress addr.transportPort).map
        (fun r => r.bind (h.nodes.view ConflictNode.address))
      = searchDataConflict addr (entries.map Prod.snd) := by
  rw [ConflictHandler.searchDataConflict,
    ConflictHandler.searchDataLoop_eq hl.linked hl.address hrounds, searchDataConflict_eq_find?,
    ← hl.view_of_find?]
  cases hfind : entries.find? (fun e => e.2.isDataAddress addr) with
  | none => rfl
  | some e =>
      show some (h.nodes.view ConflictNode.address e.1)
        = (h.nodes.view ConflictNode.address e.1).map some
      rw [hl.address e (List.mem_of_find?_eq_some hfind)]
      rfl

/-- … and for control packets. -/
theorem searchControlConflict_refined (hl : h.Lists entries) {m : QueueRTCPManager}
    (hm : m.conflicts = entries.map Prod.snd) (na : InetAddress) (tp : BitVec 16)
    (hrounds : entries.length < rounds) :
    (h.searchControlConflict rounds na tp).map
        (fun r => r.bind (h.nodes.view ConflictNode.address))
      = some (m.searchControlConflict na tp) := by
  rw [ConflictHandler.searchControlConflict,
    ConflictHandler.searchControlLoop_eq hl.linked hl.address hrounds, Option.map_some,
    hl.view_of_find?, ← hm]
  rfl

/-- **The check of a data packet**, when the local SSRC is heard from another address, returns if
and only if the address is in the list. -/
theorem IncomingSources.checkSSRC_isSome_iff {n : ℕ} [NeZero n] (random32 : ℕ → BitVec 32)
    {q : IncomingSources n} {a : ℕ} {sl : SyncSourceLink} (hsl : q.table.links a = some sl)
    (hid : sl.id = q.localSSRC) (isNew : Bool) {addr : SocketAddress}
    (hdiffers : sl.dataAddress ≠ addr) :
    (q.checkSSRCInIncomingRTPPkt random32 a isNew addr).isSome = true ↔
      ∃ c ∈ q.conflicts, c.isDataAddress addr = true := by
  rw [checkSSRCInIncomingRTPPkt, hsl, Option.bind_some, if_neg (fun h => h.2 hid),
    if_pos (differs_iff.mpr hdiffers), if_neg (not_not.mpr hid), searchDataConflict_eq_find?,
    ← List.find?_isSome]
  cases q.conflicts.find? (fun c => c.isDataAddress addr) with
  | none => exact Iff.rfl
  | some c => exact Iff.rfl

end Collisions

/-- **Conflict lookup, exactly.**  After every run of `addConflict` calls, the list holds what was
recorded, in that order, and for every address: the lookups are total if and only if the address
has been recorded with that data port.  In a queue with this list, `checkSSRCInIncomingRTPPkt` is
defined for a packet with the local SSRC from another address exactly then; in a manager with this
list, `checkSSRCInRTCPPkt` always is. -/
theorem conflict_lookup_iff (calls : List (Timeval × ConflictingTransportAddress))
    (addr : SocketAddress) :
    ∃ h entries, ConflictHandler.start.addConflicts calls = some h ∧ h.Lists entries ∧
      entries.map Prod.snd = calls.map Prod.snd ∧
      (h.LookupTotal entries addr ↔ ∃ c ∈ calls.map Prod.snd, c.isDataAddress addr = true) ∧
      (∀ (n : ℕ) [NeZero n] (random32 : ℕ → BitVec 32) (q : IncomingSources n) (a : ℕ)
        (sl : SyncSourceLink) (isNew : Bool), q.conflicts = calls.map Prod.snd →
        q.table.links a = some sl → sl.id = q.localSSRC → sl.dataAddress ≠ addr →
        ((q.checkSSRCInIncomingRTPPkt random32 a isNew addr).isSome = true ↔
          ∃ c ∈ calls.map Prod.snd, c.isDataAddress addr = true)) ∧
      (∀ (random32 : ℕ → BitVec 32) (m : QueueRTCPManager), m.conflicts = calls.map Prod.snd →
        (∃ N, ∀ rounds ≥ N,
          (h.searchControlConflict rounds addr.networkAddress addr.transportPort).map
              (fun r => r.bind (h.nodes.view ConflictNode.address))
            = some (m.searchControlConflict addr.networkAddress addr.transportPort)) ∧
        (m.IsNewCollision addr → (m.newCollision random32 addr).isSome = true)) := by
  obtain ⟨h, entries, hrun, hl, hrecorded⟩ :=
    ConflictHandler.Lists.addConflicts calls ConflictHandler.lists_start
  rw [List.map_nil, List.nil_append] at hrecorded
  refine ⟨h, entries, hrun, hl, hrecorded, ?_, ?_, ?_⟩
  · rw [hl.lookupTotal_iff, hrecorded]
  · intro n _ random32 q a sl isNew hq hsl hid hdiffers
    rw [IncomingSources.checkSSRC_isSome_iff random32 hsl hid isNew hdiffers, hq]
  · intro random32 m hm
    refine ⟨⟨entries.length + 1, fun rounds hrounds => ?_⟩, fun hnew => ?_⟩
    · exact searchControlConflict_refined hl (hm.trans hrecorded.symm) _ _ hrounds
    · rw [m.checkSSRCInRTCPPkt_of_newCollision random32 false hnew]
      rfl

/-- **Without recorded addresses** the search for a data port follows a null pointer. -/
theorem empty_list_search_undefined :
    ConflictHandler.start.addConflicts [] = some ConflictHandler.start ∧
      (∀ rounds, ConflictHandler.start.searchDataConflict rounds 2 5004 = none) ∧
      ¬ ConflictHandler.start.LookupTotal [] ⟨2, 5004⟩ := by
  refine ⟨rfl, fun rounds => ?_, fun htotal => ?_⟩
  · cases rounds with
    | zero => rfl
    | succ rounds => rfl
  · obtain ⟨c, hc, -⟩ := (ConflictHandler.lists_start.lookupTotal_iff ⟨2, 5004⟩).mp htotal
    exact absurd hc List.not_mem_nil
