/-
# Objects in memory and the lists they form

A heap maps addresses to objects; `none` stands for memory that holds no object, because
none was made there or because it was deleted.  Access to such memory has no outcome, so
operations that follow a pointer are partial.

`Segment link p l q` says that from the pointer `p` on, the links lead through the objects
`l`, one after the other, to the pointer `q`.

* `segment_append`, `segment_concat` : segments are cut and joined;
* `Segment.update_of_notMem`, `Segment.redirect` : what an assignment to one link does;
* `Segment.unique`, `Segment.walk_eq` : the pointers determine the list;
* `Piece` : a piece of a list linked in both directions, with `Piece.insert` and
  `Piece.remove`;
* `DoublyLinked` : a whole such list, with `DoublyLinked.push_back` and
  `DoublyLinked.pop_front`.
-/
import Mathlib

/-- Memory that holds objects at some addresses. -/
abbrev Heap (α N : Type*) := α → Option N

namespace Heap

variable {α N β : Type*} [DecidableEq α] (h : Heap α N) (a : α)

/-- An object is put at an address, in place of what was there. -/
def write (n : N) : Heap α N := Function.update h a (some n)

/-- An object is changed in place; without one there is no outcome. -/
def modify (f : N → N) : Option (Heap α N) := (h a).map (fun n => h.write a (f n))

/-- An object is deleted. -/
def delete : Heap α N := Function.update h a none

omit [DecidableEq α] in
/-- One member of all the objects. -/
def view (g : N → β) : α → Option β := fun a => (h a).map g

variable {h a}

omit [DecidableEq α] in
theorem view_eq_some {g : N → β} {v : β} : h.view g a = some v ↔ ∃ n, h a = some n ∧ g n = v :=
  Option.map_eq_some_iff

omit [DecidableEq α] in
theorem view_eq_none {g : N → β} : h.view g a = none ↔ h a = none := Option.map_eq_none_iff

theorem modify_eq_some {f : N → N} {h' : Heap α N} :
    h.modify a f = some h' ↔ ∃ n, h a = some n ∧ h' = h.write a (f n) := by
  rw [modify, Option.map_eq_some_iff]
  exact exists_congr (fun n => and_congr_right (fun _ => eq_comm))

@[simp] theorem write_self (n : N) : h.write a n a = some n := Function.update_self ..

theorem write_of_ne {b : α} (hne : b ≠ a) (n : N) : h.write a n b = h b :=
  Function.update_of_ne hne ..

/-- Writing an object over itself. -/
theorem write_eq_self {n : N} (hn : h a = some n) : h.write a n = h :=
  Function.update_eq_self_iff.mpr hn.symm

/-- Objects that are there stay there. -/
theorem isSome_write {b : α} (n : N) (hb : (h b).isSome = true) :
    (h.write a n b).isSome = true := by
  by_cases hba : b = a
  · rw [hba, write_self]
    rfl
  · rwa [write_of_ne hba]

/-- Objects that are there were there before, or have just been put there. -/
theorem eq_or_isSome_of_write {b : α} {n : N} (hb : (h.write a n b).isSome = true) :
    b = a ∨ (h b).isSome = true := by
  by_cases hba : b = a
  · exact Or.inl hba
  · rw [write_of_ne hba] at hb
    exact Or.inr hb

@[simp] theorem delete_self : h.delete a a = none := Function.update_self ..

theorem delete_of_ne {b : α} (hne : b ≠ a) : h.delete a b = h b := Function.update_of_ne hne ..

/-- The objects of a list, without the first of them. -/
theorem mem_of_isSome_delete {b : α} {l : List α} (howned : ∀ c, (h c).isSome = true → c ∈ a :: l)
    (hb : (h.delete a b).isSome = true) : b ∈ l := by
  have hne : b ≠ a := by
    rintro rfl
    rw [delete_self] at hb
    cases hb
  rw [delete_of_ne hne] at hb
  exact (List.mem_cons.mp (howned b hb)).resolve_left hne

/-- The member of the written object changes, that of the others does not. -/
theorem view_write (g : N → β) (n : N) :
    (h.write a n).view g = Function.update (h.view g) a (some (g n)) := by
  funext b
  by_cases hb : b = a
  · subst hb
    simp [view]
  · rw [view, write_of_ne hb, Function.update_of_ne hb]
    rfl

theorem view_delete (g : N → β) :
    (h.delete a).view g = Function.update (h.view g) a none := by
  funext b
  by_cases hb : b = a
  · subst hb
    simp [view]
  · rw [view, delete_of_ne hb, Function.update_of_ne hb]
    rfl

/-- A member that keeps its value. -/
theorem view_write_of_eq {g : N → β} {n n' : N} (hn : h a = some n) (hg : g n' = g n) :
    (h.write a n').view g = h.view g := by
  rw [view_write, hg]
  refine Function.update_eq_self_iff.mpr ?_
  rw [view, hn]
  rfl

end Heap

/-! ## Segments -/

/-- A list of addresses below a bound that repeats none of them. -/
theorem length_le_of_nodup_of_lt {l : List ℕ} {n : ℕ} (hnodup : l.Nodup) (hlt : ∀ a ∈ l, a < n) :
    l.length ≤ n := by
  have hsub : l ⊆ List.range n := fun a ha => List.mem_range.mpr (hlt a ha)
  have hle := (hnodup.subperm hsub).length_le
  rwa [List.length_range] at hle

section Segments

variable {α : Type*}

/-- From `p` the links lead through the objects `l` to `q`. -/
def Segment (link : α → Option (Option α)) : Option α → List α → Option α → Prop
  | p, [], q => p = q
  | p, a :: l, q => p = some a ∧ ∃ p', link a = some p' ∧ Segment link p' l q

variable {link link' : α → Option (Option α)} {p q r : Option α} {a : α} {l l₁ l₂ : List α}

@[simp] theorem segment_nil : Segment link p [] q ↔ p = q := Iff.rfl

theorem segment_cons :
    Segment link p (a :: l) q ↔ p = some a ∧ ∃ p', link a = some p' ∧ Segment link p' l q :=
  Iff.rfl

/-- Two pieces, one behind the other. -/
theorem segment_append :
    Segment link p (l₁ ++ l₂) r ↔ ∃ q, Segment link p l₁ q ∧ Segment link q l₂ r := by
  induction l₁ generalizing p with
  | nil => simp
  | cons a l₁ ih =>
      rw [List.cons_append, segment_cons]
      constructor
      · rintro ⟨rfl, p', hp', hrest⟩
        obtain ⟨q, h₁, h₂⟩ := ih.mp hrest
        exact ⟨q, ⟨rfl, p', hp', h₁⟩, h₂⟩
      · rintro ⟨q, ⟨rfl, p', hp', h₁⟩, h₂⟩
        exact ⟨rfl, p', hp', ih.mpr ⟨q, h₁, h₂⟩⟩

theorem segment_singleton : Segment link p [a] q ↔ p = some a ∧ link a = some q := by
  rw [segment_cons]
  constructor
  · rintro ⟨rfl, p', hp', rfl⟩
    exact ⟨rfl, hp'⟩
  · rintro ⟨rfl, hq⟩
    exact ⟨rfl, q, hq, rfl⟩

/-- The last object links to the end. -/
theorem segment_concat :
    Segment link p (l ++ [a]) q ↔ Segment link p l (some a) ∧ link a = some q := by
  rw [segment_append]
  constructor
  · rintro ⟨r, h₁, h₂⟩
    obtain ⟨rfl, hq⟩ := segment_singleton.mp h₂
    exact ⟨h₁, hq⟩
  · rintro ⟨h₁, hq⟩
    exact ⟨some a, h₁, segment_singleton.mpr ⟨rfl, hq⟩⟩

namespace Segment

theorem append (h₁ : Segment link p l₁ q) (h₂ : Segment link q l₂ r) :
    Segment link p (l₁ ++ l₂) r := segment_append.mpr ⟨q, h₁, h₂⟩

/-- Only the links of the listed objects matter. -/
theorem congr (heq : ∀ a ∈ l, link' a = link a) (h : Segment link p l q) :
    Segment link' p l q := by
  induction l generalizing p with
  | nil => exact h
  | cons a l ih =>
      obtain ⟨rfl, p', hp', hrest⟩ := h
      refine ⟨rfl, p', ?_, ih (fun b hb => heq b (List.mem_cons_of_mem a hb)) hrest⟩
      rw [heq a List.mem_cons_self, hp']

/-- Listed objects are there. -/
theorem isSome_of_mem (h : Segment link p l q) (ha : a ∈ l) : (link a).isSome = true := by
  induction l generalizing p with
  | nil => cases ha
  | cons b l ih =>
      obtain ⟨-, p', hp', hrest⟩ := h
      rcases List.mem_cons.mp ha with rfl | ha
      · rw [hp']
        rfl
      · exact ih hrest ha

/-- A list that ends at the null pointer starts at its first object. -/
theorem eq_head? (h : Segment link p l none) : p = l.head? := by
  cases l with
  | nil => exact h
  | cons a l => exact h.1

/-- **A loop along the links**, with a bound on its rounds: what holds at the end of a list,
and at an object when it holds behind it, holds of the whole list. -/
theorem loop_induction {motive : ℕ → Option α → List α → Prop}
    (nil : ∀ rounds, motive rounds none [])
    (cons : ∀ rounds a p l, link a = some p → motive rounds p l →
      motive (rounds + 1) (some a) (a :: l))
    {rounds : ℕ} (h : Segment link p l none) (hlen : l.length ≤ rounds) : motive rounds p l := by
  induction l generalizing rounds p with
  | nil =>
      rw [segment_nil] at h
      subst h
      exact nil rounds
  | cons a l ih =>
      obtain ⟨rfl, p', hp', hrest⟩ := h
      cases rounds with
      | zero => cases hlen
      | succ rounds =>
          exact cons rounds a p' l hp' (ih hrest (Nat.le_of_succ_le_succ hlen))

/-- **The pointers determine the list.** -/
theorem unique (h₁ : Segment link p l₁ none) (h₂ : Segment link p l₂ none) : l₁ = l₂ := by
  induction l₁ generalizing p l₂ with
  | nil =>
      cases l₂ with
      | nil => rfl
      | cons b l₂ => cases h₁.symm.trans h₂.1
  | cons a l₁ ih =>
      obtain ⟨rfl, p₁, hp₁, hrest₁⟩ := h₁
      cases l₂ with
      | nil => cases h₂
      | cons b l₂ =>
          obtain ⟨heq, p₂, hp₂, hrest₂⟩ := h₂
          cases heq
          rw [hp₁, Option.some_inj] at hp₂
          subst hp₂
          rw [ih hrest₁ hrest₂]

/-- They determine where it ends, too. -/
theorem end_unique (h₁ : Segment link p l q) (h₂ : Segment link p l r) : q = r := by
  induction l generalizing p with
  | nil => exact h₁.symm.trans h₂
  | cons a l ih =>
      obtain ⟨-, p₁, hp₁, hrest₁⟩ := h₁
      obtain ⟨-, p₂, hp₂, hrest₂⟩ := h₂
      rw [hp₁, Option.some_inj] at hp₂
      subst hp₂
      exact ih hrest₁ hrest₂

variable [DecidableEq α]

/-- The link of an object outside the list does not matter. -/
theorem update_of_notMem (v : Option (Option α)) (ha : a ∉ l) (h : Segment link p l q) :
    Segment (Function.update link a v) p l q := by
  refine h.congr (fun b hb => Function.update_of_ne ?_ ..)
  rintro rfl
  exact ha hb

/-- The link of the last object is turned to another end. -/
theorem redirect (r : Option α) (ha : a ∉ l) (h : Segment link p (l ++ [a]) q) :
    Segment (Function.update link a (some r)) p (l ++ [a]) r := by
  rw [segment_concat] at h ⊢
  exact ⟨h.1.update_of_notMem _ ha, Function.update_self ..⟩

/-- An object linked to the front of a list. -/
theorem cons_update (ha : a ∉ l) (h : Segment link p l q) :
    Segment (Function.update link a (some p)) (some a) (a :: l) q :=
  ⟨rfl, p, Function.update_self .., h.update_of_notMem _ ha⟩

end Segment

/-! ## Lists linked in both directions -/

/-- What is before a list does not matter to its end. -/
theorem getLast?_or_of_ne_nil (hl : l ≠ []) (p r : Option α) :
    l.getLast?.or p = l.getLast?.or r := by
  obtain ⟨l', a, rfl⟩ := (List.eq_nil_or_concat' l).resolve_left hl
  rw [List.getLast?_concat]
  rfl

/-- A piece of such a list: forwards the objects `l` are linked from `first` to what is
behind them, and backwards from `last` to what is before them. -/
structure Piece (next prev : α → Option (Option α)) (before first last after : Option α)
    (l : List α) : Prop where
  forward : Segment next first l after
  backward : Segment prev last l.reverse before

section Pieces

variable {next prev next' prev' : α → Option (Option α)}
  {before first last after : Option α} {b : α}

/-- Two pieces, one behind the other. -/
theorem piece_append : Piece next prev before first last after (l₁ ++ l₂) ↔
    ∃ q r, Piece next prev before first q r l₁ ∧ Piece next prev q r last after l₂ := by
  constructor
  · rintro ⟨hforward, hbackward⟩
    rw [List.reverse_append] at hbackward
    obtain ⟨r, hf₁, hf₂⟩ := segment_append.mp hforward
    obtain ⟨q, hb₂, hb₁⟩ := segment_append.mp hbackward
    exact ⟨q, r, ⟨hf₁, hb₁⟩, ⟨hf₂, hb₂⟩⟩
  · rintro ⟨q, r, ⟨hf₁, hb₁⟩, ⟨hf₂, hb₂⟩⟩
    refine ⟨hf₁.append hf₂, ?_⟩
    rw [List.reverse_append]
    exact hb₂.append hb₁

theorem piece_nil : Piece next prev before first last after [] ↔ first = after ∧ last = before :=
  ⟨fun h => ⟨h.forward, h.backward⟩, fun h => ⟨h.1, h.2⟩⟩

theorem piece_singleton : Piece next prev before first last after [a] ↔
    first = some a ∧ last = some a ∧ next a = some after ∧ prev a = some before := by
  constructor
  · rintro ⟨hforward, hbackward⟩
    obtain ⟨hfirst, hnext⟩ := segment_singleton.mp hforward
    obtain ⟨hlast, hprev⟩ := segment_singleton.mp hbackward
    exact ⟨hfirst, hlast, hnext, hprev⟩
  · rintro ⟨hfirst, hlast, hnext, hprev⟩
    exact ⟨segment_singleton.mpr ⟨hfirst, hnext⟩, segment_singleton.mpr ⟨hlast, hprev⟩⟩

/-- The first object of a piece. -/
theorem piece_cons : Piece next prev before first last after (a :: l) ↔
    ∃ r, first = some a ∧ next a = some r ∧ prev a = some before ∧
      Piece next prev (some a) r last after l := by
  rw [← List.singleton_append, piece_append]
  constructor
  · rintro ⟨q, r, hone, hrest⟩
    obtain ⟨hfirst, rfl, hnext, hprev⟩ := piece_singleton.mp hone
    exact ⟨r, hfirst, hnext, hprev, hrest⟩
  · rintro ⟨r, hfirst, hnext, hprev, hrest⟩
    exact ⟨some a, r, piece_singleton.mpr ⟨hfirst, rfl, hnext, hprev⟩, hrest⟩

/-- The link of the object at `p`, if there is one, is set. -/
def relink [DecidableEq α] (link : α → Option (Option α)) (p v : Option α) :
    α → Option (Option α) :=
  p.elim link (fun a => Function.update link a (some v))

theorem relink_of_ne [DecidableEq α] {p v : Option α} (h : p ≠ some a) :
    relink link p v a = link a := by
  cases p with
  | none => rfl
  | some b =>
      refine Function.update_of_ne ?_ ..
      rintro rfl
      exact h rfl

namespace Piece

/-- Only the links of the listed objects matter. -/
theorem congr (hnext : ∀ a ∈ l, next' a = next a) (hprev : ∀ a ∈ l, prev' a = prev a)
    (h : Piece next prev before first last after l) :
    Piece next' prev' before first last after l :=
  ⟨h.forward.congr hnext, h.backward.congr (fun a ha => hprev a (List.mem_reverse.mp ha))⟩

/-- The ends of a piece with objects in it. -/
theorem first_eq (h : Piece next prev before first last after (a :: l)) : first = some a :=
  h.forward.1

theorem first_eq_or (h : Piece next prev before first last after l) : first = l.head?.or after := by
  cases l with
  | nil => exact (piece_nil.mp h).1
  | cons a l => exact h.first_eq

theorem last_eq (h : Piece next prev before first last after (l ++ [a])) : last = some a := by
  have hback := h.backward
  rw [List.reverse_append, List.reverse_singleton, List.singleton_append] at hback
  exact hback.1

theorem last_eq_or (h : Piece next prev before first last after l) :
    last = l.getLast?.or before := by
  obtain rfl | ⟨l', a, rfl⟩ := List.eq_nil_or_concat' l
  · exact (piece_nil.mp h).2
  · rw [h.last_eq, List.getLast?_concat]
    rfl

/-- What an object of the piece links to. -/
theorem links_of_mem (h : Piece next prev before first last after (l₁ ++ a :: l₂)) :
    next a = some (l₂.head?.or after) ∧ prev a = some (l₁.getLast?.or before) := by
  obtain ⟨q, r, h₁, h₂⟩ := piece_append.mp h
  obtain ⟨r', -, hnext, hprev, hrest⟩ := piece_cons.mp h₂
  rw [hnext, hprev, hrest.first_eq_or, h₁.last_eq_or]
  exact ⟨rfl, rfl⟩

variable [DecidableEq α]

/-- The piece is turned to another end. -/
theorem redirect_after (r : Option α) (ha : a ∉ l)
    (h : Piece next prev before first last after (l ++ [a])) :
    Piece (Function.update next a (some r)) prev before first last r (l ++ [a]) :=
  ⟨h.forward.redirect r ha, h.backward⟩

/-- The piece is turned to another beginning. -/
theorem redirect_before (r : Option α) (ha : a ∉ l)
    (h : Piece next prev before first last after (a :: l)) :
    Piece next (Function.update prev a (some r)) r first last after (a :: l) := by
  refine ⟨h.forward, ?_⟩
  have hback := h.backward
  rw [List.reverse_cons] at hback ⊢
  exact hback.redirect r (fun hmem => ha (List.mem_reverse.mp hmem))

/-- The last object of the piece, if there is one, is turned to another end. -/
theorem relink_after (r : Option α) (hnodup : l.Nodup)
    (h : Piece next prev before first last after l) :
    Piece (relink next l.getLast? r) prev before (l.head?.or r) last r l := by
  obtain rfl | ⟨l', c, rfl⟩ := List.eq_nil_or_concat' l
  · exact piece_nil.mpr ⟨rfl, (piece_nil.mp h).2⟩
  · have hc : c ∉ l' := fun hc => (List.nodup_append.mp hnodup).2.2 c hc c List.mem_cons_self rfl
    have hfirst : first = (l' ++ [c]).head?.or r := by
      cases l' with
      | nil => exact h.first_eq
      | cons b l' => exact h.first_eq
    rw [List.getLast?_concat, relink, Option.elim_some, ← hfirst]
    exact h.redirect_after r hc

/-- The first object of the piece, if there is one, is turned to another beginning. -/
theorem relink_before (r : Option α) (hnodup : l.Nodup)
    (h : Piece next prev before first last after l) :
    Piece next (relink prev l.head? r) r first (l.getLast?.or r) after l := by
  cases l with
  | nil => exact piece_nil.mpr ⟨(piece_nil.mp h).1, rfl⟩
  | cons c l =>
      have hlast : last = (c :: l).getLast?.or r := by
        obtain hnil | ⟨l', b, hl⟩ := List.eq_nil_or_concat' (c :: l)
        · cases hnil
        · rw [hl] at h ⊢
          rw [List.getLast?_concat]
          exact h.last_eq
      rw [List.head?_cons, relink, Option.elim_some, ← hlast]
      exact h.redirect_before r (List.nodup_cons.mp hnodup).1

/-- The same, for other links that are so turned. -/
theorem retarget_after {r : Option α} (hnodup : l.Nodup)
    (h : Piece next prev before first last after l)
    (hlast : ∀ c ∈ l.getLast?, next' c = some r)
    (hnext : ∀ c ∈ l, c ∉ l.getLast? → next' c = next c) (hprev : ∀ c ∈ l, prev' c = prev c) :
    Piece next' prev' before (l.head?.or r) last r l := by
  refine (h.relink_after r hnodup).congr ?_ hprev
  intro c hc
  by_cases hcl : c ∈ l.getLast?
  · rw [hlast c hcl, Option.mem_def.mp hcl, relink, Option.elim_some, Function.update_self]
  · rw [hnext c hc hcl, relink_of_ne hcl]

theorem retarget_before {r : Option α} (hnodup : l.Nodup)
    (h : Piece next prev before first last after l)
    (hhead : ∀ c ∈ l.head?, prev' c = some r)
    (hprev : ∀ c ∈ l, c ∉ l.head? → prev' c = prev c) (hnext : ∀ c ∈ l, next' c = next c) :
    Piece next' prev' r first (l.getLast?.or r) after l := by
  refine (h.relink_before r hnodup).congr hnext ?_
  intro c hc
  by_cases hcl : c ∈ l.head?
  · rw [hhead c hcl, Option.mem_def.mp hcl, relink, Option.elim_some, Function.update_self]
  · rw [hprev c hc hcl, relink_of_ne hcl]

/-- **An object is put in**: those before it and behind it link to it. -/
theorem insert (hnodup : (l₁ ++ l₂).Nodup) (h : Piece next prev before first last after (l₁ ++ l₂))
    (hlast : ∀ c ∈ l₁.getLast?, next' c = some (some a))
    (hhead : ∀ c ∈ l₂.head?, prev' c = some (some a))
    (hnexta : next' a = some (l₂.head?.or after)) (hpreva : prev' a = some (l₁.getLast?.or before))
    (hnext : ∀ c ∈ l₁ ++ l₂, c ∉ l₁.getLast? → next' c = next c)
    (hprev : ∀ c ∈ l₁ ++ l₂, c ∉ l₂.head? → prev' c = prev c) :
    Piece next' prev' before (l₁.head?.or (some a)) (l₂.getLast?.or (some a)) after
      (l₁ ++ a :: l₂) := by
  obtain ⟨hn₁, hn₂, hdisj⟩ := List.nodup_append.mp hnodup
  obtain ⟨q, r, h₁, h₂⟩ := piece_append.mp h
  have hpiece₁ : Piece next' prev' before (l₁.head?.or (some a)) q (some a) l₁ :=
    h₁.retarget_after hn₁ hlast (fun c hc => hnext c (List.mem_append_left _ hc))
      (fun c hc => hprev c (List.mem_append_left _ hc)
        (fun hc' => hdisj c hc c (List.mem_of_mem_head? hc') rfl))
  have hpiece₂ : Piece next' prev' (some a) r (l₂.getLast?.or (some a)) after l₂ :=
    h₂.retarget_before hn₂ hhead (fun c hc => hprev c (List.mem_append_right _ hc))
      (fun c hc => hnext c (List.mem_append_right _ hc)
        (fun hc' => hdisj c (List.mem_of_mem_getLast? hc') c hc rfl))
  have hq : q = l₁.getLast?.or before := h₁.last_eq_or
  have hr : r = l₂.head?.or after := h₂.first_eq_or
  refine piece_append.mpr ⟨q, some a, hpiece₁, piece_cons.mpr ⟨r, rfl, ?_, ?_, hpiece₂⟩⟩
  · rw [hnexta, hr]
  · rw [hpreva, hq]

/-- **An object is taken out**: those before it and behind it link to each other. -/
theorem remove (hnodup : (l₁ ++ a :: l₂).Nodup)
    (h : Piece next prev before first last after (l₁ ++ a :: l₂))
    (hlast : ∀ c ∈ l₁.getLast?, next' c = some (l₂.head?.or after))
    (hhead : ∀ c ∈ l₂.head?, prev' c = some (l₁.getLast?.or before))
    (hnext : ∀ c ∈ l₁ ++ l₂, c ∉ l₁.getLast? → next' c = next c)
    (hprev : ∀ c ∈ l₁ ++ l₂, c ∉ l₂.head? → prev' c = prev c) :
    Piece next' prev' before ((l₁ ++ l₂).head?.or after) ((l₁ ++ l₂).getLast?.or before) after
      (l₁ ++ l₂) := by
  rw [List.nodup_append, List.nodup_cons] at hnodup
  obtain ⟨hn₁, ⟨-, hn₂⟩, hdisj⟩ := hnodup
  have hother : ∀ b ∈ l₁, ∀ c ∈ l₂, b ≠ c :=
    fun b hb c hc => hdisj b hb c (List.mem_cons_of_mem a hc)
  obtain ⟨q, r, h₁, hrest⟩ := piece_append.mp h
  obtain ⟨r', -, -, -, h₂⟩ := piece_cons.mp hrest
  have hpiece₁ : Piece next' prev' before (l₁.head?.or (l₂.head?.or after)) q
      (l₂.head?.or after) l₁ :=
    h₁.retarget_after hn₁ hlast (fun c hc => hnext c (List.mem_append_left _ hc))
      (fun c hc => hprev c (List.mem_append_left _ hc)
        (fun hc' => hother c hc c (List.mem_of_mem_head? hc') rfl))
  have hpiece₂ : Piece next' prev' (l₁.getLast?.or before) r'
      (l₂.getLast?.or (l₁.getLast?.or before))
      after l₂ :=
    h₂.retarget_before hn₂ hhead (fun c hc => hprev c (List.mem_append_right _ hc))
      (fun c hc => hnext c (List.mem_append_right _ hc)
        (fun hc' => hother c (List.mem_of_mem_getLast? hc') c hc rfl))
  rw [h₁.last_eq_or] at hpiece₁
  rw [h₂.first_eq_or] at hpiece₂
  rw [List.head?_append, List.getLast?_append, Option.or_assoc, Option.or_assoc]
  exact piece_append.mpr ⟨_, _, hpiece₁, hpiece₂⟩

end Piece

end Pieces

/-- Links that all objects have. -/
def follow (f : α → Option α) : α → Option (Option α) := fun a => some (f a)

theorem follow_apply (f : α → Option α) (a : α) : follow f a = some (f a) := rfl

/-- The objects on the way from a pointer on, so many at most. -/
def walk (f : α → Option α) : ℕ → Option α → List α
  | 0, _ => []
  | _ + 1, none => []
  | rounds + 1, some a => a :: walk f rounds (f a)

/-- A walk finds the list that the pointers lead through. -/
theorem Segment.walk_eq {f : α → Option α} {rounds : ℕ} (h : Segment (follow f) p l none)
    (hlen : l.length ≤ rounds) : walk f rounds p = l := by
  refine h.loop_induction (motive := fun rounds p l => walk f rounds p = l) ?_ ?_ hlen
  · intro rounds
    cases rounds <;> rfl
  · intro rounds a p l hp ih
    rw [follow_apply, Option.some_inj] at hp
    rw [walk, hp, ih]

/-- The objects `l` are linked forwards from `first` and backwards from `last`. -/
structure DoublyLinked (next prev : α → Option (Option α)) (first last : Option α)
    (l : List α) : Prop where
  nodup : l.Nodup
  forward : Segment next first l none
  backward : Segment prev last l.reverse none

namespace DoublyLinked

variable {next prev : α → Option (Option α)} {first last : Option α} {b : α}

theorem nil : DoublyLinked next prev none none [] := ⟨List.nodup_nil, rfl, rfl⟩

theorem piece (h : DoublyLinked next prev first last l) :
    Piece next prev none first last none l := ⟨h.forward, h.backward⟩

/-- Only the links of the listed objects matter. -/
theorem congr {next' prev' : α → Option (Option α)} (hnext : ∀ a ∈ l, next' a = next a)
    (hprev : ∀ a ∈ l, prev' a = prev a) (h : DoublyLinked next prev first last l) :
    DoublyLinked next' prev' first last l :=
  have hpiece := h.piece.congr hnext hprev
  ⟨h.nodup, hpiece.forward, hpiece.backward⟩

theorem first_eq (h : DoublyLinked next prev first last l) : first = l.head? := h.forward.eq_head?

theorem last_eq (h : DoublyLinked next prev first last l) : last = l.getLast? := by
  rw [h.backward.eq_head?, List.head?_reverse]

/-- One end is null with the other. -/
theorem first_eq_none_iff (h : DoublyLinked next prev first last l) :
    first = none ↔ last = none := by
  rw [h.first_eq, h.last_eq, List.head?_eq_none_iff, List.getLast?_eq_none_iff]

variable [DecidableEq α]

/-- A new object behind the last one: the last one links to it, and it links back. -/
theorem push_back (h : DoublyLinked next prev first (some b) l) (ha : a ∉ l) :
    DoublyLinked (Function.update (Function.update next a (some none)) b (some (some a)))
      (Function.update prev a (some (some b))) first (some a) (l ++ [a]) := by
  obtain rfl | ⟨l', c, rfl⟩ := List.eq_nil_or_concat' l
  · cases h.last_eq
  · have hlast := h.last_eq
    rw [List.getLast?_concat, Option.some_inj] at hlast
    subst hlast
    have hba : a ≠ b := by
      rintro rfl
      exact ha (List.mem_append_right l' List.mem_cons_self)
    have hb : b ∉ l' := fun hb => (List.nodup_append.mp h.nodup).2.2 b hb b List.mem_cons_self rfl
    refine ⟨h.nodup.append (List.nodup_singleton a) (List.disjoint_singleton.mpr ha), ?_, ?_⟩
    · rw [segment_concat]
      refine ⟨(h.forward.update_of_notMem _ ha).redirect _ hb, ?_⟩
      rw [Function.update_of_ne hba, Function.update_self]
    · rw [List.reverse_append, List.reverse_singleton, List.singleton_append]
      exact h.backward.cons_update (fun hmem => ha (List.mem_reverse.mp hmem))

/-- A new object in an empty list. -/
theorem push_back_nil (a : α) :
    DoublyLinked (Function.update next a (some none)) (Function.update prev a (some none))
      (some a) (some a) [a] :=
  ⟨List.nodup_singleton a, Segment.cons_update List.not_mem_nil rfl,
    Segment.cons_update List.not_mem_nil rfl⟩

/-- The first object leaves: the one behind it becomes the first and links back to nothing,
whatever becomes of the one that left. -/
theorem pop_front (v w : Option (Option α)) (h : DoublyLinked next prev first last (a :: b :: l)) :
    next a = some (some b) ∧
      DoublyLinked (Function.update next a v)
        (Function.update (Function.update prev b (some none)) a w) (some b) last (b :: l) := by
  obtain ⟨ha, hnodup⟩ := List.nodup_cons.mp h.nodup
  have hb : b ∉ l.reverse := fun hb => (List.nodup_cons.mp hnodup).1 (List.mem_reverse.mp hb)
  obtain ⟨-, p, hp, hrest⟩ := h.forward
  have hhead := hrest.eq_head?
  rw [List.head?_cons] at hhead
  subst hhead
  refine ⟨hp, hnodup, hrest.update_of_notMem _ ha, ?_⟩
  have hback := h.backward
  rw [List.reverse_cons, List.reverse_cons, segment_concat] at hback
  rw [List.reverse_cons]
  refine (hback.1.redirect none hb).update_of_notMem _ (fun hmem => ha ?_)
  rw [← List.reverse_cons] at hmem
  exact List.mem_reverse.mp hmem

end DoublyLinked

end Segments
