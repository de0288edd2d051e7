/-
# Registers of names

A register has entries, numbered in the order in which they were made.  Every entry has a name,
and some of the owners have an entry.  Whoever announces a name has his entry renamed; an owner
without an entry gets the first one of that name, or a new one.

* `Sound` : no name occurs twice, and the owners are found under the names that they told;
* `announce_sound_iff` : which announcements keep a register sound.
-/
import Mathlib.Data.List.Basic
import Mathlib.Logic.Function.Basic

/-- Entries with their names, and the entries of the owners. -/
structure NameRegistry (σ ν : Type*) where
  name : ℕ → ν
  count : ℕ
  entry : σ → Option ℕ

namespace NameRegistry

variable {σ ν : Type*}

/-! ## Operations -/

section Operations

variable [DecidableEq σ] [DecidableEq ν]

/-- The first entry of a name. -/
def find (r : NameRegistry σ ν) (c : ν) : Option ℕ :=
  (List.range r.count).find? (fun i => r.name i = c)

def assign (r : NameRegistry σ ν) (s : σ) (i : ℕ) : NameRegistry σ ν :=
  { r with entry := Function.update r.entry s (some i) }

def rename (r : NameRegistry σ ν) (i : ℕ) (c : ν) : NameRegistry σ ν :=
  { r with name := Function.update r.name i c }

/-- An entry at the end, for an owner. -/
def append (r : NameRegistry σ ν) (s : σ) (c : ν) : NameRegistry σ ν :=
  (({ r with count := r.count + 1 }.assign s r.count).rename r.count c)

/-- An owner announces a name, which is written down in some way. -/
def announce (r : NameRegistry σ ν) (s : σ) (c written : ν) : NameRegistry σ ν :=
  match r.entry s with
  | some i => r.rename i written
  | none =>
      match r.find c with
      | some i => (r.assign s i).rename i written
      | none => r.append s written

end Operations

/-- Entries are given to owners only if they exist. -/
def InRange (r : NameRegistry σ ν) : Prop := ∀ s i, r.entry s = some i → i < r.count

/-- No name occurs twice. -/
def Unique (r : NameRegistry σ ν) : Prop :=
  ∀ i < r.count, ∀ j < r.count, r.name i = r.name j → i = j

/-- No name occurs twice, and every owner has the entry that is found under what he told. -/
structure Sound [DecidableEq ν] (r : NameRegistry σ ν) (told : σ → List ν) : Prop where
  unique : r.Unique
  known : ∀ s, ∀ c ∈ told s, ∃ i, r.entry s = some i ∧ r.find c = some i

/-- An owner may announce a name: he has no entry yet, or his entry has that name already, or
nobody is found under the name and no one else who told something has his entry. -/
def MayAnnounce [DecidableEq ν] (r : NameRegistry σ ν) (told : σ → List ν) (s : σ) (c : ν) : Prop :=
  ∀ i, r.entry s = some i → r.name i = c ∨
    (r.find c = none ∧ ∀ s' ≠ s, told s' ≠ [] → r.entry s' ≠ some i)

variable {r : NameRegistry σ ν} {told : σ → List ν} {s : σ} {c : ν} {i : ℕ}

/-- The name that has been given. -/
theorem name_rename_self (r : NameRegistry σ ν) (i : ℕ) (c : ν) : (r.rename i c).name i = c := by
  simp only [rename, Function.update_self]

/-- The other entries keep their names. -/
theorem name_rename_of_ne {j : ℕ} (hj : j ≠ i) (r : NameRegistry σ ν) (c : ν) :
    (r.rename i c).name j = r.name j := by
  simp only [rename, Function.update_of_ne hj]

/-- An entry is given the name it has. -/
theorem rename_name_self (r : NameRegistry σ ν) (i : ℕ) : r.rename i (r.name i) = r := by
  rw [rename, Function.update_eq_self]

section Found

variable [DecidableEq ν]

/-! ## What is found -/

/-- An entry that is found has the name. -/
theorem find_eq_some (h : r.find c = some i) : i < r.count ∧ r.name i = c := by
  have hname := List.find?_some h
  exact ⟨List.mem_range.mp (List.mem_of_find?_eq_some h), of_decide_eq_true hname⟩

/-- None is found exactly if no entry has the name. -/
theorem find_eq_none_iff : r.find c = none ↔ ∀ i < r.count, r.name i ≠ c := by
  rw [find, List.find?_eq_none]
  constructor
  · intro h i hi heq
    exact h i (List.mem_range.mpr hi) (decide_eq_true heq)
  · intro h i hi heq
    exact h i (List.mem_range.mp hi) (of_decide_eq_true heq)

/-- Every entry is found under its name. -/
theorem Unique.find_eq (h : r.Unique) (hi : i < r.count) (hname : r.name i = c) :
    r.find c = some i := by
  cases hfind : r.find c with
  | none => exact absurd hname (find_eq_none_iff.mp hfind i hi)
  | some j =>
      obtain ⟨hj, hj'⟩ := find_eq_some hfind
      rw [h i hi j hj (hname.trans hj'.symm)]

/-- A register is sound if the entries have the names that were told. -/
theorem Unique.sound (h : r.Unique)
    (hknown : ∀ s, ∀ c ∈ told s, ∃ i, i < r.count ∧ r.entry s = some i ∧ r.name i = c) :
    r.Sound told := by
  refine ⟨h, fun s c hc => ?_⟩
  obtain ⟨i, hi, hentry, hname⟩ := hknown s c hc
  exact ⟨i, hentry, h.find_eq hi hname⟩

/-- The entry of an owner has the name that he told. -/
theorem Sound.named (h : r.Sound told) (hc : c ∈ told s) :
    ∃ i, i < r.count ∧ r.entry s = some i ∧ r.name i = c := by
  obtain ⟨i, hentry, hfind⟩ := h.known s c hc
  obtain ⟨hi, hname⟩ := find_eq_some hfind
  exact ⟨i, hi, hentry, hname⟩

/-- Whoever told two names cannot be found under both. -/
theorem Sound.eq_of_mem (h : r.Sound told) {c' : ν} (hc : c ∈ told s) (hc' : c' ∈ told s) :
    c' = c := by
  obtain ⟨i, -, hentry, hname⟩ := h.named hc
  obtain ⟨j, -, hentry', hname'⟩ := h.named hc'
  rw [hentry, Option.some_inj] at hentry'
  rw [← hname, ← hname', hentry']

/-- Nothing need be known of an owner who told nothing. -/
theorem Sound.forget [DecidableEq σ] (h : r.Sound told) (s : σ) :
    r.Sound (Function.update told s []) := by
  refine ⟨h.unique, fun s' c hc => ?_⟩
  by_cases hs : s' = s
  · rw [hs, Function.update_self] at hc
    exact absurd hc List.not_mem_nil
  · rw [Function.update_of_ne hs] at hc
    exact h.known s' c hc

end Found

variable [DecidableEq σ]

/-- The entry of the source. -/
theorem entry_assign_self (r : NameRegistry σ ν) (s : σ) (i : ℕ) :
    (r.assign s i).entry s = some i := by
  simp only [assign, Function.update_self]

/-- The other sources keep theirs. -/
theorem entry_assign_of_ne {s' : σ} (hs : s' ≠ s) (r : NameRegistry σ ν) (i : ℕ) :
    (r.assign s i).entry s' = r.entry s' := by
  simp only [assign, Function.update_of_ne hs]

/-! ## Announcements -/

variable [DecidableEq ν]

section Announce

variable {written : ν}

/-- A source that has an entry renames it. -/
theorem announce_of_entry (h : r.entry s = some i) (c written : ν) :
    r.announce s c written = r.rename i written := by
  rw [announce, h]

/-- A source without an entry is given the one with its name. -/
theorem announce_of_find (h : r.entry s = none) (hfind : r.find c = some i) (written : ν) :
    r.announce s c written = (r.assign s i).rename i written := by
  rw [announce, h]
  dsimp only
  rw [hfind]

/-- A source with a new name is given a new entry. -/
theorem announce_of_none (h : r.entry s = none) (hfind : r.find c = none) (written : ν) :
    r.announce s c written = r.append s written := by
  rw [announce, h]
  dsimp only
  rw [hfind]

/-- Whoever announced a name has an entry, with what was written down. -/
theorem announce_entry (r : NameRegistry σ ν) (s : σ) (c written : ν) :
    ∃ i, (r.announce s c written).entry s = some i ∧ (r.announce s c written).name i = written := by
  cases h : r.entry s with
  | some i =>
      rw [announce_of_entry h]
      exact ⟨i, h, r.name_rename_self i written⟩
  | none =>
      cases hfind : r.find c with
      | some i =>
          rw [announce_of_find h hfind]
          exact ⟨i, r.entry_assign_self s i, (r.assign s i).name_rename_self i written⟩
      | none =>
          rw [announce_of_none h hfind]
          exact ⟨r.count, entry_assign_self _ s r.count, name_rename_self _ r.count written⟩

/-- To announce a name twice changes nothing. -/
theorem announce_announce (r : NameRegistry σ ν) (s : σ) (c : ν) :
    (r.announce s c c).announce s c c = r.announce s c c := by
  obtain ⟨i, hentry, hname⟩ := r.announce_entry s c c
  rw [announce_of_entry hentry]
  exact (congrArg (rename _ i) hname.symm).trans (rename_name_self _ i)

/-- **One announcement** keeps the entries in range. -/
theorem InRange.announce (h : r.InRange) (s : σ) (c written : ν) :
    (r.announce s c written).InRange := by
  intro s' j hj
  cases hentry : r.entry s with
  | some i =>
      rw [announce_of_entry hentry] at hj ⊢
      exact h s' j hj
  | none =>
      cases hfind : r.find c with
      | some i =>
          rw [announce_of_find hentry hfind] at hj ⊢
          replace hj : Function.update r.entry s (some i) s' = some j := hj
          by_cases hs : s' = s
          · rw [hs, Function.update_self, Option.some_inj] at hj
            rw [← hj]
            exact (find_eq_some hfind).1
          · rw [Function.update_of_ne hs] at hj
            exact h s' j hj
      | none =>
          rw [announce_of_none hentry hfind] at hj ⊢
          replace hj : Function.update r.entry s (some r.count) s' = some j := hj
          show j < r.count + 1
          by_cases hs : s' = s
          · rw [hs, Function.update_self, Option.some_inj] at hj
            omega
          · rw [Function.update_of_ne hs] at hj
            exact Nat.lt_succ_of_lt (h s' j hj)

/-- What holds of the names and of what is written down stays true of the names. -/
theorem forall_name_announce {P : ν → Prop} (h : ∀ i < r.count, P (r.name i)) (hw : P written)
    (s : σ) (c : ν) :
    ∀ i < (r.announce s c written).count, P ((r.announce s c written).name i) := by
  have hupdate : ∀ i j, (j ≠ i → j < r.count) → P (Function.update r.name i written j) := by
    intro i j hj
    by_cases hji : j = i
    · rw [hji, Function.update_self]
      exact hw
    · rw [Function.update_of_ne hji]
      exact h j (hj hji)
  intro j hj
  cases hentry : r.entry s with
  | some i =>
      rw [announce_of_entry hentry] at hj ⊢
      exact hupdate i j (fun _ => hj)
  | none =>
      cases hfind : r.find c with
      | some i =>
          rw [announce_of_find hentry hfind] at hj ⊢
          exact hupdate i j (fun _ => hj)
      | none =>
          rw [announce_of_none hentry hfind] at hj ⊢
          exact hupdate r.count j (fun hne => Nat.lt_of_le_of_ne (Nat.le_of_lt_succ hj) hne)

end Announce

/-! ## Which announcements keep a register sound -/

section Sound

variable {cs : List ν}

/-- **An entry is renamed.** -/
theorem rename_sound_iff (h : r.Sound told) (hrange : r.InRange) (hentry : r.entry s = some i)
    (hcs : ∀ c' ∈ cs, c' = c) :
    (r.rename i c).Sound (Function.update told s cs) ↔
      r.name i = c ∨ (r.find c = none ∧ ∀ s' ≠ s, told s' ≠ [] → r.entry s' ≠ some i) := by
  have hi := hrange s i hentry
  have hself : (r.rename i c).name i = c := r.name_rename_self i c
  have hother : ∀ j, j ≠ i → (r.rename i c).name j = r.name j :=
    fun j hj => name_rename_of_ne hj r c
  constructor
  · intro hsound
    by_cases hname : r.name i = c
    · exact Or.inl hname
    refine Or.inr ⟨?_, fun s' hs' htold hentry' => ?_⟩
    · -- another entry of the name would have the same one now
      rw [find_eq_none_iff]
      intro j hj hj'
      have hji : j ≠ i := fun heq => hname (heq ▸ hj')
      refine hji (hsound.unique j hj i hi ?_)
      rw [hother j hji, hself, hj']
    · -- the other owner would no longer be found
      obtain ⟨c', hc'⟩ := List.exists_mem_of_ne_nil _ htold
      obtain ⟨j, -, hj, hj'⟩ := h.named hc'
      rw [hentry', Option.some_inj] at hj
      subst hj
      have hc'' : c' ∈ Function.update told s cs s' := by
        rwa [Function.update_of_ne hs']
      obtain ⟨k, -, hk, hk'⟩ := hsound.named hc''
      have hki : some i = some k := hentry'.symm.trans hk
      rw [Option.some_inj] at hki
      subst hki
      exact hname (hj'.trans (hk'.symm.trans hself))
  · intro hmay
    have hunique : (r.rename i c).Unique := by
      rcases hmay with hname | ⟨hnone, -⟩
      · rw [← hname, rename_name_self]
        exact h.unique
      · have hfree := find_eq_none_iff.mp hnone
        intro j hj k hk heq
        by_cases hji : j = i
        · by_cases hki : k = i
          · rw [hji, hki]
          · rw [hji, hself, hother k hki] at heq
            exact absurd heq.symm (hfree k hk)
        · by_cases hki : k = i
          · rw [hki, hself, hother j hji] at heq
            exact absurd heq (hfree j hj)
          · rw [hother j hji, hother k hki] at heq
            exact h.unique j hj k hk heq
    refine hunique.sound (fun s' c' hc' => ?_)
    by_cases hs' : s' = s
    · rw [hs', Function.update_self] at hc'
      rw [hs', hcs c' hc']
      exact ⟨i, hi, hentry, hself⟩
    · rw [Function.update_of_ne hs'] at hc'
      obtain ⟨j, hj, hj', hnamed⟩ := h.named hc'
      refine ⟨j, hj, hj', ?_⟩
      by_cases hji : j = i
      · subst hji
        rcases hmay with hname | ⟨-, halone⟩
        · rw [hself, ← hname, hnamed]
        · exact absurd hj' (halone s' hs' (List.ne_nil_of_mem hc'))
      · rw [hother j hji, hnamed]

/-- **An owner gets the entry that is found.** -/
theorem Sound.assign (h : r.Sound told) (hfind : r.find c = some i) (hcs : ∀ c' ∈ cs, c' = c) :
    ((r.assign s i).rename i c).Sound (Function.update told s cs) := by
  obtain ⟨hi, hname⟩ := find_eq_some hfind
  have hsame : (r.assign s i).rename i c = r.assign s i := by
    rw [← hname]
    exact rename_name_self (r.assign s i) i
  rw [hsame]
  refine Unique.sound (r := r.assign s i) h.unique (fun s' c' hc' => ?_)
  by_cases hs' : s' = s
  · rw [hs', Function.update_self] at hc'
    rw [hs', hcs c' hc']
    exact ⟨i, hi, r.entry_assign_self s i, hname⟩
  · rw [Function.update_of_ne hs'] at hc'
    obtain ⟨j, hj, hentry, hnamed⟩ := h.named hc'
    exact ⟨j, hj, (entry_assign_of_ne hs' r i).trans hentry, hnamed⟩

/-- **A new entry is made** for a name that has none. -/
theorem Sound.append (h : r.Sound told) (hfind : r.find c = none) (hcs : ∀ c' ∈ cs, c' = c) :
    (r.append s c).Sound (Function.update told s cs) := by
  have hfree := find_eq_none_iff.mp hfind
  have hnew : (r.append s c).name r.count = c :=
    name_rename_self _ r.count c
  have hold : ∀ j, j < r.count → (r.append s c).name j = r.name j :=
    fun j hj => name_rename_of_ne (Nat.ne_of_lt hj) _ c
  have hcases : ∀ j, j < (r.append s c).count → j < r.count ∨ j = r.count :=
    fun j hj => Nat.lt_or_eq_of_le (Nat.le_of_lt_succ hj)
  have hunique : (r.append s c).Unique := by
    intro j hj k hk heq
    rcases hcases j hj with hj | rfl
    · rcases hcases k hk with hk | rfl
      · rw [hold j hj, hold k hk] at heq
        exact h.unique j hj k hk heq
      · rw [hold j hj, hnew] at heq
        exact absurd heq (hfree j hj)
    · rcases hcases k hk with hk | rfl
      · rw [hnew, hold k hk] at heq
        exact absurd heq.symm (hfree k hk)
      · rfl
  refine hunique.sound (fun s' c' hc' => ?_)
  by_cases hs' : s' = s
  · rw [hs', Function.update_self] at hc'
    rw [hs', hcs c' hc']
    exact ⟨r.count, Nat.lt_succ_self _, entry_assign_self _ s r.count, hnew⟩
  · rw [Function.update_of_ne hs'] at hc'
    obtain ⟨j, hj, hentry, hnamed⟩ := h.named hc'
    exact ⟨j, Nat.lt_succ_of_lt hj,
      (entry_assign_of_ne hs' _ r.count).trans hentry, (hold j hj).trans hnamed⟩

/-- **Announcements, exactly.**  When a name is announced and written down, a sound register
stays sound if and only if the owner may announce it. -/
theorem announce_sound_iff (h : r.Sound told) (hrange : r.InRange) (hcs : ∀ c' ∈ cs, c' = c) :
    (r.announce s c c).Sound (Function.update told s cs) ↔ r.MayAnnounce told s c := by
  cases hentry : r.entry s with
  | some i =>
      rw [announce_of_entry hentry, rename_sound_iff h hrange hentry hcs]
      constructor
      · intro hmay j hj
        rw [hentry, Option.some_inj] at hj
        exact hj ▸ hmay
      · intro hmay
        exact hmay i hentry
  | none =>
      refine iff_of_true ?_ (fun i hi => ?_)
      · cases hfind : r.find c with
        | some i =>
            rw [announce_of_find hentry hfind]
            exact h.assign hfind hcs
        | none =>
            rw [announce_of_none hentry hfind]
            exact h.append hfind hcs
      · rw [hentry] at hi
        cases hi

end Sound

end NameRegistry
