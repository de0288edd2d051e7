/-
# Loops that may not end

`whileLoop cond body rounds s` runs a loop from the state `s`; it is `none` if the body has no
outcome, or if the loop has not ended after the given number of rounds.  A loop ends if it
returns for some number of rounds.

* `whileLoop_of_le` : more rounds make no difference;
* `whileLoop_invariant` : what the rounds keep holds at the end;
* `whileLoop_of_measure` : a loop whose rounds decrease a measure ends;
* `whileLoop_eq_none` : a loop whose rounds lead from bad states to bad states never ends;
* `whileLoop_map` : a loop that is another one but for part of its state ends as this does;
* `whileStates_invariant` : what the rounds keep holds all along, whether the loop ends or not.
-/
import Mathlib

variable {σ : Type*}

/-- `while (cond) body`, for at most so many rounds. -/
def whileLoop (cond : σ → Bool) (body : σ → Option σ) : ℕ → σ → Option σ
  | 0, s => if cond s then none else some s
  | rounds + 1, s => if cond s then (body s).bind (whileLoop cond body rounds) else some s

variable {cond : σ → Bool} {body : σ → Option σ} (Inv : σ → Prop)

/-- Nothing happens if the condition does not hold. -/
theorem whileLoop_of_false {s : σ} (h : cond s = false) (rounds : ℕ) :
    whileLoop cond body rounds s = some s := by
  cases rounds with
  | zero => rw [whileLoop, h, if_neg Bool.false_ne_true]
  | succ rounds => rw [whileLoop, h, if_neg Bool.false_ne_true]

/-- One round. -/
theorem whileLoop_of_true {s t : σ} (h : cond s = true) (hbody : body s = some t) (rounds : ℕ) :
    whileLoop cond body (rounds + 1) s = whileLoop cond body rounds t := by
  rw [whileLoop, if_pos h, hbody, Option.bind_some]

/-- More rounds make no difference to a loop that has ended. -/
theorem whileLoop_of_le {rounds : ℕ} : ∀ {s t : σ} {more : ℕ},
    whileLoop cond body rounds s = some t → rounds ≤ more →
    whileLoop cond body more s = some t := by
  induction rounds with
  | zero =>
      intro s t more h _
      cases hcond : cond s with
      | false => rwa [whileLoop_of_false hcond] at h ⊢
      | true =>
          rw [whileLoop, if_pos hcond] at h
          cases h
  | succ rounds ih =>
      intro s t more h hle
      cases hcond : cond s with
      | false => rwa [whileLoop_of_false hcond] at h ⊢
      | true =>
          rw [whileLoop, if_pos hcond] at h
          obtain ⟨u, hu, hrest⟩ := Option.bind_eq_some_iff.mp h
          obtain ⟨m, rfl⟩ := Nat.exists_eq_add_one_of_ne_zero (Nat.ne_of_gt (Nat.zero_lt_of_lt hle))
          rw [whileLoop_of_true hcond hu]
          exact ih hrest (Nat.le_of_succ_le_succ hle)

/-- A loop that ends has a first round if its condition holds. -/
theorem exists_round_of_whileLoop {s t : σ} (h : cond s = true) {rounds : ℕ}
    (hloop : whileLoop cond body rounds s = some t) :
    ∃ u rounds', body s = some u ∧ whileLoop cond body rounds' u = some t := by
  cases rounds with
  | zero =>
      rw [whileLoop, if_pos h] at hloop
      cases hloop
  | succ rounds =>
      rw [whileLoop, if_pos h] at hloop
      obtain ⟨u, hu, hrest⟩ := Option.bind_eq_some_iff.mp hloop
      exact ⟨u, rounds, hu, hrest⟩

/-- **What the rounds keep holds at the end**, if there is one. -/
theorem whileLoop_invariant (hbody : ∀ s t, Inv s → cond s = true → body s = some t → Inv t)
    (rounds : ℕ) : ∀ {s t : σ}, Inv s → whileLoop cond body rounds s = some t →
      Inv t ∧ cond t = false := by
  induction rounds with
  | zero =>
      intro s t hs h
      cases hcond : cond s with
      | false =>
          rw [whileLoop_of_false hcond] at h
          cases h
          exact ⟨hs, hcond⟩
      | true =>
          rw [whileLoop, if_pos hcond] at h
          cases h
  | succ rounds ih =>
      intro s t hs h
      cases hcond : cond s with
      | false =>
          rw [whileLoop_of_false hcond] at h
          cases h
          exact ⟨hs, hcond⟩
      | true =>
          rw [whileLoop, if_pos hcond] at h
          obtain ⟨u, hu, hrest⟩ := Option.bind_eq_some_iff.mp h
          exact ih (hbody s u hs hcond hu) hrest

/-- **A loop with a measure ends**, in a state where its condition does not hold. -/
theorem whileLoop_of_measure (f : σ → ℕ)
    (hbody : ∀ s, Inv s → cond s = true → ∃ t, body s = some t ∧ Inv t ∧ f t < f s) (rounds : ℕ) :
    ∀ s, Inv s → f s ≤ rounds →
      ∃ t, whileLoop cond body rounds s = some t ∧ Inv t ∧ cond t = false := by
  induction rounds with
  | zero =>
      intro s hs hle
      cases hcond : cond s with
      | false => exact ⟨s, whileLoop_of_false hcond 0, hs, hcond⟩
      | true =>
          obtain ⟨t, -, -, hlt⟩ := hbody s hs hcond
          omega
  | succ rounds ih =>
      intro s hs hle
      cases hcond : cond s with
      | false => exact ⟨s, whileLoop_of_false hcond _, hs, hcond⟩
      | true =>
          obtain ⟨t, ht, hinv, hlt⟩ := hbody s hs hcond
          rw [whileLoop_of_true hcond ht]
          exact ih t hinv (by omega)

/-- **A loop that stays where its condition holds never ends.** -/
theorem whileLoop_eq_none
    (hstuck : ∀ s, Inv s → cond s = true ∧ ∀ t, body s = some t → Inv t) (rounds : ℕ) :
    ∀ s, Inv s → whileLoop cond body rounds s = none := by
  induction rounds with
  | zero =>
      intro s hs
      rw [whileLoop, if_pos (hstuck s hs).1]
  | succ rounds ih =>
      intro s hs
      obtain ⟨hcond, hnext⟩ := hstuck s hs
      rw [whileLoop, if_pos hcond]
      cases hbody : body s with
      | none => rfl
      | some t => exact ih t (hnext t hbody)

/-- **A loop that simulates another one**, as long as an invariant holds: `view` is what the
other one has of the state. -/
theorem whileLoop_map {τ : Type*} {cond' : τ → Bool} {body' : τ → Option τ} (view : τ → σ)
    (Inv : τ → Prop) (hcond : ∀ t, Inv t → cond' t = cond (view t))
    (hbody : ∀ t, Inv t → cond' t = true →
      (body' t).map view = body (view t) ∧ ∀ u, body' t = some u → Inv u) (rounds : ℕ) :
    ∀ t, Inv t →
      (whileLoop cond' body' rounds t).map view = whileLoop cond body rounds (view t) := by
  induction rounds with
  | zero =>
      intro t ht
      rw [whileLoop, whileLoop, ← hcond t ht]
      split_ifs <;> rfl
  | succ rounds ih =>
      intro t ht
      rw [whileLoop, whileLoop, ← hcond t ht]
      split_ifs with hgo
      · obtain ⟨hview, hkeep⟩ := hbody t ht hgo
        rw [← hview]
        cases hnext : body' t with
        | none => rfl
        | some u => exact ih u (hkeep u hnext)
      · rfl

/-- The states in which the condition is looked at, in at most so many rounds. -/
def whileStates (cond : σ → Bool) (body : σ → Option σ) : ℕ → σ → List σ
  | 0, s => [s]
  | rounds + 1, s => s :: if cond s then (body s).elim [] (whileStates cond body rounds) else []

theorem self_mem_whileStates (rounds : ℕ) (s : σ) : s ∈ whileStates cond body rounds s := by
  cases rounds with
  | zero => exact List.mem_singleton_self s
  | succ rounds => exact List.mem_cons_self

/-- The states of a loop behind its first round. -/
theorem mem_whileStates_of_true {s t u : σ} (h : cond s = true) (hbody : body s = some t)
    {rounds : ℕ} (hu : u ∈ whileStates cond body rounds t) :
    u ∈ whileStates cond body (rounds + 1) s := by
  rw [whileStates, if_pos h, hbody]
  exact List.mem_cons_of_mem _ hu

/-- **What the rounds keep holds all along.** -/
theorem whileStates_invariant (hbody : ∀ s t, Inv s → cond s = true → body s = some t → Inv t)
    (rounds : ℕ) : ∀ {s t : σ}, Inv s → t ∈ whileStates cond body rounds s → Inv t := by
  induction rounds with
  | zero =>
      intro s t hs ht
      rw [whileStates, List.mem_singleton] at ht
      exact ht ▸ hs
  | succ rounds ih =>
      intro s t hs ht
      rw [whileStates, List.mem_cons] at ht
      rcases ht with rfl | ht
      · exact hs
      · split_ifs at ht with hcond
        · cases hnext : body s with
          | none =>
              rw [hnext] at ht
              cases ht
          | some u =>
              rw [hnext] at ht
              exact ih (hbody s u hs hcond hnext) ht
        · cases ht
