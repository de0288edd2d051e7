/-
# Properties of whole runs

A deterministic state machine `step : σ → α → σ` fed with a list of inputs passes
through one state before each input.  `AlongRun step P s l` says that `P` holds of
every such pair (state before the step, input) of the run of `l` from `s`.

The rules used throughout:

* `foldl_of_invariant` : an invariant holds at the end of the run;
* `alongRun_of_invariant` : an invariant kept by every step that meets `Q` turns a
  step fact into a fact about whole runs;
* `alongRun_iff_of_invariant` : if, under the invariant, `P` and `Q` agree on each
  step, they agree on whole runs, even when only the steps meeting `Q` keep the
  invariant;
* `alongRun_partial_iff` : the same for steps that may not return;
* `exists_outputs`, `run_map_eq` : the same for runs that give outputs.
-/
import Mathlib

variable {σ α : Type*} (step : σ → α → σ)

/-- `P` holds of every state and input that the run of `l` from `s` goes through. -/
def AlongRun (P : σ → α → Prop) : σ → List α → Prop
  | _, [] => True
  | s, a :: l => P s a ∧ AlongRun P (step s a) l

variable {step} {P Q Pre : σ → α → Prop} {Inv : σ → Prop}

/-- Runs are checked step by step, so decidable step facts give decidable run facts. -/
instance AlongRun.decidable [∀ s a, Decidable (P s a)] :
    ∀ (s : σ) (l : List α), Decidable (AlongRun step P s l)
  | _, [] => inferInstanceAs (Decidable True)
  | s, a :: l =>
      have := AlongRun.decidable (step s a) l
      inferInstanceAs (Decidable (P s a ∧ AlongRun step P (step s a) l))

/-- A fact about steps may be weakened along a run. -/
theorem AlongRun.mono (h : ∀ s a, P s a → Q s a) {s : σ} {l : List α}
    (hP : AlongRun step P s l) : AlongRun step Q s l := by
  induction l generalizing s with
  | nil => trivial
  | cons a l ih => exact ⟨h s a hP.1, ih hP.2⟩

/-- Two facts hold along the same run together. -/
theorem AlongRun.and {s : σ} {l : List α} (hP : AlongRun step P s l) (hQ : AlongRun step Q s l) :
    AlongRun step (fun s a => P s a ∧ Q s a) s l := by
  induction l generalizing s with
  | nil => trivial
  | cons a l ih => exact ⟨⟨hP.1, hQ.1⟩, ih hP.2 hQ.2⟩

/-- What holds of every input holds along the run. -/
theorem alongRun_of_forall_mem {R : α → Prop} {s : σ} {l : List α} (h : ∀ a ∈ l, R a) :
    AlongRun step (fun _ a => R a) s l := by
  induction l generalizing s with
  | nil => trivial
  | cons a l ih =>
      exact ⟨h a List.mem_cons_self, ih (fun b hb => h b (List.mem_cons_of_mem a hb))⟩

theorem forall_mem_of_alongRun {R : α → Prop} {s : σ} {l : List α}
    (h : AlongRun step (fun _ a => R a) s l) : ∀ a ∈ l, R a := by
  induction l generalizing s with
  | nil => exact fun a ha => absurd ha List.not_mem_nil
  | cons a l ih => exact List.forall_mem_cons.mpr ⟨h.1, ih h.2⟩

/-- The state at the end of a run satisfies an invariant that its steps keep. -/
theorem foldl_of_invariant (hstep : ∀ s a, Inv s → Q s a → Inv (step s a)) {s : σ} {l : List α}
    (hs : Inv s) (hQ : AlongRun step Q s l) : Inv (l.foldl step s) := by
  induction l generalizing s with
  | nil => exact hs
  | cons a l ih => exact ih (hstep s a hs hQ.1) hQ.2

/-- **Invariant rule.**  If every step that meets `Q` keeps the invariant and gives
`P`, then `P` holds along every run whose steps meet `Q`. -/
theorem alongRun_of_invariant (hstep : ∀ s a, Inv s → Q s a → P s a ∧ Inv (step s a))
    {s : σ} {l : List α} (hs : Inv s) (hQ : AlongRun step Q s l) : AlongRun step P s l := by
  induction l generalizing s with
  | nil => trivial
  | cons a l ih =>
      obtain ⟨hQa, hQl⟩ := hQ
      obtain ⟨hPa, hs'⟩ := hstep s a hs hQa
      exact ⟨hPa, ih hs' hQl⟩

/-- **Exactness rule.**  On runs whose steps meet `Pre`, the step facts `P` and `Q`
hold along the same runs as soon as they agree in the states that satisfy the
invariant, and a step with `Q` keeps the invariant.  (At the first step that
violates `Q`, it violates `P` too.) -/
theorem alongRun_iff_of_invariant
    (hiff : ∀ s a, Inv s → Pre s a → (P s a ↔ Q s a))
    (hkeep : ∀ s a, Inv s → Pre s a → Q s a → Inv (step s a))
    {s : σ} {l : List α} (hs : Inv s) (hPre : AlongRun step Pre s l) :
    AlongRun step P s l ↔ AlongRun step Q s l := by
  induction l generalizing s with
  | nil => exact Iff.rfl
  | cons a l ih =>
      obtain ⟨hpa, hpl⟩ := hPre
      have hPQ := hiff s a hs hpa
      constructor
      · rintro ⟨hPa, hPl⟩
        have hQa := hPQ.mp hPa
        exact ⟨hQa, (ih (hkeep s a hs hpa hQa) hpl).mp hPl⟩
      · rintro ⟨hQa, hQl⟩
        exact ⟨hPQ.mpr hQa, (ih (hkeep s a hs hpa hQa) hpl).mpr hQl⟩

/-! ## Runs of steps that may not return -/

section Partial

variable {perform : σ → α → Option σ}

/-- A step of a run that may have ended: a step that did not return is the end of it. -/
def partialStep (perform : σ → α → Option σ) (s : Option σ) (a : α) : Option σ :=
  s.bind (fun t => perform t a)

/-- **Exactness rule for steps that may not return.**  If every step from a state with the
invariant returns, has a good outcome exactly if it meets `Q`, and then keeps the
invariant, all outcomes of a run are good exactly if all its steps meet `Q`. -/
theorem alongRun_partial_iff {Good : σ → Prop}
    (hstep : ∀ s a, Inv s → Pre s a →
      ∃ t, perform s a = some t ∧ (Good t ↔ Q s a) ∧ (Q s a → Inv t))
    {s : σ} {l : List α} (hs : Inv s)
    (hPre : AlongRun (partialStep perform) (fun s a => ∀ t ∈ s, Pre t a) (some s) l) :
    AlongRun (partialStep perform) (fun s a => ∃ t, partialStep perform s a = some t ∧ Good t)
        (some s) l ↔
      AlongRun (partialStep perform) (fun s a => ∀ t ∈ s, Q t a) (some s) l := by
  have hiff : ∀ (s : Option σ) (a : α), (∃ t, s = some t ∧ Inv t) → (∀ t ∈ s, Pre t a) →
      ((∃ t, partialStep perform s a = some t ∧ Good t) ↔ ∀ t ∈ s, Q t a) := by
    rintro s a ⟨t, rfl, ht⟩ hpre
    obtain ⟨t', ht', hgood, -⟩ := hstep t a ht (hpre t rfl)
    have hret : partialStep perform (some t) a = some t' := ht'
    constructor
    · rintro ⟨t'', ht'', hg⟩ u ⟨⟩
      rw [hret, Option.some_inj] at ht''
      subst ht''
      exact hgood.mp hg
    · intro hQ
      exact ⟨t', hret, hgood.mpr (hQ t rfl)⟩
  have hkeep : ∀ (s : Option σ) (a : α), (∃ t, s = some t ∧ Inv t) → (∀ t ∈ s, Pre t a) →
      (∀ t ∈ s, Q t a) → ∃ t, partialStep perform s a = some t ∧ Inv t := by
    rintro s a ⟨t, rfl, ht⟩ hpre hQ
    obtain ⟨t', ht', -, hinv⟩ := hstep t a ht (hpre t rfl)
    exact ⟨t', ht', hinv (hQ t rfl)⟩
  exact alongRun_iff_of_invariant hiff hkeep ⟨s, rfl, hs⟩ hPre

end Partial

/-! ## Runs with outputs

`run s l` gives one output for every input of `l`, or nothing if some step does not return.
The rules take it by its equations, so they apply to any function of that shape. -/

section Outputs

variable {β : Type*} (run : σ → List α → Option (List β))

/-- **Outputs of a run.**  If every step from a state with the `k`-th invariant gives an
output in the relation `R k` and leads to the next invariant, the run returns, with one
such output for each input. -/
theorem exists_outputs {Inv : ℕ → σ → Prop} {R : ℕ → α → β → Prop} {Valid : α → Prop}
    (hnil : ∀ s, run s [] = some [])
    (hcons : ∀ k s a l, Inv k s → Valid a →
      ∃ b s', run s (a :: l) = (run s' l).map (b :: ·) ∧ R k a b ∧ Inv (k + 1) s')
    (l : List α) (hvalid : ∀ a ∈ l, Valid a) :
    ∀ {k : ℕ} {s : σ}, Inv k s → ∃ out, run s l = some out ∧ out.length = l.length ∧
      ∀ n a, l[n]? = some a → ∃ b, out[n]? = some b ∧ R (k + n) a b := by
  induction l with
  | nil =>
      intro k s _
      refine ⟨[], hnil s, rfl, fun n a h => ?_⟩
      cases h
  | cons a l ih =>
      intro k s hs
      obtain ⟨b, s', hrun, hb, hs'⟩ := hcons k s a l hs (hvalid a List.mem_cons_self)
      obtain ⟨out, hout, hlen, hall⟩ := ih (fun c hc => hvalid c (List.mem_cons_of_mem a hc)) hs'
      refine ⟨b :: out, ?_, ?_, ?_⟩
      · rw [hrun, hout]
        rfl
      · rw [List.length_cons, List.length_cons, hlen]
      · intro n c hc
        cases n with
        | zero =>
            rw [List.getElem?_cons_zero, Option.some_inj] at hc
            subst hc
            exact ⟨b, List.getElem?_cons_zero, hb⟩
        | succ n =>
            rw [List.getElem?_cons_succ] at hc
            obtain ⟨d, hd, hR⟩ := hall n c hc
            rw [Nat.add_assoc, Nat.add_comm 1 n] at hR
            exact ⟨d, hd, hR⟩

/-- **A chain of positions.**  A state that is ready for position `k` gives the output
`g k` for the input `f k` and is then ready for every position that may follow. -/
theorem run_map_eq (Ready : σ → ℕ → Prop) {R : ℕ → ℕ → Prop} {Valid : ℕ → Prop} {f : ℕ → α}
    {g : ℕ → β} (hnil : ∀ s, run s [] = some [])
    (hcons : ∀ s k l, Ready s k → Valid k →
      ∃ s', run s (f k :: l) = (run s' l).map (g k :: ·) ∧
        ∀ j, R k j → Valid j → Ready s' j)
    (ks : List ℕ) (hvalid : ∀ k ∈ ks, Valid k) (hchain : ks.IsChain R) :
    ∀ {s : σ}, (∀ k ∈ ks.head?, Ready s k) → run s (ks.map f) = some (ks.map g) := by
  induction ks with
  | nil =>
      intro s _
      exact hnil s
  | cons k ks ih =>
      intro s hs
      obtain ⟨s', hrun, hnext⟩ := hcons s k (ks.map f) (hs k rfl) (hvalid k List.mem_cons_self)
      have hready : ∀ j ∈ ks.head?, Ready s' j := by
        intro j hj
        obtain ⟨ks', rfl⟩ := List.head?_eq_some_iff.mp hj
        exact hnext j (List.isChain_cons_cons.mp hchain).1
          (hvalid j (List.mem_cons_of_mem k List.mem_cons_self))
      have hrest := ih (fun j hj => hvalid j (List.mem_cons_of_mem k hj)) hchain.tail hready
      rw [List.map_cons, List.map_cons, hrun, hrest]
      rfl

end Outputs
