/-
# Pools of objects with a secret that is used up

An object carries a secret.  One operation, `use`, reads the secret and destroys it;
another, `clone`, makes a new object and copies whatever the secret is by then.  A pool
starts with one object and grows by cloning.

Beside each object stands a mark whether its secret is gone: it is set by `use` and
inherited by clones.  The mark is history and no operation looks at it.

* `forall_mem_poolStep` : an invariant of single objects is kept by every call;
* `alongRun_onUse`, `onUse_of_imp` : what it gives for every use in a run.
-/
import CcRtp.AlongRun

/-- An object and the mark whether its secret is gone. -/
structure Tracked (C : Type*) where
  obj : C
  spent : Bool
  deriving DecidableEq

/-- A call on the `i`-th object of a pool. -/
inductive PoolCall (D N : Type*) where
  | use (i : ℕ) (d : D)
  | clone (i : ℕ) (n : N)

section

variable {C D N : Type*} (use : C → D → Option C) (clone : C → N → C)

/-- One call.  A use that does not return, and a call on an object that is not there,
leave the pool as it is. -/
def poolStep (pool : List (Tracked C)) : PoolCall D N → List (Tracked C)
  | .use i d =>
      match pool[i]? with
      | none => pool
      | some t =>
          match use t.obj d with
          | none => pool
          | some c => pool.set i ⟨c, true⟩
  | .clone i n =>
      match pool[i]? with
      | none => pool
      | some t => pool ++ [⟨clone t.obj n, t.spent⟩]

/-- The call, if it is a use, has the property `Q`. -/
def OnUse (Q : Tracked C → D → Prop) (pool : List (Tracked C)) : PoolCall D N → Prop
  | .use i d => ∀ t ∈ pool[i]?, Q t d
  | .clone _ _ => True

instance (Q : Tracked C → D → Prop) [∀ t d, Decidable (Q t d)] (pool : List (Tracked C)) :
    ∀ call : PoolCall D N, Decidable (OnUse Q pool call)
  | .use i d => inferInstanceAs (Decidable (∀ t ∈ pool[i]?, Q t d))
  | .clone _ _ => .isTrue trivial

variable {use clone} {Inv : Tracked C → Prop}

/-- A call keeps an invariant of the objects. -/
theorem forall_mem_poolStep (huse : ∀ t d c, Inv t → use t.obj d = some c → Inv ⟨c, true⟩)
    (hclone : ∀ t n, Inv t → Inv ⟨clone t.obj n, t.spent⟩) {pool : List (Tracked C)}
    (hinv : ∀ t ∈ pool, Inv t) (call : PoolCall D N) :
    ∀ t ∈ poolStep use clone pool call, Inv t := by
  cases call with
  | use i d =>
      rw [poolStep]
      split
      · exact hinv
      · next t ht =>
          split
          · exact hinv
          · next c hc =>
              intro t' ht'
              rcases List.mem_or_eq_of_mem_set ht' with hmem | rfl
              · exact hinv t' hmem
              · exact huse t d c (hinv t (List.mem_of_getElem? ht)) hc
  | clone i n =>
      rw [poolStep]
      split
      · exact hinv
      · next t ht =>
          intro t' ht'
          rcases List.mem_append.mp ht' with hmem | hmem
          · exact hinv t' hmem
          · rw [List.mem_singleton.mp hmem]
            exact hclone t n (hinv t (List.mem_of_getElem? ht))

/-- **Runs of calls.**  If all operations keep the invariant, what it gives for a use holds
at each use of a run. -/
theorem alongRun_onUse (Inv : Tracked C → Prop) {Q : Tracked C → D → Prop}
    (huse : ∀ t d c, Inv t → use t.obj d = some c → Inv ⟨c, true⟩)
    (hclone : ∀ t n, Inv t → Inv ⟨clone t.obj n, t.spent⟩) (hQ : ∀ t d, Inv t → Q t d)
    {pool : List (Tracked C)} (hinv : ∀ t ∈ pool, Inv t) (calls : List (PoolCall D N)) :
    AlongRun (poolStep use clone) (OnUse Q) pool calls := by
  have hstep : ∀ (pool : List (Tracked C)) (call : PoolCall D N), (∀ t ∈ pool, Inv t) → True →
      OnUse Q pool call ∧ ∀ t ∈ poolStep use clone pool call, Inv t := by
    intro pool call hinv _
    refine ⟨?_, forall_mem_poolStep huse hclone hinv call⟩
    cases call with
    | use i d =>
        intro t ht
        exact hQ t d (hinv t (List.mem_of_getElem? ht))
    | clone i n => trivial
  exact alongRun_of_invariant hstep hinv (alongRun_of_forall_mem (fun _ _ => trivial))

/-- A fact about uses may be weakened along a run. -/
theorem AlongRun.onUse_mono {Q R : Tracked C → D → Prop}
    {step : List (Tracked C) → PoolCall D N → List (Tracked C)} {pool : List (Tracked C)}
    {calls : List (PoolCall D N)} (hQ : AlongRun step (OnUse Q) pool calls)
    (h : ∀ t d, Q t d → R t d) : AlongRun step (OnUse R) pool calls := by
  refine hQ.mono (fun pool call hcall => ?_)
  cases call with
  | use i d =>
      intro t ht
      exact h t d (hcall t ht)
  | clone i n => trivial

/-- A fact about uses, drawn from two others along a run. -/
theorem onUse_of_imp {Q R : Tracked C → D → Prop}
    {step : List (Tracked C) → PoolCall D N → List (Tracked C)} {pool : List (Tracked C)}
    {calls : List (PoolCall D N)}
    (himp : AlongRun step (OnUse (fun t d => Q t d → R t d)) pool calls)
    (hQ : AlongRun step (OnUse Q) pool calls) : AlongRun step (OnUse R) pool calls := by
  refine (himp.and hQ).mono (fun pool call h => ?_)
  cases call with
  | use i d =>
      intro t ht
      exact h.1 t ht (h.2 t ht)
  | clone i n => trivial

end
