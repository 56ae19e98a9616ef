import Mathlib.Tactic

/-!
# Labelled transition systems

Systems whose steps have a label and may be disabled. `ReachableIf P` are the
states reached by runs all of whose steps meet the condition `P`; a condition
looks at the state before the step and at its label.

* `Lts.reachableIf_invariant`: the invariant rule, in which a step may use the
  condition.
* `Lts.Trace.invariant`: the same of runs with their history.
* `Lts.StepsIf`: runs that start in any state, with the number of their steps.
-/

namespace Lib

/-- A system with states `σ` and labels `α`. -/
structure Lts (σ α : Type*) where
  init : σ
  step : σ → α → σ → Prop

namespace Lts

variable {σ α : Type*} (L : Lts σ α)

/-- The states of the runs whose steps all meet `P`. -/
inductive ReachableIf (P : σ → α → Prop) : σ → Prop
  | init : ReachableIf P L.init
  | step {s s' : σ} {a : α} (before : ReachableIf P s) (cond : P s a) (next : L.step s a s') :
      ReachableIf P s'

/-- The states of all runs. -/
abbrev Reachable : σ → Prop := L.ReachableIf fun _ _ => True

variable {L} {P Q : σ → α → Prop} {s : σ}

theorem ReachableIf.mono (h : L.ReachableIf P s) (hPQ : ∀ s a, P s a → Q s a) :
    L.ReachableIf Q s := by
  induction h with
  | init => exact .init
  | step _ hP hnext ih => exact .step ih (hPQ _ _ hP) hnext

theorem ReachableIf.reachable (h : L.ReachableIf P s) : L.Reachable s :=
  h.mono fun _ _ _ => trivial

/-- A property of the start state that every step keeps if it meets `P` holds in
    every state of these runs. -/
theorem reachableIf_invariant {I : σ → Prop} (h0 : I L.init)
    (hstep : ∀ s a s', I s → P s a → L.step s a s' → I s') (h : L.ReachableIf P s) : I s := by
  induction h with
  | init => exact h0
  | step _ hP hnext ih => exact hstep _ _ _ ih hP hnext

/-- A condition on the steps may be replaced by one that follows from it and an invariant. -/
theorem ReachableIf.mono_of_invariant {I : σ → Prop} (h0 : I L.init)
    (hstep : ∀ s a s', I s → P s a → L.step s a s' → I s') (hPQ : ∀ s a, I s → P s a → Q s a)
    (h : L.ReachableIf P s) : L.ReachableIf Q s := by
  induction h with
  | init => exact .init
  | step hbefore hP hnext ih =>
    exact .step ih (hPQ _ _ (reachableIf_invariant h0 hstep hbefore) hP) hnext

/-! ## Runs between two states -/

variable (L) in
/-- `k` steps that all meet `P` lead from a state to another. -/
inductive StepsIf (P : σ → α → Prop) : σ → ℕ → σ → Prop
  | refl (s : σ) : StepsIf P s 0 s
  | tail {s s' s'' : σ} {a : α} {k : ℕ} (before : StepsIf P s k s') (cond : P s' a)
      (next : L.step s' a s'') : StepsIf P s (k + 1) s''

theorem StepsIf.single {s' : σ} {a : α} (hP : P s a) (h : L.step s a s') : L.StepsIf P s 1 s' :=
  .tail (.refl s) hP h

theorem StepsIf.trans {s' s'' : σ} {k k' : ℕ} (h : L.StepsIf P s k s') (h' : L.StepsIf P s' k' s'') :
    L.StepsIf P s (k + k') s'' := by
  induction h' with
  | refl => exact h
  | tail _ hP hnext ih => exact .tail ih hP hnext

theorem Reachable.steps {s' : σ} {k : ℕ} (h : L.Reachable s) (h' : L.StepsIf P s k s') :
    L.Reachable s' := by
  induction h' with
  | refl => exact h
  | tail _ _ hnext ih => exact .step ih trivial hnext

/-! ## Histories -/

variable (L) in
/-- The runs with their history: the steps made so far, oldest first, each with the
    state before it. -/
inductive Trace : List (σ × α) → σ → Prop
  | init : Trace [] L.init
  | step {es : List (σ × α)} {s s' : σ} {a : α} (before : Trace es s) (next : L.step s a s') :
      Trace (es ++ [(s, a)]) s'

/-- A property of histories that holds at the start and that every step keeps holds
    of every history. -/
theorem Trace.invariant {I : List (σ × α) → σ → Prop} (h0 : I [] L.init)
    (hstep : ∀ es s a s', I es s → L.step s a s' → I (es ++ [(s, a)]) s') {es : List (σ × α)}
    (h : L.Trace es s) : I es s := by
  induction h with
  | init => exact h0
  | step _ hnext ih => exact hstep _ _ _ _ ih hnext

/-- Every state of a run has a history. -/
theorem ReachableIf.exists_trace (h : L.ReachableIf P s) : ∃ es, L.Trace es s := by
  induction h with
  | init => exact ⟨[], .init⟩
  | step _ _ hnext ih =>
    obtain ⟨es, hes⟩ := ih
    exact ⟨_, hes.step hnext⟩

end Lts

end Lib
