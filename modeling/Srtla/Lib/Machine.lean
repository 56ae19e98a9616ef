import Mathlib.Data.List.Basic
import Mathlib.Tactic

/-!
# Machines, runs and histories

A `Machine` has one start state and a step function that consumes an input and
returns the next state and the outputs. A run is a list of inputs.

* `Machine.run`, `Machine.outs`: the final state and the outputs of a run.
* `Machine.hist`: the steps of a run, each as its state before, its input and
  its outputs.
* `Machine.Reachable` with the invariant rule `Machine.invariant`, and
  `Machine.hist_invariant`, the same rule for a relation between the history
  so far and the state reached.
* `Machine.hist_split`: the steps before a step.
* `Machine.hist_spec`: every step of a history starts in a reachable state.
-/

namespace Lib

/-- A deterministic machine with inputs `ι` and outputs `ο`. -/
structure Machine (σ ι ο : Type*) where
  init : σ
  step : σ → ι → σ × List ο

namespace Machine

variable {σ ι ο : Type*} (M : Machine σ ι ο)

/-- One step of a run, as it happened. -/
structure Event (σ ι ο : Type*) where
  pre : σ
  input : ι
  outs : List ο

/-- The state after the inputs `is`, from `s`. -/
def run (s : σ) : List ι → σ
  | [] => s
  | i :: is => run (M.step s i).1 is

/-- The steps taken on the inputs `is`, from `s`. -/
def hist (s : σ) : List ι → List (Event σ ι ο)
  | [] => []
  | i :: is => ⟨s, i, (M.step s i).2⟩ :: hist (M.step s i).1 is

/-- The outputs of a run. -/
def outs (s : σ) (is : List ι) : List ο := (M.hist s is).flatMap Event.outs

@[simp] theorem run_nil (s : σ) : M.run s [] = s := rfl

@[simp] theorem run_cons (s : σ) (i : ι) (is : List ι) :
    M.run s (i :: is) = M.run (M.step s i).1 is := rfl

@[simp] theorem hist_nil (s : σ) : M.hist s [] = [] := rfl

@[simp] theorem hist_cons (s : σ) (i : ι) (is : List ι) :
    M.hist s (i :: is) = ⟨s, i, (M.step s i).2⟩ :: M.hist (M.step s i).1 is := rfl

@[simp] theorem outs_nil (s : σ) : M.outs s [] = [] := rfl

@[simp] theorem outs_cons (s : σ) (i : ι) (is : List ι) :
    M.outs s (i :: is) = (M.step s i).2 ++ M.outs (M.step s i).1 is := rfl

theorem run_append (s : σ) (is js : List ι) : M.run s (is ++ js) = M.run (M.run s is) js := by
  induction is generalizing s with
  | nil => rfl
  | cons i is ih => simp [ih]

theorem hist_append (s : σ) (is js : List ι) :
    M.hist s (is ++ js) = M.hist s is ++ M.hist (M.run s is) js := by
  induction is generalizing s with
  | nil => rfl
  | cons i is ih => simp [ih]

theorem outs_append (s : σ) (is js : List ι) :
    M.outs s (is ++ js) = M.outs s is ++ M.outs (M.run s is) js := by
  rw [outs, hist_append, List.flatMap_append, outs, outs]

theorem run_concat (s : σ) (is : List ι) (i : ι) :
    M.run s (is ++ [i]) = (M.step (M.run s is) i).1 := by
  rw [run_append, run_cons, run_nil]

theorem hist_concat (s : σ) (is : List ι) (i : ι) :
    M.hist s (is ++ [i]) =
      M.hist s is ++ [⟨M.run s is, i, (M.step (M.run s is) i).2⟩] := by
  rw [hist_append, hist_cons, hist_nil]

/-- The last two steps of a run. -/
theorem hist_pair (s : σ) (is : List ι) (i j : ι) :
    M.hist s (is ++ [i, j]) =
      (M.hist s is ++ [⟨M.run s is, i, (M.step (M.run s is) i).2⟩]) ++
        [⟨(M.step (M.run s is) i).1, j, (M.step (M.step (M.run s is) i).1 j).2⟩] := by
  rw [hist_append, List.append_assoc]
  rfl

/-- The states some run leads to. -/
def Reachable (s : σ) : Prop := ∃ is, M.run M.init is = s

theorem reachable_init : M.Reachable M.init := ⟨[], rfl⟩

theorem Reachable.step {M : Machine σ ι ο} {s : σ} (h : M.Reachable s) (i : ι) :
    M.Reachable (M.step s i).1 := by
  obtain ⟨is, rfl⟩ := h
  exact ⟨is ++ [i], M.run_concat _ _ _⟩

theorem Reachable.run {M : Machine σ ι ο} {s : σ} (h : M.Reachable s) (is : List ι) :
    M.Reachable (M.run s is) := by
  induction is generalizing s with
  | nil => exact h
  | cons i is ih => exact ih (h.step i)

/-- A property kept by every step is kept by every run. -/
theorem run_invariant {P : σ → Prop} (hstep : ∀ s i, P s → P (M.step s i).1) {s : σ} (h : P s)
    (is : List ι) : P (M.run s is) := by
  induction is generalizing s with
  | nil => exact h
  | cons i is ih => exact ih (hstep s i h)

/-- A property of the start state kept by every step holds in every reachable state. -/
theorem invariant {P : σ → Prop} (h0 : P M.init) (hstep : ∀ s i, P s → P (M.step s i).1) {s : σ}
    (h : M.Reachable s) : P s := by
  obtain ⟨is, rfl⟩ := h
  exact M.run_invariant hstep h0 is

/-- The invariant rule with a history: `R es s` relates the steps taken so far
    to the state they lead to. -/
theorem hist_invariant {R : List (Event σ ι ο) → σ → Prop} {s : σ} (h0 : R [] s)
    (hstep : ∀ es s i, R es s → R (es ++ [⟨s, i, (M.step s i).2⟩]) (M.step s i).1) (is : List ι) :
    R (M.hist s is) (M.run s is) := by
  induction is using List.reverseRecOn with
  | nil => exact h0
  | append_singleton is i ih =>
    rw [hist_concat, run_concat]
    exact hstep _ _ _ ih

/-- The steps before a step of a run are the history of the inputs before it. -/
theorem hist_split {s : σ} {is : List ι} {es es' : List (Event σ ι ο)} {e : Event σ ι ο}
    (h : M.hist s is = es ++ e :: es') :
    ∃ before after, is = before ++ e.input :: after ∧ es = M.hist s before ∧ e.pre = M.run s before ∧
      e.outs = (M.step e.pre e.input).2 := by
  induction es generalizing s is with
  | nil =>
    cases is with
    | nil => exact absurd h.symm (List.cons_ne_nil _ _)
    | cons i is =>
      obtain ⟨rfl, -⟩ := List.cons.inj h
      exact ⟨[], is, rfl, rfl, rfl, rfl⟩
  | cons e₀ es ih =>
    cases is with
    | nil => exact absurd h.symm (List.cons_ne_nil _ _)
    | cons i is =>
      obtain ⟨rfl, hrest⟩ := List.cons.inj h
      obtain ⟨before, after, rfl, rfl, hpre, houts⟩ := ih hrest
      exact ⟨i :: before, after, rfl, rfl, hpre, houts⟩

/-- A step of a run is taken in the state the inputs before it lead to. -/
theorem mem_hist {s : σ} {is : List ι} {e : Event σ ι ο} (h : e ∈ M.hist s is) :
    (∃ before after, is = before ++ e.input :: after ∧ e.pre = M.run s before) ∧
      e.outs = (M.step e.pre e.input).2 := by
  obtain ⟨es, es', hsplit⟩ := List.append_of_mem h
  obtain ⟨before, after, his, -, hpre, houts⟩ := M.hist_split hsplit
  exact ⟨⟨before, after, his, hpre⟩, houts⟩

/-- A property kept by every step that meets `C` is kept by every run all of
    whose steps meet it. -/
theorem run_invariant_if {P : σ → Prop} {C : σ → ι → Prop}
    (hstep : ∀ s i, P s → C s i → P (M.step s i).1) {s : σ} (h : P s) (is : List ι)
    (hC : ∀ e ∈ M.hist s is, C e.pre e.input) : P (M.run s is) := by
  induction is generalizing s with
  | nil => exact h
  | cons i is ih =>
    refine ih (hstep s i h (hC _ List.mem_cons_self)) ?_
    intro e he
    exact hC e (List.mem_cons_of_mem _ he)

/-- The steps of a run start in reachable states and are steps of the machine. -/
theorem hist_spec (is : List ι) :
    ∀ e ∈ M.hist M.init is, M.Reachable e.pre ∧ e.outs = (M.step e.pre e.input).2 := by
  intro e he
  obtain ⟨⟨before, _, _, hpre⟩, houts⟩ := M.mem_hist he
  exact ⟨⟨before, hpre.symm⟩, houts⟩

end Machine

end Lib
