import Srtla.Lib.Machine

/-!
# Machines made of cells

A machine whose inputs carry a key and which, on an input, reads and writes only
what it keeps under that key. It is one small machine for every key, and the
inputs for one key do not affect the answers for another.

* `log_invariant`: the invariant rule for a relation between log and state.
* `Cells.view_run`: what is kept under a key after a run.
* `Cells.logFor_eq`: the answers for a key are those of its own small machine.
* `Cells.logFor_filter`: inputs for other keys can be left out.
* `Cells.outs_of_lone`: a run in which the cells of all keys but one are silent.
-/

namespace Lib.Machine

variable {σ ν κ ι ο : Type*}

/-- The inputs of a run with the answers to them. -/
def log (M : Machine σ ι ο) (s : σ) (is : List ι) : List (ι × List ο) :=
  (M.hist s is).map fun e => (e.input, e.outs)

@[simp] theorem log_cons (M : Machine σ ι ο) (s : σ) (i : ι) (is : List ι) :
    M.log s (i :: is) = (i, (M.step s i).2) :: M.log (M.step s i).1 is := rfl

/-- The invariant rule with the log of the run so far. -/
theorem log_invariant {M : Machine σ ι ο} {R : List (ι × List ο) → σ → Prop} {s : σ} (h0 : R [] s)
    (hstep : ∀ l s i, R l s → R (l ++ [(i, (M.step s i).2)]) (M.step s i).1) (is : List ι) :
    R (M.log s is) (M.run s is) := by
  refine M.hist_invariant (R := fun es s => R (es.map fun e => (e.input, e.outs)) s) h0 ?_ is
  intro es s i h
  rw [List.map_append]
  exact hstep _ s i h

section Keys

variable [DecidableEq κ]

/-- The inputs for the key `k`. -/
def inputsFor (k : κ) (is : List (κ × ι)) : List ι := (is.filter fun i => i.1 = k).map Prod.snd

/-- The inputs for the key `k`, with the answers to them. -/
def logFor (M : Machine σ (κ × ι) ο) (s : σ) (k : κ) (is : List (κ × ι)) : List (ι × List ο) :=
  ((M.log s is).filter fun p => p.1.1 = k).map fun p => (p.1.2, p.2)

theorem inputsFor_cons_self (k : κ) (i : ι) (is : List (κ × ι)) :
    inputsFor k ((k, i) :: is) = i :: inputsFor k is := by
  simp [inputsFor]

theorem inputsFor_cons_of_ne {k k' : κ} (h : k' ≠ k) (i : ι) (is : List (κ × ι)) :
    inputsFor k ((k', i) :: is) = inputsFor k is := by
  simp [inputsFor, h]

theorem inputsFor_of_forall_ne {k : κ} {is : List (κ × ι)} (h : ∀ i ∈ is, i.1 ≠ k) :
    inputsFor k is = [] := by
  rw [inputsFor, List.filter_eq_nil_iff.mpr fun i hi => by simpa using h i hi]
  rfl

theorem inputsFor_filter (k : κ) (is : List (κ × ι)) :
    inputsFor k (is.filter fun i => i.1 = k) = inputsFor k is := by
  rw [inputsFor, inputsFor, List.filter_filter]
  simp only [Bool.and_self]

theorem logFor_cons_self (M : Machine σ (κ × ι) ο) (s : σ) (k : κ) (i : ι) (is : List (κ × ι)) :
    M.logFor s k ((k, i) :: is) = (i, (M.step s (k, i)).2) :: M.logFor (M.step s (k, i)).1 k is := by
  simp [logFor]

theorem logFor_cons_of_ne (M : Machine σ (κ × ι) ο) (s : σ) {k k' : κ} (h : k' ≠ k) (i : ι)
    (is : List (κ × ι)) : M.logFor s k ((k', i) :: is) = M.logFor (M.step s (k', i)).1 k is := by
  simp [logFor, h]

end Keys

/-- `M` keeps a cell for every key `k`, shown by `view k`, and runs `C` on it. -/
structure Cells (M : Machine σ (κ × ι) ο) (C : Machine ν ι ο) (view : κ → σ → ν) : Prop where
  outs : ∀ s k i, (M.step s (k, i)).2 = (C.step (view k s) i).2
  own : ∀ s k i, view k (M.step s (k, i)).1 = (C.step (view k s) i).1
  other : ∀ s k i k', k' ≠ k → view k' (M.step s (k, i)).1 = view k' s

namespace Cells

variable [DecidableEq κ] {M : Machine σ (κ × ι) ο} {C : Machine ν ι ο} {view : κ → σ → ν}

theorem view_run (h : Cells M C view) (k : κ) (s : σ) (is : List (κ × ι)) :
    view k (M.run s is) = C.run (view k s) (inputsFor k is) := by
  induction is generalizing s with
  | nil => rfl
  | cons i is ih =>
    obtain ⟨k', i⟩ := i
    rw [run_cons, ih]
    by_cases hk : k' = k
    · rw [hk, inputsFor_cons_self, run_cons, h.own]
    · rw [inputsFor_cons_of_ne hk, h.other s k' i k (Ne.symm hk)]

/-- The answers for a key are those of the machine of its cell. -/
theorem logFor_eq (h : Cells M C view) (k : κ) (s : σ) (is : List (κ × ι)) :
    M.logFor s k is = C.log (view k s) (inputsFor k is) := by
  induction is generalizing s with
  | nil => rfl
  | cons i is ih =>
    obtain ⟨k', i⟩ := i
    by_cases hk : k' = k
    · rw [hk, logFor_cons_self, ih, inputsFor_cons_self, log_cons, h.outs, h.own]
    · rw [logFor_cons_of_ne M s hk, ih, inputsFor_cons_of_ne hk, h.other s k' i k (Ne.symm hk)]

/-- Inputs for other keys change no answer. -/
theorem logFor_filter (h : Cells M C view) (k : κ) (s : σ) (is : List (κ × ι)) :
    M.logFor s k is = M.logFor s k (is.filter fun i => i.1 = k) := by
  rw [h.logFor_eq, h.logFor_eq, inputsFor_filter]

/-- If no cell but that of `x` answers anything, the answers are those of `x`. -/
theorem outs_of_lone (h : Cells M C view) (x : κ) (s : σ) (is : List (κ × ι))
    (hsilent : ∀ k, k ≠ x → C.outs (view k s) (inputsFor k is) = []) :
    M.outs s is = C.outs (view x s) (inputsFor x is) := by
  induction is generalizing s with
  | nil => rfl
  | cons i is ih =>
    obtain ⟨k, i⟩ := i
    -- the step answers nothing to a key that is not `x`, and leaves the other cells alone
    have hrest : ∀ k', k' ≠ x → C.outs (view k' (M.step s (k, i)).1) (inputsFor k' is) = [] := by
      intro k' hk'
      have hnil := hsilent k' hk'
      by_cases hk : k = k'
      · rw [← hk, inputsFor_cons_self, outs_cons, List.append_eq_nil_iff] at hnil
        rw [← hk, h.own]
        exact hnil.2
      · rw [inputsFor_cons_of_ne hk] at hnil
        rw [h.other s k i k' (Ne.symm hk)]
        exact hnil
    rw [outs_cons, ih _ hrest, h.outs]
    by_cases hk : k = x
    · rw [hk, inputsFor_cons_self, outs_cons, h.own]
    · have hnil := hsilent k hk
      rw [inputsFor_cons_self, outs_cons, List.append_eq_nil_iff] at hnil
      rw [hnil.1, List.nil_append, h.other s k i x (Ne.symm hk), inputsFor_cons_of_ne hk]

end Cells

end Lib.Machine
