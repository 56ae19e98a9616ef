import Mathlib.Data.Fin.Basic
import Mathlib.Data.List.Basic
import Mathlib.Tactic

/-!
# Ring buffers

A ring of `n` slots is written in turn; `i` is the slot that is written next.
Counted back from there, the newest value is in slot `back i 0`, and the oldest
in slot `back i (n - 1)`, which is `i` itself.

* `back_next_zero`, `back_next_succ`: what a write does to the positions.
* `countP_range`: counting slots is counting the entries they hold.
* `Recalls`: the ring holds the newest entries of a history, which is kept by a
  write (`Recalls.push`), by a change of one entry (`Recalls.set`) and by a
  change of all of them (`Recalls.mapIdx`).
-/

namespace Lib.Ring

variable {n : ℕ} [NeZero n] {α β : Type*}

/-- The slot after `i`. -/
def next (i : Fin n) : Fin n := Fin.ofNat n (i.val + 1)

/-- The slot `j` places before the one that was written last. -/
def back (i : Fin n) (j : ℕ) : Fin n := Fin.ofNat n (i.val + (n - 1 - j))

theorem next_val (i : Fin n) : (next i).val = if i.val + 1 < n then i.val + 1 else 0 := by
  have hi := i.isLt
  show (i.val + 1) % n = _
  split_ifs with h
  · exact Nat.mod_eq_of_lt h
  · rw [show i.val + 1 = n by omega, Nat.mod_self]

theorem back_val (i : Fin n) {j : ℕ} (hj : j < n) :
    (back i j).val = if j < i.val then i.val - 1 - j else i.val + (n - 1 - j) := by
  have hi := i.isLt
  show (i.val + (n - 1 - j)) % n = _
  split_ifs with h
  · rw [Nat.mod_eq_sub_mod (by omega), Nat.mod_eq_of_lt (by omega)]
    omega
  · exact Nat.mod_eq_of_lt (by omega)

/-- The newest value is the one just written. -/
theorem back_next_zero (i : Fin n) : back (next i) 0 = i := by
  have hi := i.isLt
  apply Fin.ext
  rw [back_val _ (by omega), next_val]
  split_ifs <;> omega

/-- A write makes every other value older by one. -/
theorem back_next_succ (i : Fin n) {j : ℕ} (hj : j + 1 < n) : back (next i) (j + 1) = back i j := by
  have hi := i.isLt
  apply Fin.ext
  rw [back_val _ hj, back_val _ (by omega), next_val]
  split_ifs <;> omega

theorem back_eq_self_iff (i : Fin n) {j : ℕ} (hj : j < n) : back i j = i ↔ j = n - 1 := by
  have hi := i.isLt
  rw [Fin.ext_iff, back_val _ hj]
  split_ifs <;> omega

theorem back_inj (i : Fin n) {j k : ℕ} (hj : j < n) (hk : k < n) : back i j = back i k ↔ j = k := by
  have hi := i.isLt
  rw [Fin.ext_iff, back_val _ hj, back_val _ hk]
  split_ifs <;> omega

/-- What is counted slot by slot is counted entry by entry. -/
theorem countP_range {l : List β} {m : ℕ} {p : ℕ → Bool} {q : β → Bool} (hl : l.length ≤ m)
    (h : ∀ j, j < m → (p j = true ↔ ∃ x, l[j]? = some x ∧ q x = true)) :
    (List.range m).countP p = l.countP q := by
  induction m generalizing l p with
  | zero => rw [List.length_eq_zero_iff.mp (Nat.le_zero.mp hl)]; rfl
  | succ m ih =>
    have h0 := h 0 m.succ_pos
    have hsucc := fun j (hj : j < m) => h (j + 1) (by omega)
    rw [List.range_succ_eq_map, List.countP_cons, List.countP_map]
    cases l with
    | nil =>
      rw [ih (l := []) (Nat.zero_le m) (by simpa using hsucc), if_neg (by simp [h0])]
      rfl
    | cons x l =>
      rw [List.countP_cons, ih (l := l) (by simpa using hl) (by simpa using hsucc)]
      congr 1
      simp only [List.getElem?_cons_zero, Option.some.injEq, exists_eq_left'] at h0
      simp only [h0]

/-- The ring `v` holds the newest entries of the history `h`, newest first, as
    `view` shows them. -/
def Recalls (view : β → α) (i : Fin n) (v : Fin n → α) (h : List β) : Prop :=
  ∀ j, j < n → ∀ x, h[j]? = some x → v (back i j) = view x

variable {view : β → α} {i : Fin n} {v : Fin n → α} {h : List β}

theorem Recalls.push (hv : Recalls view i v h) (x : β) :
    Recalls view (next i) (Function.update v i (view x)) (x :: h) := by
  intro j hj y hy
  cases j with
  | zero =>
    rw [List.getElem?_cons_zero] at hy
    rw [back_next_zero, Function.update_self, Option.some.inj hy]
  | succ j =>
    rw [List.getElem?_cons_succ] at hy
    have hne : back i j ≠ i := by
      rw [Ne, back_eq_self_iff i (by omega)]
      omega
    rw [back_next_succ i hj, Function.update_of_ne hne]
    exact hv j (by omega) y hy

/-- An entry is overwritten where it is. -/
theorem Recalls.set (hv : Recalls view i v h) {k : ℕ} (hk : k < n) (x : β) :
    Recalls view i (Function.update v (back i k) (view x)) (h.set k x) := by
  intro j hj y hy
  rw [List.getElem?_set] at hy
  by_cases hkj : k = j
  · subst hkj
    rw [if_pos rfl] at hy
    split_ifs at hy
    rw [Function.update_self, Option.some.inj hy]
  · rw [if_neg hkj] at hy
    have hne : back i j ≠ back i k := by
      rw [Ne, back_inj i hj hk]
      exact fun e => hkj e.symm
    rw [Function.update_of_ne hne]
    exact hv j hj y hy

/-- Every entry is changed according to its age. -/
theorem Recalls.mapIdx (hv : Recalls view i v h) {f : ℕ → β → β} {w : Fin n → α}
    (hw : ∀ j, j < n → ∀ x, v (back i j) = view x → w (back i j) = view (f j x)) :
    Recalls view i w (h.mapIdx f) := by
  intro j hj y hy
  rw [List.getElem?_mapIdx, Option.map_eq_some_iff] at hy
  obtain ⟨x, hx, rfl⟩ := hy
  exact hw j hj x (hv j hj x hx)

end Lib.Ring
