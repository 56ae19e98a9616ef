import Mathlib.Data.List.Count
import Mathlib.Order.Monotone.Basic
import Mathlib.Tactic

/-!
# Highest averages

Seats are handed out one at a time. Every claimant has a quotient that falls as
its seats grow, and a round gives its seat to a claimant whose quotient is the
best of those present. Quotients are values of an arbitrary order, as functions of
the seats already held; the methods of D'Hondt and of Sainte-Laguë are the cases
`w / (f + 1)` and `w / (2 * f + 1)`.

* `Awards`: the rounds follow the rule.
* `Awards.balanced`: whoever got a seat would not give it up for the next seat of a
  claimant that was present throughout.
* `mul_lt_of_div_le`: what that says for rounded quotients, in proportions.
-/

namespace Lib.Apportion

/-- A round: who takes part and who gets the seat. -/
structure Round (ι : Type*) where
  present : ι → Prop
  winner : ι

section

variable {ι β : Type*} [DecidableEq ι] {f : ι → ℕ} {r : Round ι} {rounds : List (Round ι)} {i j : ι}

/-- The seats after the rounds. -/
def seats (f : ι → ℕ) (rounds : List (Round ι)) (i : ι) : ℕ := f i + (rounds.map Round.winner).count i

theorem seats_cons :
    seats f (r :: rounds) = seats (Function.update f r.winner (f r.winner + 1)) rounds := by
  funext i
  unfold seats
  rw [List.map_cons, List.count_cons]
  by_cases hi : i = r.winner
  · subst hi
    rw [Function.update_self, if_pos (beq_self_eq_true _)]
    omega
  · rw [Function.update_of_ne hi, if_neg (by simpa using Ne.symm hi)]
    omega

variable [Preorder β]

/-- Every round gives its seat to a claimant with the best quotient of those present. -/
def Awards (q : ι → ℕ → β) : (ι → ℕ) → List (Round ι) → Prop
  | _, [] => True
  | f, r :: rounds =>
    (∀ j, r.present j → q j (f j) ≤ q r.winner (f r.winner)) ∧
      Awards q (Function.update f r.winner (f r.winner + 1)) rounds

variable {q : ι → ℕ → β}

/-- **Nobody who was present throughout would have used a seat better.** The last
    seat of a claimant was worth at least what the next seat of any claimant that
    took part in all rounds is worth. -/
theorem Awards.balanced (hq : ∀ i, Antitone (q i)) (h : Awards q f rounds)
    (hi : i ∈ rounds.map Round.winner) (hj : ∀ r ∈ rounds, r.present j) :
    q j (seats f rounds j) ≤ q i (seats f rounds i - 1) := by
  induction rounds generalizing f with
  | nil => simp at hi
  | cons r rounds ih =>
    obtain ⟨hbest, hrest⟩ := h
    have hj' := fun x hx => hj x (List.mem_cons_of_mem r hx)
    by_cases hagain : i ∈ rounds.map Round.winner
    · rw [seats_cons]
      exact ih hrest hagain hj'
    · -- the seat of this round is the last one of `i`
      obtain rfl : i = r.winner := (List.mem_cons.mp hi).resolve_right hagain
      have hlast : seats f (r :: rounds) r.winner - 1 = f r.winner := by
        unfold seats
        rw [List.map_cons, List.count_cons_self, List.count_eq_zero_of_not_mem hagain]
        omega
      rw [hlast]
      calc q j (seats f (r :: rounds) j) ≤ q j (f j) := hq j (Nat.le_add_right _ _)
        _ ≤ q r.winner (f r.winner) := hbest j (hj r List.mem_cons_self)

end

/-- Rounded quotients in proportion: up to one unit of the quotient, `v` per `b` seats
    is no more than `w` per `a` seats. -/
theorem mul_lt_of_div_le {v w a b : ℤ} (ha : 0 < a) (hb : 0 < b) (h : v / b ≤ w / a) :
    v * a < (w + a) * b := by
  have hv : v < (v / b + 1) * b := Int.lt_ediv_add_one_mul_self v hb
  have hw : w / a * a ≤ w := Int.ediv_mul_le w ha.ne'
  calc v * a < (v / b + 1) * b * a := by gcongr
    _ ≤ (w / a + 1) * b * a := by gcongr
    _ = (w / a * a + a) * b := by ring
    _ ≤ (w + a) * b := by gcongr

end Lib.Apportion
