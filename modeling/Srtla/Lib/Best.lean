import Mathlib.Data.List.MinMax
import Mathlib.Tactic

/-!
# The first best element of a list

A loop that keeps the best element seen so far, and replaces it only by one that
is strictly better, ends with the first of the best elements. That is what
`List.argmax` and `List.argmin` compute; here it is said by the place of the
element in the list, also when the loop passes over some of the elements.

* `argmax_split`: what comes before the element is worse, and what comes after
  it is no better.
* `argmax_filter_split`, `argmin_filter_split`: the same of the elements that a
  condition selects.
-/

namespace Lib.Best

variable {α β : Type*} [LinearOrder β] {f : α → β} {p : α → Bool} {l : List α} {m : α}

theorem argmax_split (h : l.argmax f = some m) :
    ∃ before after, l = before ++ m :: after ∧ (∀ x ∈ before, f x < f m) ∧ ∀ x ∈ after, f x ≤ f m := by
  induction l generalizing m with
  | nil => simp at h
  | cons a l ih =>
    rw [List.argmax_cons] at h
    cases hl : l.argmax f with
    | none =>
      rw [hl] at h
      rw [List.argmax_eq_none] at hl
      obtain rfl : a = m := Option.some.inj h
      exact ⟨[], l, rfl, by simp, by simp [hl]⟩
    | some c =>
      rw [hl] at h
      dsimp only at h
      split_ifs at h with hlt
      · obtain rfl : c = m := Option.some.inj h
        obtain ⟨before, after, rfl, hbefore, hafter⟩ := ih hl
        exact ⟨a :: before, after, rfl, List.forall_mem_cons.mpr ⟨hlt, hbefore⟩, hafter⟩
      · obtain rfl : a = m := Option.some.inj h
        refine ⟨[], l, rfl, by simp, fun x hx => ?_⟩
        exact (List.le_of_mem_argmax hx hl).trans (not_lt.mp hlt)

/-- The first best of the elements that satisfy `p`. -/
theorem argmax_filter_split (h : (l.filter p).argmax f = some m) :
    ∃ before after, l = before ++ m :: after ∧ p m ∧ (∀ x ∈ before, p x → f x < f m) ∧
      ∀ x ∈ after, p x → f x ≤ f m := by
  obtain ⟨before, after, heq, hbefore, hafter⟩ := argmax_split h
  obtain ⟨before', rest, rfl, rfl, hrest⟩ := List.filter_eq_append_iff.mp heq
  obtain ⟨skipped, after', rfl, hskipped, hm, rfl⟩ := List.filter_eq_cons_iff.mp hrest
  refine ⟨before' ++ skipped, after', (List.append_assoc ..).symm, hm, fun x hx hp => ?_, fun x hx hp => ?_⟩
  · rcases List.mem_append.mp hx with hx | hx
    · exact hbefore x (List.mem_filter.mpr ⟨hx, hp⟩)
    · exact absurd hp (hskipped x hx)
  · exact hafter x (List.mem_filter.mpr ⟨hx, hp⟩)

theorem argmin_filter_split (h : (l.filter p).argmin f = some m) :
    ∃ before after, l = before ++ m :: after ∧ p m ∧ (∀ x ∈ before, p x → f m < f x) ∧
      ∀ x ∈ after, p x → f m ≤ f x :=
  argmax_filter_split (f := OrderDual.toDual ∘ f) h

end Lib.Best
