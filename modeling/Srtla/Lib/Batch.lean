import Mathlib.Data.List.Basic
import Mathlib.Tactic

/-!
# Batches

A producer that collects items and hands them on in batches of a fixed size:
`push k pending x` adds `x` to the items not yet handed on and, once there are
`k` of them, empties the collection.

* `push_flatten`: what is handed on and what is kept are the items put in, in
  order.
* `length_of_mem_push`: every batch has `k` items.
-/

namespace Lib.Batch

variable {α : Type*}

/-- Adds an item: the batches handed on (at most one), and what is kept. -/
def push (k : ℕ) (pending : List α) (x : α) : List (List α) × List α :=
  if pending.length + 1 = k then ([pending ++ [x]], []) else ([], pending ++ [x])

theorem push_of_full {k : ℕ} {pending : List α} (h : pending.length + 1 = k) (x : α) :
    push k pending x = ([pending ++ [x]], []) := if_pos h

theorem push_of_not_full {k : ℕ} {pending : List α} (h : pending.length + 1 ≠ k) (x : α) :
    push k pending x = ([], pending ++ [x]) := if_neg h

/-- No item is lost, repeated or moved. -/
theorem push_flatten (k : ℕ) (pending : List α) (x : α) :
    (push k pending x).1.flatten ++ (push k pending x).2 = pending ++ [x] := by
  unfold push
  split_ifs <;> simp

theorem length_of_mem_push {k : ℕ} {pending : List α} {x : α} {batch : List α}
    (h : batch ∈ (push k pending x).1) : batch.length = k := by
  unfold push at h
  split_ifs at h with hk
  · rw [List.mem_singleton.mp h, List.length_append, List.length_singleton, hk]
  · exact absurd h List.not_mem_nil

end Lib.Batch
