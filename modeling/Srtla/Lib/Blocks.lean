import Mathlib.Data.List.Basic
import Mathlib.Tactic

/-!
# Streams cut into blocks

A stream is read in blocks of `n` items; what does not fill a block is kept until
more arrives.

* `block_induction`: a stream is short, or a block and a stream.
* `blocks_append`, `residue_append`: a stream that arrives in two parts, of which
  only the residue of the first is kept.
* `blocks_flatten`: a stream put together from blocks.
-/

namespace Lib.Blocks

variable {α : Type*} {n : ℕ} {b l m : List α}

/-- The whole blocks of a stream. -/
def blocks (n : ℕ) (l : List α) : List (List α) :=
  (List.range (l.length / n)).map fun i => (l.drop (n * i)).take n

/-- What follows the whole blocks. -/
def residue (n : ℕ) (l : List α) : List α := l.drop (n * (l.length / n))

@[simp] theorem length_blocks (n : ℕ) (l : List α) : (blocks n l).length = l.length / n := by
  rw [blocks, List.length_map, List.length_range]

theorem blocks_of_lt (h : l.length < n) : blocks n l = [] := by
  rw [blocks, Nat.div_eq_of_lt h]
  rfl

theorem residue_of_lt (h : l.length < n) : residue n l = l := by
  rw [residue, Nat.div_eq_of_lt h, Nat.mul_zero, List.drop_zero]

theorem length_block_append_div (hn : 0 < n) (hb : b.length = n) (l : List α) :
    (b ++ l).length / n = l.length / n + 1 := by
  rw [List.length_append, hb, Nat.add_comm, Nat.add_div_right _ hn]

theorem drop_block (hb : b.length = n) (l : List α) (i : ℕ) :
    (b ++ l).drop (n * (i + 1)) = l.drop (n * i) := by
  rw [Nat.mul_succ, Nat.add_comm, ← hb, List.drop_length_add_append]

theorem blocks_block (hn : 0 < n) (hb : b.length = n) (l : List α) : blocks n (b ++ l) = b :: blocks n l := by
  rw [blocks, length_block_append_div hn hb, List.range_succ_eq_map, List.map_cons, List.map_map]
  refine congrArg₂ _ ?_ (List.map_congr_left fun i _ => ?_)
  · rw [Nat.mul_zero, List.drop_zero, List.take_left' hb]
  · rw [Function.comp_apply, drop_block hb]

theorem residue_block (hn : 0 < n) (hb : b.length = n) (l : List α) : residue n (b ++ l) = residue n l := by
  rw [residue, length_block_append_div hn hb, drop_block hb, residue]

/-- A stream is shorter than a block, or begins with one. -/
theorem block_induction {P : List α → Prop} (hn : 0 < n) (short : ∀ l, l.length < n → P l)
    (block : ∀ b l, b.length = n → P l → P (b ++ l)) (l : List α) : P l := by
  induction hlen : l.length using Nat.strong_induction_on generalizing l with
  | _ k ih =>
    by_cases h : l.length < n
    · exact short l h
    · have hrest : P (l.drop n) := ih (l.drop n).length (by rw [List.length_drop]; omega) _ rfl
      have hsplit := block (l.take n) (l.drop n) (by rw [List.length_take]; omega) hrest
      rwa [List.take_append_drop] at hsplit

/-- The blocks of a stream in two parts. -/
theorem blocks_append (hn : 0 < n) (l m : List α) :
    blocks n (l ++ m) = blocks n l ++ blocks n (residue n l ++ m) := by
  induction l using block_induction hn with
  | short l h => rw [blocks_of_lt h, residue_of_lt h, List.nil_append]
  | block b l hb ih =>
    rw [List.append_assoc, blocks_block hn hb, blocks_block hn hb, residue_block hn hb, ih, List.cons_append]

theorem residue_append (hn : 0 < n) (l m : List α) : residue n (l ++ m) = residue n (residue n l ++ m) := by
  induction l using block_induction hn with
  | short l h => rw [residue_of_lt h]
  | block b l hb ih => rw [List.append_assoc, residue_block hn hb, residue_block hn hb, ih]

/-- A stream put together from blocks is cut into the same blocks. -/
theorem blocks_flatten (hn : 0 < n) {bs : List (List α)} (h : ∀ b ∈ bs, b.length = n) :
    blocks n bs.flatten = bs := by
  induction bs with
  | nil => exact blocks_of_lt hn
  | cons b bs ih =>
    obtain ⟨hb, hbs⟩ := List.forall_mem_cons.mp h
    rw [List.flatten_cons, blocks_block hn hb, ih hbs]

end Lib.Blocks
