import Mathlib.Data.List.Basic
import Mathlib.Tactic

/-!
# Two passes over a vector

A first loop appends one result for every item to a second vector; a later loop runs
over both by index and writes the items in place. The results meet the items they
were made from.

* `collect_eq`: the first loop, with a total that it accumulates.
* `zipLoop_map`: the second loop, on what the first one has appended.
-/

namespace Lib.Passes

variable {α β γ : Type*}

/-- `for (b : bs) { total = total + h(b); out.push_back(g(b)); }`. -/
def collect [Add γ] (h : β → γ) (g : β → α) (total : γ) (out : List α) (bs : List β) : γ × List α :=
  bs.foldl (fun acc b => (acc.1 + h b, acc.2 ++ [g b])) (total, out)

/-- `for (i = 0; i < as.size() && i < bs.size(); ++i) bs[i] = f(as[i], bs[i]);`. -/
def zipLoop (f : α → β → β) (as : List α) (bs : List β) : List β :=
  (List.range as.length).foldl
    (fun bs i =>
      match as[i]?, bs[i]? with
      | some a, some b => bs.set i (f a b)
      | _, _ => bs)
    bs

theorem collect_eq [AddMonoid γ] (h : β → γ) (g : β → α) (total : γ) (out : List α) (bs : List β) :
    collect h g total out bs = (total + (bs.map h).sum, out ++ bs.map g) := by
  induction bs generalizing total out with
  | nil => simp [collect]
  | cons b bs ih =>
    rw [collect, List.foldl_cons, ← collect, ih, List.map_cons, List.map_cons, List.sum_cons, add_assoc,
      List.append_assoc]
    rfl

/-- The items that the second loop has passed are written, the others are not. -/
theorem zipLoop_prefix (f : α → β → β) (g : β → α) (bs : List β) (n : ℕ) (hn : n ≤ bs.length) :
    (List.range n).foldl
      (fun cs i =>
        match (bs.map g)[i]?, cs[i]? with
        | some a, some b => cs.set i (f a b)
        | _, _ => cs)
      bs = ((bs.take n).map fun b => f (g b) b) ++ bs.drop n := by
  induction n with
  | zero => rfl
  | succ n ih =>
    have hlt : n < bs.length := hn
    have hlen : ((bs.take n).map fun b => f (g b) b).length = n := by
      rw [List.length_map, List.length_take, Nat.min_eq_left hlt.le]
    have hitem : (((bs.take n).map fun b => f (g b) b) ++ bs.drop n)[n]? = some bs[n] := by
      rw [List.getElem?_append_right hlen.le, hlen, Nat.sub_self, List.getElem?_drop, Nat.add_zero,
        List.getElem?_eq_getElem hlt]
    have hresult : (bs.map g)[n]? = some (g bs[n]) := by
      rw [List.getElem?_map, List.getElem?_eq_getElem hlt]
      rfl
    rw [List.range_succ, List.foldl_append, ih hlt.le, List.foldl_cons, List.foldl_nil, hresult, hitem]
    dsimp only
    rw [List.set_append_right _ _ hlen.le, hlen, Nat.sub_self, List.drop_eq_getElem_cons hlt, List.set_cons_zero,
      List.take_succ_eq_append_getElem hlt, List.map_append, List.append_assoc]
    rfl

theorem zipLoop_map (f : α → β → β) (g : β → α) (bs : List β) :
    zipLoop f (bs.map g) bs = bs.map fun b => f (g b) b := by
  rw [zipLoop, List.length_map, zipLoop_prefix f g bs bs.length le_rfl, List.take_length, List.drop_length,
    List.append_nil]

end Lib.Passes
