import Mathlib.Tactic

/-!
# Texts

Texts as lists of characters: decimal numbers, lines, and pieces between separators.
Each is written by one function and read by another.

* `readNat_natText`, `readInt_intText`: numbers are read back.
* `readLines_unlines`: so are lines without a line break in them.
* `splitOn_pair`, `splitOn_single`: a text with one separator or none.
-/

namespace Lib

abbrev Text := List Char

/-! ## Decimal numbers -/

def natText (n : ℕ) : Text := Nat.toDigits 10 n

def intText : ℤ → Text
  | .ofNat n => natText n
  | .negSucc n => '-' :: natText (n + 1)

def readNat (t : Text) : Option ℕ :=
  if t ≠ [] ∧ t.all Char.isDigit = true then some (Nat.ofDigitChars 10 t 0) else none

def readInt : Text → Option ℤ
  | [] => none
  | c :: t => if c = '-' then (readNat t).map fun n => -(n : ℤ) else (readNat (c :: t)).map Int.ofNat

theorem isDigit_of_mem_natText {n : ℕ} {c : Char} (h : c ∈ natText n) : c.isDigit = true :=
  Nat.isDigit_of_mem_toDigits (by decide) (by decide) h

theorem readNat_natText (n : ℕ) : readNat (natText n) = some n := by
  unfold readNat
  rw [if_pos ⟨Nat.toDigits_ne_nil, List.all_eq_true.mpr fun c hc => isDigit_of_mem_natText hc⟩, natText,
    Nat.ofDigitChars_toDigits (by decide) (by decide)]

theorem natText_injective : Function.Injective natText := by
  intro n m h
  have hread := congrArg readNat h
  rw [readNat_natText, readNat_natText] at hread
  exact Option.some.inj hread

theorem notMem_natText {c : Char} (hc : c.isDigit = false) (n : ℕ) : c ∉ natText n := by
  intro h
  rw [isDigit_of_mem_natText h] at hc
  cases hc

theorem readInt_intText (i : ℤ) : readInt (intText i) = some i := by
  cases i with
  | ofNat n =>
    show readInt (natText n) = _
    cases h : natText n with
    | nil => exact absurd h Nat.toDigits_ne_nil
    | cons c t =>
      have hc : c ≠ '-' := by
        rintro rfl
        exact notMem_natText (by decide) n (h ▸ List.mem_cons_self)
      rw [readInt, if_neg hc, ← h, readNat_natText]
      rfl
  | negSucc n =>
    show readInt ('-' :: natText (n + 1)) = _
    rw [readInt, if_pos rfl, readNat_natText]
    rfl

theorem notMem_intText {c : Char} (hc : c.isDigit = false) (hminus : c ≠ '-') (i : ℤ) : c ∉ intText i := by
  cases i with
  | ofNat n => exact notMem_natText hc n
  | negSucc n =>
    intro h
    rcases List.mem_cons.mp h with h | h
    · exact hminus h
    · exact notMem_natText hc _ h

/-! ## Separators -/

section

variable {x : Char} {a b : Text}

theorem splitOn_single (ha : x ∉ a) : a.splitOn x = [a] := by
  have h := @List.splitOn_intercalate Char [a] _ _ x (by simpa using ha) (List.cons_ne_nil _ _)
  simpa using h

theorem splitOn_pair (ha : x ∉ a) (hb : x ∉ b) : (a ++ x :: b).splitOn x = [a, b] := by
  have h := @List.splitOn_intercalate Char [a, b] _ _ x (by simp [ha, hb]) (List.cons_ne_nil _ _)
  simpa using h

/-- The first piece is what stands before the first separator. -/
theorem splitOn_cons (ha : x ∉ a) : (a ++ x :: b).splitOn x = a :: b.splitOn x := by
  rw [List.splitOn, List.splitOnP_append_cons_of_forall_mem]
  · rfl
  · intro y hy
    exact beq_false_of_ne fun he => ha (he ▸ hy)
  · exact beq_self_eq_true x

end

/-! ## Lines -/

/-- Every line is ended by a line break. -/
def unlines (ls : List Text) : Text := ls.flatMap fun l => l ++ ['\n']

/-- The lines of a text, unless the last one is not ended. -/
def readLines (t : Text) : Option (List Text) :=
  if (t.splitOn '\n').getLast? = some [] then some (t.splitOn '\n').dropLast else none

theorem unlines_append (ls ls' : List Text) : unlines (ls ++ ls') = unlines ls ++ unlines ls' :=
  List.flatMap_append

theorem splitOn_unlines {ls : List Text} (h : ∀ l ∈ ls, '\n' ∉ l) :
    (unlines ls).splitOn '\n' = ls ++ [[]] := by
  induction ls with
  | nil => rfl
  | cons l ls ih =>
    have hcons : unlines (l :: ls) = l ++ '\n' :: unlines ls := by
      rw [unlines, List.flatMap_cons, List.append_assoc]
      rfl
    rw [hcons, splitOn_cons (h l List.mem_cons_self), ih fun l' hl' => h l' (List.mem_cons_of_mem _ hl')]
    rfl

theorem readLines_unlines {ls : List Text} (h : ∀ l ∈ ls, '\n' ∉ l) : readLines (unlines ls) = some ls := by
  rw [readLines, splitOn_unlines h, List.getLast?_concat, if_pos rfl, List.dropLast_concat]

end Lib
