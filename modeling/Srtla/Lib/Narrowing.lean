import Mathlib.Data.List.Forall2
import Srtla.Lib.Keyed

/-!
# Narrowing a list of objects

`List.SublistForall₂ R l' l` says that `l'` arises from `l` by dropping objects
and changing the ones that stay according to `R`. This is what a program does
to a table when it edits, expires or removes entries. The lemmas say what
carries over from `l` to `l'`.
-/

namespace Lib.Narrowing

variable {α β γ κ : Type*} {R : α → β → Prop} {l' : List α} {l : List β}

theorem exists_of_mem (h : List.SublistForall₂ R l' l) {x : α} (hx : x ∈ l') : ∃ y ∈ l, R x y := by
  induction h with
  | nil => exact absurd hx List.not_mem_nil
  | cons hR _ ih =>
    rcases List.mem_cons.mp hx with rfl | hx
    · exact ⟨_, List.mem_cons_self, hR⟩
    · obtain ⟨y, hy, hxy⟩ := ih hx
      exact ⟨y, List.mem_cons_of_mem _ hy, hxy⟩
  | cons_right _ ih =>
    obtain ⟨y, hy, hxy⟩ := ih hx
    exact ⟨y, List.mem_cons_of_mem _ hy, hxy⟩

theorem length_le (h : List.SublistForall₂ R l' l) : l'.length ≤ l.length := by
  obtain ⟨m, hm, hsub⟩ := List.sublistForall₂_iff.mp h
  rw [hm.length_eq]
  exact hsub.length_le

/-- What `R` leaves alone forms a sublist. -/
theorem map_sublist {f : α → γ} {g : β → γ} (h : List.SublistForall₂ R l' l)
    (hR : ∀ x y, R x y → f x = g y) : (l'.map f).Sublist (l.map g) := by
  induction h with
  | nil => exact List.nil_sublist _
  | cons hxy _ ih =>
    rw [List.map_cons, List.map_cons, hR _ _ hxy]
    exact ih.cons_cons _
  | cons_right _ ih => exact ih.trans (List.sublist_cons_self _ _)

/-- A relation between distinct entries that `R` respects carries over. -/
theorem pairwise {S : β → β → Prop} {S' : α → α → Prop} (h : List.SublistForall₂ R l' l)
    (hR : ∀ x y x₂ y₂, R x y → R x₂ y₂ → S y y₂ → S' x x₂) (hl : l.Pairwise S) :
    l'.Pairwise S' := by
  induction h with
  | nil => exact List.Pairwise.nil
  | cons hxy htail ih =>
    rw [List.pairwise_cons] at hl ⊢
    refine ⟨?_, ih hl.2⟩
    intro x₂ hx₂
    obtain ⟨y₂, hy₂, hR₂⟩ := exists_of_mem htail hx₂
    exact hR _ _ _ _ hxy hR₂ (hl.1 y₂ hy₂)
  | cons_right _ ih => exact ih (List.pairwise_cons.mp hl).2

/-! ## Instances -/

section Instances

variable {R : α → α → Prop} {l : List α}

theorem of_filterMap {f : α → Option α} (h : ∀ x ∈ l, ∀ y, f x = some y → R y x) :
    List.SublistForall₂ R (l.filterMap f) l := by
  induction l with
  | nil => exact .nil
  | cons x l ih =>
    have hl := ih fun y hy => h y (List.mem_cons_of_mem _ hy)
    rw [List.filterMap_cons]
    cases hx : f x with
    | none => exact .cons_right hl
    | some y => exact .cons (h x List.mem_cons_self y hx) hl

theorem of_map {f : α → α} (h : ∀ x ∈ l, R (f x) x) : List.SublistForall₂ R (l.map f) l := by
  rw [← List.filterMap_eq_map]
  apply of_filterMap
  intro x hx y hy
  rw [← Option.some.inj hy]
  exact h x hx

theorem of_sublist {l' : List α} (hR : ∀ x, R x x) (h : l'.Sublist l) :
    List.SublistForall₂ R l' l :=
  List.sublistForall₂_iff.mpr ⟨l', List.forall₂_same.mpr fun x _ => hR x, h⟩

/-- Updating one object is a narrowing when the update respects `R`. -/
theorem of_update [DecidableEq κ] {key : α → κ} {a : α} {o : Option α} (hR : ∀ x, R x x)
    (hnodup : (l.map key).Nodup) (ha : a ∈ l) (ho : ∀ a', o = some a' → key a' = key a ∧ R a' a) :
    List.SublistForall₂ R (Keyed.update key (key a) o l) l := by
  cases o with
  | none => exact of_sublist hR Keyed.remove_sublist
  | some a' =>
    obtain ⟨hk, hR'⟩ := ho a' rfl
    apply of_map
    intro x hx
    by_cases hxa : key x = key a'
    · rw [if_pos hxa, Keyed.eq_of_key_eq hnodup hx ha (hxa.trans hk)]
      exact hR'
    · rw [if_neg hxa]
      exact hR x

end Instances

/-- The first entry that meets `p` is still the first in a part that has it. -/
theorem find?_of_sublist {p : α → Bool} {l' l : List α} {a : α} (hs : l'.Sublist l) (hn : l.Nodup)
    (hf : l.find? p = some a) (ha : a ∈ l') : l'.find? p = some a := by
  induction hs with
  | slnil => exact absurd ha List.not_mem_nil
  | @cons l' l b hs ih =>
    obtain ⟨hb, hn⟩ := List.nodup_cons.mp hn
    refine ih hn ?_ ha
    have hne : a ≠ b := fun he => hb (he ▸ hs.subset ha)
    rw [List.find?_cons] at hf
    split at hf
    · exact absurd (Option.some.inj hf).symm hne
    · exact hf
  | @cons_cons l' l b hs ih =>
    rw [List.find?_cons] at hf ⊢
    split at hf
    · exact hf
    · next hp =>
      have hne : a ≠ b := by
        rintro rfl
        rw [List.find?_some hf] at hp
        exact absurd hp (by decide)
      exact ih (List.nodup_cons.mp hn).2 hf ((List.mem_cons.mp ha).resolve_left hne)

/-- The elements outside a sublist are as many as it lacks. -/
theorem length_filter_notMem {α : Type*} [DecidableEq α] {l' l : List α} (hs : l'.Sublist l)
    (hn : l.Nodup) : (l.filter fun x => decide (x ∉ l')).length + l'.length = l.length := by
  induction hs with
  | slnil => rfl
  | @cons l' l a hs ih =>
    have ha : a ∉ l' := fun h => (List.nodup_cons.mp hn).1 (hs.subset h)
    rw [List.filter_cons_of_pos (by simpa using ha), List.length_cons, List.length_cons,
      ← ih (List.nodup_cons.mp hn).2]
    omega
  | @cons_cons l' l a hs ih =>
    have hsame : (l.filter fun x => decide (x ∉ a :: l')) = l.filter fun x => decide (x ∉ l') := by
      refine List.filter_congr fun x hx => ?_
      have hne : x ≠ a := fun h => (List.nodup_cons.mp hn).1 (h ▸ hx)
      simp [hne]
    rw [List.filter_cons_of_neg (by simp), hsame, List.length_cons, List.length_cons,
      ← ih (List.nodup_cons.mp hn).2]
    omega

end Lib.Narrowing
