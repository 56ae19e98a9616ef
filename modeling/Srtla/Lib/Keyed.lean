import Mathlib.Data.List.Nodup
import Mathlib.Tactic

/-!
# Lists of objects with an identity

A program that keeps shared objects in a vector is modelled by a list of
records that carry the object's identity in a key field. Writing to an object
through a pointer replaces the entry with that key (`put`, or `modify` when
what is written depends on the object), and taking the object out of the vector
drops it (`remove`). All lemmas are about lists whose keys are pairwise distinct
(`(l.map key).Nodup`), which the operations keep.
-/

namespace Lib.Keyed

variable {α κ : Type*} [DecidableEq κ] {key : α → κ} {l : List α} {a b x : α} {k : κ}

/-- Writes the object `a`: the entry with `a`'s key becomes `a`. -/
def put (key : α → κ) (a : α) (l : List α) : List α := l.map fun x => if key x = key a then a else x

/-- Takes the object with key `k` out of the list. -/
def remove (key : α → κ) (k : κ) (l : List α) : List α := l.filter fun x => decide (key x ≠ k)

/-- The object with key `k`. -/
def get (key : α → κ) (k : κ) (l : List α) : Option α := l.find? fun x => decide (key x = k)

/-! ## Identity -/

omit [DecidableEq κ] in
theorem eq_of_key_eq (h : (l.map key).Nodup) (ha : a ∈ l) (hb : b ∈ l) (hk : key a = key b) :
    a = b :=
  List.inj_on_of_nodup_map h ha hb hk

theorem get_mem (h : get key k l = some a) : a ∈ l := List.mem_of_find?_eq_some h

theorem get_key (h : get key k l = some a) : key a = k := by
  simpa using List.find?_some h

theorem get_eq_some_iff (h : (l.map key).Nodup) : get key k l = some a ↔ a ∈ l ∧ key a = k := by
  constructor
  · intro hg
    exact ⟨get_mem hg, get_key hg⟩
  · rintro ⟨ha, rfl⟩
    cases hg : get key (key a) l with
    | none => simpa using List.find?_eq_none.mp hg a ha
    | some b => rw [eq_of_key_eq h (get_mem hg) ha (get_key hg)]

theorem get_eq_none_iff : get key k l = none ↔ ∀ x ∈ l, key x ≠ k := by
  simp [get]

/-! ## `put` -/

@[simp] theorem put_nil : put key a [] = [] := rfl

@[simp] theorem map_key_put : (put key a l).map key = l.map key := by
  unfold put
  rw [List.map_map]
  apply List.map_congr_left
  intro x _
  simp only [Function.comp_apply]
  split_ifs with h
  · exact h.symm
  · rfl

@[simp] theorem length_put : (put key a l).length = l.length := by simp [put]

theorem mem_put : x ∈ put key a l ↔ (x = a ∧ key a ∈ l.map key) ∨ (x ∈ l ∧ key x ≠ key a) := by
  simp only [put, List.mem_map]
  constructor
  · rintro ⟨y, hy, rfl⟩
    split_ifs with h
    · exact Or.inl ⟨rfl, y, hy, h⟩
    · exact Or.inr ⟨hy, h⟩
  · rintro (⟨rfl, y, hy, h⟩ | ⟨hx, h⟩)
    · exact ⟨y, hy, if_pos h⟩
    · exact ⟨x, hx, if_neg h⟩

theorem put_of_notMem (h : key a ∉ l.map key) : put key a l = l := by
  unfold put
  conv_rhs => rw [← List.map_id l]
  apply List.map_congr_left
  intro x hx
  have : key x ≠ key a := fun e => h (e ▸ List.mem_map_of_mem hx)
  simp [this]

theorem put_put (hk : key b = key a) : put key b (put key a l) = put key b l := by
  unfold put
  rw [List.map_map]
  apply List.map_congr_left
  intro x _
  simp only [Function.comp_apply]
  by_cases h : key x = key a
  · simp [h, hk]
  · simp [h, hk]

/-- A `put` that preserves a projection of the objects preserves the projected list. -/
theorem map_put_eq {β : Type*} {f : α → β} (h : ∀ x ∈ l, key x = key a → f x = f a) :
    (put key a l).map f = l.map f := by
  unfold put
  rw [List.map_map]
  apply List.map_congr_left
  intro x hx
  simp only [Function.comp_apply]
  split_ifs with hk
  · exact (h x hx hk).symm
  · rfl

/-- A symmetric relation between distinct objects survives a write that respects it. -/
theorem pairwise_put {S : α → α → Prop} (hsymm : ∀ x y, S x y → S y x) (hnodup : (l.map key).Nodup)
    (hl : l.Pairwise S) (ha : ∀ x ∈ l, key x ≠ key a → S a x) : (put key a l).Pairwise S := by
  induction l with
  | nil => exact List.Pairwise.nil
  | cons y l ih =>
    rw [List.map_cons, List.nodup_cons] at hnodup
    rw [List.pairwise_cons] at hl
    have htail := ih hnodup.2 hl.2 fun x hx => ha x (List.mem_cons_of_mem _ hx)
    by_cases hy : key y = key a
    · -- the object stands at the head, so the tail is left alone
      have hl' : put key a l = l := put_of_notMem (hy ▸ hnodup.1)
      have hput : put key a (y :: l) = a :: l := by
        show (if key y = key a then a else y) :: put key a l = _
        rw [if_pos hy, hl']
      rw [hput, List.pairwise_cons]
      refine ⟨fun x hx => ha x (List.mem_cons_of_mem _ hx) ?_, hl.2⟩
      intro e
      exact hnodup.1 (hy.trans e.symm ▸ List.mem_map_of_mem hx)
    · have hput : put key a (y :: l) = y :: put key a l := by
        show (if key y = key a then a else y) :: put key a l = _
        rw [if_neg hy]
      rw [hput, List.pairwise_cons]
      refine ⟨?_, htail⟩
      intro x hx
      rcases mem_put.mp hx with ⟨rfl, _⟩ | ⟨hx, _⟩
      · exact hsymm _ _ (ha y List.mem_cons_self hy)
      · exact hl.1 x hx

/-! ## `remove` -/

theorem mem_remove : x ∈ remove key k l ↔ x ∈ l ∧ key x ≠ k := by
  simp [remove]

theorem remove_sublist : (remove key k l).Sublist l := List.filter_sublist

theorem nodup_remove (h : (l.map key).Nodup) : ((remove key k l).map key).Nodup :=
  (List.Sublist.map key remove_sublist).nodup h

theorem remove_of_notMem (h : k ∉ l.map key) : remove key k l = l := by
  apply List.filter_eq_self.mpr
  intro x hx
  have : key x ≠ k := fun e => h (e ▸ List.mem_map_of_mem hx)
  simpa using this

theorem remove_append_cons {l' : List α} (h : ((l ++ a :: l').map key).Nodup) :
    remove key (key a) (l ++ a :: l') = l ++ l' := by
  rw [List.map_append, List.map_cons] at h
  have hl : key a ∉ l.map key := fun hm =>
    (List.nodup_append.mp h).2.2 _ hm _ List.mem_cons_self rfl
  have hl' : key a ∉ l'.map key := (List.nodup_cons.mp (List.nodup_append.mp h).2.1).1
  have happ : remove key (key a) (l ++ a :: l') = remove key (key a) l ++ remove key (key a) l' := by
    unfold remove
    rw [List.filter_append, List.filter_cons_of_neg (by simp)]
  rw [happ, remove_of_notMem hl, remove_of_notMem hl']

theorem length_remove_of_mem (h : (l.map key).Nodup) (ha : a ∈ l) :
    (remove key (key a) l).length + 1 = l.length := by
  induction l with
  | nil => simp at ha
  | cons y l ih =>
    simp only [List.map_cons, List.nodup_cons] at h
    rcases List.mem_cons.mp ha with rfl | ha
    · -- the head goes and the tail holds no other copy of its key
      have htail : remove key (key a) l = l := remove_of_notMem h.1
      simp only [remove, ne_eq, not_true_eq_false, decide_false, Bool.false_eq_true,
        not_false_eq_true, List.filter_cons_of_neg, List.length_cons] at htail ⊢
      rw [htail]
    · have hne : key y ≠ key a := fun e => h.1 (e ▸ List.mem_map_of_mem ha)
      have := ih h.2 ha
      simp only [remove] at this ⊢
      rw [List.filter_cons_of_pos (by simpa using hne)]
      simp only [List.length_cons]
      omega

/-- What a total over the objects changes by when one is written. -/
theorem sum_map_put {f : α → ℕ} (h : (l.map key).Nodup) (hb : b ∈ l) (hk : key a = key b) :
    ((put key a l).map f).sum + f b = (l.map f).sum + f a := by
  induction l with
  | nil => cases hb
  | cons y l ih =>
    rw [List.map_cons, List.nodup_cons] at h
    rcases List.mem_cons.mp hb with rfl | hb
    · have htail : put key a l = l := put_of_notMem (hk ▸ h.1)
      unfold put at htail ⊢
      rw [List.map_cons, if_pos hk.symm, htail, List.map_cons, List.map_cons, List.sum_cons,
        List.sum_cons]
      omega
    · have hne : key y ≠ key a := fun e => h.1 (e.trans hk ▸ List.mem_map_of_mem hb)
      have htail := ih h.2 hb
      unfold put at htail ⊢
      rw [List.map_cons, if_neg hne, List.map_cons, List.map_cons, List.sum_cons, List.sum_cons]
      omega

/-- What a total over the objects changes by when one is taken out. -/
theorem sum_map_remove {f : α → ℕ} (h : (l.map key).Nodup) (ha : a ∈ l) :
    ((remove key (key a) l).map f).sum + f a = (l.map f).sum := by
  induction l with
  | nil => cases ha
  | cons y l ih =>
    rw [List.map_cons, List.nodup_cons] at h
    rcases List.mem_cons.mp ha with rfl | ha
    · have htail : remove key (key a) l = l := remove_of_notMem h.1
      unfold remove at htail ⊢
      rw [List.filter_cons_of_neg (by simp), htail, List.map_cons, List.sum_cons]
      omega
    · have hne : key y ≠ key a := fun e => h.1 (e ▸ List.mem_map_of_mem ha)
      have htail := ih h.2 ha
      unfold remove at htail ⊢
      rw [List.filter_cons_of_pos (by simpa using hne), List.map_cons, List.map_cons, List.sum_cons,
        List.sum_cons]
      omega

/-- Removing an object forgets what was last written to it. -/
theorem remove_put (hk : key a = k) : remove key k (put key a l) = remove key k l := by
  subst hk
  unfold remove put
  induction l with
  | nil => rfl
  | cons y l ih =>
    simp only [List.map_cons, List.filter_cons]
    by_cases h : key y = key a
    · simpa [h] using ih
    · simpa [h] using ih

/-! ## `update` -/

/-- Writes or removes the object with key `k`. -/
def update (key : α → κ) (k : κ) (o : Option α) (l : List α) : List α :=
  match o with
  | none => remove key k l
  | some a => put key a l

/-- Every entry of an updated list is the written object or an old entry with another key. -/
theorem mem_update {o : Option α} (hk : ∀ a, o = some a → key a = k) (hx : x ∈ update key k o l) :
    o = some x ∨ (x ∈ l ∧ key x ≠ k) := by
  cases o with
  | none => exact Or.inr (mem_remove.mp hx)
  | some a =>
    rcases mem_put.mp hx with ⟨rfl, _⟩ | ⟨h1, h2⟩
    · exact Or.inl rfl
    · exact Or.inr ⟨h1, fun e => h2 (e.trans (hk a rfl).symm)⟩

theorem mem_update_of_ne {o : Option α} (hk : ∀ a, o = some a → key a = k) (hx : key x ≠ k) :
    x ∈ update key k o l ↔ x ∈ l := by
  cases o with
  | none => rw [update, mem_remove]; tauto
  | some a =>
    have hxa : key x ≠ key a := fun e => hx (e.trans (hk a rfl))
    rw [update, mem_put]
    constructor
    · rintro (⟨rfl, _⟩ | ⟨h, _⟩)
      · exact absurd rfl hxa
      · exact h
    · intro h
      exact Or.inr ⟨h, hxa⟩

/-! ## `modify` -/

/-- Changes the object with key `k` in place. -/
def modify (key : α → κ) (k : κ) (f : α → α) (l : List α) : List α :=
  l.map fun x => if key x = k then f x else x

variable {f : α → α}

theorem mem_modify (hx : x ∈ modify key k f l) :
    ∃ y ∈ l, (key y = k ∧ x = f y) ∨ (key y ≠ k ∧ x = y) := by
  obtain ⟨y, hy, rfl⟩ := List.mem_map.mp hx
  refine ⟨y, hy, ?_⟩
  by_cases hk : key y = k
  · exact Or.inl ⟨hk, if_pos hk⟩
  · exact Or.inr ⟨hk, if_neg hk⟩

/-- What all objects satisfy, and the changed one still does. -/
theorem forall_modify {I : α → Prop} (h : ∀ y ∈ l, I y) (hf : ∀ y ∈ l, key y = k → I (f y)) :
    ∀ x ∈ modify key k f l, I x := by
  intro x hx
  obtain ⟨y, hy, ⟨hk, rfl⟩ | ⟨_, rfl⟩⟩ := mem_modify hx
  · exact hf y hy hk
  · exact h x hy

theorem map_key_modify (hf : ∀ x, key (f x) = key x) : (modify key k f l).map key = l.map key := by
  unfold modify
  rw [List.map_map]
  apply List.map_congr_left
  intro x _
  simp only [Function.comp_apply]
  split_ifs
  · exact hf x
  · rfl

/-- Two changes of one object are one change. -/
theorem modify_modify {g : α → α} (hf : ∀ x, key (f x) = key x) :
    modify key k g (modify key k f l) = modify key k (g ∘ f) l := by
  unfold modify
  rw [List.map_map]
  apply List.map_congr_left
  intro x _
  simp only [Function.comp_apply]
  by_cases h : key x = k
  · rw [if_pos h, if_pos h, if_pos ((hf x).trans h)]
  · rw [if_neg h, if_neg h, if_neg h]

/-- Changing an object in place is writing what it becomes. -/
theorem put_eq_modify (h : (l.map key).Nodup) (ha : a ∈ l) (hf : key (f a) = key a) :
    put key (f a) l = modify key (key a) f l := by
  apply List.map_congr_left
  intro x hx
  rw [hf]
  split_ifs with hk
  · rw [eq_of_key_eq h hx ha hk]
  · rfl

theorem modify_of_notMem (h : k ∉ l.map key) : modify key k f l = l := by
  unfold modify
  conv_rhs => rw [← List.map_id l]
  apply List.map_congr_left
  intro x hx
  have hk : key x ≠ k := fun e => h (e ▸ List.mem_map_of_mem hx)
  exact if_neg hk

/-- The object that changes, between those before and after it. -/
theorem modify_append_cons {l' : List α} (h : ((l ++ a :: l').map key).Nodup) :
    modify key (key a) f (l ++ a :: l') = l ++ f a :: l' := by
  rw [List.map_append, List.map_cons] at h
  have hl : key a ∉ l.map key := fun hm =>
    (List.nodup_append.mp h).2.2 _ hm _ List.mem_cons_self rfl
  have hl' : key a ∉ l'.map key := (List.nodup_cons.mp (List.nodup_append.mp h).2.1).1
  show (l ++ a :: l').map _ = _
  rw [List.map_append, List.map_cons, if_pos rfl]
  exact congrArg₂ _ (modify_of_notMem hl) (congrArg _ (modify_of_notMem hl'))

end Lib.Keyed
