import Mathlib.Data.List.AList
import Mathlib.Tactic

/-!
# Tables from which entries are dropped

A hash table of which only lookups, insertions and the number of entries of a
kind are used is an association list. The lemmas are about a table from which
the entries that fail a test have been erased, and about counting.

* `Table.lookup_filter`: a lookup after the erasure.
* `Table.countP_entries_eq`: tables with the same entries of a kind under every
  key have the same number of them.
-/

namespace Lib.Table

variable {κ ν : Type*} [DecidableEq κ] {p : ν → Bool}

theorem lookup_filter (t : AList fun _ : κ => ν) (p : ν → Bool)
    (h : (t.entries.filter fun e => p e.2).NodupKeys) (k : κ) :
    (AList.mk (t.entries.filter fun e => p e.2) h).lookup k = (t.lookup k).filter p := by
  apply Option.ext
  intro v
  rw [← Option.mem_def, ← Option.mem_def, AList.mem_lookup_iff, Option.mem_filter_iff,
    AList.mem_lookup_iff]
  exact List.mem_filter

theorem mem_filter_keys {t : AList fun _ : κ => ν} {k : κ} :
    k ∈ (t.entries.filter fun e => p e.2).keys ↔ (t.lookup k).any p = true := by
  rw [List.mem_keys, Option.any_eq_true]
  constructor
  · rintro ⟨v, hv⟩
    obtain ⟨hmem, hp⟩ := List.mem_filter.mp hv
    exact ⟨v, AList.mem_lookup_iff.mpr hmem, hp⟩
  · rintro ⟨v, hv, hp⟩
    exact ⟨v, List.mem_filter.mpr ⟨AList.mem_lookup_iff.mp hv, hp⟩⟩

theorem countP_entries_eq {t t' : AList fun _ : κ => ν}
    (h : ∀ k, (t.lookup k).any p = (t'.lookup k).any p) :
    (t.entries.countP fun e => p e.2) = t'.entries.countP fun e => p e.2 := by
  have hnodup : ∀ t : AList fun _ : κ => ν, (t.entries.filter fun e => p e.2).keys.Nodup :=
    fun t => List.NodupKeys.sublist List.filter_sublist t.nodupKeys
  have hperm : (t.entries.filter fun e => p e.2).keys.Perm (t'.entries.filter fun e => p e.2).keys := by
    refine (List.perm_ext_iff_of_nodup (hnodup t) (hnodup t')).mpr fun k => ?_
    rw [mem_filter_keys, mem_filter_keys, h k]
  rw [List.countP_eq_length_filter, List.countP_eq_length_filter]
  simpa [List.keys] using hperm.length_eq

end Lib.Table
