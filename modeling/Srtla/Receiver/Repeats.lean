import Srtla.Lib.Cells
import Srtla.Receiver.NakDedup

/-!
# Repeated NAKs, over runs (`src/utils/nak_dedup.cpp:25-50`)

A run is a sequence of calls to `should_accept_nak` with any hashes and any times,
on a cache that is empty at first. Nothing is ever erased from the cache, so that
an entry remembers for good how often its hash was accepted.

* `cells_nakDedup`: the cache is one small machine for every hash.
* `recounts_run`: what an entry says about the accepted calls.
* `naks_spaced_and_bounded`: when and how often calls for one hash are accepted.
-/

namespace Srtla.Receiver

open Lib

/-- A call for the hash of the entry is accepted. -/
def NakHashEntry.Accepts (e : NakHashEntry) (now : UInt64) : Prop :=
  e.timestampMs ≤ now ∧ suppressMs ≤ now - e.timestampMs ∧ e.repeatCount < maxRepeats

instance (e : NakHashEntry) (now : UInt64) : Decidable (e.Accepts now) :=
  inferInstanceAs (Decidable (_ ∧ _))

/-- The calls to `should_accept_nak`, a hash and a time each. -/
def nakDedup : Machine NakCache (UInt64 × UInt64) Bool where
  init := ∅
  step cache call :=
    let r := shouldAcceptNak cache call.1 call.2
    (r.2, [r.1])

/-- The calls for one hash, on its entry. -/
def nakCell : Machine (Option NakHashEntry) UInt64 Bool where
  init := none
  step entry now :=
    match entry with
    | none => (some { timestampMs := now, repeatCount := 0 }, [true])
    | some e =>
      if e.Accepts now then (some { timestampMs := now, repeatCount := e.repeatCount + 1 }, [true])
      else (some e, [false])

/-- The times of the accepted calls. -/
def acceptedTimes (log : List (UInt64 × List Bool)) : List UInt64 :=
  (log.filter fun p => p.2 = [true]).map Prod.fst

/-- `u` comes after `t`, by `SUPPRESS_MS` or more. -/
def Spaced (t u : UInt64) : Prop := t < u ∧ t.toNat + suppressMs.toNat ≤ u.toNat

/-! ## The entry of a hash -/

theorem shouldAcceptNak_none {cache : NakCache} {hash : UInt64} (h : cache.lookup hash = none) (now : UInt64) :
    shouldAcceptNak cache hash now = (true, cache.insert hash { timestampMs := now, repeatCount := 0 }) := by
  rw [shouldAcceptNak, h]

theorem shouldAcceptNak_some {cache : NakCache} {hash : UInt64} {e : NakHashEntry}
    (h : cache.lookup hash = some e) (now : UInt64) :
    shouldAcceptNak cache hash now =
      if e.Accepts now then
        (true, cache.insert hash { timestampMs := now, repeatCount := e.repeatCount + 1 })
      else (false, cache) := by
  rw [shouldAcceptNak, h]
  dsimp only
  by_cases haccept : e.Accepts now
  · rw [if_pos haccept, if_neg (UInt64.not_lt.mpr haccept.1), if_neg (UInt64.not_lt.mpr haccept.2.1),
      if_neg (not_le.mpr haccept.2.2)]
  · rw [if_neg haccept]
    split_ifs with hback hsoon hmany
    · rfl
    · rfl
    · rfl
    · exact absurd ⟨UInt64.not_lt.mp hback, UInt64.not_lt.mp hsoon, not_le.mp hmany⟩ haccept

/-- `should_accept_nak` reads and writes the entry of its hash only. -/
theorem cells_nakDedup : Machine.Cells nakDedup nakCell fun hash cache => cache.lookup hash where
  outs cache hash now := by
    show [(shouldAcceptNak cache hash now).1] = (nakCell.step (cache.lookup hash) now).2
    cases hentry : cache.lookup hash with
    | none => rw [shouldAcceptNak_none hentry]; rfl
    | some e =>
      rw [shouldAcceptNak_some hentry, nakCell]
      dsimp only
      split_ifs <;> rfl
  own cache hash now := by
    show (shouldAcceptNak cache hash now).2.lookup hash = (nakCell.step (cache.lookup hash) now).1
    cases hentry : cache.lookup hash with
    | none => rw [shouldAcceptNak_none hentry]; exact AList.lookup_insert _
    | some e =>
      rw [shouldAcceptNak_some hentry, nakCell]
      dsimp only
      split_ifs
      · exact AList.lookup_insert _
      · exact hentry
  other cache hash now hash' hne := by
    show (shouldAcceptNak cache hash now).2.lookup hash' = cache.lookup hash'
    cases hentry : cache.lookup hash with
    | none => rw [shouldAcceptNak_none hentry]; exact AList.lookup_insert_ne hne
    | some e =>
      rw [shouldAcceptNak_some hentry]
      split_ifs
      · exact AList.lookup_insert_ne hne
      · rfl

/-- A hash has an entry only if a call for it was accepted. -/
theorem exists_accepted_of_lookup {calls : List (UInt64 × UInt64)} {hash : UInt64} {e : NakHashEntry}
    (h : (nakDedup.run ∅ calls).lookup hash = some e) :
    ∃ before now after, calls = before ++ (hash, now) :: after ∧
      (shouldAcceptNak (nakDedup.run ∅ before) hash now).1 = true := by
  induction calls using List.reverseRecOn generalizing e with
  | nil => exact absurd h (by simp)
  | append_singleton calls call ih =>
    obtain ⟨hash', now⟩ := call
    cases hbefore : (nakDedup.run ∅ calls).lookup hash with
    | some e' =>
      obtain ⟨before, t, after, rfl, haccepted⟩ := ih hbefore
      exact ⟨before, t, after ++ [(hash', now)], by simp, haccepted⟩
    | none =>
      -- the last call has created the entry
      have hsame : hash = hash' := by
        by_contra hne
        rw [Machine.run_concat, cells_nakDedup.other _ hash' now hash hne, hbefore] at h
        cases h
      subst hsame
      refine ⟨calls, now, [], rfl, ?_⟩
      rw [shouldAcceptNak_none hbefore]

/-! ## What an entry remembers -/

/-- The entry against the times `ts` of the accepted calls: it has the last of them
    and counts those before it. -/
def Recounts (ts : List UInt64) : Option NakHashEntry → Prop
  | none => ts = []
  | some e => ∃ before, ts = before ++ [e.timestampMs] ∧ ts.Pairwise Spaced ∧
      (before.length : ℤ) = e.repeatCount ∧ e.repeatCount ≤ maxRepeats

theorem acceptedTimes_append (log log' : List (UInt64 × List Bool)) :
    acceptedTimes (log ++ log') = acceptedTimes log ++ acceptedTimes log' := by
  rw [acceptedTimes, List.filter_append, List.map_append]
  rfl

theorem Spaced.trans {t u v : UInt64} (h : Spaced t u) (h' : Spaced u v) : Spaced t v :=
  ⟨UInt64.lt_trans h.1 h'.1, by have := h.2; have := h'.2; omega⟩

theorem NakHashEntry.Accepts.spaced {e : NakHashEntry} {now : UInt64} (h : e.Accepts now) :
    Spaced e.timestampMs now := by
  obtain ⟨hle, hgap, -⟩ := h
  rw [UInt64.le_iff_toNat_le, UInt64.toNat_sub_of_le _ _ hle] at hgap
  rw [UInt64.le_iff_toNat_le] at hle
  have hpos : suppressMs.toNat = 100 := rfl
  refine ⟨UInt64.lt_iff_toNat_lt.mpr ?_, ?_⟩ <;> omega

/-- One call for the hash. -/
theorem Recounts.step {ts : List UInt64} {entry : Option NakHashEntry} (h : Recounts ts entry) (now : UInt64) :
    Recounts (ts ++ acceptedTimes [(now, (nakCell.step entry now).2)]) (nakCell.step entry now).1 := by
  cases entry with
  | none =>
    rw [show ts = [] from h]
    exact ⟨[], rfl, List.pairwise_singleton _ _, rfl, (by decide : (0 : ℤ) ≤ maxRepeats)⟩
  | some e =>
    obtain ⟨before, rfl, hspaced, hlength, hrepeats⟩ := h
    rw [nakCell]
    dsimp only
    split_ifs with haccept
    · have hnow : ∀ t ∈ before ++ [e.timestampMs], Spaced t now := by
        intro t ht
        rcases List.mem_append.mp ht with ht | ht
        · refine Spaced.trans ?_ haccept.spaced
          exact (List.pairwise_append.mp hspaced).2.2 t ht _ (List.mem_singleton_self _)
        · rw [List.mem_singleton.mp ht]
          exact haccept.spaced
      refine ⟨before ++ [e.timestampMs], rfl, ?_, ?_, Int.add_one_le_of_lt haccept.2.2⟩
      · refine List.pairwise_append.mpr ⟨hspaced, List.pairwise_singleton _ _, fun t ht u hu => ?_⟩
        rw [List.mem_singleton.mp hu]
        exact hnow t ht
      · rw [List.length_append, List.length_singleton, Nat.cast_add, hlength]
        rfl
    · have hnone : acceptedTimes [(now, [false])] = [] := rfl
      rw [hnone, List.append_nil]
      exact ⟨before, rfl, hspaced, hlength, hrepeats⟩

/-- The entry after a run. -/
theorem recounts_run (times : List UInt64) :
    Recounts (acceptedTimes (nakCell.log none times)) (nakCell.run none times) := by
  have hempty : Recounts (acceptedTimes []) none := rfl
  refine Machine.log_invariant (R := fun log entry => Recounts (acceptedTimes log) entry) hempty ?_ times
  intro log entry now h
  rw [acceptedTimes_append]
  exact h.step now

theorem Recounts.pairwise {ts : List UInt64} {entry : Option NakHashEntry} (h : Recounts ts entry) :
    ts.Pairwise Spaced := by
  cases entry with
  | none => rw [show ts = [] from h]; exact List.Pairwise.nil
  | some e => exact h.choose_spec.2.1

theorem Recounts.length_le {ts : List UInt64} {entry : Option NakHashEntry} (h : Recounts ts entry) :
    (ts.length : ℤ) ≤ 1 + maxRepeats := by
  cases entry with
  | none => rw [show ts = [] from h]; decide
  | some e =>
    obtain ⟨before, rfl, -, hlength, hrepeats⟩ := h
    rw [List.length_append, List.length_singleton, Nat.cast_add, hlength, add_comm]
    exact add_le_add_right hrepeats 1

/-- **Repeated NAKs are spaced and bounded**, for every sequence of calls. The first
    call for a hash is accepted, no hash is accepted more than `1 + MAX_REPEATS`
    times, two accepted calls for a hash are `SUPPRESS_MS` or more apart, the later
    one with the larger time, and the answers for a hash are those that its own
    calls alone would get. -/
theorem naks_spaced_and_bounded (calls : List (UInt64 × UInt64)) (hash : UInt64) :
    (∀ before now after, calls = before ++ (hash, now) :: after → (∀ c ∈ before, c.1 ≠ hash) →
      (shouldAcceptNak (nakDedup.run ∅ before) hash now).1 = true) ∧
    ((acceptedTimes (nakDedup.logFor ∅ hash calls)).length : ℤ) ≤ 1 + maxRepeats ∧
    (acceptedTimes (nakDedup.logFor ∅ hash calls)).Pairwise Spaced ∧
    nakDedup.logFor ∅ hash calls = nakDedup.logFor ∅ hash (calls.filter fun c => c.1 = hash) := by
  have hcell := recounts_run (Machine.inputsFor hash calls)
  have hlog := cells_nakDedup.logFor_eq hash ∅ calls
  rw [show (∅ : NakCache).lookup hash = none from AList.lookup_empty hash] at hlog
  rw [← hlog] at hcell
  refine ⟨?_, hcell.length_le, hcell.pairwise, cells_nakDedup.logFor_filter hash ∅ calls⟩
  intro before now after _ hfirst
  have hnone : (nakDedup.run ∅ before).lookup hash = none := by
    rw [cells_nakDedup.view_run hash ∅ before, Machine.inputsFor_of_forall_ne hfirst]
    exact AList.lookup_empty hash
  rw [shouldAcceptNak_none hnone]

/-- Four NAKs with one hash, at 1000, 1050, 900 and 5000 ms, and one with another
    between them. -/
theorem naks_spaced_and_bounded_four :
    (shouldAcceptNak (nakDedup.run ∅ []) 7 1000).1 = true ∧
    acceptedTimes (nakDedup.logFor ∅ 7 [(7, 1000), (7, 1050), (8, 1060), (7, 900), (7, 5000)]) =
      [1000, 5000] ∧
    Spaced 1000 5000 := by
  obtain ⟨hfirst, -, hspaced, -⟩ :=
    naks_spaced_and_bounded [(7, 1000), (7, 1050), (8, 1060), (7, 900), (7, 5000)] 7
  have haccepted : acceptedTimes (nakDedup.logFor ∅ 7 [(7, 1000), (7, 1050), (8, 1060), (7, 900), (7, 5000)]) =
      [1000, 5000] := by decide
  rw [haccepted] at hspaced
  refine ⟨hfirst [] 1000 _ rfl (fun c hc => absurd hc List.not_mem_nil), haccepted, ?_⟩
  exact (List.pairwise_cons.mp hspaced).1 _ (List.mem_singleton_self _)

end Srtla.Receiver
