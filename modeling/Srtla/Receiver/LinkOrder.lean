import Srtla.Lib.Passes
import Srtla.Receiver.Handshake
import Srtla.Receiver.Quality

/-!
# Evaluation and the order of the links (`src/quality/quality_evaluator.cpp:60-285`)

`evaluate_group` goes over the connections twice. The first loop measures them, adds up
`total_target_bandwidth` and appends to `bandwidth_info`; the second one goes over both
vectors by index. `evaluateGroupLoops` has these loops. They are the two maps of
`evaluateGroup` (`evaluateGroupLoops_eq`): a connection that is skipped in its grace
period does not shift the measurements of those after it.

All else that a connection is judged by belongs to the group: the total, the largest
throughput, the median and the number of connections. None of these depends on the order
of the list, and adjusting the weights looks at one connection at a time.

* `Uniform`: an operation on groups for which the order of the connections makes no
  difference; `Uniform.comp`.
* `scores_any_order`: evaluation and adjustment give a connection the same scores
  wherever it stands.
-/

namespace Srtla.Receiver

open Lib Lib.Passes

/-! ## The loops -/

/-- `evaluate_group` with its loops: `collect` is lines 60-92 and `zipLoop` lines 144-282. -/
def evaluateGroupLoops (g : ConnectionGroup) (currentTime : ℤ) (ms : Option UInt64)
    (fl : ℚ → ℚ := unrounded) : ConnectionGroup :=
  if g.conns.isEmpty || !g.loadBalancingEnabled then g
  else if g.lastQualityEval + connQualityEvalPeriod > currentTime then g
  else
    match ms with
    | none => { g with totalTargetBandwidth := 0 }
    | some currentMs =>
      let measured := collect (fun c => c.stats.measuredBandwidth currentMs fl)
        (fun c => c.stats.measure currentMs fl) 0 [] g.conns
      let bandwidthInfo := measured.2
      let median := medianKbits (bandwidthInfo.map QualityMetrics.bandwidthKbitsPerSec) fl
      let minExpected := minExpectedKbits bandwidthInfo.length fl
      { g with
        totalTargetBandwidth := measured.1
        conns := zipLoop (fun m c => c.evaluateMeasured m median minExpected currentTime currentMs fl)
          bandwidthInfo g.conns
        lastQualityEval := currentTime }

/-- **The loops of `evaluate_group` pair every connection with its own measurement.** -/
theorem evaluateGroupLoops_eq (g : ConnectionGroup) (t : ℤ) (ms : Option UInt64) (fl : ℚ → ℚ) :
    evaluateGroupLoops g t ms fl = evaluateGroup g t ms fl := by
  unfold evaluateGroupLoops evaluateGroup
  split_ifs
  · rfl
  · rfl
  · cases ms with
    | none => rfl
    | some ms =>
      dsimp only
      rw [collect_eq, List.nil_append, zero_add]
      dsimp only
      rw [zipLoop_map, List.map_map, List.length_map]
      rfl

/-! ## What the order does not change -/

theorem ne_nil_perm {α : Type*} {l l' : List α} (h : l.Perm l') : l ≠ [] ↔ l' ≠ [] := by
  rw [← List.length_pos_iff, h.length_eq, List.length_pos_iff]

section Order

variable {l l' : List ℚ}

theorem computeMedian_perm (h : l.Perm l') (fl : ℚ → ℚ) : computeMedian l fl = computeMedian l' fl := by
  have hsorted : l.insertionSort (· ≤ ·) = l'.insertionSort (· ≤ ·) :=
    (((List.perm_insertionSort _ l).trans h).trans (List.perm_insertionSort _ l').symm).eq_of_pairwise'
      (List.pairwise_insertionSort _ _) (List.pairwise_insertionSort _ _)
  rw [computeMedian, computeMedian, hsorted]

theorem maxKbits_perm (h : l.Perm l') : maxKbits l = maxKbits l' := h.foldl_eq 0

theorem goodBandwidths_perm (h : l.Perm l') (fl : ℚ → ℚ) :
    (goodBandwidths l fl).Perm (goodBandwidths l' fl) := by
  unfold goodBandwidths
  rw [maxKbits_perm h]
  exact h.filter _

theorem medianKbits_perm (h : l.Perm l') (fl : ℚ → ℚ) : medianKbits l fl = medianKbits l' fl := by
  have hgood := goodBandwidths_perm h fl
  unfold medianKbits
  simp only [ne_nil_perm h, ne_nil_perm hgood, maxKbits_perm h, computeMedian_perm h, computeMedian_perm hgood]

end Order

/-! ## Operations on groups -/

/-- The operation treats a connection in one way, wherever it stands in the list, and the
    rest of the group does not depend on the order of the list. -/
def Uniform (op : ConnectionGroup → ConnectionGroup) : Prop :=
  ∀ (g : ConnectionGroup) (conns' : List Connection), conns'.Perm g.conns →
    ∃ f : Connection → Connection, (op g).conns = g.conns.map f ∧
      op { g with conns := conns' } = { op g with conns := conns'.map f }

/-- Nothing happens to the connections. -/
theorem exists_map_self (g : ConnectionGroup) (conns' : List Connection) :
    ∃ f : Connection → Connection, g.conns = g.conns.map f ∧
      ({ g with conns := conns' } : ConnectionGroup) = { g with conns := conns'.map f } :=
  ⟨id, by rw [List.map_id], by rw [List.map_id]⟩

theorem Uniform.comp {op op' : ConnectionGroup → ConnectionGroup} (h : Uniform op) (h' : Uniform op') :
    Uniform fun g => op' (op g) := by
  intro g conns' hperm
  obtain ⟨f, hconns, hother⟩ := h g conns' hperm
  have hmapped : (conns'.map f).Perm (op g).conns := hconns ▸ hperm.map f
  obtain ⟨f', hconns', hother'⟩ := h' (op g) (conns'.map f) hmapped
  refine ⟨f' ∘ f, ?_, ?_⟩
  · rw [hconns', hconns, List.map_map]
  · show op' (op { g with conns := conns' }) = _
    rw [hother, hother', List.map_map]

theorem evalDue_perm {g : ConnectionGroup} {conns' : List Connection} (h : conns'.Perm g.conns) (t : ℤ) :
    ({ g with conns := conns' } : ConnectionGroup).EvalDue t ↔ g.EvalDue t :=
  ⟨fun hdue => ⟨(ne_nil_perm h).mp hdue.nonempty, hdue.enabled, hdue.due⟩,
    fun hdue => ⟨(ne_nil_perm h).mpr hdue.nonempty, hdue.enabled, hdue.due⟩⟩

theorem uniform_evaluateGroup (t : ℤ) (ms : Option UInt64) (fl : ℚ → ℚ) :
    Uniform fun g => evaluateGroup g t ms fl := by
  intro g conns' hperm
  by_cases hdue : g.EvalDue t
  · have hdue' := (evalDue_perm hperm t).mpr hdue
    cases ms with
    | none =>
      dsimp only
      rw [hdue.evaluateGroup_none, hdue'.evaluateGroup_none]
      exact exists_map_self { g with totalTargetBandwidth := 0 } conns'
    | some ms =>
      have hmedian : ({ g with conns := conns' } : ConnectionGroup).median ms fl = g.median ms fl :=
        medianKbits_perm (hperm.map _) fl
      have htotal : (conns'.map fun c => c.stats.measuredBandwidth ms fl).sum =
          (g.conns.map fun c => c.stats.measuredBandwidth ms fl).sum := (hperm.map _).sum_eq
      -- the function is the second loop's body, with the median and the share of this group
      dsimp only
      rw [hdue.evaluateGroup, hdue'.evaluateGroup, hmedian]
      dsimp only
      rw [htotal, hperm.length_eq]
      exact ⟨_, rfl, rfl⟩
  · dsimp only
    rw [evaluateGroup_of_not_due hdue, evaluateGroup_of_not_due (mt (evalDue_perm hperm t).mp hdue)]
    exact exists_map_self g conns'

theorem uniform_adjustWeights (t : ℤ) : Uniform fun g => adjustWeights g t := by
  intro g conns' hperm
  have hempty : conns'.isEmpty = g.conns.isEmpty := by
    rw [Bool.eq_iff_iff, List.isEmpty_iff_length_eq_zero, List.isEmpty_iff_length_eq_zero, hperm.length_eq]
  unfold adjustWeights
  dsimp only
  rw [hempty]
  split_ifs
  · exact exists_map_self g conns'
  · exact exists_map_self g conns'
  · exact exists_map_self g conns'
  · exact ⟨_, rfl, rfl⟩

/-! ## Scores in any order -/

/-- `evaluate_group` at `t`, with the reading `ms` of the clock, and then `adjust_weights`
    at `t'`. The main loop calls both with one time (`src/receiver_main.cpp:225-230`). -/
def ConnectionGroup.scored (g : ConnectionGroup) (t : ℤ) (ms : Option UInt64) (t' : ℤ)
    (fl : ℚ → ℚ := unrounded) : ConnectionGroup :=
  adjustWeights (evaluateGroupLoops g t ms fl) t'

theorem uniform_scored (t : ℤ) (ms : Option UInt64) (t' : ℤ) (fl : ℚ → ℚ) :
    Uniform fun g => g.scored t ms t' fl := by
  have hcomp := (uniform_evaluateGroup t ms fl).comp (uniform_adjustWeights t')
  simp only [← evaluateGroupLoops_eq] at hcomp
  exact hcomp

/-- **Scores do not depend on the order of the links.** A connection comes out of an
    evaluation and an adjustment of the weights as the same connection, wherever it
    stands in the list, and the group with the same total. This is so in doubles as it
    is in exact arithmetic. -/
theorem scores_any_order {g : ConnectionGroup} {conns' : List Connection} (hperm : conns'.Perm g.conns)
    (t : ℤ) (ms : Option UInt64) (t' : ℤ) (fl : ℚ → ℚ) :
    (({ g with conns := conns' } : ConnectionGroup).scored t ms t' fl).totalTargetBandwidth =
        (g.scored t ms t' fl).totalTargetBandwidth ∧
      ∀ (i j : ℕ) (c : Connection), g.conns[i]? = some c → conns'[j]? = some c →
        ∃ after : Connection, (g.scored t ms t' fl).conns[i]? = some after ∧
          (({ g with conns := conns' } : ConnectionGroup).scored t ms t' fl).conns[j]? = some after := by
  obtain ⟨f, hconns, hother⟩ := uniform_scored t ms t' fl g conns' hperm
  dsimp only at hconns hother
  rw [hother, hconns]
  refine ⟨rfl, fun i j c hi hj => ⟨f c, ?_, ?_⟩⟩
  · rw [List.getElem?_map, hi, Option.map_some]
  · rw [List.getElem?_map, hj, Option.map_some]

/-- A connection that has received `bytes` bytes in the second before 2000 ms. -/
def orderedLink (ref : ℕ) (bytes : UInt64) (start : ℤ) : Connection :=
  { Connection.create ref (sampleAddr (UInt16.ofNat ref)) start with
    stats := { lastEvalTime := 1000, bytesReceived := bytes, packetsReceived := 100 } }

/-- A group with a fast link, a link in its grace period and a slow link. -/
def orderedGroup : ConnectionGroup :=
  { ConnectionGroup.create 0 default default 0 (sampleAddr 1) with
    conns := [orderedLink 1 125000 0, orderedLink 2 125000 99, orderedLink 3 25000 0] }

/-- The slow link is scored after the link in its grace period or before it. -/
theorem scores_any_order_reversed :
    ∃ after : Connection, (orderedGroup.scored 100 (some 2000) 100 double).conns[2]? = some after ∧
      (({ orderedGroup with conns := orderedGroup.conns.reverse } : ConnectionGroup).scored
        100 (some 2000) 100 double).conns[0]? = some after ∧
      after.stats.errorPoints = 15 ∧ after.stats.weightPercent = weightFair := by
  obtain ⟨after, hthird, hfirst⟩ :=
    (scores_any_order (g := orderedGroup) (List.reverse_perm _) 100 (some 2000) 100 double).2 2 0 _ rfl rfl
  have hscores : (orderedGroup.scored 100 (some 2000) 100 double).conns[2]?.map
      (fun c => (c.stats.errorPoints, c.stats.weightPercent)) = some (15, weightFair) := by decide +kernel
  rw [hthird, Option.map_some, Option.some.injEq, Prod.mk.injEq] at hscores
  exact ⟨after, hthird, hfirst, hscores⟩

end Srtla.Receiver
