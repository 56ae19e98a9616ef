import Mathlib.Data.List.Sort
import Mathlib.Data.UInt
import Srtla.Lib.Double
import Srtla.Receiver.State

/-!
# Quality evaluation and load balancing (`src/quality/`)

`evaluate_group` measures every connection of a group, compares it with the
median of the good ones and assigns error points; `adjust_weights` turns error
points into weights. `double` values are rationals. What the receiver measures and
compares is a function of the rounding `fl` of each result. `Lib.double` is the
arithmetic of the program. By default nothing is rounded, and that is how the runs of
the receiver evaluate.

The penalties for telemetry are exact; their one square root
(`calculate_rtt_variance`) is only compared with a constant and is modelled by its
square. Values that are only logged (`validate_bitrate`, the totals) are left out.

`evaluateGroup_frame` and `adjustWeights_frame` say what evaluation leaves
alone: everything but statistics, the bandwidth total and the evaluation times.
-/

namespace Srtla.Receiver

open Lib

/-! ## Metrics collection (`src/quality/metrics_collector.cpp:5-15`) -/

/-- `on_packet_received`. -/
def ConnectionStats.onPacketReceived (st : ConnectionStats) (bytes : ℕ) : ConnectionStats :=
  { st with bytesReceived := st.bytesReceived + UInt64.ofNat bytes,
            packetsReceived := st.packetsReceived + 1 }

/-- `on_nak_detected`. -/
def ConnectionStats.onNakDetected (st : ConnectionStats) (nakCount : UInt32) : ConnectionStats :=
  { st with packetsLost := st.packetsLost + nakCount,
            nackCount := st.nackCount + nakCount.toUInt16 }

/-! ## Measurement (`src/quality/quality_evaluator.cpp:63-92`) -/

/-- `struct QualityMetrics` without the unused error points. -/
structure QualityMetrics where
  bandwidthKbitsPerSec : ℚ := 0
  packetLossRatio : ℚ := 0
  packetsDiff : UInt64 := 0

/-- `time_diff_ms`: zero before the first evaluation. -/
def ConnectionStats.timeDiffMs (st : ConnectionStats) (currentMs : UInt64) : UInt64 :=
  if st.lastEvalTime > 0 then currentMs - st.lastEvalTime else 0

/-- `bandwidth_bytes_per_sec`, for a positive time difference. -/
def ConnectionStats.bandwidthBytesPerSec (st : ConnectionStats) (currentMs : UInt64)
    (fl : ℚ → ℚ := unrounded) : ℚ :=
  let bytesDiff := st.bytesReceived - st.lastBytesReceived
  let seconds := fl (fl (st.timeDiffMs currentMs).toNat / 1000)
  fl (fl bytesDiff.toNat / seconds)

/-- The first loop's body on one connection. -/
def ConnectionStats.measure (st : ConnectionStats) (currentMs : UInt64) (fl : ℚ → ℚ := unrounded) :
    QualityMetrics :=
  if st.timeDiffMs currentMs > 0 then
    let packetsDiff := st.packetsReceived - st.lastPacketsReceived
    let lostDiff := st.packetsLost - st.lastPacketsLost
    { bandwidthKbitsPerSec := fl (fl (st.bandwidthBytesPerSec currentMs fl * 8) / 1000)
      packetLossRatio :=
        if packetsDiff > 0 then fl (fl lostDiff.toNat / fl (packetsDiff + lostDiff.toUInt64).toNat)
        else 0
      packetsDiff := packetsDiff }
  else {}

/-- What the first loop adds to `total_target_bandwidth` for one connection. -/
def ConnectionStats.measuredBandwidth (st : ConnectionStats) (currentMs : UInt64)
    (fl : ℚ → ℚ := unrounded) : UInt64 :=
  if st.timeDiffMs currentMs > 0 then
    UInt64.ofNat (Rat.floor (st.bandwidthBytesPerSec currentMs fl)).toNat
  else 0

/-! ## Medians (`src/quality/quality_evaluator.cpp:98-138`) -/

/-- `compute_median`. -/
def computeMedian (values : List ℚ) (fl : ℚ → ℚ := unrounded) : ℚ :=
  let values := values.insertionSort (· ≤ ·)
  let mid := values.length / 2
  if values.length % 2 = 0 then fl (fl (values.getD (mid - 1) 0 + values.getD mid 0) / 2)
  else values.getD mid 0

/-- `max_kbits_per_sec`. -/
def maxKbits (bandwidths : List ℚ) : ℚ := bandwidths.foldl max 0

/-- `good_bandwidths`. -/
def goodBandwidths (bandwidths : List ℚ) (fl : ℚ → ℚ := unrounded) : List ℚ :=
  bandwidths.filter fun bw => decide (fl (maxKbits bandwidths * goodConnectionThreshold) ≤ bw)

/-- `median_kbits_per_sec`. -/
def medianKbits (bandwidths : List ℚ) (fl : ℚ → ℚ := unrounded) : ℚ :=
  if bandwidths ≠ [] ∧ maxKbits bandwidths > 0 then
    if goodBandwidths bandwidths fl ≠ [] then computeMedian (goodBandwidths bandwidths fl) fl
    else computeMedian bandwidths fl
  else 0

/-- `min_expected_kbits_per_sec` for a group of `n` connections. -/
def minExpectedKbits (n : ℕ) (fl : ℚ → ℚ := unrounded) : ℚ :=
  max 100 (fl (minAcceptableTotalBandwidthKbps / n))

/-! ## Error points (`src/quality/quality_evaluator.cpp:144-241`, `287-456`) -/

/-- Bandwidth penalty of a sender with extended keepalives. -/
def lightBandwidthPenalty (ratio : ℚ) (fl : ℚ → ℚ := unrounded) : UInt32 :=
  if ratio < fl (30 / 100) then 10
  else if ratio < fl (50 / 100) then 7
  else if ratio < fl (70 / 100) then 4
  else if ratio < fl (85 / 100) then 2
  else 0

/-- Bandwidth penalty of a legacy sender, and of the legacy algorithm. -/
def legacyBandwidthPenalty (ratio : ℚ) (fl : ℚ → ℚ := unrounded) : UInt32 :=
  if ratio < fl (30 / 100) then 40
  else if ratio < fl (50 / 100) then 25
  else if ratio < fl (70 / 100) then 15
  else if ratio < fl (85 / 100) then 5
  else 0

/-- Packet loss penalty, the same in both algorithms. -/
def lossPenalty (ratio : ℚ) (fl : ℚ → ℚ := unrounded) : UInt32 :=
  if ratio > fl (20 / 100) then 40
  else if ratio > fl (10 / 100) then 20
  else if ratio > fl (5 / 100) then 10
  else if ratio > fl (1 / 100) then 5
  else 0

/-- The square of `calculate_rtt_variance`
    (`src/quality/quality_evaluator.cpp:287-310`). -/
def rttVarianceSq (st : ConnectionStats) : ℚ :=
  let samples := (st.rttHistory.filter fun r => decide (r > 0)).map fun r => (r.toNat : ℚ)
  let count := samples.length
  if count < 2 then 0
  else
    let mean := samples.sum / count
    (samples.map fun r => (r - mean) * (r - mean)).sum / count

/-- `calculate_rtt_error_points` (`src/quality/quality_evaluator.cpp:312-336`). -/
def calculateRttErrorPoints (st : ConnectionStats) (currentTime : ℤ) : UInt32 :=
  if st.lastKeepalive = 0 ∨ currentTime - st.lastKeepalive > keepaliveStalenessThreshold then 0
  else
    let points : UInt32 :=
      if st.rttMs > rttThresholdCritical then 20
      else if st.rttMs > rttThresholdHigh then 10
      else if st.rttMs > rttThresholdModerate then 5
      else 0
    if rttVarianceSq st > rttVarianceThreshold * rttVarianceThreshold then points + 10 else points

/-- `calculate_nak_error_points` (`src/quality/quality_evaluator.cpp:338-359`):
    the points, and the statistics with `last_sender_nak_count` moved on. -/
def calculateNakErrorPoints (st : ConnectionStats) (packetsDiff : UInt64) :
    UInt32 × ConnectionStats :=
  if packetsDiff = 0 ∨ st.senderNakCount = 0 then (0, st)
  else
    let nakDiff := st.senderNakCount - st.lastSenderNakCount
    let nakRate : ℚ := nakDiff.toNat / packetsDiff.toNat
    let points : UInt32 :=
      if nakRate > nakRateCritical then 40
      else if nakRate > nakRateHigh then 20
      else if nakRate > nakRateModerate then 10
      else if nakRate > nakRateLow then 5
      else 0
    (points, { st with lastSenderNakCount := st.senderNakCount })

/-- `calculate_window_error_points` (`src/quality/quality_evaluator.cpp:361-379`). -/
def calculateWindowErrorPoints (st : ConnectionStats) : UInt32 :=
  if st.window ≤ 0 then 0
  else if (st.inFlight : ℚ) / st.window > windowUtilizationCongested then 15 else 0

/-- The weight of the legacy algorithm for a number of error points
    (`src/quality/quality_evaluator.cpp:441-454`). -/
def legacyWeightFor (points : UInt32) : UInt8 :=
  if points ≥ 40 then weightCritical
  else if points ≥ 30 then weightPoor
  else if points ≥ 20 then weightFair
  else if points ≥ 10 then weightDegraded
  else if points ≥ 5 then weightExcellent
  else weightFull

/-- `evaluate_connection_legacy` (`src/quality/quality_evaluator.cpp:402-456`). -/
def evaluateConnectionLegacy (st : ConnectionStats) (packetLossRatio performanceRatio : ℚ)
    (fl : ℚ → ℚ := unrounded) : ConnectionStats :=
  let points := legacyBandwidthPenalty performanceRatio fl + lossPenalty packetLossRatio fl
  { st with
    legacyErrorPoints := points
    legacyWeightPercent := legacyWeightFor points }

/-- `performance_ratio` of a connection measured as `m`, in a group with the
    given median and minimum expectation. -/
def performanceRatio (median minExpected : ℚ) (m : QualityMetrics) (fl : ℚ → ℚ := unrounded) : ℚ :=
  let isPoor := decide (m.bandwidthKbitsPerSec < fl (median * goodConnectionThreshold))
  let expected := max (if isPoor then minExpected else median) minExpected
  if expected > 0 then fl (m.bandwidthKbitsPerSec / expected) else 0

/-- The bandwidth penalty, by the kind of sender (lines 183-206). -/
def ConnectionStats.bandwidthPenalty (st : ConnectionStats) (ratio : ℚ) (fl : ℚ → ℚ := unrounded) : UInt32 :=
  if st.senderSupportsExtendedKeepalives then lightBandwidthPenalty ratio fl
  else legacyBandwidthPenalty ratio fl

/-- `telemetry_error_points` (lines 224-241). -/
def ConnectionStats.telemetryPoints (st : ConnectionStats) (currentTime : ℤ) (packetsDiff : UInt64) :
    UInt32 :=
  if st.hasValidSenderTelemetry currentTime then
    calculateRttErrorPoints st currentTime + (calculateNakErrorPoints st packetsDiff).1 +
      calculateWindowErrorPoints st
  else 0

/-- The second loop's body on one connection that is measured as `m` and is out of
    its grace period. -/
def ConnectionStats.scoreMeasured (st : ConnectionStats) (m : QualityMetrics) (median minExpected : ℚ)
    (currentTime : ℤ) (currentMs : UInt64) (fl : ℚ → ℚ := unrounded) : ConnectionStats :=
  let ratio := performanceRatio median minExpected m fl
  let receiverPoints := st.bandwidthPenalty ratio fl + lossPenalty m.packetLossRatio fl
  let st' :=
    if st.hasValidSenderTelemetry currentTime then (calculateNakErrorPoints st m.packetsDiff).2 else st
  evaluateConnectionLegacy
    { st' with
      errorPoints := receiverPoints + st.telemetryPoints currentTime m.packetsDiff
      lastBytesReceived := st.bytesReceived
      lastPacketsReceived := st.packetsReceived
      lastPacketsLost := st.packetsLost
      lastEvalTime := currentMs
      nackCount := 0 }
    m.packetLossRatio ratio fl

/-- The same with the connection's own measurement. -/
def ConnectionStats.score (st : ConnectionStats) (median minExpected : ℚ) (currentTime : ℤ)
    (currentMs : UInt64) (fl : ℚ → ℚ := unrounded) : ConnectionStats :=
  st.scoreMeasured (st.measure currentMs fl) median minExpected currentTime currentMs fl

/-- The second loop's body: connections in their grace period are skipped. -/
def Connection.evaluateMeasured (c : Connection) (m : QualityMetrics) (median minExpected : ℚ)
    (currentTime : ℤ) (currentMs : UInt64) (fl : ℚ → ℚ := unrounded) : Connection :=
  if currentTime - c.connectionStart < connectionGracePeriod then c
  else { c with stats := c.stats.scoreMeasured m median minExpected currentTime currentMs fl }

/-- The same with the connection's own measurement. -/
def Connection.evaluate (c : Connection) (median minExpected : ℚ) (currentTime : ℤ)
    (currentMs : UInt64) (fl : ℚ → ℚ := unrounded) : Connection :=
  c.evaluateMeasured (c.stats.measure currentMs fl) median minExpected currentTime currentMs fl

/-- `median_kbits_per_sec` of the group. -/
def ConnectionGroup.median (g : ConnectionGroup) (ms : UInt64) (fl : ℚ → ℚ := unrounded) : ℚ :=
  medianKbits (g.conns.map fun c => (c.stats.measure ms fl).bandwidthKbitsPerSec) fl

/-- `evaluate_group` (`src/quality/quality_evaluator.cpp:41-285`). `ms` is the
    time `get_ms` reads, `none` when it fails. -/
def evaluateGroup (g : ConnectionGroup) (currentTime : ℤ) (ms : Option UInt64) (fl : ℚ → ℚ := unrounded) :
    ConnectionGroup :=
  if g.conns.isEmpty || !g.loadBalancingEnabled then g
  else if g.lastQualityEval + connQualityEvalPeriod > currentTime then g
  else
    match ms with
    | none => { g with totalTargetBandwidth := 0 }
    | some currentMs =>
      let minExpected := minExpectedKbits g.conns.length fl
      { g with
        totalTargetBandwidth := (g.conns.map fun c => c.stats.measuredBandwidth currentMs fl).sum
        conns := g.conns.map fun c =>
          c.evaluate (g.median currentMs fl) minExpected currentTime currentMs fl
        lastQualityEval := currentTime }

/-! ## Load balancing (`src/quality/load_balancer.cpp:17-72`) -/

/-- The weight for a number of error points. -/
def weightFor (errorPoints : UInt32) : UInt8 :=
  if errorPoints ≥ 40 then weightCritical
  else if errorPoints ≥ 25 then weightPoor
  else if errorPoints ≥ 15 then weightFair
  else if errorPoints ≥ 10 then weightDegraded
  else if errorPoints ≥ 5 then weightExcellent
  else weightFull

/-- `adjust_weights` (`src/quality/load_balancer.cpp:17-72`). -/
def adjustWeights (g : ConnectionGroup) (currentTime : ℤ) : ConnectionGroup :=
  if g.conns.isEmpty then g
  else if g.loadBalancingEnabled && decide (g.lastLoadBalanceEval ≥ g.lastQualityEval) then g
  else if !g.loadBalancingEnabled && (decide (g.lastLoadBalanceEval ≠ 0) &&
      decide (g.lastLoadBalanceEval + connQualityEvalPeriod > currentTime)) then g
  else
    { g with
      lastLoadBalanceEval := currentTime
      conns := g.conns.map fun c =>
        { c with stats := { c.stats with weightPercent := weightFor c.stats.errorPoints } } }

/-! ## Evaluations that run to completion -/

/-- No early return of `evaluate_group` at time `t`, but for a clock that fails. -/
structure ConnectionGroup.EvalDue (g : ConnectionGroup) (t : ℤ) : Prop where
  nonempty : g.conns ≠ []
  enabled : g.loadBalancingEnabled = true
  due : g.lastQualityEval + connQualityEvalPeriod ≤ t

/-- `performance_ratio` of the connection `c` of the group. -/
def ConnectionGroup.ratio (g : ConnectionGroup) (ms : UInt64) (c : Connection) (fl : ℚ → ℚ := unrounded) : ℚ :=
  performanceRatio (g.median ms fl) (minExpectedKbits g.conns.length fl) (c.stats.measure ms fl) fl

variable {g : ConnectionGroup} {t : ℤ} {fl : ℚ → ℚ}

theorem Connection.evaluate_eq (c : Connection) (median minExpected : ℚ) (ms : UInt64) :
    c.evaluate median minExpected t ms fl =
      if t - c.connectionStart < connectionGracePeriod then c
      else { c with stats := c.stats.score median minExpected t ms fl } := rfl

theorem ConnectionGroup.EvalDue.evaluateGroup (h : g.EvalDue t) (ms : UInt64) :
    evaluateGroup g t (some ms) fl =
      { g with
        totalTargetBandwidth := (g.conns.map fun c => c.stats.measuredBandwidth ms fl).sum
        conns := g.conns.map fun c =>
          c.evaluate (g.median ms fl) (minExpectedKbits g.conns.length fl) t ms fl
        lastQualityEval := t } := by
  unfold Receiver.evaluateGroup
  rw [if_neg (by simp [h.nonempty, h.enabled]), if_neg (not_lt.mpr h.due)]

theorem ConnectionGroup.EvalDue.evaluateGroup_none (h : g.EvalDue t) :
    Receiver.evaluateGroup g t none fl = { g with totalTargetBandwidth := 0 } := by
  unfold Receiver.evaluateGroup
  rw [if_neg (by simp [h.nonempty, h.enabled]), if_neg (not_lt.mpr h.due)]

theorem evaluateGroup_of_not_due (h : ¬ g.EvalDue t) (ms : Option UInt64) : evaluateGroup g t ms fl = g := by
  unfold evaluateGroup
  split_ifs with hidle hsoon
  · rfl
  · rfl
  · rw [Bool.or_eq_true, List.isEmpty_iff, Bool.not_eq_true', not_or, Bool.not_eq_false] at hidle
    exact absurd ⟨hidle.1, hidle.2, not_lt.mp hsoon⟩ h

/-! ## What evaluation leaves alone -/

/-- `c'` differs from `c` in its statistics only. -/
def Connection.SameButStats (c c' : Connection) : Prop := c' = { c with stats := c'.stats }

/-- `g'` differs from `g` in statistics, the bandwidth total and the times of
    the last evaluations only. -/
def ConnectionGroup.SameButQuality (g g' : ConnectionGroup) : Prop :=
  (∃ f : Connection → Connection, (∀ c : Connection, c.SameButStats (f c)) ∧ g'.conns = g.conns.map f) ∧
  g' = { g with conns := g'.conns, totalTargetBandwidth := g'.totalTargetBandwidth,
                lastQualityEval := g'.lastQualityEval,
                lastLoadBalanceEval := g'.lastLoadBalanceEval }

theorem Connection.sameButStats_self (c : Connection) : c.SameButStats c := by
  cases c; simp [Connection.SameButStats]

theorem ConnectionGroup.sameButQuality_self (g : ConnectionGroup) : g.SameButQuality g :=
  ⟨⟨fun c => c, Connection.sameButStats_self, by simp⟩, by cases g; simp⟩

theorem Connection.evaluate_frame (c : Connection) (median minExpected : ℚ) (t : ℤ) (ms : UInt64) :
    c.SameButStats (c.evaluate median minExpected t ms) := by
  rw [Connection.evaluate_eq]
  split_ifs
  · exact Connection.sameButStats_self c
  · simp [Connection.SameButStats]

theorem evaluateGroup_frame (g : ConnectionGroup) (t : ℤ) (ms : Option UInt64) :
    g.SameButQuality (evaluateGroup g t ms) := by
  unfold evaluateGroup
  split_ifs
  · exact ConnectionGroup.sameButQuality_self g
  · exact ConnectionGroup.sameButQuality_self g
  · cases ms with
    | none => exact ⟨⟨id, Connection.sameButStats_self, by simp⟩, by simp⟩
    | some ms => exact ⟨⟨_, fun c => c.evaluate_frame _ _ _ _, by rfl⟩, by simp⟩

/-- The connection with a weight. -/
def Connection.weighted (c : Connection) (weight : UInt8) : Connection :=
  { c with stats := { c.stats with weightPercent := weight } }

/-- `adjust_weights` changes the weights of connections and its own time only. -/
theorem adjustWeights_eq (g : ConnectionGroup) (t : ℤ) :
    ∃ weight : Connection → UInt8, adjustWeights g t =
      { g with conns := g.conns.map fun c => c.weighted (weight c)
               lastLoadBalanceEval := (adjustWeights g t).lastLoadBalanceEval } := by
  have hself : g = { g with conns := g.conns.map fun c => c.weighted c.stats.weightPercent } := by
    simp [Connection.weighted]
  unfold adjustWeights
  split_ifs
  · exact ⟨_, hself⟩
  · exact ⟨_, hself⟩
  · exact ⟨_, hself⟩
  · exact ⟨fun c => weightFor c.stats.errorPoints, rfl⟩

theorem adjustWeights_frame (g : ConnectionGroup) (t : ℤ) : g.SameButQuality (adjustWeights g t) := by
  obtain ⟨weight, heq⟩ := adjustWeights_eq g t
  rw [heq]
  exact ⟨⟨_, fun c => by simp [Connection.SameButStats, Connection.weighted], rfl⟩, rfl⟩

end Srtla.Receiver
