import Srtla.Receiver.Statistics

/-!
# The two quality algorithms (`docs/connection-info-comparison.md`)

With `ENABLE_ALGO_COMPARISON` every evaluation is made twice: with the sender's
telemetry, by `evaluate_group` and `adjust_weights`, and without it, by
`evaluate_connection_legacy`. For a sender without extended keepalives the guide
promises that the two agree.

**Deviation.** The tables of error points are the same, the tables of weights are
not. `adjust_weights` draws the lines at 40, 25, 15, 10 and 5 points,
`evaluate_connection_legacy` at 40, 30, 20, 10 and 5. The two disagree at 15 and at
25 points.

The measured bandwidth and loss are compared with the thresholds of the tables as
doubles, after the roundings of `evaluate_group`. Where a result would be on a
threshold, the rounding decides.

Results:
* `algorithms_agree_iff`: without telemetry the algorithms agree on a connection iff
  its bandwidth and its loss do not add up to 15 or 25 points, in doubles.
* `noTelemetry_of_not_sent`: a connection that has sent no extended keepalive is
  without telemetry, in every run.
-/

namespace Srtla.Receiver

open Lib

variable {g : ConnectionGroup} {c : Connection} {t : ℤ} {fl : ℚ → ℚ}

/-! ## Points and weights -/

/-- The points of a connection that is judged by its bandwidth and its loss alone. -/
def receiverPoints (fl : ℚ → ℚ) (ratio loss : ℚ) : UInt32 :=
  legacyBandwidthPenalty ratio fl + lossPenalty loss fl

/-- A bandwidth and a loss whose penalties add up to 15 or 25 points. -/
def Clash (fl : ℚ → ℚ) (ratio loss : ℚ) : Prop :=
  fl (30 / 100) ≤ ratio ∧ ratio < fl (50 / 100) ∧ loss ≤ fl (1 / 100) ∨
  fl (50 / 100) ≤ ratio ∧ ratio < fl (70 / 100) ∧
    (loss ≤ fl (1 / 100) ∨ fl (5 / 100) < loss ∧ loss ≤ fl (10 / 100)) ∨
  fl (70 / 100) ≤ ratio ∧ ratio < fl (85 / 100) ∧ fl (5 / 100) < loss ∧ loss ≤ fl (20 / 100)

instance (fl : ℚ → ℚ) (ratio loss : ℚ) : Decidable (Clash fl ratio loss) :=
  inferInstanceAs (Decidable (_ ∨ _ ∨ _))

/-- The two weight tables differ on 15 to 19 and on 25 to 29 points. -/
theorem weightFor_eq_iff (points : UInt32) :
    weightFor points = legacyWeightFor points ↔
      ¬ (15 ≤ points ∧ points < 20 ∨ 25 ≤ points ∧ points < 30) := by
  unfold weightFor legacyWeightFor
  grind [weightCritical, weightPoor, weightFair, weightDegraded, weightExcellent, weightFull]

theorem legacyBandwidthPenalty_mem (ratio : ℚ) :
    legacyBandwidthPenalty ratio fl ∈ [40, 25, 15, 5, 0] := by
  unfold legacyBandwidthPenalty
  split_ifs <;> decide

theorem lossPenalty_mem (loss : ℚ) : lossPenalty loss fl ∈ [40, 20, 10, 5, 0] := by
  unfold lossPenalty
  split_ifs <;> decide

/-! A rounding that keeps the order keeps the thresholds in order. -/

theorem legacyBandwidthPenalty_steps (hfl : MonotoneOn fl (Set.Ici 0)) (ratio : ℚ) :
    (legacyBandwidthPenalty ratio fl = 25 ↔ fl (30 / 100) ≤ ratio ∧ ratio < fl (50 / 100)) ∧
    (legacyBandwidthPenalty ratio fl = 15 ↔ fl (50 / 100) ≤ ratio ∧ ratio < fl (70 / 100)) ∧
    (legacyBandwidthPenalty ratio fl = 5 ↔ fl (70 / 100) ≤ ratio ∧ ratio < fl (85 / 100)) := by
  have h35 : fl (30 / 100) ≤ fl (50 / 100) := hfl (by norm_num) (by norm_num) (by norm_num)
  have h57 : fl (50 / 100) ≤ fl (70 / 100) := hfl (by norm_num) (by norm_num) (by norm_num)
  unfold legacyBandwidthPenalty
  grind

theorem lossThresholds_le (hfl : MonotoneOn fl (Set.Ici 0)) :
    fl (1 / 100) ≤ fl (5 / 100) ∧ fl (5 / 100) ≤ fl (10 / 100) ∧ fl (10 / 100) ≤ fl (20 / 100) :=
  ⟨hfl (by norm_num) (by norm_num) (by norm_num), hfl (by norm_num) (by norm_num) (by norm_num),
    hfl (by norm_num) (by norm_num) (by norm_num)⟩

theorem lossPenalty_steps (hfl : MonotoneOn fl (Set.Ici 0)) (loss : ℚ) :
    (lossPenalty loss fl = 20 ↔ fl (10 / 100) < loss ∧ loss ≤ fl (20 / 100)) ∧
    (lossPenalty loss fl = 10 ↔ fl (5 / 100) < loss ∧ loss ≤ fl (10 / 100)) ∧
    (lossPenalty loss fl = 0 ↔ loss ≤ fl (1 / 100)) := by
  obtain ⟨h15, h510, h1020⟩ := lossThresholds_le hfl
  unfold lossPenalty
  grind

theorem clash_iff (hfl : MonotoneOn fl (Set.Ici 0)) (ratio loss : ℚ) :
    Clash fl ratio loss ↔
      legacyBandwidthPenalty ratio fl = 25 ∧ lossPenalty loss fl = 0 ∨
      legacyBandwidthPenalty ratio fl = 15 ∧ (lossPenalty loss fl = 0 ∨ lossPenalty loss fl = 10) ∨
      legacyBandwidthPenalty ratio fl = 5 ∧ (lossPenalty loss fl = 10 ∨ lossPenalty loss fl = 20) := by
  obtain ⟨h25, h15, h5⟩ := legacyBandwidthPenalty_steps hfl ratio
  obtain ⟨l20, l10, l0⟩ := lossPenalty_steps hfl loss
  obtain ⟨-, h510, h1020⟩ := lossThresholds_le hfl
  rw [h25, h15, h5, l20, l10, l0]
  unfold Clash
  grind

/-- The sums of one entry of each table that the weight tables tell apart. -/
theorem weights_clash : ∀ b ∈ ([40, 25, 15, 5, 0] : List UInt32), ∀ l ∈ ([40, 20, 10, 5, 0] : List UInt32),
    (15 ≤ b + l ∧ b + l < 20 ∨ 25 ≤ b + l ∧ b + l < 30) ↔
      b = 25 ∧ l = 0 ∨ b = 15 ∧ (l = 0 ∨ l = 10) ∨ b = 5 ∧ (l = 10 ∨ l = 20) := by
  intro b hb l hl
  simp only [List.mem_cons, List.not_mem_nil, or_false] at hb hl
  rcases hb with rfl | rfl | rfl | rfl | rfl <;> rcases hl with rfl | rfl | rfl | rfl | rfl <;> decide

theorem weightFor_receiverPoints_iff (hfl : MonotoneOn fl (Set.Ici 0)) (ratio loss : ℚ) :
    weightFor (receiverPoints fl ratio loss) = legacyWeightFor (receiverPoints fl ratio loss) ↔
      ¬ Clash fl ratio loss := by
  rw [weightFor_eq_iff, clash_iff hfl]
  exact not_congr (weights_clash _ (legacyBandwidthPenalty_mem ratio) _ (lossPenalty_mem loss))

/-! ## Evaluation without telemetry -/

/-- No extended keepalive has been recorded. -/
structure ConnectionStats.NoTelemetry (st : ConnectionStats) : Prop where
  supports : st.senderSupportsExtendedKeepalives = false
  keepalive : st.lastKeepalive = 0

/-- The two algorithms agree on the connection. -/
def Connection.Agrees (c : Connection) : Prop :=
  c.stats.errorPoints = c.stats.legacyErrorPoints ∧ c.stats.weightPercent = c.stats.legacyWeightPercent

instance (c : Connection) : Decidable c.Agrees := inferInstanceAs (Decidable (_ ∧ _))

/-- Both algorithms give the points for bandwidth and loss. -/
theorem ConnectionStats.NoTelemetry.score {st : ConnectionStats} (h : st.NoTelemetry)
    (median minExpected : ℚ) (t : ℤ) (ms : UInt64) (fl : ℚ → ℚ) :
    let st' := st.score median minExpected t ms fl
    let points := receiverPoints fl (performanceRatio median minExpected (st.measure ms fl) fl)
      (st.measure ms fl).packetLossRatio
    st'.errorPoints = points ∧ st'.legacyErrorPoints = points ∧
      st'.legacyWeightPercent = legacyWeightFor points := by
  have hvalid : st.hasValidSenderTelemetry t = false := if_pos h.keepalive
  have htelemetry : st.telemetryPoints t (st.measure ms fl).packetsDiff = 0 := by
    rw [ConnectionStats.telemetryPoints, hvalid]
    rfl
  refine ⟨?_, rfl, rfl⟩
  unfold ConnectionStats.score ConnectionStats.scoreMeasured evaluateConnectionLegacy
    ConnectionStats.bandwidthPenalty
  dsimp only
  rw [htelemetry, h.supports, UInt32.add_zero]
  rfl

theorem adjustWeights_conns (henabled : g.loadBalancingEnabled = true)
    (hdue : g.lastLoadBalanceEval < g.lastQualityEval) (u : ℤ) :
    (adjustWeights g u).conns = g.conns.map fun c =>
      { c with stats := { c.stats with weightPercent := weightFor c.stats.errorPoints } } := by
  unfold adjustWeights
  split_ifs with h1 h2 h3
  · rw [List.isEmpty_iff.mp h1]
    rfl
  · rw [henabled, Bool.true_and, decide_eq_true_eq] at h2
    omega
  · rw [henabled] at h3
    cases h3
  · rfl

/-- **Without telemetry the two algorithms agree, but for 15 and 25 points.**
    `evaluate_group` runs to completion on `g` at time `t`, then `adjust_weights` runs
    at `u`. A connection without telemetry that is past its grace period then has the
    points and the weight of the legacy algorithm iff its bandwidth and its loss, as
    they come out in doubles, do not clash. -/
theorem algorithms_agree_iff (ms : UInt64) (u : ℤ) (h : g.EvalDue t) (hadjust : g.lastLoadBalanceEval < t) {i : ℕ}
    (hi : g.conns[i]? = some c) (hgrace : connectionGracePeriod ≤ t - c.connectionStart)
    (hc : c.stats.NoTelemetry) :
    ∃ c', (adjustWeights (evaluateGroup g t (some ms) double) u).conns[i]? = some c' ∧
      (c'.Agrees ↔ ¬ Clash double (g.ratio ms c double) (c.stats.measure ms double).packetLossRatio) := by
  have hadjusted : (adjustWeights (evaluateGroup g t (some ms) double) u).conns = _ :=
    adjustWeights_conns (by rw [h.evaluateGroup]; exact h.enabled) (by rw [h.evaluateGroup]; exact hadjust) u
  rw [hadjusted, h.evaluateGroup, List.map_map, List.getElem?_map, hi]
  refine ⟨_, rfl, ?_⟩
  obtain ⟨hpoints, hlegacy, hweight⟩ := hc.score (g.median ms double)
    (minExpectedKbits g.conns.length double) t ms double
  unfold Connection.Agrees
  simp only [Function.comp_apply, Connection.evaluate_eq, if_neg (not_lt.mpr hgrace)]
  rw [hpoints, hlegacy, hweight]
  exact (and_iff_right rfl).trans (weightFor_receiverPoints_iff double_monotoneOn _ _)

/-- A group whose only connection was registered at 0, evaluated at 10 s, and has
    received `bytes` bytes since. -/
def ratedGroup (bytes : UInt64) : ConnectionGroup :=
  { ConnectionGroup.create 0 default default 0 (sampleAddr 1) with
    conns := [ratedConn bytes]
    lastQualityEval := 10
    lastLoadBalanceEval := 10 }
where
  /-- Its connection. -/
  ratedConn (bytes : UInt64) : Connection :=
    { Connection.create 1 (sampleAddr 2) 0 with
      stats := { bytesReceived := bytes, packetsReceived := 500, lastEvalTime := 10000 } }

theorem evalDue_ratedGroup (bytes : UInt64) : (ratedGroup bytes).EvalDue 15 :=
  ⟨List.cons_ne_nil _ _, rfl, by show (10 : ℤ) + 5 ≤ 15; decide⟩

/-- A connection with 1 Mbit/s in 5 seconds. -/
theorem algorithms_agree_rated :
    ∃ c', (adjustWeights (evaluateGroup (ratedGroup 625000) 15 (some 15000) double) 15).conns[0]? = some c' ∧
      c'.Agrees := by
  obtain ⟨c', hi', hagree⟩ := algorithms_agree_iff 15000 15 (evalDue_ratedGroup 625000)
    (by show (10 : ℤ) < 15; decide) (i := 0) rfl (by show (10 : ℤ) ≤ 15 - 0; decide) ⟨rfl, rfl⟩
  exact ⟨c', hi', hagree.mpr (by decide +kernel)⟩

/-- **The algorithms disagree** on a connection with 600 kbit/s and no loss. -/
theorem algorithms_disagree :
    (ratedGroup 375000).EvalDue 15 ∧ (ratedGroup.ratedConn 375000).stats.NoTelemetry ∧
    ∃ c', (adjustWeights (evaluateGroup (ratedGroup 375000) 15 (some 15000) double) 15).conns[0]? =
        some c' ∧
      (c'.stats.errorPoints = 15 ∧ c'.stats.legacyErrorPoints = 15) ∧
      c'.stats.weightPercent = weightFair ∧ c'.stats.legacyWeightPercent = weightDegraded ∧ ¬ c'.Agrees := by
  refine ⟨evalDue_ratedGroup 375000, ⟨rfl, rfl⟩, _, rfl, ?_⟩
  decide +kernel

/-- 459025 bytes in 5246 ms are 700 kbit/s, and a little less in doubles. -/
example :
    let c := ratedGroup.ratedConn 459025
    (ratedGroup 459025).ratio 15246 c = 7 / 10 ∧ ¬ Clash unrounded (7 / 10) 0 ∧
      (ratedGroup 459025).ratio 15246 c double < double (7 / 10) ∧
      Clash double ((ratedGroup 459025).ratio 15246 c double) 0 := by
  decide +kernel

/-! ## Who is without telemetry -/

/-- The input is an extended keepalive on the connection `r`. -/
def Op.extendedKeepalive (op : Op) (s : State) (r : ℕ) : Bool :=
  match op with
  | .packet buf addr _ _ =>
    (parseKeepaliveConnInfo (mem buf) buf.length).isSome &&
      (findByAddress s.groups addr).any fun p => p.2.any fun c => decide (c.ref = r)
  | _ => false

variable {s : State} {op : Op} {x y : Connection}

theorem ConnectionStats.NoTelemetry.evaluation (h : x.stats.NoTelemetry) (e : Evaluation) :
    (e.conn x).stats.NoTelemetry := by
  rcases e.conn_cases x with ⟨heq, _⟩ | ⟨ms, _, _, heq⟩
  · rwa [heq]
  · obtain ⟨hsupports, hkeepalive, _⟩ :=
      x.stats.score_frame (e.group.median ms) (minExpectedKbits e.group.conns.length) e.time ms
    rw [heq]
    exact ⟨hsupports.trans h.supports, hkeepalive.trans h.keepalive⟩

theorem ConnectionStats.NoTelemetry.counts (h : y.stats.NoTelemetry) (hcounts : Counts s y x op)
    (hsent : op.extendedKeepalive s y.ref = false) : x.stats.NoTelemetry := by
  cases hcounts with
  | same account =>
    have hstats : x.stats = y.stats := congrArg (fun a => a.2.2) account
    rwa [hstats]
  | @packet g buf addr ts env hf account =>
    have hstats : x.stats = y.stats.count buf (nakAccepted g buf env) env.keepaliveSec :=
      congrArg (fun a => a.2.2) account
    have hparse : parseKeepaliveConnInfo (mem buf) buf.length = none := by
      dsimp only [Op.extendedKeepalive] at hsent
      rw [hf] at hsent
      simpa using hsent
    rw [hstats]
    unfold ConnectionStats.count
    rw [hparse]
    split_ifs
    · exact h
    · exact h
    · exact ⟨h.supports, h.keepalive⟩
    · exact ⟨h.supports, h.keepalive⟩

/-- **A connection that has sent no extended keepalive is without telemetry.** -/
theorem noTelemetry_of_not_sent (ops : List Op) :
    ∀ g ∈ (receiver.run State.init ops).groups, ∀ c ∈ g.conns,
      (∀ e ∈ receiver.hist State.init ops, e.input.extendedKeepalive e.pre c.ref = false) →
      c.stats.NoTelemetry := by
  have hrun := receiver.hist_invariant (s := State.init)
    (R := fun es s => Inv s ∧ ∀ g ∈ s.groups, ∀ c ∈ g.conns,
      (∀ e ∈ es, e.input.extendedKeepalive e.pre c.ref = false) → c.stats.NoTelemetry)
    ⟨inv_init, fun g hg => absurd hg List.not_mem_nil⟩ ?_ ops
  · exact hrun.2
  · rintro es s op ⟨hinv, hplain⟩
    refine ⟨run_inv hinv [op], fun g' hg' x' hx' hsent => ?_⟩
    have hbefore : ∀ e ∈ es, e.input.extendedKeepalive e.pre x'.ref = false := fun e he =>
      hsent e (List.mem_append_left _ he)
    have hnow : op.extendedKeepalive s x'.ref = false :=
      hsent _ (List.mem_append_right es (List.mem_singleton_self _))
    cases step_stats hinv hg' hx' with
    | fresh _ stats =>
      rw [stats]
      exact ⟨rfl, rfl⟩
    | counted hg hy counts =>
      rw [counts.ref] at hbefore hnow
      exact (hplain _ hg _ hy hbefore).counts counts hnow
    | @evaluated _ _ _ e _ hg hy counts _ _ account =>
      rw [show x'.ref = _ from congrArg Prod.fst account, counts.ref] at hbefore hnow
      have hx := ((hplain _ hg _ hy hbefore).counts counts hnow).evaluation e
      rw [show x'.stats = _ from congrArg (fun a => a.2.2) account]
      exact ⟨hx.supports, hx.keepalive⟩

end Srtla.Receiver
