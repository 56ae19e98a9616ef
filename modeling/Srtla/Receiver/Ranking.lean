import Srtla.Receiver.Measured

/-!
# Links of one group compared (`src/quality/quality_evaluator.cpp:98-206`)

A connection is judged by its throughput relative to what is expected of it. That is
the median of the good connections, those with at least half of the largest
throughput. A connection below half of that median is poor, and less is expected of
it: the minimum share of `MIN_ACCEPTABLE_TOTAL_BANDWIDTH_KBPS`.

**Deviation.** Error points fall with the throughput on either side of the line
between poor and not poor, but not across it: a connection just above it is measured
by the median and one just below it by the minimum (`slower_link_scored_better`).

Results:
* `fastest_is_yardstick`: the good connections, their median, and the fastest one.
* `faster_scored_no_worse`: who gets more points, on one side of the line.
-/

namespace Srtla.Receiver

open Lib

/-- `bandwidth_kbits_per_sec` of a connection. -/
def Connection.kbits (ms : UInt64) (c : Connection) : ℚ := (c.stats.measure ms).bandwidthKbitsPerSec

/-- `all_bandwidths`. -/
def Evaluation.bandwidths (e : Evaluation) (ms : UInt64) : List ℚ := e.group.conns.map (Connection.kbits ms)

/-- `is_poor_connection`. -/
def Evaluation.Poor (e : Evaluation) (ms : UInt64) (c : Connection) : Prop :=
  c.kbits ms < e.group.median ms * goodConnectionThreshold

instance (e : Evaluation) (ms : UInt64) (c : Connection) : Decidable (e.Poor ms c) :=
  inferInstanceAs (Decidable (_ < _))

variable {e : Evaluation} {c x y : Connection} {ms : UInt64} {l : List ℚ}

/-! ## The largest throughput -/

/-- The loop starts at 0 and finds the maximum if that is positive. -/
theorem maxKbits_spec (h : ∃ b ∈ l, 0 < b) :
    maxKbits l ∈ l ∧ (∀ b ∈ l, b ≤ maxKbits l) ∧ 0 < maxKbits l := by
  obtain ⟨b, hb, hpos⟩ := h
  obtain ⟨m, hm⟩ := Option.ne_none_iff_exists'.mp fun hnone =>
    List.ne_nil_of_mem hb (List.max?_eq_none_iff.mp hnone)
  obtain ⟨hmem, hle⟩ := List.max?_eq_some_iff.mp hm
  have hmax : maxKbits l = m := by
    rw [maxKbits, List.foldl_max, hm]
    exact max_eq_right (hpos.le.trans (hle b hb))
  rw [hmax]
  exact ⟨hmem, hle, hpos.trans_le (hle b hb)⟩

/-! ## The median -/

/-- The median lies between all bounds of the values. -/
theorem computeMedian_between {a b : ℚ} (hne : l ≠ []) (h : ∀ v ∈ l, a ≤ v ∧ v ≤ b) :
    a ≤ computeMedian l ∧ computeMedian l ≤ b := by
  have hlen : 0 < (l.insertionSort (· ≤ ·)).length := by
    rw [List.length_insertionSort]
    exact List.length_pos_iff.mpr hne
  have hget : ∀ i, i < (l.insertionSort (· ≤ ·)).length →
      a ≤ (l.insertionSort (· ≤ ·)).getD i 0 ∧ (l.insertionSort (· ≤ ·)).getD i 0 ≤ b := by
    intro i hi
    rw [List.getD_eq_getElem _ _ hi]
    exact h _ ((List.mem_insertionSort _).mp (List.getElem_mem hi))
  unfold computeMedian
  dsimp only [unrounded]
  split_ifs
  · obtain ⟨hlo, hhi⟩ := hget ((l.insertionSort (· ≤ ·)).length / 2 - 1) (by omega)
    obtain ⟨hlo', hhi'⟩ := hget ((l.insertionSort (· ≤ ·)).length / 2) (by omega)
    constructor <;> linarith
  · exact hget _ (by omega)

/-- The good throughputs lie between half of the largest and the largest, which is
    one of them. -/
theorem goodBandwidths_spec (h : ∃ b ∈ l, 0 < b) :
    goodBandwidths l ≠ [] ∧ ∀ b ∈ goodBandwidths l, maxKbits l / 2 ≤ b ∧ b ≤ maxKbits l := by
  obtain ⟨hmem, hle, hpos⟩ := maxKbits_spec h
  have hhalf : unrounded (maxKbits l * goodConnectionThreshold) = maxKbits l / 2 := by
    unfold unrounded goodConnectionThreshold
    ring
  constructor
  · refine List.ne_nil_of_mem (a := maxKbits l) (List.mem_filter.mpr ⟨hmem, decide_eq_true ?_⟩)
    rw [hhalf]
    linarith
  · intro b hb
    obtain ⟨hbl, hgood⟩ := List.mem_filter.mp hb
    rw [← hhalf]
    exact ⟨of_decide_eq_true hgood, hle b hbl⟩

/-- The median is that of the good throughputs. -/
theorem medianKbits_eq (h : ∃ b ∈ l, 0 < b) : medianKbits l = computeMedian (goodBandwidths l) := by
  have hne : l ≠ [] := by
    obtain ⟨b, hb, -⟩ := h
    exact List.ne_nil_of_mem hb
  rw [medianKbits, if_pos ⟨hne, (maxKbits_spec h).2.2⟩, if_pos (goodBandwidths_spec h).1]

theorem medianKbits_between (h : ∃ b ∈ l, 0 < b) :
    maxKbits l / 2 ≤ medianKbits l ∧ medianKbits l ≤ maxKbits l := by
  rw [medianKbits_eq h]
  obtain ⟨hne, hbounds⟩ := goodBandwidths_spec h
  exact computeMedian_between hne hbounds

/-! ## What is expected -/

theorem Evaluation.expectedKbits_of_poor (h : e.Poor ms c) :
    e.expectedKbits ms c = minExpectedKbits e.group.conns.length := by
  unfold Evaluation.Poor Connection.kbits at h
  rw [Evaluation.expectedKbits, if_pos h, max_self]

theorem Evaluation.expectedKbits_of_not_poor (h : ¬ e.Poor ms c) :
    e.expectedKbits ms c = max (e.group.median ms) (minExpectedKbits e.group.conns.length) := by
  unfold Evaluation.Poor Connection.kbits at h
  rw [Evaluation.expectedKbits, if_neg h]

theorem Evaluation.poor_of_le (h : e.Poor ms y) (hle : x.kbits ms ≤ y.kbits ms) : e.Poor ms x := hle.trans_lt h

/-! ## A call on four links -/

/-- A connection that has received `bytes` bytes in the second before 2000 ms. -/
def rankedLink (ref : ℕ) (bytes : UInt64) : Connection :=
  { Connection.create ref (sampleAddr (UInt16.ofNat ref)) 0 with
    stats := { lastEvalTime := 1000, bytesReceived := bytes } }

/-- A call on links with 1000, 1000, 510 and 490 kbit/s. -/
def rankedCall : Evaluation where
  group := { ConnectionGroup.create 0 default default 0 (sampleAddr 1) with
    conns := [rankedLink 1 125000, rankedLink 2 125000, rankedLink 3 63750, rankedLink 4 61250] }
  time := 100
  ms := some 2000

theorem rankedCall_reading : rankedCall.reading = some 2000 := if_pos (by decide)

example : rankedCall.bandwidths 2000 = [1000, 1000, 510, 490] := by decide +kernel

/-- **The fastest link is the yardstick.** In a call on a group with a positive
    throughput, some connections are good, the median is theirs and lies between half
    of the largest throughput and the largest, and a connection with the largest gets
    no bandwidth points if that is the minimum share or more: if it is scored, its error
    points are those for loss and telemetry. -/
theorem fastest_is_yardstick (hms : e.reading = some ms) (hpos : ∃ c ∈ e.group.conns, 0 < c.kbits ms) :
    let largest := maxKbits (e.bandwidths ms)
    (largest ∈ e.bandwidths ms ∧ ∀ b ∈ e.bandwidths ms, b ≤ largest) ∧
    (goodBandwidths (e.bandwidths ms) ≠ [] ∧
      e.group.median ms = computeMedian (goodBandwidths (e.bandwidths ms))) ∧
    (largest / 2 ≤ e.group.median ms ∧ e.group.median ms ≤ largest) ∧
    ∀ c ∈ e.group.conns, c.kbits ms = largest → max 100 (1000 / (e.group.conns.length : ℚ)) ≤ c.kbits ms →
      e.bandwidthPoints c = 0 ∧ (e.Past c → e.Gives c (e.otherPoints ms c)) := by
  intro largest
  have hsome : ∃ b ∈ e.bandwidths ms, 0 < b := by
    obtain ⟨c, hc, h⟩ := hpos
    exact ⟨_, List.mem_map_of_mem hc, h⟩
  obtain ⟨hmem, hle, hlargest⟩ := maxKbits_spec hsome
  obtain ⟨hlo, hhi⟩ := medianKbits_between hsome
  refine ⟨⟨hmem, hle⟩, ⟨(goodBandwidths_spec hsome).1, medianKbits_eq hsome⟩, ⟨hlo, hhi⟩, ?_⟩
  intro c _ hfastest hshare
  have hnot : ¬ e.Poor ms c := by
    have hmedian : e.group.median ms ≤ largest := hhi
    have hpos : 0 < largest := hlargest
    unfold Evaluation.Poor goodConnectionThreshold
    rw [hfastest]
    linarith
  have hexpected : e.expectedKbits ms c ≤ c.kbits ms := by
    rw [Evaluation.expectedKbits_of_not_poor hnot]
    exact max_le (hfastest ▸ hhi) hshare
  have hratio : 1 ≤ e.group.ratio ms c := by
    rw [e.ratio_eq]
    exact (one_le_div (e.expectedKbits_pos ms c)).mpr hexpected
  have hpoints : e.bandwidthPoints c = 0 := by
    rw [Evaluation.bandwidthPoints_of_reading hms]
    split_ifs
    · rw [Evaluation.bandwidthPenalty_eq_zero_iff]
      linarith
    · rfl
  refine ⟨hpoints, fun hpast => ?_⟩
  have hgives := Evaluation.gives hms hpast
  rwa [hpoints, UInt32.zero_add] at hgives

/-- 1000 kbit/s are the largest throughput of the four links. -/
theorem fastest_is_yardstick_four :
    rankedCall.reading = some 2000 ∧ goodBandwidths (rankedCall.bandwidths 2000) = [1000, 1000, 510] ∧
      rankedCall.bandwidthPoints (rankedLink 1 125000) = 0 ∧
      rankedCall.Gives (rankedLink 1 125000) (rankedCall.otherPoints 2000 (rankedLink 1 125000)) := by
  have hmem : rankedLink 1 125000 ∈ rankedCall.group.conns := List.mem_cons_self
  obtain ⟨-, -, -, hfastest⟩ := fastest_is_yardstick rankedCall_reading ⟨_, hmem, by decide +kernel⟩
  obtain ⟨hpoints, hgives⟩ := hfastest _ hmem (by decide +kernel) (by decide +kernel)
  exact ⟨rankedCall_reading, by decide +kernel, hpoints, hgives (by decide)⟩

/-! ## Faster and slower links -/

/-- A table of points that falls from `top` with the ratio. -/
structure Falling (top : UInt32) (points : ℚ → UInt32) : Prop where
  antitone : ∀ {r r'}, r ≤ r' → points r' ≤ points r
  le_top : ∀ r, points r ≤ top

theorem falling_zero : Falling 0 fun _ => 0 := ⟨fun _ => UInt32.le_refl 0, fun _ => UInt32.le_refl 0⟩

/-- More points below a threshold. -/
theorem Falling.below {top : UInt32} {points : ℚ → UInt32} (h : Falling top points) (t : ℚ) (top' : UInt32)
    (hle : top ≤ top') : Falling top' fun r => if r < t then top' else points r where
  antitone := by
    intro r r' hr
    by_cases hr' : r' < t
    · rw [if_pos hr', if_pos (hr.trans_lt hr')]
      exact UInt32.le_refl top'
    · rw [if_neg hr']
      split_ifs
      · exact UInt32.le_trans (h.le_top r') hle
      · exact h.antitone hr
  le_top := by
    intro r
    split_ifs
    · exact UInt32.le_refl top'
    · exact UInt32.le_trans (h.le_top r) hle

theorem falling_lightBandwidthPenalty : Falling 10 (lightBandwidthPenalty ·) :=
  (((falling_zero.below (85 / 100) 2 (by decide)).below (70 / 100) 4 (by decide)).below
    (50 / 100) 7 (by decide)).below (30 / 100) 10 (by decide)

theorem falling_legacyBandwidthPenalty : Falling 40 (legacyBandwidthPenalty ·) :=
  (((falling_zero.below (85 / 100) 5 (by decide)).below (70 / 100) 15 (by decide)).below
    (50 / 100) 25 (by decide)).below (30 / 100) 40 (by decide)

/-- On one side of the line the same is expected of all connections. -/
theorem Evaluation.ratio_mono (hle : x.kbits ms ≤ y.kbits ms) (hline : e.Poor ms x → e.Poor ms y) :
    e.group.ratio ms x ≤ e.group.ratio ms y := by
  have hexpected : e.expectedKbits ms x = e.expectedKbits ms y := by
    by_cases hy : e.Poor ms y
    · rw [e.expectedKbits_of_poor hy, e.expectedKbits_of_poor (e.poor_of_le hy hle)]
    · rw [e.expectedKbits_of_not_poor hy, e.expectedKbits_of_not_poor fun hx => hy (hline hx)]
  rw [e.ratio_eq, e.ratio_eq, hexpected]
  exact div_le_div_of_nonneg_right hle (e.expectedKbits_pos ms y).le

theorem Evaluation.bandwidthPenalty_antitone (hle : x.kbits ms ≤ y.kbits ms)
    (hline : e.Poor ms x → e.Poor ms y)
    (hext : x.stats.senderSupportsExtendedKeepalives = y.stats.senderSupportsExtendedKeepalives) :
    e.bandwidthPenalty ms y ≤ e.bandwidthPenalty ms x := by
  have hratio := Evaluation.ratio_mono hle hline
  unfold Evaluation.bandwidthPenalty ConnectionStats.bandwidthPenalty
  rw [hext]
  split_ifs
  · exact falling_lightBandwidthPenalty.antitone hratio
  · exact falling_legacyBandwidthPenalty.antitone hratio

/-! The points of a call are few, so that their sum does not wrap. -/

theorem Evaluation.bandwidthPenalty_le (e : Evaluation) (ms : UInt64) (c : Connection) :
    (e.bandwidthPenalty ms c).toNat ≤ 40 := by
  unfold Evaluation.bandwidthPenalty ConnectionStats.bandwidthPenalty
  split_ifs
  · exact (UInt32.le_iff_toNat_le.mp (falling_lightBandwidthPenalty.le_top _)).trans (by decide)
  · exact UInt32.le_iff_toNat_le.mp (falling_legacyBandwidthPenalty.le_top _)

theorem lossPenalty_le (loss : ℚ) : (lossPenalty loss).toNat ≤ 40 := by
  unfold lossPenalty
  split_ifs <;> decide

theorem Evaluation.telemetryPoints_le (e : Evaluation) (ms : UInt64) (c : Connection) :
    (e.telemetryPoints ms c).toNat ≤ 85 := by
  have hrtt : (calculateRttErrorPoints c.stats e.time).toNat ≤ 30 := by
    unfold calculateRttErrorPoints
    split_ifs <;> decide
  have hnak : (calculateNakErrorPoints c.stats (c.stats.measure ms).packetsDiff).1.toNat ≤ 40 := by
    unfold calculateNakErrorPoints
    split_ifs
    · exact Nat.zero_le 40
    · dsimp only
      split_ifs <;> decide
  have hwindow : (calculateWindowErrorPoints c.stats).toNat ≤ 15 := by
    unfold calculateWindowErrorPoints
    split_ifs <;> decide
  unfold Evaluation.telemetryPoints ConnectionStats.telemetryPoints
  split_ifs
  · rw [UInt32.toNat_add, UInt32.toNat_add]
    omega
  · decide

theorem Evaluation.otherPoints_le (e : Evaluation) (ms : UInt64) (c : Connection) :
    (e.otherPoints ms c).toNat ≤ 125 := by
  have hloss := lossPenalty_le (c.stats.measure ms).packetLossRatio
  have htelemetry := e.telemetryPoints_le ms c
  rw [Evaluation.otherPoints, UInt32.toNat_add]
  omega

/-- **A faster link is not scored worse on its side of the line.** Of two scored
    connections with the same loss, keepalives of the same kind and the same points
    from telemetry, the one with the larger throughput gets no more error points,
    unless it is above the line of the poor connections and the other below it. -/
theorem faster_scored_no_worse (hms : e.reading = some ms) (hx : e.Past x) (hy : e.Past y)
    (hloss : (x.stats.measure ms).packetLossRatio = (y.stats.measure ms).packetLossRatio)
    (hext : x.stats.senderSupportsExtendedKeepalives = y.stats.senderSupportsExtendedKeepalives)
    (htelemetry : e.telemetryPoints ms x = e.telemetryPoints ms y) (hfaster : x.kbits ms < y.kbits ms)
    (hline : ¬ (e.Poor ms x ∧ ¬ e.Poor ms y)) :
    (e.conn y).stats.errorPoints ≤ (e.conn x).stats.errorPoints := by
  have hpenalty := Evaluation.bandwidthPenalty_antitone hfaster.le (not_and_not_right.mp hline) hext
  have hother : e.otherPoints ms y = e.otherPoints ms x := by
    rw [Evaluation.otherPoints, Evaluation.otherPoints, hloss, htelemetry]
  have hxle := e.bandwidthPenalty_le ms x
  have hyle := e.bandwidthPenalty_le ms y
  have hole := e.otherPoints_le ms x
  rw [Evaluation.conn_errorPoints hms hy, Evaluation.conn_errorPoints hms hx,
    Evaluation.bandwidthPoints_of_reading hms, Evaluation.bandwidthPoints_of_reading hms, if_pos hx, if_pos hy,
    hother]
  rw [UInt32.le_iff_toNat_le] at hpenalty ⊢
  rw [UInt32.toNat_add, UInt32.toNat_add]
  omega

/-- The link with 510 kbit/s is measured by the median and gets 15 points, the one
    with 490 by a quarter of 1000 and gets none. -/
theorem slower_link_scored_better :
    ∃ (e : Evaluation) (ms : UInt64) (x y : Connection), e.reading = some ms ∧
      (x ∈ e.group.conns ∧ e.Past x) ∧ (y ∈ e.group.conns ∧ e.Past y) ∧
      (x.stats.measure ms).packetLossRatio = (y.stats.measure ms).packetLossRatio ∧
      x.stats.senderSupportsExtendedKeepalives = y.stats.senderSupportsExtendedKeepalives ∧
      e.telemetryPoints ms x = e.telemetryPoints ms y ∧ x.kbits ms < y.kbits ms ∧
      (e.conn x).stats.errorPoints < (e.conn y).stats.errorPoints := by
  refine ⟨rankedCall, 2000, rankedLink 4 61250, rankedLink 3 63750, rankedCall_reading,
    ⟨by simp [rankedCall], by decide⟩, ⟨by simp [rankedCall], by decide⟩, by decide +kernel, rfl, by decide +kernel,
    by decide +kernel, ?_⟩
  · rw [Evaluation.conn_errorPoints rankedCall_reading (by decide),
      Evaluation.conn_errorPoints rankedCall_reading (by decide)]
    decide +kernel

/-- The links with 510 and 1000 kbit/s are on one side of the line. -/
theorem faster_scored_no_worse_four :
    rankedCall.reading = some 2000 ∧ ¬ rankedCall.Poor 2000 (rankedLink 3 63750) ∧
      (rankedCall.conn (rankedLink 1 125000)).stats.errorPoints ≤
        (rankedCall.conn (rankedLink 3 63750)).stats.errorPoints := by
  have hline : ¬ rankedCall.Poor 2000 (rankedLink 3 63750) := by decide +kernel
  refine ⟨rankedCall_reading, hline, ?_⟩
  exact faster_scored_no_worse rankedCall_reading (by decide) (by decide) (by decide +kernel) rfl
    (by decide +kernel) (by decide +kernel) fun h => hline h.1

end Srtla.Receiver
