import Srtla.Receiver.Scoring

/-!
# Bandwidth penalties and measurements (`src/quality/quality_evaluator.cpp:63-92`, `:144-247`)

`evaluate_group` measures the throughput of a connection since its last evaluation,
of which it keeps the time and the counters in `last_eval_time` and its siblings. A
connection that was not evaluated before has no such interval; its throughput is
taken to be 0.

**Deviation.** An evaluation in the grace period of a connection skips it before
these fields are written. The first evaluation after the grace period therefore
finds no interval, whatever the connection has carried, and gives it the full
bandwidth penalty.

Results:
* `tracked_run`: in every run, `last_eval_time` is the clock of the last
  evaluation past the grace period.
* `penalties_fair_iff`: a call treats a connection fairly iff it is in its grace
  period, or an earlier call found it past its grace period and the clock has moved.
* `penalised_at_full_rate`: 2 Mbit/s since the registration, and 40 points.
-/

namespace Srtla.Receiver

open Lib

variable {s : State} {op : Op} {e : Evaluation} {c x y : Connection} {ms : UInt64}

/-! ## The bandwidth points of a call -/

/-- The bandwidth penalty of a connection that is scored. -/
def Evaluation.bandwidthPenalty (e : Evaluation) (ms : UInt64) (c : Connection) : UInt32 :=
  c.stats.bandwidthPenalty (e.group.ratio ms c)

/-- The bandwidth error points that the call adds to a connection. -/
def Evaluation.bandwidthPoints (e : Evaluation) (c : Connection) : UInt32 :=
  match e.reading with
  | some ms => if e.Past c then e.bandwidthPenalty ms c else 0
  | none => 0

/-- The points from the telemetry of the sender. -/
def Evaluation.telemetryPoints (e : Evaluation) (ms : UInt64) (c : Connection) : UInt32 :=
  c.stats.telemetryPoints e.time (c.stats.measure ms).packetsDiff

/-- The points for loss and telemetry. -/
def Evaluation.otherPoints (e : Evaluation) (ms : UInt64) (c : Connection) : UInt32 :=
  lossPenalty (c.stats.measure ms).packetLossRatio + e.telemetryPoints ms c

/-- The call leaves the connection with these error points, wherever it stands in the
    list of the group. -/
def Evaluation.Gives (e : Evaluation) (c : Connection) (points : UInt32) : Prop :=
  ∀ i : ℕ, e.group.conns[i]? = some c → ∃ c' : Connection,
    (evaluateGroup e.group e.time e.ms).conns[i]? = some c' ∧ c'.stats.errorPoints = points

/-- A call that scores a connection gives it the bandwidth points and the others. -/
theorem Evaluation.conn_errorPoints (hms : e.reading = some ms) (hpast : e.Past c) :
    (e.conn c).stats.errorPoints = e.bandwidthPoints c + e.otherPoints ms c := by
  have hpoints : e.bandwidthPoints c = e.bandwidthPenalty ms c := by
    unfold Evaluation.bandwidthPoints
    rw [hms]
    exact if_pos hpast
  have hconn : e.conn c = { c with
      stats := c.stats.score (e.group.median ms) (minExpectedKbits e.group.conns.length) e.time ms } := by
    unfold Evaluation.conn
    rw [hms]
    exact if_neg (not_lt.mpr hpast)
  rw [hpoints, hconn]
  exact UInt32.add_assoc _ _ _

theorem Evaluation.gives (hms : e.reading = some ms) (hpast : e.Past c) :
    e.Gives c (e.bandwidthPoints c + e.otherPoints ms c) := by
  intro i hi
  rw [e.conns_eq, List.getElem?_map, hi]
  exact ⟨e.conn c, rfl, Evaluation.conn_errorPoints hms hpast⟩

/-! ## Fair treatment -/

/-- `expected_kbits_per_sec` of a connection. -/
def Evaluation.expectedKbits (e : Evaluation) (ms : UInt64) (c : Connection) : ℚ :=
  max (if (c.stats.measure ms).bandwidthKbitsPerSec < e.group.median ms * goodConnectionThreshold then
      minExpectedKbits e.group.conns.length
    else e.group.median ms) (minExpectedKbits e.group.conns.length)

/-- The connection has carried its expected rate, in kbit/s, since it was last
    evaluated past its grace period, or else since it was registered. -/
def Evaluation.Carried (e : Evaluation) (ms : UInt64) (c : Connection) : Prop :=
  if 0 < c.stats.lastEvalTime then
    e.expectedKbits ms c * ((ms.toNat - c.stats.lastEvalTime.toNat : ℕ) / 1000) ≤
      (c.stats.bytesReceived - c.stats.lastBytesReceived).toNat * 8 / 1000
  else e.expectedKbits ms c * (e.time - c.connectionStart : ℤ) ≤ c.stats.bytesReceived.toNat * 8 / 1000

/-- Bandwidth points rest on a measurement over an interval that is not empty, and
    a connection that has carried its expected rate has none. -/
structure Evaluation.Fair (e : Evaluation) (c : Connection) : Prop where
  measured : e.bandwidthPoints c ≠ 0 → ∃ ms, e.reading = some ms ∧
    0 < c.stats.lastEvalTime ∧ c.stats.lastEvalTime < ms
  carried : ∀ ms, e.reading = some ms → e.Carried ms c → e.bandwidthPoints c = 0

theorem Evaluation.expectedKbits_pos (e : Evaluation) (ms : UInt64) (c : Connection) :
    0 < e.expectedKbits ms c := by
  have hmin : (0 : ℚ) < minExpectedKbits e.group.conns.length :=
    lt_of_lt_of_le (by norm_num) (le_max_left 100 _)
  exact lt_of_lt_of_le hmin (le_max_right _ _)

theorem Evaluation.ratio_eq (e : Evaluation) (ms : UInt64) (c : Connection) :
    e.group.ratio ms c = (c.stats.measure ms).bandwidthKbitsPerSec / e.expectedKbits ms c := by
  have hpos := e.expectedKbits_pos ms c
  unfold Evaluation.expectedKbits at hpos ⊢
  unfold ConnectionGroup.ratio performanceRatio
  dsimp only [unrounded]
  simp only [decide_eq_true_eq]
  rw [if_pos hpos]

/-- No interval, no throughput. -/
theorem measure_of_unmeasured {st : ConnectionStats} (hle : st.lastEvalTime ≤ ms)
    (h : ¬ (0 < st.lastEvalTime ∧ st.lastEvalTime < ms)) : (st.measure ms).bandwidthKbitsPerSec = 0 := by
  have hzero : st.timeDiffMs ms = 0 := by
    unfold ConnectionStats.timeDiffMs
    split_ifs with hpos
    · have heq : st.lastEvalTime = ms := UInt64.le_antisymm hle (UInt64.not_lt.mp fun hlt => h ⟨hpos, hlt⟩)
      rw [heq, UInt64.sub_self]
    · rfl
  unfold ConnectionStats.measure
  rw [hzero, if_neg (by decide)]

theorem measure_of_measured {st : ConnectionStats} (hpos : 0 < st.lastEvalTime) (hlt : st.lastEvalTime < ms) :
    (st.measure ms).bandwidthKbitsPerSec =
      (st.bytesReceived - st.lastBytesReceived).toNat /
        ((ms.toNat - st.lastEvalTime.toNat : ℕ) / 1000) * 8 / 1000 := by
  have hdiff : st.timeDiffMs ms = ms - st.lastEvalTime := if_pos hpos
  have hnat : (ms - st.lastEvalTime).toNat = ms.toNat - st.lastEvalTime.toNat :=
    UInt64.toNat_sub_of_le _ _ (UInt64.le_of_lt hlt)
  have hne : st.timeDiffMs ms > 0 := by
    rw [hdiff, gt_iff_lt, UInt64.lt_iff_toNat_lt, hnat]
    have := UInt64.lt_iff_toNat_lt.mp hlt
    simpa using this
  unfold ConnectionStats.measure
  rw [if_pos hne]
  dsimp only [ConnectionStats.bandwidthBytesPerSec, unrounded]
  rw [hdiff, hnat]

theorem Evaluation.bandwidthPenalty_eq_zero_iff :
    e.bandwidthPenalty ms c = 0 ↔ 85 / 100 ≤ e.group.ratio ms c := by
  unfold Evaluation.bandwidthPenalty ConnectionStats.bandwidthPenalty lightBandwidthPenalty
    legacyBandwidthPenalty
  simp only [unrounded]
  grind

theorem Evaluation.bandwidthPoints_of_reading (hms : e.reading = some ms) :
    e.bandwidthPoints c = if e.Past c then e.bandwidthPenalty ms c else 0 := by
  unfold Evaluation.bandwidthPoints
  rw [hms]

/-- A connection without a measurement gets the full penalty. -/
theorem Evaluation.ratio_of_unmeasured (hle : c.stats.lastEvalTime ≤ ms)
    (h : ¬ (0 < c.stats.lastEvalTime ∧ c.stats.lastEvalTime < ms)) : e.group.ratio ms c = 0 := by
  rw [e.ratio_eq, measure_of_unmeasured hle h, zero_div]

theorem Evaluation.ratio_of_carried (hpos : 0 < c.stats.lastEvalTime) (hlt : c.stats.lastEvalTime < ms)
    (h : e.Carried ms c) : 1 ≤ e.group.ratio ms c := by
  unfold Evaluation.Carried at h
  rw [if_pos hpos] at h
  have hdiff : (0 : ℚ) < ((ms.toNat - c.stats.lastEvalTime.toNat : ℕ) : ℚ) / 1000 := by
    have := UInt64.lt_iff_toNat_lt.mp hlt
    have hnat : 0 < ms.toNat - c.stats.lastEvalTime.toNat := by omega
    have hcast : (0 : ℚ) < ((ms.toNat - c.stats.lastEvalTime.toNat : ℕ) : ℚ) := by exact_mod_cast hnat
    positivity
  rw [e.ratio_eq, measure_of_measured hpos hlt, one_le_div (e.expectedKbits_pos ms c)]
  calc e.expectedKbits ms c
      ≤ ((c.stats.bytesReceived - c.stats.lastBytesReceived).toNat * 8 / 1000 : ℚ) /
          (((ms.toNat - c.stats.lastEvalTime.toNat : ℕ) : ℚ) / 1000) := (le_div_iff₀ hdiff).mpr h
    _ = _ := by ring

/-- A call is fair to a connection iff it does not score it, or has a measurement of it. -/
theorem Evaluation.fair_iff (hle : ∀ ms, e.reading = some ms → c.stats.lastEvalTime ≤ ms) :
    e.Fair c ↔ ∀ ms, e.reading = some ms → e.Past c →
      0 < c.stats.lastEvalTime ∧ c.stats.lastEvalTime < ms := by
  constructor
  · intro hfair ms hms hpast
    by_contra hnot
    have hne : e.bandwidthPoints c ≠ 0 := by
      rw [Evaluation.bandwidthPoints_of_reading hms, if_pos hpast, Ne,
        Evaluation.bandwidthPenalty_eq_zero_iff, Evaluation.ratio_of_unmeasured (hle ms hms) hnot]
      norm_num
    obtain ⟨ms', hms', hmeasured⟩ := hfair.measured hne
    rw [hms] at hms'
    rw [← Option.some.inj hms'] at hmeasured
    exact hnot hmeasured
  · intro h
    constructor
    · intro hne
      cases hms : e.reading with
      | none =>
        unfold Evaluation.bandwidthPoints at hne
        rw [hms] at hne
        exact absurd rfl hne
      | some ms =>
        rw [Evaluation.bandwidthPoints_of_reading hms] at hne
        split_ifs at hne with hpast
        · exact ⟨ms, rfl, h ms hms hpast⟩
        · exact absurd rfl hne
    · intro ms hms hcarried
      rw [Evaluation.bandwidthPoints_of_reading hms]
      split_ifs with hpast
      · obtain ⟨hpos, hlt⟩ := h ms hms hpast
        have hone := Evaluation.ratio_of_carried hpos hlt hcarried
        rw [Evaluation.bandwidthPenalty_eq_zero_iff]
        linarith
      · rfl

/-! ## The history of the measurements -/

/-- The clock with which the call scores the connection `r`, if it does. -/
def Evaluation.measures (e : Evaluation) (r : ℕ) : Option UInt64 :=
  if e.group.conns.any fun c => decide (c.ref = r ∧ e.Past c) then e.reading else none

/-- The clocks with which the connection `r` was scored in a run. -/
def readings (r : ℕ) (es : List (Machine.Event State Op Effect)) : List UInt64 :=
  es.flatMap fun ev => (ev.pre.evaluations ev.input).filterMap fun e => e.measures r

/-- The clocks that `evaluate_group` read in a run. -/
def clockReadings (es : List (Machine.Event State Op Effect)) : List UInt64 :=
  es.flatMap fun ev => (ev.pre.evaluations ev.input).filterMap Evaluation.reading

/-- The clock of `evaluate_group` does not go back. -/
def Metered (ops : List Op) : Prop := (clockReadings (receiver.hist State.init ops)).Pairwise (· ≤ ·)

theorem Evaluation.measures_eq (e : Evaluation) (r : ℕ) : e.measures r = e.noted (fun _ ms _ => ms) r := by
  unfold Evaluation.measures Evaluation.noted
  cases hfind : e.group.conns.find? fun c => decide (c.ref = r ∧ e.Past c) with
  | none =>
    have hany : ¬ (e.group.conns.any fun c => decide (c.ref = r ∧ e.Past c)) = true := by
      rw [List.any_eq_true]
      rintro ⟨z, hz, hr⟩
      exact List.find?_eq_none.mp hfind z hz hr
    rw [if_neg hany]
    cases e.reading <;> rfl
  | some z =>
    have hmatch := List.find?_some hfind
    have hany : (e.group.conns.any fun c => decide (c.ref = r ∧ e.Past c)) = true :=
      List.any_eq_true.mpr ⟨z, List.mem_of_find?_eq_some hfind, hmatch⟩
    rw [if_pos hany]
    cases e.reading <;> rfl

theorem readings_eq (r : ℕ) (es : List (Machine.Event State Op Effect)) :
    readings r es = notes (fun _ ms _ => ms) r es := by
  unfold readings notes
  simp only [Evaluation.measures_eq]

theorem Evaluation.measures_of_mem (hnodup : (e.group.conns.map Connection.ref).Nodup)
    (hc : c ∈ e.group.conns) : e.measures c.ref = if e.Past c then e.reading else none := by
  rw [e.measures_eq, Evaluation.noted_of_mem hnodup hc, Option.map_id']

theorem Evaluation.measures_mem_reading {r : ℕ} (h : e.measures r = some ms) : e.reading = some ms := by
  unfold Evaluation.measures at h
  split_ifs at h
  exact h

/-- Scoring dates a connection. -/
theorem kept_lastEvalTime : Kept ConnectionStats.lastEvalTime (fun _ ms _ => ms) fun l => l.getLast?.getD 0 where
  init := rfl
  count := ConnectionStats.count_keeps (fun _ _ _ => rfl) (fun _ _ => rfl) fun _ _ => rfl
  weight _ _ := rfl
  score e ms c before _ := by
    rw [List.getLast?_concat]
    rfl

/-- `last_eval_time` follows the history of a run. -/
structure Tracked (es : List (Machine.Event State Op Effect)) (s : State) : Prop where
  inv : Inv s
  conns : ∀ g ∈ s.groups, ∀ c ∈ g.conns, c.stats.lastEvalTime = (readings c.ref es).getLast?.getD 0
  fresh : ∀ r, s.nextRef ≤ r → readings r es = []

theorem readings_concat (r : ℕ) (es : List (Machine.Event State Op Effect))
    (ev : Machine.Event State Op Effect) :
    readings r (es ++ [ev]) =
      readings r es ++ (ev.pre.evaluations ev.input).filterMap fun e => e.measures r := by
  unfold readings
  rw [List.flatMap_append, List.flatMap_singleton]

/-- **`last_eval_time` is the clock of the last call that scored the connection.** -/
theorem tracked_run (ops : List Op) :
    Tracked (receiver.hist State.init ops) (receiver.run State.init ops) := by
  obtain ⟨hinv, hconns, hfresh⟩ := kept_lastEvalTime.run ops
  simp only [← readings_eq] at hconns hfresh
  exact ⟨hinv, hconns, hfresh⟩

/-- The clock of an earlier call is not later. -/
theorem Metered.le {ops : List Op} (h : Metered (ops ++ [op]))
    (he : e ∈ (receiver.run State.init ops).evaluations op) (hms : e.reading = some ms) {r : ℕ} {m : UInt64}
    (hm : m ∈ readings r (receiver.hist State.init ops)) : m ≤ ms := by
  unfold Metered clockReadings at h
  rw [Machine.hist_concat, List.flatMap_append, List.pairwise_append] at h
  refine h.2.2 m ?_ ms ?_
  · obtain ⟨ev, hev, hm⟩ := List.mem_flatMap.mp hm
    obtain ⟨e', he', hm⟩ := List.mem_filterMap.mp hm
    exact List.mem_flatMap.mpr
      ⟨ev, hev, List.mem_filterMap.mpr ⟨e', he', Evaluation.measures_mem_reading hm⟩⟩
  · rw [List.flatMap_singleton]
    exact List.mem_filterMap.mpr ⟨e, he, hms⟩

/-- **Penalties are fair but for the first evaluation past the grace period.** In
    every run with a clock that does not go back, a call of `evaluate_group` is fair to
    a connection iff it does not score it, or the last call that did had read a clock
    that is positive and has moved since. The bandwidth points that this is about are
    part of the error points that a call leaves. -/
theorem penalties_fair_iff (ops : List Op) (op : Op) (hclock : Metered (ops ++ [op]))
    (he : e ∈ (receiver.run State.init ops).evaluations op) (hc : c ∈ e.group.conns) :
    (∀ ms, e.measures c.ref = some ms → e.Gives c (e.bandwidthPoints c + e.otherPoints ms c)) ∧
    (e.Fair c ↔ ∀ ms, e.measures c.ref = some ms →
      ∃ m, (readings c.ref (receiver.hist State.init ops)).getLast? = some m ∧ 0 < m ∧ m < ms) := by
  have hnodup := (evaluations_spec (tracked_run ops).inv he).1
  have htime : c.stats.lastEvalTime =
      (readings c.ref (receiver.hist State.init ops)).getLast?.getD 0 := by
    rw [kept_lastEvalTime.call ops he hc, readings_eq]
  have hle : ∀ ms, e.reading = some ms → c.stats.lastEvalTime ≤ ms := by
    intro ms hms
    rw [htime]
    cases hlast : (readings c.ref (receiver.hist State.init ops)).getLast? with
    | none => exact UInt64.le_iff_toNat_le.mpr (Nat.zero_le _)
    | some m => exact hclock.le he hms (List.mem_of_getLast? hlast)
  have hmeasures : ∀ ms, e.measures c.ref = some ms ↔ e.reading = some ms ∧ e.Past c := by
    intro ms
    rw [Evaluation.measures_of_mem hnodup hc, Option.ite_none_right_eq_some, and_comm]
  refine ⟨fun ms hms => Evaluation.gives ((hmeasures ms).mp hms).1 ((hmeasures ms).mp hms).2, ?_⟩
  rw [Evaluation.fair_iff hle]
  refine forall_congr' fun ms => ?_
  rw [hmeasures, and_imp, htime]
  refine imp_congr_right fun _ => imp_congr_right fun _ => ?_
  cases (readings c.ref (receiver.hist State.init ops)).getLast? with
  | none => simp
  | some m => simp

/-! ## One connection -/

/-- The only connection of the only group, registered at time 100. -/
structure Alone (s : State) (g : ConnectionGroup) (c : Connection) : Prop where
  inv : Inv s
  groups : s.groups = [g]
  conns : g.conns = [c]
  addr : c.addr = sampleAddr 2
  start : c.connectionStart = 100
  enabled : g.loadBalancingEnabled = true

section Alone

variable {g : ConnectionGroup} {buf : Bytes} {env : PacketEnv}

theorem Alone.mem_conns (h : Alone s g c) : c ∈ g.conns := h.conns ▸ List.mem_singleton_self c

theorem Alone.nodup (h : Alone s g c) : (g.conns.map Connection.ref).Nodup := by
  rw [h.conns]
  exact List.nodup_singleton _

theorem Alone.found (h : Alone s g c) : findByAddress s.groups (sampleAddr 2) = some (g, some c) := by
  rw [← h.addr]
  exact findByAddress_registered h.inv (h.groups ▸ List.mem_singleton_self g) h.mem_conns

/-- A packet that evaluates nothing and does not take the group down counts for the connection. -/
theorem Alone.packet (h : Alone s g c) {t : ℤ} {g' : ConnectionGroup}
    (hreg : isSrtlaReg1 (mem buf) buf.length = false ∧ isSrtlaReg2 (mem buf) buf.length = false)
    (hcall : nakEvaluation g c buf (sampleAddr 2) t env = none)
    (hafter : afterPacket g c buf (sampleAddr 2) t env = some g') :
    s.evaluations (.packet buf (sampleAddr 2) t env) = [] ∧
      ∃ c', Alone (step s (.packet buf (sampleAddr 2) t env)).1 g' c' ∧
        c'.account = (c.counted g buf env).account := by
  have hframe := afterPacket_frame hafter
  have hput : Keyed.put Connection.ref (c.counted g buf env) [c] = [c.counted g buf env] :=
    congrArg (· :: []) (if_pos rfl)
  have haccounts := @onPacket_accounts g c buf (sampleAddr 2) t env h.nodup
  have hlone : (step s (.packet buf (sampleAddr 2) t env)).1.groups = [g'] ∧
      ∃ c', g'.conns = [c'] ∧ c'.addr = sampleAddr 2 := by
    rw [← h.addr] at hafter ⊢
    exact step_packet_lone h.inv h.groups h.conns hreg hafter
  obtain ⟨hgroups, c', hconns, haddr⟩ := hlone
  have hafterConns : (onPacket g c buf (sampleAddr 2) t env).group.conns = [c'] := by
    rw [← hconns, hframe]
  rw [hcall, hafterConns, h.conns, hput] at haccounts
  have haccount : c'.account = (c.counted g buf env).account := (List.cons.inj haccounts).1
  refine ⟨by rw [evaluations_of_conn t env hreg.1 hreg.2 h.found, hcall]; rfl, c', ?_, haccount⟩
  refine ⟨run_inv h.inv [_], hgroups, hconns, haddr, ?_, ?_⟩
  · exact (congrArg (fun a => a.2.1) haccount).trans h.start
  · rw [hframe]
    show (onPacket g c buf (sampleAddr 2) t env).group.loadBalancingEnabled = true
    rw [onPacket_frame]
    exact h.enabled

theorem nakEvaluation_of_isDataPacket (hdata : isDataPacket buf = true) (g : ConnectionGroup)
    (c : Connection) (addr : SockaddrStorage) (t : ℤ) (env : PacketEnv) :
    nakEvaluation g c buf addr t env = none :=
  nakEvaluation_eq_none (by rw [isSrtNakPacket_of_isDataPacket hdata, Bool.and_false, Bool.false_and])

/-- A data packet that the SRT server takes adds to the counters and leaves the
    evaluation times alone. -/
theorem Alone.data (h : Alone s g c) (hdata : isDataPacket buf = true)
    (htaken : ∀ g : ConnectionGroup, g.survives buf env.forward = true) (t : ℤ) :
    s.evaluations (.packet buf (sampleAddr 2) t env) = [] ∧
      ∃ g' c', Alone (step s (.packet buf (sampleAddr 2) t env)).1 g' c' ∧
        g'.lastQualityEval = g.lastQualityEval ∧ c'.ref = c.ref ∧
        c'.stats = c.stats.onPacketReceived buf.length := by
  have hcarries := carriesData_of_isDataPacket hdata
  have hnak := isSrtNakPacket_of_isDataPacket hdata
  obtain ⟨g', hafter⟩ : ∃ g', afterPacket g c buf (sampleAddr 2) t env = some g' := by
    unfold afterPacket
    rw [if_pos (relays_of_isDataPacket hdata), if_pos (htaken g)]
    exact ⟨_, rfl⟩
  obtain ⟨hcalls, c', halone, haccount⟩ := h.packet (not_isSrtlaReg_of_isDataPacket hdata)
    (nakEvaluation_of_isDataPacket hdata g c _ t env) hafter
  have hstats : (c.counted g buf env).stats = c.stats.onPacketReceived buf.length := by
    show c.stats.count buf _ _ = _
    rw [ConnectionStats.count_of_carriesData hcarries, hnak, Bool.false_and, if_neg (by decide)]
  refine ⟨hcalls, g', c', halone, ?_, congrArg Prod.fst haccount,
    (congrArg (fun a => a.2.2) haccount).trans hstats⟩
  rw [afterPacket_frame hafter, onPacket_of_carriesData hcarries]
  simp only [hnak, Bool.false_eq_true, if_false, Bool.not_true]
  rw [onSequenceNumber_frame]
  rfl

theorem Evaluation.conn_addr (e : Evaluation) (c : Connection) : (e.conn c).addr = c.addr := by
  rcases e.conn_cases c with ⟨heq, _⟩ | ⟨ms, _, _, heq⟩ <;> rw [heq]

theorem evaluations_single (h : s.groups = [g]) (t : ℤ) (ms : UInt64) :
    s.evaluations (.quality t fun _ => some ms) = [⟨g, t, some ms⟩] := by
  rw [State.evaluations, h, List.map_singleton]

theorem Alone.evalDue (h : Alone s g c) {t : ℤ} (hdue : g.lastQualityEval + connQualityEvalPeriod ≤ t) :
    g.EvalDue t where
  nonempty := by
    rw [h.conns]
    exact List.cons_ne_nil _ _
  enabled := h.enabled
  due := hdue

/-- What an evaluation and the adjustment of the weights leave. -/
theorem Alone.assess (h : Alone s g c) {t : ℤ} (hdue : g.lastQualityEval + connQualityEvalPeriod ≤ t)
    (ms : UInt64) :
    ∃ g' weight, Alone (step s (.quality t fun _ => some ms)).1 g'
        (((⟨g, t, some ms⟩ : Evaluation).conn c).weighted weight) ∧ g'.lastQualityEval = t := by
  obtain ⟨weight, hadjust⟩ := adjustWeights_eq (evaluateGroup g t (some ms)) t
  refine ⟨adjustWeights (evaluateGroup g t (some ms)) t,
    weight ((⟨g, t, some ms⟩ : Evaluation).conn c), ⟨run_inv h.inv [_], ?_, ?_, ?_, ?_, ?_⟩, ?_⟩
  · show s.groups.map _ = _
    rw [h.groups, List.map_singleton]
  · rw [hadjust, Evaluation.conns_eq ⟨g, t, some ms⟩, h.conns, List.map_singleton, List.map_singleton]
  · exact (Evaluation.conn_addr _ c).trans h.addr
  · exact (Evaluation.conn_frame _ c).2.trans h.start
  · rw [hadjust, (h.evalDue hdue).evaluateGroup]
    exact h.enabled
  · rw [hadjust, (h.evalDue hdue).evaluateGroup]

/-- An evaluation past the grace period scores the connection. -/
theorem Alone.scored (h : Alone s g c) {t : ℤ} (hdue : g.lastQualityEval + connQualityEvalPeriod ≤ t)
    (hpast : connectionGracePeriod ≤ t - 100) (ms : UInt64) :
    let e : Evaluation := ⟨g, t, some ms⟩
    e.reading = some ms ∧ e.Past c ∧
      (e.conn c).stats = c.stats.score (g.median ms) (minExpectedKbits g.conns.length) t ms := by
  intro e
  have hreading : e.reading = some ms := if_pos (h.evalDue hdue)
  have hover : e.Past c := by
    unfold Evaluation.Past
    rwa [h.start]
  refine ⟨hreading, hover, ?_⟩
  unfold Evaluation.conn
  rw [hreading]
  dsimp only
  rw [Connection.evaluate_eq, if_neg (not_lt.mpr hover)]

end Alone

/-! ## A connection at full rate -/

/-- One connection without telemetry that was not scored and has received `bytes`
    bytes since its registration at time 100; the last evaluation of its group was at `q`. -/
structure Steady (bytes : ℕ) (q : ℤ) (s : State) (g : ConnectionGroup) (c : Connection) : Prop where
  inv : Inv s
  groups : s.groups = [g]
  conns : g.conns = [c]
  addr : c.addr = sampleAddr 2
  start : c.connectionStart = 100
  bytes : c.stats.bytesReceived = UInt64.ofNat bytes
  unscored : c.stats.lastEvalTime = 0
  plain : c.stats.senderSupportsExtendedKeepalives = false
  enabled : g.loadBalancingEnabled = true
  lastEval : g.lastQualityEval = q

section Streaming

variable {g : ConnectionGroup} {bytes : ℕ} {q : ℤ} {buf : Bytes} {env : PacketEnv}

theorem Steady.alone (h : Steady bytes q s g c) : Alone s g c :=
  ⟨h.inv, h.groups, h.conns, h.addr, h.start, h.enabled⟩

/-- A data packet that the SRT server takes. -/
theorem Steady.packet (h : Steady bytes q s g c) (hdata : isDataPacket buf = true)
    (htaken : ∀ g : ConnectionGroup, g.survives buf env.forward = true) (t : ℤ) :
    s.evaluations (.packet buf (sampleAddr 2) t env) = [] ∧
      ∃ g' c', Steady (bytes + buf.length) q (step s (.packet buf (sampleAddr 2) t env)).1 g' c' := by
  obtain ⟨hcalls, g', c', halone, hlast, _, hstats⟩ := h.alone.data hdata htaken t
  refine ⟨hcalls, g', c', halone.inv, halone.groups, halone.conns, halone.addr, halone.start, ?_, ?_, ?_,
    halone.enabled, hlast.trans h.lastEval⟩
  · rw [hstats, ConnectionStats.onPacketReceived, h.bytes, UInt64.ofNat_add]
  · rw [hstats]
    exact h.unscored
  · rw [hstats]
    exact h.plain

theorem Steady.packets (h : Steady bytes q s g c) (hdata : isDataPacket buf = true)
    (htaken : ∀ g : ConnectionGroup, g.survives buf env.forward = true) (t : ℤ) (n : ℕ) :
    let ops := List.replicate n (Op.packet buf (sampleAddr 2) t env)
    clockReadings (receiver.hist s ops) = [] ∧
      ∃ g' c', Steady (bytes + n * buf.length) q (receiver.run s ops) g' c' := by
  induction n generalizing s g c bytes with
  | zero => exact ⟨rfl, g, c, by rwa [Nat.zero_mul, Nat.add_zero]⟩
  | succ n ih =>
    obtain ⟨hcalls, g₁, c₁, h₁⟩ := h.packet hdata htaken t
    obtain ⟨hclocks, g', c', h'⟩ := ih h₁
    refine ⟨?_, g', c', ?_⟩
    · unfold clockReadings at hclocks ⊢
      rw [List.replicate_succ, Machine.hist_cons, List.flatMap_cons, hcalls]
      exact hclocks
    · rw [Nat.succ_mul, Nat.add_comm (n * _), ← Nat.add_assoc]
      exact h'

theorem Steady.evalDue (h : Steady bytes q s g c) {t : ℤ} (hdue : q + connQualityEvalPeriod ≤ t) : g.EvalDue t :=
  h.alone.evalDue (h.lastEval ▸ hdue)

/-- An evaluation in the grace period leaves the connection as it was, up to its weight. -/
theorem Steady.quality (h : Steady bytes q s g c) {t : ℤ} (hdue : q + connQualityEvalPeriod ≤ t)
    (hgrace : t - 100 < connectionGracePeriod) (ms : UInt64) :
    ∃ g' c', Steady bytes t (receiver.run s [.quality t fun _ => some ms]) g' c' := by
  obtain ⟨g', weight, halone, hlast⟩ := h.alone.assess (h.lastEval ▸ hdue) ms
  have hconn : (⟨g, t, some ms⟩ : Evaluation).conn c = c := by
    rcases (⟨g, t, some ms⟩ : Evaluation).conn_cases c with hc | ⟨_, _, hpast, _⟩
    · exact hc.1
    · unfold Evaluation.Past at hpast
      rw [h.start] at hpast
      exact absurd hgrace (not_lt.mpr hpast)
  rw [hconn] at halone
  exact ⟨g', c.weighted weight, halone.inv, halone.groups, halone.conns, halone.addr, halone.start, h.bytes,
    h.unscored, h.plain, halone.enabled, hlast⟩

/-- The connection has no interval to be measured over. -/
theorem Steady.bandwidth (h : Steady bytes q s g c) (ms : UInt64) :
    (c.stats.measure ms).bandwidthKbitsPerSec = 0 := by
  refine measure_of_unmeasured ?_ ?_
  · rw [h.unscored]
    exact UInt64.le_iff_toNat_le.mpr (Nat.zero_le _)
  · rw [h.unscored]
    exact fun hpos => absurd hpos.1 (by decide)

/-- The first evaluation after the grace period gives all the points there are. -/
theorem Steady.penalised (h : Steady bytes q s g c) {t : ℤ} (hdue : q + connQualityEvalPeriod ≤ t)
    (hpast : connectionGracePeriod ≤ t - 100) (ms : UInt64) :
    (⟨g, t, some ms⟩ : Evaluation).bandwidthPoints c = 40 := by
  have hratio : g.ratio ms c = 0 := by
    rw [Evaluation.ratio_eq ⟨g, t, some ms⟩, h.bandwidth, zero_div]
  obtain ⟨hreading, hover, _⟩ := h.alone.scored (h.lastEval ▸ hdue) hpast ms
  rw [Evaluation.bandwidthPoints_of_reading hreading, if_pos hover, Evaluation.bandwidthPenalty,
    ConnectionStats.bandwidthPenalty, h.plain, if_neg (by decide), hratio]
  decide +kernel

/-- A single connection is expected to carry 1000 kbit/s. -/
theorem Steady.carried (h : Steady bytes q s g c) {t : ℤ} (hsize : bytes < 2 ^ 64)
    (hrate : 1000 * ((t - 100 : ℤ) : ℚ) ≤ bytes * 8 / 1000) (ms : UInt64) :
    (⟨g, t, some ms⟩ : Evaluation).Carried ms c := by
  have hmedian : g.median ms = 0 := by
    rw [ConnectionGroup.median, h.conns, List.map_singleton, h.bandwidth]
    decide +kernel
  have hexpected : (⟨g, t, some ms⟩ : Evaluation).expectedKbits ms c = 1000 := by
    unfold Evaluation.expectedKbits
    rw [h.bandwidth, hmedian, h.conns, List.length_singleton]
    decide +kernel
  unfold Evaluation.Carried
  rw [h.unscored, if_neg (by decide), hexpected, h.start, h.bytes, UInt64.toNat_ofNat',
    Nat.mod_eq_of_lt hsize]
  exact hrate

theorem clockReadings_single (h : s.groups = [g]) {t : ℤ} (hdue : g.EvalDue t) (ms : UInt64) :
    clockReadings (receiver.hist s [.quality t fun _ => some ms]) = [ms] := by
  have hreading : (⟨g, t, some ms⟩ : Evaluation).reading = some ms := if_pos hdue
  rw [clockReadings, Machine.hist_cons, Machine.hist_nil, List.flatMap_singleton, evaluations_single h,
    List.filterMap_cons, hreading, List.filterMap_nil]

theorem measures_single (hconns : g.conns = [c]) {t : ℤ} (hdue : g.EvalDue t)
    (hpast : connectionGracePeriod ≤ t - c.connectionStart) (ms : UInt64) :
    (⟨g, t, some ms⟩ : Evaluation).measures c.ref = some ms := by
  have hnodup : (g.conns.map Connection.ref).Nodup := by
    rw [hconns]
    exact List.nodup_singleton _
  have hmem : c ∈ g.conns := hconns ▸ List.mem_singleton_self c
  exact (Evaluation.measures_of_mem hnodup hmem).trans ((if_pos hpast).trans (if_pos hdue))

end Streaming

/-- A registration at time 100. -/
def registration : List Op := handshake default default (sampleAddr 1) (sampleAddr 2) 100 100

theorem steady_registration : ∃ g c, Steady 0 0 (receiver.run State.init registration) g c :=
  ⟨_, _, reachable_inv ⟨_, rfl⟩, (run_handshake default default (sampleAddr 1) (sampleAddr 2) 100 100).1,
    rfl, rfl, rfl, rfl, rfl, rfl, rfl, rfl⟩

theorem evaluations_registration :
    ∀ ev ∈ receiver.hist State.init registration, ev.pre.evaluations ev.input = [] := by
  unfold registration handshake
  rw [Machine.hist_cons, Machine.hist_cons, Machine.hist_nil]
  intro ev hev
  rcases List.mem_cons.mp hev with rfl | hev
  · exact evaluations_of_reg (Or.inl (isSrtlaReg1_reg1Frame _))
  · rw [List.mem_singleton.mp hev]
    exact evaluations_of_reg (Or.inr (isSrtlaReg2_reg2Frame _))

theorem clockReadings_append (s : State) (is js : List Op) :
    clockReadings (receiver.hist s (is ++ js)) =
      clockReadings (receiver.hist s is) ++ clockReadings (receiver.hist (receiver.run s is) js) := by
  unfold clockReadings
  rw [Machine.hist_append, List.flatMap_append]

theorem clockReadings_registration : clockReadings (receiver.hist State.init registration) = [] :=
  List.flatMap_eq_nil_iff.mpr fun ev hev => by rw [evaluations_registration ev hev]; rfl

/-- The payload of a full SRT packet. -/
def fullPayload : Bytes := List.replicate 1316 0

theorem isDataPacket_zeros {n : ℕ} (h : srtMinLen ≤ n) : isDataPacket (List.replicate n 0) = true := by
  have hzero : ∀ i, mem (List.replicate n 0) i = 0 := by
    intro i
    by_cases hi : i < n <;> simp [mem, hi]
  rw [isDataPacket_iff, List.length_replicate]
  exact ⟨h, by simp [be32, be16, hzero]⟩

/-- The SRT server takes all of a full packet. -/
def fullEnv : PacketEnv :=
  { (default : PacketEnv) with forward := { (default : ForwardEnv) with sendRet := 1316 } }

theorem survives_full (g : ConnectionGroup) : g.survives fullPayload fullEnv.forward = true := by
  have hopens : fullEnv.forward.socket.opens = true := by decide
  have hfatal : fullEnv.forward.fatal fullPayload = false := by
    unfold ForwardEnv.fatal
    rw [fullPayload, List.length_replicate]
    decide
  rw [ConnectionGroup.survives, ConnectionGroup.getsSocket, hopens, hfatal, Bool.or_true]
  decide

/-- A registration, 1000 full packets, an evaluation in the grace period and 1000 full packets. -/
def fullRun : List Op :=
  registration ++ List.replicate 1000 (.packet fullPayload (sampleAddr 2) 102 fullEnv) ++
    [.quality 105 fun _ => some 105000] ++
    List.replicate 1000 (.packet fullPayload (sampleAddr 2) 107 fullEnv)

theorem steady_fullRun : clockReadings (receiver.hist State.init fullRun) = [105000] ∧
    ∃ g c, Steady 2632000 105 (receiver.run State.init fullRun) g c := by
  have hdata : isDataPacket fullPayload = true := isDataPacket_zeros (by decide)
  have hlen : fullPayload.length = 1316 := List.length_replicate
  obtain ⟨_, _, h₀⟩ := steady_registration
  obtain ⟨hclocks₁, _, _, h₁⟩ := h₀.packets hdata survives_full 102 1000
  obtain ⟨_, _, h₂⟩ := h₁.quality (t := 105) (by decide) (by decide) 105000
  obtain ⟨hclocks₃, g, c, h₃⟩ := h₂.packets hdata survives_full 107 1000
  have hclocks₂ := clockReadings_single h₁.groups (h₁.evalDue (t := 105) (by decide)) 105000
  have hbytes : 0 + 1000 * fullPayload.length + 1000 * fullPayload.length = 2632000 := by rw [hlen]
  rw [hbytes] at h₃
  refine ⟨?_, g, c, ?_⟩
  · rw [fullRun, clockReadings_append, clockReadings_append, clockReadings_append,
      clockReadings_registration, hclocks₁, Machine.run_append, hclocks₂, Machine.run_append,
      Machine.run_append, hclocks₃]
    rfl
  · rw [fullRun, Machine.run_append, Machine.run_append, Machine.run_append]
    exact h₃

/-- **A connection at full rate is penalised.** 2 Mbit/s since the registration, twice
    what is expected, and the evaluation after the grace period gives 40 points. -/
theorem penalised_at_full_rate :
    let op : Op := .quality 110 fun _ => some 110000
    Metered (fullRun ++ [op]) ∧ ∃ e ∈ (receiver.run State.init fullRun).evaluations op,
      ∃ c ∈ e.group.conns, e.reading = some 110000 ∧ e.Carried 110000 c ∧
        c.stats.lastEvalTime = 0 ∧ e.bandwidthPoints c = 40 ∧ e.Gives c (40 + e.otherPoints 110000 c) ∧
        ¬ e.Fair c := by
  obtain ⟨hclocks, g, c, h⟩ := steady_fullRun
  have hdue : 105 + connQualityEvalPeriod ≤ 110 := by decide
  obtain ⟨hreading, hover, _⟩ := h.alone.scored (t := 110) (h.lastEval ▸ hdue) (by decide) 110000
  have hpoints := h.penalised hdue (by decide) 110000
  have hcarried := h.carried (t := 110) (by decide) (by norm_num) 110000
  refine ⟨?_, ⟨g, 110, some 110000⟩, ?_, c, ?_, hreading, hcarried, h.unscored, hpoints,
    hpoints ▸ Evaluation.gives hreading hover, ?_⟩
  · unfold Metered
    rw [clockReadings_append, hclocks, clockReadings_single h.groups (h.evalDue hdue)]
    decide
  · rw [evaluations_single h.groups]
    exact List.mem_singleton_self _
  · show c ∈ g.conns
    rw [h.conns]
    exact List.mem_singleton_self c
  · intro hfair
    have hzero := hfair.carried 110000 hreading hcarried
    rw [hpoints] at hzero
    exact absurd hzero (by decide)

/-- A registration and an evaluation after the grace period. -/
def firstScore : List Op := registration ++ [.quality 110 fun _ => some 110000]

theorem run_firstScore : clockReadings (receiver.hist State.init firstScore) = [110000] ∧
    ∃ g c, (receiver.run State.init firstScore).groups = [g] ∧ g.conns = [c] ∧ c.connectionStart = 100 ∧
      g.EvalDue 115 ∧ readings c.ref (receiver.hist State.init firstScore) = [110000] := by
  obtain ⟨g, c, h⟩ := steady_registration
  have hdue := h.evalDue (t := 110) (by decide)
  obtain ⟨g', weight, halone, hlast⟩ := h.alone.assess (t := 110) (by rw [h.lastEval]; decide) 110000
  have href := ((⟨g, 110, some 110000⟩ : Evaluation).conn_frame c).1
  refine ⟨?_, g', _, ?_, halone.conns, halone.start, halone.evalDue (by rw [hlast]; decide), ?_⟩
  · rw [firstScore, clockReadings_append, clockReadings_registration, clockReadings_single h.groups hdue]
    rfl
  · rw [firstScore, Machine.run_concat]
    exact halone.groups
  · have hnone : readings c.ref (receiver.hist State.init registration) = [] := by
      rw [readings_eq, notes_eq_nil evaluations_registration]
    have hpast : connectionGracePeriod ≤ 110 - c.connectionStart := by
      rw [h.start]
      decide
    show readings ((⟨g, 110, some 110000⟩ : Evaluation).conn c).ref _ = _
    rw [href, firstScore, Machine.hist_concat, readings_concat, hnone, evaluations_single h.groups,
      List.filterMap_cons, measures_single h.conns hdue hpast]
    rfl

/-- The second evaluation after the grace period is fair. -/
theorem penalties_fair_second :
    let op : Op := .quality 115 fun _ => some 115000
    Metered (firstScore ++ [op]) ∧ ∃ e ∈ (receiver.run State.init firstScore).evaluations op,
      ∃ c ∈ e.group.conns, e.measures c.ref = some 115000 ∧
        e.Gives c (e.bandwidthPoints c + e.otherPoints 115000 c) ∧ e.Fair c := by
  obtain ⟨hclocks, g, c, hgroups, hconns, hstart, hdue, hreadings⟩ := run_firstScore
  have hmeasures := measures_single hconns hdue (by rw [hstart]; decide) 115000
  have hmem : c ∈ g.conns := hconns ▸ List.mem_singleton_self c
  have hmetered : Metered (firstScore ++ [.quality 115 fun _ => some 115000]) := by
    unfold Metered
    rw [clockReadings_append, hclocks, clockReadings_single hgroups hdue]
    decide
  have he : (⟨g, 115, some 115000⟩ : Evaluation) ∈
      (receiver.run State.init firstScore).evaluations (.quality 115 fun _ => some 115000) := by
    rw [evaluations_single hgroups]
    exact List.mem_singleton_self _
  obtain ⟨hgives, hfair⟩ := penalties_fair_iff firstScore _ hmetered he hmem
  refine ⟨hmetered, _, he, c, hmem, hmeasures, hgives 115000 hmeasures, ?_⟩
  refine hfair.mpr fun ms hms => ⟨110000, ?_, by decide, ?_⟩
  · rw [hreadings]
    rfl
  · rw [hmeasures] at hms
    rw [← Option.some.inj hms]
    decide

end Srtla.Receiver
