import Srtla.Receiver.Keepalive
import Srtla.Receiver.Measured

/-!
# NAK points (`src/quality/quality_evaluator.cpp:224-241`, `:338-359`)

A sender counts the NAKs it receives and reports the counter in its keepalives. An
evaluation takes the difference to `last_sender_nak_count`, the counter it has kept from
before, and gives points for the NAKs per packet.

**Deviation.** The difference is taken in `uint32_t`. A counter that has gone back, after
a restart of the sender or when keepalives overtake each other, is therefore almost
2^32 NAKs ahead. And an evaluation without fresh telemetry, without packets or with a
counter of 0 does not keep the counter, so that a later one gives points for a counter
that has not moved since.

* `kept_lastSenderNakCount`: in every run, the counter that is kept is that of the last
  evaluation which has compared counters.
* `nak_points_new_iff`: when an evaluation whose counter is not greater than at the
  evaluation before gives no NAK points.
* `counter_back_penalised`: the counter goes from 100 to 99, and 40 points.
-/

namespace Srtla.Receiver

open Lib

variable {e : Evaluation} {c : Connection} {ms : UInt64}

/-! ## The points of a call -/

/-- The NAK error points that the call adds to a connection. -/
def Evaluation.nakPoints (e : Evaluation) (c : Connection) : UInt32 :=
  match e.reading with
  | some ms =>
    if e.Past c ∧ c.stats.hasValidSenderTelemetry e.time = true then
      (calculateNakErrorPoints c.stats (c.stats.measure ms).packetsDiff).1
    else 0
  | none => 0

/-- What the NAK points rest on, but for the counter that was kept. -/
structure NakScore where
  counter : UInt32
  packets : UInt64
  telemetry : Bool
deriving DecidableEq

def ConnectionStats.nakScore (st : ConnectionStats) (t : ℤ) (ms : UInt64) : NakScore :=
  ⟨st.senderNakCount, (st.measure ms).packetsDiff, st.hasValidSenderTelemetry t⟩

def Evaluation.nakScore (e : Evaluation) (ms : UInt64) (c : Connection) : NakScore := c.stats.nakScore e.time ms

/-- The evaluation compares the counter with the one that was kept, and keeps it. -/
structure NakScore.Compares (n : NakScore) : Prop where
  telemetry : n.telemetry = true
  packets : n.packets ≠ 0
  counter : n.counter ≠ 0

instance (n : NakScore) : Decidable n.Compares :=
  decidable_of_iff (n.telemetry = true ∧ n.packets ≠ 0 ∧ n.counter ≠ 0)
    ⟨fun h => ⟨h.1, h.2.1, h.2.2⟩, fun h => ⟨h.telemetry, h.packets, h.counter⟩⟩

/-- `nak_diff`, as a number of NAKs. -/
def naksSince (last counter : UInt32) : ℕ :=
  if last ≤ counter then counter.toNat - last.toNat else 2 ^ 32 - (last.toNat - counter.toNat)

theorem toNat_sub_eq_naksSince (last counter : UInt32) : (counter - last).toNat = naksSince last counter := by
  have hlast := last.toNat_lt
  have hcounter := counter.toNat_lt
  unfold naksSince
  rw [UInt32.toNat_sub]
  split_ifs with hle <;> rw [UInt32.le_iff_toNat_le] at hle <;> omega

/-- A counter that is not greater than the kept one. -/
theorem naksSince_of_le {last counter : UInt32} (h : counter ≤ last) (packets : ℕ) :
    naksSince last counter * 100 ≤ packets ↔
      (counter = last ∨ (2 ^ 32 - (last.toNat - counter.toNat)) * 100 ≤ packets) := by
  unfold naksSince
  split_ifs with hle
  · have heq := UInt32.le_antisymm h hle
    rw [heq, Nat.sub_self, Nat.zero_mul]
    exact ⟨fun _ => Or.inl rfl, fun _ => Nat.zero_le _⟩
  · have hne : counter ≠ last := fun heq => hle (heq ▸ UInt32.le_refl _)
    exact ⟨Or.inr, fun h => h.resolve_left hne⟩

/-- The points for all but the NAKs. -/
def Evaluation.plainPoints (e : Evaluation) (ms : UInt64) (c : Connection) : UInt32 :=
  e.bandwidthPoints c + lossPenalty (c.stats.measure ms).packetLossRatio +
    if c.stats.hasValidSenderTelemetry e.time then
      calculateRttErrorPoints c.stats e.time + calculateWindowErrorPoints c.stats
    else 0

/-- The NAK points are part of the error points. -/
theorem Evaluation.gives_nak (hms : e.reading = some ms) (hpast : e.Past c) :
    e.Gives c (e.plainPoints ms c + e.nakPoints c) := by
  have hlast : ∀ bandwidth loss rtt nak window : UInt32,
      bandwidth + (loss + (rtt + nak + window)) = bandwidth + loss + (rtt + window) + nak := by
    intro bandwidth loss rtt nak window
    ac_rfl
  have hsum : e.bandwidthPoints c + e.otherPoints ms c = e.plainPoints ms c + e.nakPoints c := by
    unfold Evaluation.otherPoints Evaluation.telemetryPoints ConnectionStats.telemetryPoints
      Evaluation.plainPoints Evaluation.nakPoints
    rw [hms]
    by_cases hvalid : c.stats.hasValidSenderTelemetry e.time = true
    · simp only [if_pos hvalid, if_pos (And.intro hpast hvalid)]
      exact hlast _ _ _ _ _
    · simp only [if_neg hvalid, if_neg fun h : _ ∧ _ => hvalid h.2, UInt32.add_zero]
  rw [← hsum]
  exact Evaluation.gives hms hpast

theorem nakPoints_eq_zero_of_rate {st : ConnectionStats} {packets : UInt64} (hpackets : packets ≠ 0)
    (hcounter : st.senderNakCount ≠ 0) : (calculateNakErrorPoints st packets).1 = 0 ↔
      naksSince st.lastSenderNakCount st.senderNakCount * 100 ≤ packets.toNat := by
  have hpos : (0 : ℚ) < packets.toNat := by
    have hne : packets.toNat ≠ 0 := fun h => hpackets (UInt64.toNat_inj.mp h)
    exact_mod_cast Nat.pos_of_ne_zero hne
  have hlow : ∀ rate : ℚ, (if rate > nakRateCritical then (40 : UInt32) else if rate > nakRateHigh then 20
      else if rate > nakRateModerate then 10 else if rate > nakRateLow then 5 else 0) = 0 ↔ rate ≤ 1 / 100 := by
    intro rate
    unfold nakRateCritical nakRateHigh nakRateModerate nakRateLow
    grind
  unfold calculateNakErrorPoints
  rw [if_neg (not_or.mpr ⟨hpackets, hcounter⟩)]
  dsimp only
  rw [hlow, toNat_sub_eq_naksSince, div_le_div_iff₀ hpos (by norm_num), one_mul]
  exact_mod_cast Iff.rfl

/-- An evaluation gives no NAK points iff it does not compare counters, or finds no more
    than one NAK for 100 packets. -/
theorem Evaluation.nakPoints_eq_zero_iff (hms : e.reading = some ms) (hpast : e.Past c) :
    e.nakPoints c = 0 ↔ ((e.nakScore ms c).Compares →
      naksSince c.stats.lastSenderNakCount c.stats.senderNakCount * 100 ≤ (e.nakScore ms c).packets.toNat) := by
  unfold Evaluation.nakPoints
  rw [hms]
  dsimp only
  by_cases hcompares : (e.nakScore ms c).Compares
  · have hrate := nakPoints_eq_zero_of_rate hcompares.packets hcompares.counter
    rw [if_pos ⟨hpast, hcompares.telemetry⟩]
    exact ⟨fun h _ => hrate.mp h, fun h => hrate.mpr (h hcompares)⟩
  · refine ⟨fun _ h => absurd h hcompares, fun _ => ?_⟩
    split_ifs with hvalid
    · unfold calculateNakErrorPoints
      rw [if_pos]
      by_contra hnot
      rw [not_or] at hnot
      exact hcompares ⟨hvalid.2, hnot.1, hnot.2⟩
    · rfl

/-! ## The counter that is kept -/

/-- The counter at the last evaluation that has compared counters, or 0. -/
def baseline (scores : List NakScore) : UInt32 :=
  ((scores.filter fun n => decide n.Compares).getLast?.map NakScore.counter).getD 0

theorem baseline_concat (scores : List NakScore) (n : NakScore) :
    baseline (scores ++ [n]) = if n.Compares then n.counter else baseline scores := by
  unfold baseline
  rw [List.filter_append, List.filter_singleton]
  by_cases h : n.Compares
  · rw [decide_eq_true h, if_pos h, cond_true, List.getLast?_concat]
    rfl
  · rw [decide_eq_false h, if_neg h, cond_false, List.append_nil]

theorem ConnectionStats.score_lastSenderNakCount (st : ConnectionStats) (median minExpected : ℚ) (t : ℤ)
    (ms : UInt64) : (st.score median minExpected t ms).lastSenderNakCount =
      if (st.nakScore t ms).Compares then st.senderNakCount else st.lastSenderNakCount := by
  show (if st.hasValidSenderTelemetry t then (calculateNakErrorPoints st (st.measure ms).packetsDiff).2
      else st).lastSenderNakCount = _
  by_cases hvalid : st.hasValidSenderTelemetry t = true
  · rw [if_pos hvalid]
    unfold calculateNakErrorPoints
    by_cases hnone : (st.measure ms).packetsDiff = 0 ∨ st.senderNakCount = 0
    · rw [if_pos hnone, if_neg fun h => hnone.elim h.packets h.counter]
    · rw [not_or] at hnone
      rw [if_neg (not_or.mpr hnone), if_pos ⟨hvalid, hnone.1, hnone.2⟩]
  · rw [if_neg hvalid, if_neg fun h => hvalid h.telemetry]

/-- **`last_sender_nak_count` is the counter of the last evaluation that has compared.** -/
theorem kept_lastSenderNakCount : Kept ConnectionStats.lastSenderNakCount Evaluation.nakScore baseline where
  init := rfl
  count := ConnectionStats.count_keeps (fun _ _ _ => rfl) (fun _ _ => rfl) fun _ _ => rfl
  weight _ _ := rfl
  score e ms c before hbefore := by
    rw [ConnectionStats.score_lastSenderNakCount, baseline_concat, hbefore]
    rfl

/-- **When a counter that has not grown gives no points.** In every run, take a
    connection that is evaluated past its grace period and was so before, at `previous`. A
    counter not greater than it was then gives no NAK points iff counters are not compared,
    or it is unchanged and `previous` has kept it, or the NAKs it is taken for are no more
    than one for 100 packets: 2^32 less the step back if `previous` has kept its counter,
    and those since an earlier evaluation if not. The NAK points are part of the error
    points that the evaluation leaves. -/
theorem nak_points_new_iff (ops : List Op) (op : Op) (he : e ∈ (receiver.run State.init ops).evaluations op)
    (hc : c ∈ e.group.conns) (hms : e.reading = some ms) (hpast : e.Past c) {earlier : List NakScore}
    {previous : NakScore}
    (hscores : notes Evaluation.nakScore c.ref (receiver.hist State.init ops) = earlier ++ [previous]) :
    let counter := c.stats.senderNakCount
    let packets := (e.nakScore ms c).packets.toNat
    e.Gives c (e.plainPoints ms c + e.nakPoints c) ∧
    ((counter ≤ previous.counter → e.nakPoints c = 0) ↔
      (counter ≤ previous.counter → (e.nakScore ms c).Compares →
        if previous.Compares then
          counter = previous.counter ∨ (2 ^ 32 - (previous.counter.toNat - counter.toNat)) * 100 ≤ packets
        else naksSince (baseline earlier) counter * 100 ≤ packets)) := by
  intro counter packets
  refine ⟨Evaluation.gives_nak hms hpast, imp_congr_right fun hle => ?_⟩
  rw [Evaluation.nakPoints_eq_zero_iff hms hpast, kept_lastSenderNakCount.call ops he hc, hscores, baseline_concat]
  refine imp_congr_right fun _ => ?_
  split_ifs
  -- the counter kept is that of `previous`, which is not smaller: the difference is 0 or wraps
  · exact naksSince_of_le hle packets
  · exact Iff.rfl

/-! ## A sender that reports -/

section Reporting

variable {s : State} {g : ConnectionGroup} {st st' : ConnectionStats} {t : ℤ}

/-- The statistics that the NAK points depend on. -/
def ConnectionStats.nakView (st : ConnectionStats) :
    (UInt32 × UInt32) × (UInt64 × UInt64 × UInt64) × ℤ × UInt32 × ℤ :=
  ((st.senderNakCount, st.lastSenderNakCount),
    (st.packetsReceived, st.lastPacketsReceived, st.lastEvalTime), st.lastKeepalive, st.rttMs, st.window)

theorem nakScore_congr (h : st.nakView = st'.nakView) (t : ℤ) (ms : UInt64) :
    st.nakScore t ms = st'.nakScore t ms := by
  simp only [ConnectionStats.nakView, Prod.mk.injEq] at h
  obtain ⟨⟨hcounter, _⟩, ⟨hpackets, hlastPackets, heval⟩, hkeepalive, hrtt, hwindow⟩ := h
  have hdiff : (st.measure ms).packetsDiff = (st'.measure ms).packetsDiff := by
    unfold ConnectionStats.measure ConnectionStats.timeDiffMs
    rw [heval, hpackets, hlastPackets]
    split_ifs <;> rfl
  unfold ConnectionStats.nakScore ConnectionStats.hasValidSenderTelemetry
  rw [hcounter, hdiff, hkeepalive, hrtt, hwindow]

theorem nakView_score (h : st.nakView = st'.nakView) (median minExpected median' minExpected' : ℚ) (t : ℤ)
    (ms : UInt64) :
    (st.score median minExpected t ms).nakView = (st'.score median' minExpected' t ms).nakView := by
  have hview : ∀ (st : ConnectionStats) (median minExpected : ℚ), (st.score median minExpected t ms).nakView =
      ((st.senderNakCount, if (st.nakScore t ms).Compares then st.senderNakCount else st.lastSenderNakCount),
        (st.packetsReceived, st.packetsReceived, ms), st.lastKeepalive, st.rttMs, st.window) := by
    intro st median minExpected
    rw [← st.score_lastSenderNakCount median minExpected, ConnectionStats.nakView]
    unfold ConnectionStats.score ConnectionStats.scoreMeasured evaluateConnectionLegacy
    dsimp only
    rw [calculateNakErrorPoints_frame]
    split_ifs <;> rfl
  rw [hview, hview, nakScore_congr h]
  simp only [ConnectionStats.nakView, Prod.mk.injEq] at h
  obtain ⟨⟨hcounter, hlast⟩, ⟨hpackets, _, _⟩, hkeepalive, hrtt, hwindow⟩ := h
  rw [hcounter, hlast, hpackets, hkeepalive, hrtt, hwindow]

theorem nakView_packet (h : st.nakView = st'.nakView) (n : ℕ) :
    (st.onPacketReceived n).nakView = (st'.onPacketReceived n).nakView := by
  simp only [ConnectionStats.nakView, Prod.mk.injEq] at h ⊢
  exact ⟨h.1, ⟨congrArg (· + 1) h.2.1.1, h.2.1.2⟩, h.2.2⟩

/-- A keepalive with the counter `nak`. -/
def nakReport (nak : UInt32) : ConnectionInfo where
  connId := 1
  window := 8192
  inFlight := 4
  rttMs := 50
  nakCount := nak
  bitrateBytesPerSec := 0

def reportFrame (nak : UInt32) : Bytes := extKeepalive (fun _ => 0) (nakReport nak)

def reportEnv (t : ℤ) : PacketEnv := { (default : PacketEnv) with keepaliveSec := t }

/-- A keepalive with the counter `nak` and a data packet. -/
def report (nak : UInt32) (t : ℤ) : List Op :=
  [.packet (reportFrame nak) (sampleAddr 2) t (reportEnv t), .packet fullPayload (sampleAddr 2) t fullEnv]

/-- The statistics after a report. -/
def ConnectionStats.reported (st : ConnectionStats) (nak : UInt32) (t : ℤ) : ConnectionStats :=
  (st.updateConnectionTelemetry (nakReport nak) t).onPacketReceived 1316

theorem parse_reportFrame (nak : UInt32) :
    parseKeepaliveConnInfo (mem (reportFrame nak)) (reportFrame nak).length = some (nakReport nak) := by
  have hwindow : Int32Range 8192 := ⟨by decide, by decide⟩
  have hinFlight : Int32Range 4 := ⟨by decide, by decide⟩
  have hrange : (nakReport nak).InRange := ⟨hwindow, hinFlight⟩
  have hparse := parse_extKeepalive hrange (fun _ => 0) []
  rwa [List.append_nil] at hparse

theorem isSrtlaKeepalive_of_parse {buf : Mem} {len : ℤ} {info : ConnectionInfo}
    (h : parseKeepaliveConnInfo buf len = some info) : isSrtlaKeepalive buf len = true := by
  unfold parseKeepaliveConnInfo at h
  split_ifs at h with hlen htype
  unfold isSrtlaKeepalive getSrtType
  rw [if_neg (by rw [not_lt] at hlen; exact not_lt.mpr (le_trans (by decide) hlen)), not_not.mp htype]
  rfl

theorem nakView_count_report (nak : UInt32) (accepted : Bool) (h : st.nakView = st'.nakView) :
    (st.count (reportFrame nak) accepted t).nakView = (st'.updateConnectionTelemetry (nakReport nak) t).nakView := by
  have hparse := parse_reportFrame nak
  unfold ConnectionStats.count
  rw [if_pos (isSrtlaKeepalive_of_parse hparse), hparse]
  simp only [ConnectionStats.nakView, Prod.mk.injEq] at h ⊢
  exact ⟨⟨rfl, h.1.2⟩, h.2.1, rfl, rfl, rfl⟩

/-- A keepalive counts for the connection and leaves the evaluation times alone. -/
theorem Alone.keepalive (h : Alone s g c) {buf : Bytes} (hka : isSrtlaKeepalive (mem buf) buf.length = true)
    (t : ℤ) (env : PacketEnv) :
    s.evaluations (.packet buf (sampleAddr 2) t env) = [] ∧
      ∃ g' c', Alone (step s (.packet buf (sampleAddr 2) t env)).1 g' c' ∧
        g'.lastQualityEval = g.lastQualityEval ∧ c'.ref = c.ref ∧
        c'.stats = c.stats.count buf (nakAccepted g buf env) env.keepaliveSec := by
  have hcarries : carriesData buf = false := carriesData_eq_false_iff.mpr (Or.inl hka)
  have hcall : nakEvaluation g c buf (sampleAddr 2) t env = none :=
    nakEvaluation_eq_none (by rw [hcarries, Bool.false_and, Bool.false_and])
  have hafter : afterPacket g c buf (sampleAddr 2) t env =
      some (onPacket g c buf (sampleAddr 2) t env).group := by
    unfold afterPacket relays
    rw [hcarries, Bool.false_and]
    rfl
  obtain ⟨hcalls, c', halone, haccount⟩ := h.packet (not_isSrtlaReg_of_keepalive hka) hcall hafter
  refine ⟨hcalls, _, c', halone, ?_, congrArg Prod.fst haccount, congrArg (fun a => a.2.2) haccount⟩
  rw [onPacket_of_keepalive hka]
  rfl

/-- After `ops` there is one connection, with the statistics of `st` and the `scores` of
    its evaluations; the last evaluation of its group was at `q`. -/
def Reports (ops : List Op) (st : ConnectionStats) (scores : List NakScore) (q : ℤ) : Prop :=
  ∃ g c, Alone (receiver.run State.init ops) g c ∧ g.lastQualityEval = q ∧ c.stats.nakView = st.nakView ∧
    notes Evaluation.nakScore c.ref (receiver.hist State.init ops) = scores

variable {ops : List Op} {scores : List NakScore} {q : ℤ}

theorem reports_registration : Reports registration {} [] 0 := by
  obtain ⟨hgroups, _⟩ := run_handshake default default (sampleAddr 1) (sampleAddr 2) 100 100
  exact ⟨_, _, ⟨reachable_inv ⟨_, rfl⟩, hgroups, rfl, rfl, rfl, rfl⟩, rfl, rfl,
    notes_eq_nil evaluations_registration⟩

theorem Reports.report (h : Reports ops st scores q) (nak : UInt32) (t : ℤ) :
    Reports (ops ++ report nak t) (st.reported nak t) scores q := by
  obtain ⟨g, c, halone, hlast, hview, hscores⟩ := h
  have hka := isSrtlaKeepalive_of_parse (parse_reportFrame nak)
  have hdata : isDataPacket fullPayload = true := isDataPacket_zeros (by decide)
  obtain ⟨hcalls₁, g₁, c₁, halone₁, hlast₁, href₁, hstats₁⟩ := halone.keepalive hka t (reportEnv t)
  obtain ⟨hcalls₂, g₂, c₂, halone₂, hlast₂, href₂, hstats₂⟩ := halone₁.data hdata survives_full t
  have hview₁ : c₁.stats.nakView = (st.updateConnectionTelemetry (nakReport nak) t).nakView := by
    rw [hstats₁]
    exact nakView_count_report nak _ hview
  refine ⟨g₂, c₂, ?_, hlast₂.trans (hlast₁.trans hlast), ?_, ?_⟩
  · rw [Machine.run_append]
    exact halone₂
  · rw [hstats₂, fullPayload, List.length_replicate]
    exact nakView_packet hview₁ 1316
  · have hnone : notes Evaluation.nakScore c.ref
        (receiver.hist (receiver.run State.init ops) (Receiver.report nak t)) = [] := by
      refine notes_eq_nil fun ev hev => ?_
      rw [Receiver.report, Machine.hist_cons, Machine.hist_cons, Machine.hist_nil] at hev
      rcases List.mem_cons.mp hev with rfl | hev
      · exact hcalls₁
      · rw [List.mem_singleton.mp hev]
        exact hcalls₂
    rw [href₂, href₁, Machine.hist_append, notes_append, hnone, List.append_nil, hscores]

theorem Reports.quality (h : Reports ops st scores q) {t : ℤ} (hdue : q + connQualityEvalPeriod ≤ t)
    (hpast : connectionGracePeriod ≤ t - 100) (ms : UInt64) :
    Reports (ops ++ [Op.quality t fun _ => some ms]) (st.score 0 0 t ms) (scores ++ [st.nakScore t ms]) t := by
  obtain ⟨g, c, halone, rfl, hview, hscores⟩ := h
  obtain ⟨hreading, hover, hstats⟩ := halone.scored hdue hpast ms
  obtain ⟨g', weight, halone', hlast⟩ := halone.assess hdue ms
  have hnoted : (⟨g, t, some ms⟩ : Evaluation).noted Evaluation.nakScore c.ref = some (st.nakScore t ms) := by
    rw [Evaluation.noted_of_mem halone.nodup halone.mem_conns, if_pos hover, hreading]
    exact congrArg some (nakScore_congr hview t ms)
  refine ⟨g', ((⟨g, t, some ms⟩ : Evaluation).conn c).weighted weight, ?_, hlast, ?_, ?_⟩
  · rw [Machine.run_concat]
    exact halone'
  · show ((⟨g, t, some ms⟩ : Evaluation).conn c).stats.nakView = _
    rw [hstats]
    exact nakView_score hview _ _ _ _ t ms
  · show notes Evaluation.nakScore ((⟨g, t, some ms⟩ : Evaluation).conn c).ref _ = _
    rw [(Evaluation.conn_frame _ c).1, Machine.hist_concat, notes_concat, hscores, evaluations_single halone.groups,
      List.filterMap_cons, hnoted]
    rfl

/-- The next evaluation, if it is due. -/
theorem Reports.call (h : Reports ops st scores q) {t : ℤ} (hdue : q + connQualityEvalPeriod ≤ t)
    (hpast : connectionGracePeriod ≤ t - 100) (ms : UInt64) :
    ∃ e ∈ (receiver.run State.init ops).evaluations (.quality t fun _ => some ms), ∃ c ∈ e.group.conns,
      e.reading = some ms ∧ e.Past c ∧ e.time = t ∧ c.stats.nakView = st.nakView ∧
      notes Evaluation.nakScore c.ref (receiver.hist State.init ops) = scores := by
  obtain ⟨g, c, halone, rfl, hview, hscores⟩ := h
  obtain ⟨hreading, hover, _⟩ := halone.scored hdue hpast ms
  refine ⟨⟨g, t, some ms⟩, ?_, c, halone.mem_conns, hreading, hover, rfl, hview, hscores⟩
  rw [evaluations_single halone.groups]
  exact List.mem_singleton_self _

theorem calculateNakErrorPoints_congr (h : st.nakView = st'.nakView) (packets : UInt64) :
    (calculateNakErrorPoints st packets).1 = (calculateNakErrorPoints st' packets).1 := by
  have hcounter : st.senderNakCount = st'.senderNakCount := congrArg (fun v => v.1.1) h
  have hlast : st.lastSenderNakCount = st'.lastSenderNakCount := congrArg (fun v => v.1.2) h
  unfold calculateNakErrorPoints
  rw [hcounter, hlast]
  by_cases hnone : packets = 0 ∨ st'.senderNakCount = 0
  · rw [if_pos hnone, if_pos hnone]
  · rw [if_neg hnone, if_neg hnone]

/-- The NAK points depend on the view. -/
theorem Evaluation.nakPoints_view (hms : e.reading = some ms) (hpast : e.Past c)
    (hview : c.stats.nakView = st.nakView) :
    e.nakPoints c = if (st.nakScore e.time ms).telemetry then
      (calculateNakErrorPoints st (st.nakScore e.time ms).packets).1 else 0 := by
  have hscore := nakScore_congr hview e.time ms
  have hvalid : c.stats.hasValidSenderTelemetry e.time = (st.nakScore e.time ms).telemetry :=
    congrArg NakScore.telemetry hscore
  have hpackets : (c.stats.measure ms).packetsDiff = (st.nakScore e.time ms).packets :=
    congrArg NakScore.packets hscore
  unfold Evaluation.nakPoints
  rw [hms]
  simp only [hpast, true_and, hvalid, hpackets, calculateNakErrorPoints_congr hview]

end Reporting

/-- A sender reports 100 NAKs before the evaluations at 110 and 115, and then `nak`. -/
def nakRun (nak : UInt32) : List Op :=
  registration ++ report 100 109 ++ [Op.quality 110 fun _ => some 110000] ++
    report 100 114 ++ [Op.quality 115 fun _ => some 115000] ++ report nak 119

/-- The statistics after the second evaluation. -/
def nakRunStats : ConnectionStats :=
  ((((({} : ConnectionStats).reported 100 109).score 0 0 110 110000).reported 100 114).score 0 0 115 115000)

/-- The first evaluation has no interval to count packets over, the second compares. -/
theorem reports_nakRun (nak : UInt32) :
    Reports (nakRun nak) (nakRunStats.reported nak 119) [⟨100, 0, true⟩, ⟨100, 1, true⟩] 115 := by
  have h₁ := (reports_registration.report 100 109).quality (t := 110) (by decide) (by decide) 110000
  have h₂ := (h₁.report 100 114).quality (t := 115) (by decide) (by decide) 115000
  exact h₂.report nak 119

/-- **A counter that goes back is taken for 2^32 - 1 new NAKs.** The sender reports 100
    NAKs and then 99, and the evaluation gives the points for a critical rate. -/
theorem counter_back_penalised :
    ∃ e ∈ (receiver.run State.init (nakRun 99)).evaluations (.quality 120 fun _ => some 120000),
      ∃ c ∈ e.group.conns, e.reading = some 120000 ∧ e.Past c ∧
        notes Evaluation.nakScore c.ref (receiver.hist State.init (nakRun 99)) =
          [⟨100, 0, true⟩, ⟨100, 1, true⟩] ∧
        c.stats.senderNakCount = 99 ∧ e.nakPoints c = 40 ∧ e.Gives c (e.plainPoints 120000 c + 40) := by
  obtain ⟨e, he, c, hc, hreading, hpast, htime, hview, hscores⟩ :=
    (reports_nakRun 99).call (t := 120) (by decide) (by decide) 120000
  have hpoints : e.nakPoints c = 40 := by
    rw [Evaluation.nakPoints_view hreading hpast hview, htime]
    decide +kernel
  exact ⟨e, he, c, hc, hreading, hpast, hscores, congrArg (fun v => v.1.1) hview, hpoints,
    hpoints ▸ Evaluation.gives_nak hreading hpast⟩

/-- A counter that stays at 100 gives no points. -/
theorem nak_points_new_unchanged :
    ∃ e ∈ (receiver.run State.init (nakRun 100)).evaluations (.quality 120 fun _ => some 120000),
      ∃ c ∈ e.group.conns, e.reading = some 120000 ∧ e.Past c ∧ c.stats.senderNakCount = 100 ∧
        e.Gives c (e.plainPoints 120000 c + e.nakPoints c) ∧ e.nakPoints c = 0 := by
  obtain ⟨e, he, c, hc, hreading, hpast, htime, hview, hscores⟩ :=
    (reports_nakRun 100).call (t := 120) (by decide) (by decide) 120000
  have hcounter : c.stats.senderNakCount = 100 := congrArg (fun v => v.1.1) hview
  have hsplit : notes Evaluation.nakScore c.ref (receiver.hist State.init (nakRun 100)) =
      [⟨100, 0, true⟩] ++ [⟨100, 1, true⟩] := hscores
  obtain ⟨hgives, hiff⟩ := nak_points_new_iff (nakRun 100) _ he hc hreading hpast hsplit
  refine ⟨e, he, c, hc, hreading, hpast, hcounter, hgives, hiff.mpr (fun _ _ => ?_) ?_⟩
  · rw [if_pos (by decide)]
    exact Or.inl hcounter
  · rw [hcounter]
    decide

end Srtla.Receiver
