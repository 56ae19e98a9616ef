import Srtla.Receiver.GroupStep

/-!
# What an input does to the statistics of a connection

A packet updates the counters or the telemetry of its connection. `evaluate_group`
scores the connections of a group, at the end of an iteration of the main loop and,
after many NAKs, in the middle of `process_single_packet`. `adjust_weights` writes
weights. `State.evaluations` are the calls of `evaluate_group` that an input makes,
each with the group as it is at the call.

* `step_stats`: the statistics of a connection after an input are those of a new
  connection, or come from those before by counting, evaluation and weighing.
-/

namespace Srtla.Receiver

open Lib

variable {s : State} {g g' : ConnectionGroup} {c c' : Connection} {buf : Bytes} {addr : SockaddrStorage}
  {ts : ℤ} {env : PacketEnv}

/-- The part of a connection that `evaluate_group` reads, and its identity. -/
def Connection.account (c : Connection) : ℕ × ℤ × ConnectionStats := (c.ref, c.connectionStart, c.stats)

/-! ## Counting -/

/-- The statistics after a packet, before any evaluation; `accepted` is the answer
    of the NAK filter and `now` the clock that `handle_keepalive` reads. -/
def ConnectionStats.count (st : ConnectionStats) (buf : Bytes) (accepted : Bool) (now : ℤ) :
    ConnectionStats :=
  if isSrtlaKeepalive (mem buf) buf.length then
    match parseKeepaliveConnInfo (mem buf) buf.length with
    | some info => st.updateConnectionTelemetry info now
    | none => st
  else if buf.length < srtMinLen then st
  else if isSrtNakPacket buf && accepted then (st.onPacketReceived buf.length).onNakDetected 1
  else st.onPacketReceived buf.length

/-- The connection of a packet with its counters up to date. -/
def Connection.counted (c : Connection) (g : ConnectionGroup) (buf : Bytes) (env : PacketEnv) : Connection :=
  { c with stats := c.stats.count buf (nakAccepted g buf env) env.keepaliveSec }

theorem map_account_put {l : List Connection} (h : c.account = c'.account) :
    (Keyed.put Connection.ref c l).map Connection.account =
      (Keyed.put Connection.ref c' l).map Connection.account := by
  have href : c.ref = c'.ref := congrArg Prod.fst h
  unfold Keyed.put
  rw [List.map_map, List.map_map]
  refine List.map_congr_left fun x _ => ?_
  simp only [Function.comp_apply, href]
  split_ifs
  · exact h
  · rfl

theorem Connection.touch_account (c : Connection) (ts : ℤ) : (c.touch ts).1.account = c.account := by
  rw [c.touch_eq]
  rfl

theorem onSequenceNumber_account (ref : ℕ) (hnodup : (g.conns.map Connection.ref).Nodup) :
    (onSequenceNumber g ref buf env).1.conns.map Connection.account = g.conns.map Connection.account := by
  unfold onSequenceNumber
  cases hget : Keyed.get Connection.ref ref g.conns with
  | none => rfl
  | some c =>
    dsimp only
    split_ifs
    · rw [registerPacket_fst, c.registered_eq]
      refine Keyed.map_put_eq fun x hx hk => ?_
      rw [Keyed.eq_of_key_eq hnodup hx (Keyed.get_mem hget) hk]
      rfl
    · rfl

/-! ## Calls of `evaluate_group` -/

/-- A call of `evaluate_group`; `ms` is what `get_ms` reads. -/
structure Evaluation where
  group : ConnectionGroup
  time : ℤ
  ms : Option UInt64

instance (g : ConnectionGroup) (t : ℤ) : Decidable (g.EvalDue t) :=
  decidable_of_iff (g.conns ≠ [] ∧ g.loadBalancingEnabled = true ∧
      g.lastQualityEval + connQualityEvalPeriod ≤ t)
    ⟨fun h => ⟨h.1, h.2.1, h.2.2⟩, fun h => ⟨h.nonempty, h.enabled, h.due⟩⟩

/-- The clock that the call reads: `none` if it returns before, or if the clock fails. -/
def Evaluation.reading (e : Evaluation) : Option UInt64 := if e.group.EvalDue e.time then e.ms else none

/-- The grace period of the connection is over. -/
def Evaluation.Past (e : Evaluation) (c : Connection) : Prop :=
  connectionGracePeriod ≤ e.time - c.connectionStart

instance (e : Evaluation) (c : Connection) : Decidable (e.Past c) := inferInstanceAs (Decidable (_ ≤ _))

/-- What the call does to a connection of the group. -/
def Evaluation.conn (e : Evaluation) (c : Connection) : Connection :=
  match e.reading with
  | some ms => c.evaluate (e.group.median ms) (minExpectedKbits e.group.conns.length) e.time ms
  | none => c

theorem Evaluation.conns_eq (e : Evaluation) :
    (evaluateGroup e.group e.time e.ms).conns = e.group.conns.map e.conn := by
  unfold Evaluation.conn Evaluation.reading
  by_cases h : e.group.EvalDue e.time
  · rw [if_pos h]
    cases e.ms with
    | none => rw [h.evaluateGroup_none, List.map_id']
    | some ms => rw [h.evaluateGroup]
  · rw [if_neg h, List.map_id', evaluateGroup_of_not_due h]

/-- A call leaves a connection alone, or it scores it. -/
theorem Evaluation.conn_cases (e : Evaluation) (c : Connection) :
    (e.conn c = c ∧ ∀ ms, e.reading = some ms → ¬ e.Past c) ∨
      ∃ ms, e.reading = some ms ∧ e.Past c ∧ e.conn c = { c with
        stats := c.stats.score (e.group.median ms) (minExpectedKbits e.group.conns.length) e.time ms } := by
  unfold Evaluation.conn
  cases e.reading with
  | none => exact Or.inl ⟨rfl, fun ms hms => by cases hms⟩
  | some ms =>
    dsimp only
    rw [Connection.evaluate_eq]
    split_ifs with hgrace
    · exact Or.inl ⟨rfl, fun _ _ => not_le.mpr hgrace⟩
    · exact Or.inr ⟨ms, rfl, not_lt.mp hgrace, rfl⟩

theorem calculateNakErrorPoints_frame (st : ConnectionStats) (packetsDiff : UInt64) :
    (calculateNakErrorPoints st packetsDiff).2 =
      { st with lastSenderNakCount := (calculateNakErrorPoints st packetsDiff).2.lastSenderNakCount } := by
  unfold calculateNakErrorPoints
  split_ifs <;> rfl

theorem ConnectionStats.score_frame (st : ConnectionStats) (median minExpected : ℚ) (t : ℤ) (ms : UInt64) :
    let st' := st.score median minExpected t ms
    st'.senderSupportsExtendedKeepalives = st.senderSupportsExtendedKeepalives ∧
      st'.lastKeepalive = st.lastKeepalive ∧ st'.lastEvalTime = ms := by
  have hnak := calculateNakErrorPoints_frame st (st.measure ms).packetsDiff
  refine ⟨?_, ?_, rfl⟩
  · show (if st.hasValidSenderTelemetry t then (calculateNakErrorPoints st (st.measure ms).packetsDiff).2
      else st).senderSupportsExtendedKeepalives = _
    rw [hnak]
    split_ifs <;> rfl
  · show (if st.hasValidSenderTelemetry t then (calculateNakErrorPoints st (st.measure ms).packetsDiff).2
      else st).lastKeepalive = _
    rw [hnak]
    split_ifs <;> rfl

/-- The connection and the group when the NAK branch of `process_single_packet`
    has counted a NAK (`src/protocol/srtla_handler.cpp:154-170`). -/
def nakCounted (g : ConnectionGroup) (c : Connection) (buf : Bytes) (addr : SockaddrStorage) (ts : ℤ)
    (env : PacketEnv) : Connection × ConnectionGroup :=
  let st := streaming g c buf addr ts
  let nak := shouldAcceptNak st.2.nakSeenHash (hashNakPayload (mem buf) buf.length 128) env.nakMs
  let c : Connection := { st.1 with stats := st.1.stats.onNakDetected 1 }
  let g : ConnectionGroup := { st.2 with nakSeenHash := nak.2 }
  (c, g.putConn c)

/-- The call that the NAK branch makes. -/
def nakEvaluation (g : ConnectionGroup) (c : Connection) (buf : Bytes) (addr : SockaddrStorage) (ts : ℤ)
    (env : PacketEnv) : Option Evaluation :=
  let st := nakCounted g c buf addr ts env
  if (carriesData buf && isSrtNakPacket buf && nakAccepted g buf env) ∧ st.1.stats.nackCount > 5 ∧
      st.2.lastQualityEval + 1 < ts then
    some ⟨st.2, ts, env.evalMs⟩
  else none

theorem nakEvaluation_eq_none (h : (carriesData buf && isSrtNakPacket buf && nakAccepted g buf env) = false) :
    nakEvaluation g c buf addr ts env = none := by
  unfold nakEvaluation
  dsimp only
  rw [h]
  exact if_neg fun hn => Bool.false_ne_true hn.1

theorem nakEvaluation_eq_some {e : Evaluation} (h : nakEvaluation g c buf addr ts env = some e) :
    (carriesData buf = true ∧ isSrtNakPacket buf = true ∧ nakAccepted g buf env = true) ∧
      e = ⟨(nakCounted g c buf addr ts env).2, ts, env.evalMs⟩ := by
  unfold nakEvaluation at h
  dsimp only at h
  split_ifs at h with hcond
  rw [Bool.and_eq_true, Bool.and_eq_true] at hcond
  exact ⟨⟨hcond.1.1.1, hcond.1.1.2, hcond.1.2⟩, (Option.some.inj h).symm⟩

/-- `onNak` in terms of the call it makes. -/
theorem onNak_streaming (hdata : carriesData buf = true) (hnak : isSrtNakPacket buf = true)
    (haccepted : nakAccepted g buf env = true) :
    (onNak (streaming g c buf addr ts).2 (streaming g c buf addr ts).1 buf ts env).2.1 =
      match nakEvaluation g c buf addr ts env with
      | some e => evaluateGroup e.group e.time e.ms
      | none => (nakCounted g c buf addr ts env).2 := by
  have haccept := haccepted
  rw [nakAccepted_of_nak hnak] at haccept
  have hcall : onNak (streaming g c buf addr ts).2 (streaming g c buf addr ts).1 buf ts env =
      (true,
        if (nakCounted g c buf addr ts env).1.stats.nackCount > 5 ∧
            (nakCounted g c buf addr ts env).2.lastQualityEval + 1 < ts then
          evaluateGroup (nakCounted g c buf addr ts env).2 ts env.evalMs
        else (nakCounted g c buf addr ts env).2, [(.naksReceived, 1)]) := by
    unfold onNak
    exact if_neg (by rw [Bool.not_eq_true', Bool.not_eq_false]; exact haccept)
  rw [hcall]
  unfold nakEvaluation
  by_cases hmany : (nakCounted g c buf addr ts env).1.stats.nackCount > 5 ∧
      (nakCounted g c buf addr ts env).2.lastQualityEval + 1 < ts
  · simp only [hdata, hnak, haccepted, Bool.and_self, if_pos hmany, if_pos (And.intro trivial hmany)]
  · simp only [if_neg hmany, if_neg fun h : _ ∧ _ => hmany h.2]

theorem ConnectionStats.count_of_carriesData (h : carriesData buf = true) (st : ConnectionStats)
    (accepted : Bool) (now : ℤ) :
    st.count buf accepted now =
      if isSrtNakPacket buf && accepted then (st.onPacketReceived buf.length).onNakDetected 1
      else st.onPacketReceived buf.length := by
  have hk : ¬ isSrtlaKeepalive (mem buf) buf.length = true ∧ ¬ buf.length < srtMinLen := by
    rw [← not_or, ← carriesData_eq_false_iff, h]
    decide
  rw [ConnectionStats.count, if_neg hk.1, if_neg hk.2]

theorem handleKeepalive_account (h : isSrtlaKeepalive (mem buf) buf.length = true) (accepted : Bool) :
    (handleKeepalive c addr buf env).1.account =
      (c.ref, c.connectionStart, c.stats.count buf accepted env.keepaliveSec) := by
  unfold handleKeepalive ConnectionStats.count
  rw [if_pos h]
  cases parseKeepaliveConnInfo (mem buf) buf.length with
  | none => rfl
  | some info => rfl

theorem Evaluation.conn_frame (e : Evaluation) (c : Connection) :
    (e.conn c).ref = c.ref ∧ (e.conn c).connectionStart = c.connectionStart := by
  rcases e.conn_cases c with ⟨heq, _⟩ | ⟨ms, _, _, heq⟩ <;> rw [heq] <;> exact ⟨rfl, rfl⟩

theorem nakCounted_accounts (hdata : carriesData buf = true) (hnak : isSrtNakPacket buf = true)
    (haccepted : nakAccepted g buf env = true) :
    (nakCounted g c buf addr ts env).2.conns.map Connection.account =
      (Keyed.put Connection.ref (c.counted g buf env) g.conns).map Connection.account := by
  have hput : (nakCounted g c buf addr ts env).2.conns =
      Keyed.put Connection.ref (nakCounted g c buf addr ts env).1 g.conns :=
    Keyed.put_put rfl
  rw [hput]
  refine map_account_put ?_
  unfold Connection.counted
  rw [ConnectionStats.count_of_carriesData hdata, hnak, haccepted]
  show ((c.touch ts).1.ref, (c.touch ts).1.connectionStart,
    ((c.touch ts).1.stats.onPacketReceived buf.length).onNakDetected 1) = _
  rw [c.touch_eq]
  rfl

/-- A NAK that the filter rejects changes no connection. -/
theorem onNak_rejected (h : (onNak g c buf ts env).1 = false) : (onNak g c buf ts env).2.1.conns = g.conns := by
  rw [onNak_fst] at h
  unfold onNak
  dsimp only
  rw [if_pos (by rw [h]; rfl)]

theorem evaluateGroup_refs (g : ConnectionGroup) (t : ℤ) (ms : Option UInt64) :
    (evaluateGroup g t ms).conns.map Connection.ref = g.conns.map Connection.ref := by
  rw [Evaluation.conns_eq ⟨g, t, ms⟩, List.map_map]
  exact List.map_congr_left fun x _ => (Evaluation.conn_frame _ x).1

theorem onNak_refs (g : ConnectionGroup) (c : Connection) (buf : Bytes) (ts : ℤ) (env : PacketEnv) :
    (onNak g c buf ts env).2.1.conns.map Connection.ref = g.conns.map Connection.ref := by
  unfold onNak
  dsimp only
  split_ifs
  · rfl
  · rw [evaluateGroup_refs]
    exact Keyed.map_key_put
  · exact Keyed.map_key_put

theorem streaming_accounts (hdata : carriesData buf = true)
    (hplain : (isSrtNakPacket buf && nakAccepted g buf env) = false) :
    (streaming g c buf addr ts).2.conns.map Connection.account =
      (Keyed.put Connection.ref (c.counted g buf env) g.conns).map Connection.account := by
  refine map_account_put ?_
  rw [Connection.counted, ConnectionStats.count_of_carriesData hdata, hplain, c.touch_eq]
  rfl

/-- The accounts of a group after the NAK branch. -/
theorem onNak_accounts (hdata : carriesData buf = true) (hnak : isSrtNakPacket buf = true) :
    (onNak (streaming g c buf addr ts).2 (streaming g c buf addr ts).1 buf ts env).2.1.conns.map
        Connection.account =
      match nakEvaluation g c buf addr ts env with
      | some e => (evaluateGroup e.group e.time e.ms).conns.map Connection.account
      | none => (Keyed.put Connection.ref (c.counted g buf env) g.conns).map Connection.account := by
  cases haccepted : nakAccepted g buf env with
  | false =>
    have hfst : (onNak (streaming g c buf addr ts).2 (streaming g c buf addr ts).1 buf ts env).1 = false := by
      rw [onNak_fst, ← haccepted, nakAccepted_of_nak hnak]
      rfl
    rw [nakEvaluation_eq_none (by rw [haccepted, Bool.and_false]), onNak_rejected hfst]
    exact streaming_accounts hdata (by rw [haccepted, Bool.and_false])
  | true =>
    have hcounted := @nakCounted_accounts g c buf addr ts env hdata hnak haccepted
    rw [onNak_streaming hdata hnak haccepted]
    cases nakEvaluation g c buf addr ts env with
    | none => exact hcounted
    | some e => rfl

/-- **The accounts of a group after a packet.** Its connection is counted, and the
    group is evaluated if the NAK branch says so. -/
theorem onPacket_accounts (hnodup : (g.conns.map Connection.ref).Nodup) :
    (onPacket g c buf addr ts env).group.conns.map Connection.account =
      match nakEvaluation g c buf addr ts env with
      | some e => (evaluateGroup e.group e.time e.ms).conns.map Connection.account
      | none => (Keyed.put Connection.ref (c.counted g buf env) g.conns).map Connection.account := by
  cases hdata : carriesData buf with
  | false =>
    rw [nakEvaluation_eq_none (by rw [hdata, Bool.false_and, Bool.false_and])]
    dsimp only
    by_cases hk : isSrtlaKeepalive (mem buf) buf.length = true
    · rw [onPacket_of_keepalive hk]
      refine map_account_put ?_
      rw [handleKeepalive_account hk (nakAccepted g buf env), c.touch_eq]
      rfl
    · have hshort := (carriesData_eq_false_iff.mp hdata).resolve_left hk
      rw [onPacket_of_short hk hshort]
      refine map_account_put ?_
      rw [c.touch_account ts, Connection.counted, ConnectionStats.count, if_neg hk, if_pos hshort]
  | true =>
    have hrefs : ((streaming g c buf addr ts).2.conns.map Connection.ref).Nodup := by
      show ((Keyed.put Connection.ref _ g.conns).map Connection.ref).Nodup
      rwa [Keyed.map_key_put]
    rw [onPacket_of_carriesData hdata]
    dsimp only
    cases hnak : isSrtNakPacket buf with
    | false =>
      rw [nakEvaluation_eq_none (by rw [hnak, Bool.and_false, Bool.false_and])]
      refine (onSequenceNumber_account c.ref hrefs).trans (streaming_accounts hdata ?_)
      rw [hnak, Bool.false_and]
    | true =>
      rw [if_pos rfl, ← onNak_accounts hdata hnak]
      split_ifs
      · rfl
      · exact onSequenceNumber_account c.ref (by rwa [onNak_refs])

/-! ## Inputs -/

/-- The calls of `evaluate_group` that an input makes. -/
def State.evaluations (s : State) : Op → List Evaluation
  | .packet buf addr ts env =>
    if isSrtlaReg1 (mem buf) buf.length || isSrtlaReg2 (mem buf) buf.length then []
    else
      match findByAddress s.groups addr with
      | some (g, some c) => (nakEvaluation g c buf addr ts env).toList
      | _ => []
  | .quality t ms => s.groups.map fun g => ⟨g, t, ms g.ref⟩
  | _ => []

theorem evaluations_of_conn (ts : ℤ) (env : PacketEnv) (h1 : isSrtlaReg1 (mem buf) buf.length = false)
    (h2 : isSrtlaReg2 (mem buf) buf.length = false) (hf : findByAddress s.groups addr = some (g, some c)) :
    s.evaluations (.packet buf addr ts env) = (nakEvaluation g c buf addr ts env).toList := by
  rw [State.evaluations, h1, h2, hf]
  rfl

theorem evaluations_packet {e : Evaluation} (he : e ∈ s.evaluations (.packet buf addr ts env)) :
    ∃ g c, (isSrtlaReg1 (mem buf) buf.length = false ∧ isSrtlaReg2 (mem buf) buf.length = false) ∧
      findByAddress s.groups addr = some (g, some c) ∧ nakEvaluation g c buf addr ts env = some e := by
  unfold State.evaluations at he
  dsimp only at he
  split_ifs at he with hreg
  · cases he
  · rw [Bool.or_eq_true, not_or, Bool.not_eq_true, Bool.not_eq_true] at hreg
    split at he
    · rename_i g c hf
      exact ⟨g, c, hreg, hf, Option.mem_toList.mp he⟩
    · cases he

/-- The calls of one input have no connection in common. -/
theorem evaluations_pairwise (h : Inv s) (op : Op) :
    (s.evaluations op).Pairwise fun e e' => ∀ z ∈ e.group.conns, ∀ z' ∈ e'.group.conns, z.ref ≠ z'.ref := by
  cases op with
  | packet buf addr ts env =>
    unfold State.evaluations
    dsimp only
    split_ifs
    · exact .nil
    · split
      · cases nakEvaluation _ _ buf addr ts env with
        | none => exact .nil
        | some e => exact List.pairwise_singleton _ _
      · exact .nil
  | quality t ms =>
    refine List.pairwise_map.mpr (h.apart.imp ?_)
    exact fun hapart => hapart.2
  | srtData | evict | cleanup | limiterCleanup | count => exact .nil

/-- The connection `x` is the registered connection `y`, or is it with the packet
    counted that `op` is. -/
inductive Counts (s : State) (y x : Connection) : Op → Prop
  | same {op : Op} (account : x.account = y.account) : Counts s y x op
  | packet {g : ConnectionGroup} {buf : Bytes} {addr : SockaddrStorage} {ts : ℤ} {env : PacketEnv}
      (found : findByAddress s.groups addr = some (g, some y))
      (account : x.account = (y.counted g buf env).account) : Counts s y x (.packet buf addr ts env)

theorem Counts.ref {y x : Connection} {op : Op} (h : Counts s y x op) : x.ref = y.ref := by
  cases h with
  | same account => exact congrArg Prod.fst account
  | packet _ account => exact congrArg Prod.fst account

/-- How the statistics of a connection after an input come about. -/
inductive StatsStep (s : State) (x' : Connection) (op : Op) : Prop
  /-- The connection is new. -/
  | fresh (ref : x'.ref = s.nextRef) (stats : x'.stats = {}) (calls : s.evaluations op = [])
  /-- It is in no group that is evaluated. -/
  | counted {g : ConnectionGroup} {y : Connection} (group : g ∈ s.groups) (conn : y ∈ g.conns)
      (counts : Counts s y x' op)
      (calls : ∀ e ∈ s.evaluations op, ∀ z ∈ e.group.conns, z.ref ≠ y.ref)
  /-- Its group is evaluated, after which it may be given a weight. -/
  | evaluated {g : ConnectionGroup} {y x : Connection} {e : Evaluation} {weight : UInt8}
      (group : g ∈ s.groups) (conn : y ∈ g.conns) (counts : Counts s y x op)
      (call : e ∈ s.evaluations op) (mem : x ∈ e.group.conns)
      (account : x'.account = (x.ref, x.connectionStart, { (e.conn x).stats with weightPercent := weight }))

/-- `adjust_weights` changes no more than the weight of a connection. -/
theorem mem_adjustWeights {t : ℤ} {x' : Connection} (h : x' ∈ (adjustWeights g t).conns) :
    ∃ x ∈ g.conns, ∃ weight,
      x'.account = (x.ref, x.connectionStart, { x.stats with weightPercent := weight }) := by
  obtain ⟨weight, heq⟩ := adjustWeights_eq g t
  rw [heq] at h
  obtain ⟨x, hx, rfl⟩ := List.mem_map.mp h
  exact ⟨x, hx, _, rfl⟩

theorem exists_of_map_account_eq {l l' : List Connection} {x : Connection}
    (h : l.map Connection.account = l'.map Connection.account) (hx : x ∈ l) :
    ∃ y ∈ l', y.account = x.account := by
  have hmem : x.account ∈ l'.map Connection.account := h ▸ List.mem_map_of_mem hx
  exact List.mem_map.mp hmem

/-- The connections of the group whose connection `c` has a packet counted. -/
theorem counts_of_mem_put (ts : ℤ) (hf : findByAddress s.groups addr = some (g, some c)) {x z : Connection}
    (hz : z ∈ Keyed.put Connection.ref (c.counted g buf env) g.conns) (hx : z.account = x.account) :
    ∃ y ∈ g.conns, Counts s y x (.packet buf addr ts env) := by
  obtain ⟨_, hc, _⟩ := findByAddress_conn hf
  rcases Keyed.mem_put.mp hz with ⟨rfl, _⟩ | ⟨hz, _⟩
  · exact ⟨c, hc, .packet hf hx.symm⟩
  · exact ⟨z, hz, .same hx.symm⟩

/-- The group that a packet has evaluated has the connections of the packet's group. -/
theorem nakEvaluation_accounts {e : Evaluation} (h : nakEvaluation g c buf addr ts env = some e) :
    e.group.conns.map Connection.account =
      (Keyed.put Connection.ref (c.counted g buf env) g.conns).map Connection.account := by
  obtain ⟨⟨hdata, hnak, haccepted⟩, rfl⟩ := nakEvaluation_eq_some h
  exact nakCounted_accounts hdata hnak haccepted

/-- Statistics after a packet on a connection of the group `g`. -/
theorem statsStep_received (h : Inv s) (h1 : isSrtlaReg1 (mem buf) buf.length = false)
    (h2 : isSrtlaReg2 (mem buf) buf.length = false) (hf : findByAddress s.groups addr = some (g, some c))
    {x' : Connection} (hx' : x' ∈ (onPacket g c buf addr ts env).group.conns) :
    StatsStep s x' (.packet buf addr ts env) := by
  obtain ⟨hg, hc, _⟩ := findByAddress_conn hf
  have haccounts := @onPacket_accounts g c buf addr ts env (h.wf g hg).connRefs
  have hcalls := evaluations_of_conn ts env h1 h2 hf
  cases heval : nakEvaluation g c buf addr ts env with
  | none =>
    rw [heval] at haccounts hcalls
    obtain ⟨z, hz, hzx⟩ := exists_of_map_account_eq haccounts hx'
    obtain ⟨y, hy, hcounts⟩ := counts_of_mem_put ts hf hz hzx
    refine .counted hg hy hcounts fun e he => ?_
    rw [hcalls] at he
    cases he
  | some e =>
    rw [heval] at haccounts hcalls
    have hmem : e ∈ s.evaluations (.packet buf addr ts env) := by
      rw [hcalls]
      exact List.mem_singleton_self e
    obtain ⟨z, hz, hzx⟩ := exists_of_map_account_eq haccounts hx'
    rw [e.conns_eq] at hz
    obtain ⟨x, hx, rfl⟩ := List.mem_map.mp hz
    obtain ⟨w, hw, hwx⟩ := exists_of_map_account_eq (nakEvaluation_accounts heval) hx
    obtain ⟨y, hy, hcounts⟩ := counts_of_mem_put ts hf hw hwx
    have haccount : x'.account = (x.ref, x.connectionStart,
        { (e.conn x).stats with weightPercent := (e.conn x).stats.weightPercent }) := by
      rw [← hzx, Connection.account, (e.conn_frame x).1, (e.conn_frame x).2]
    exact .evaluated hg hy hcounts hmem hx haccount

/-- A call is made on the connections of a registered group, one of which may have
    a packet counted. -/
theorem evaluations_spec (h : Inv s) {op : Op} {e : Evaluation} (he : e ∈ s.evaluations op) :
    (e.group.conns.map Connection.ref).Nodup ∧
      ∃ g ∈ s.groups, ∀ z ∈ e.group.conns, ∃ y ∈ g.conns, Counts s y z op := by
  cases op with
  | packet buf addr ts env =>
    obtain ⟨g, c, _, hf, heval⟩ := evaluations_packet he
    obtain ⟨hg, _, _⟩ := findByAddress_conn hf
    have haccounts := nakEvaluation_accounts heval
    refine ⟨?_, g, hg, fun z hz => ?_⟩
    · have hrefs : e.group.conns.map Connection.ref = g.conns.map Connection.ref := by
        have hfst := congrArg (List.map Prod.fst) haccounts
        rw [List.map_map, List.map_map] at hfst
        exact hfst.trans Keyed.map_key_put
      rw [hrefs]
      exact (h.wf g hg).connRefs
    · obtain ⟨w, hw, hwz⟩ := exists_of_map_account_eq haccounts hz
      exact counts_of_mem_put ts hf hw hwz
  | quality t ms =>
    obtain ⟨g, hg, rfl⟩ := List.mem_map.mp he
    exact ⟨(h.wf g hg).connRefs, g, hg, fun z hz => ⟨z, hz, .same rfl⟩⟩
  | srtData | evict | cleanup | limiterCleanup | count => cases he

/-- A packet evaluates only the group of its connection. -/
theorem evaluations_apart (h : Inv s) (hg : g ∈ s.groups)
    (hapart : (Op.packet buf addr ts env).receivedBy g = false) (hc : c ∈ g.conns) :
    ∀ e ∈ s.evaluations (.packet buf addr ts env), ∀ z ∈ e.group.conns, z.ref ≠ c.ref := by
  intro e he z hz
  obtain ⟨g₀, c₀, hreg, hf, heval⟩ := evaluations_packet he
  obtain ⟨hg₀, hc₀, haddr⟩ := findByAddress_conn hf
  have hne : g₀ ≠ g := by
    rintro rfl
    have hreceived : (Op.packet buf addr ts env).receivedBy g₀ = true :=
      Op.receivedBy_eq_true_iff.mpr ⟨hreg, c₀, hc₀, haddr⟩
    rw [hapart] at hreceived
    cases hreceived
  obtain ⟨w, hw, hwz⟩ := exists_of_map_account_eq (nakEvaluation_accounts heval) hz
  obtain ⟨y, hy, hcounts⟩ := counts_of_mem_put ts hf hw hwz
  rw [hcounts.ref]
  exact ((h.eq_or_apart hg₀ hg).resolve_left hne).2 y hy c hc

theorem evaluations_of_reg (h : isSrtlaReg1 (mem buf) buf.length = true ∨
    isSrtlaReg2 (mem buf) buf.length = true) : s.evaluations (.packet buf addr ts env) = [] :=
  if_pos (Bool.or_eq_true_iff.mpr h)

/-- **Where the statistics of a connection come from.** -/
theorem step_stats (h : Inv s) {op : Op} (hg' : g' ∈ (step s op).1.groups) {x' : Connection}
    (hx' : x' ∈ g'.conns) : StatsStep s x' op := by
  have hkept : s.evaluations op = [] → ∀ g ∈ s.groups, ∀ y ∈ g.conns, x'.account = y.account →
      StatsStep s x' op := fun hcalls g hg y hy haccount =>
    .counted hg hy (.same haccount) fun e he => by rw [hcalls] at he; cases he
  cases op with
  | packet buf addr ts env =>
    cases groupStep_packet h hg' with
    | kept hg hapart => exact .counted hg hx' (.same rfl) (evaluations_apart h hg hapart hx')
    | created _ heq =>
      rw [heq] at hx'
      cases hx'
    | joined hreg hfound heq =>
      have hcalls := @evaluations_of_reg s buf addr ts env (Or.inr hreg)
      rw [heq] at hx'
      rcases List.mem_append.mp hx' with hx' | hx'
      · exact hkept hcalls _ (findGroupById_eq_some hfound).1 x' hx' rfl
      · rw [List.mem_singleton.mp hx']
        exact .fresh rfl rfl hcalls
    | repeated hreg hfound heq =>
      rw [heq] at hx'
      exact hkept (evaluations_of_reg (Or.inr hreg)) _ (findByAddress_conn hfound).1 x' hx' rfl
    | received h1 h2 hf hafter =>
      rw [afterPacket_frame hafter] at hx'
      exact statsStep_received h h1 h2 hf hx'
  | quality t ms =>
    obtain ⟨g, hg, rfl⟩ := List.mem_map.mp hg'
    obtain ⟨z, hz, weight, hweight⟩ := mem_adjustWeights hx'
    have hcall : (⟨g, t, ms g.ref⟩ : Evaluation) ∈ s.evaluations (.quality t ms) :=
      List.mem_map_of_mem hg
    rw [Evaluation.conns_eq ⟨g, t, ms g.ref⟩] at hz
    obtain ⟨x, hx, rfl⟩ := List.mem_map.mp hz
    rw [(Evaluation.conn_frame _ x).1, (Evaluation.conn_frame _ x).2] at hweight
    exact .evaluated hg hx (.same rfl) hcall hx hweight
  | srtData ref senv =>
    cases step_groupStep h (.srtData ref senv) hg' with
    | kept hg => exact hkept rfl _ hg x' hx' rfl
    | server hg heq =>
      rw [heq] at hx'
      exact hkept rfl _ hg x' hx' rfl
  | cleanup t ret =>
    cases step_groupStep h (.cleanup t ret) hg' with
    | kept hg => exact hkept rfl _ hg x' hx' rfl
    | reaped hg _ heq =>
      rw [heq] at hx'
      obtain ⟨y, hy, _, rfl⟩ := mem_keptConns.mp hx'
      refine hkept rfl _ hg y hy ?_
      rw [y.checkRecovery_eq]
      rfl
  | evict =>
    cases step_groupStep h .evict hg' with
    | kept hg => exact hkept rfl _ hg x' hx' rfl
  | limiterCleanup t => exact hkept rfl g' hg' x' hx' rfl
  | count what => exact hkept rfl g' hg' x' hx' rfl

end Srtla.Receiver
