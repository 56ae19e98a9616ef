import Srtla.Receiver.Audit

/-!
# Where the datagrams go

A datagram with data on a registered connection is forwarded, or it is dropped
because the kernel has no room, or it is a repeated NAK that is held back, or it
costs the group its socket and with it the group. Each of these has its counter,
so what comes in can be compared with what is accounted for. The counter of groups
that were removed for an SRT error counts one thing more: reads from the server
that failed.

Results:
* `step_flows`: what an input adds to each flow.
* `datagrams_conserved`: in every run the counters account for every datagram with
  data, every NAK, every server packet and every rejected session.
-/

namespace Srtla.Receiver

open Lib

/-! ## Flows -/

/-- What is counted on its way through the receiver. -/
inductive Flow
  /-- Datagrams with data, and failed reads from the server. -/
  | data
  /-- NAKs of the client. -/
  | naks
  /-- Packets of the server. -/
  | served
  /-- Rejected sessions, as the rate limiter and as the registry count them. -/
  | failures | rejections

/-- The counters of a flow. -/
def Flow.counters : Flow → List Counter
  | .data => [.naksSuppressed, .forwardedPackets, .forwardDropped, .groupsRemovedSrtError]
  | .naks => [.naksReceived, .naksSuppressed]
  | .served => [.srtPacketsReceived]
  | .failures => [.authFailures]
  | .rejections => [.groupsRemovedAuth]

/-- The counters of a flow, added up. -/
def Flow.read (k : Flow) (m : Metrics) : ℕ := (k.counters.map m).sum

/-- What counter calls add to a flow. -/
def Flow.of (k : Flow) (is : Incs) : ℕ := (is.map fun p => if p.1 ∈ k.counters then p.2 else 0).sum

variable {s s' s'' : State} {g : ConnectionGroup} {c : Connection} {buf : Bytes} {addr : SockaddrStorage}
  {ts : ℤ} {env : PacketEnv} {k : Flow} {i : Incs}

theorem Flow.of_append (k : Flow) (is is' : Incs) : k.of (is ++ is') = k.of is + k.of is' := by
  rw [Flow.of, List.map_append, List.sum_append]
  rfl

theorem Flow.of_eq_zero {cs : List Counter} (h : Incs.Within cs i) (hcs : ∀ x ∈ cs, x ∉ k.counters) :
    k.of i = 0 := by
  rw [Flow.of, List.sum_eq_zero_iff]
  intro x hx
  obtain ⟨p, hp, rfl⟩ := List.mem_map.mp hx
  rw [if_neg (hcs p.1 (h p hp))]

/-- A list of counters without repetition reads a call once or not at all. -/
theorem sum_map_single {cs : List Counter} (h : cs.Nodup) (c : Counter) (n : ℕ) :
    (cs.map fun c' => if c = c' then n else 0).sum = if c ∈ cs then n else 0 := by
  induction cs with
  | nil => rfl
  | cons x cs ih =>
    obtain ⟨hx, hcs⟩ := List.nodup_cons.mp h
    rw [List.map_cons, List.sum_cons, ih hcs]
    by_cases hc : c = x
    · subst hc
      rw [if_pos rfl, if_neg hx, if_pos List.mem_cons_self, Nat.add_zero]
    · rw [if_neg hc, Nat.zero_add]
      simp only [List.mem_cons, hc, false_or]

theorem Flow.read_bump (k : Flow) (m : Metrics) (is : Incs) : k.read (m.bump is) = k.read m + k.of is := by
  have hnodup : k.counters.Nodup := by cases k <;> decide
  have hsum : (k.counters.map fun c => Incs.total c is).sum = k.of is := by
    induction is with
    | nil => exact List.sum_map_zero
    | cons p is ih =>
      have hcons : ∀ c, Incs.total c (p :: is) = (if p.1 = c then p.2 else 0) + Incs.total c is :=
        fun c => List.sum_cons
      simp only [hcons]
      rw [List.sum_map_add, sum_map_single hnodup, ih]
      exact List.sum_cons.symm
  rw [← hsum]
  exact List.sum_map_add

/-- From `s` to `s'` every flow grew by what `n` says. -/
def Flows (s s' : State) (n : Flow → ℕ) : Prop := ∀ k : Flow, k.read s'.metrics = k.read s.metrics + n k

theorem Flows.inc (h : s'.metrics = s.metrics.bump i) : Flows s s' fun k => k.of i := by
  intro k
  rw [h, k.read_bump]

theorem Flows.trans {n n' : Flow → ℕ} (h : Flows s s' n) (h' : Flows s' s'' n') :
    Flows s s'' fun k => n k + n' k := by
  intro k
  rw [h' k, h k, Nat.add_assoc]

theorem Flows.congr {n n' : Flow → ℕ} (h : Flows s s' n) (hn : ∀ k, n k = n' k) : Flows s s' n' := by
  intro k
  rw [h k, hn k]

/-- Nothing is counted. -/
theorem Flows.of_metrics (h : s'.metrics = s.metrics) : Flows s s' fun _ => 0 := by
  intro k
  rw [h]
  rfl

/-! ## Datagrams on a connection -/

/-- What a datagram on a connection adds to the flows. -/
def packetFlow (buf : Bytes) : Flow → ℕ
  | .data => (carriesData buf).toNat
  | .naks => (carriesData buf && isSrtNakPacket buf).toNat
  | _ => 0

/-- The counters of a held back NAK, or of one that goes on. -/
def nakIncs (accepted : Bool) : Incs := [(if accepted then .naksReceived else .naksSuppressed, 1)]

theorem onNak_incs (g : ConnectionGroup) (c : Connection) (buf : Bytes) (ts : ℤ) (env : PacketEnv) :
    (onNak g c buf ts env).2.2 = nakIncs (onNak g c buf ts env).1 := by
  unfold onNak
  dsimp only
  split_ifs <;> rfl

theorem of_touch (c : Connection) (ts : ℤ) (k : Flow) : k.of (c.touch ts).2 = 0 := by
  have hwithin : Incs.Within [.recoveryStarted] (c.touch ts).2 := by
    unfold Connection.touch
    split_ifs
    · exact Incs.within_single 1 List.mem_cons_self
    · exact Incs.within_nil _
  exact Flow.of_eq_zero hwithin (by cases k <;> decide)

theorem of_onSequenceNumber (g : ConnectionGroup) (ref : ℕ) (buf : Bytes) (env : PacketEnv) (k : Flow) :
    k.of (onSequenceNumber g ref buf env).2.2 = 0 := by
  have hwithin : Incs.Within [.sendErrAck] (onSequenceNumber g ref buf env).2.2 := by
    unfold onSequenceNumber registerPacket
    dsimp only
    cases Keyed.get Connection.ref ref g.conns with
    | none => exact Incs.within_nil _
    | some c =>
      dsimp only
      split_ifs
      · exact Incs.within_single 1 List.mem_cons_self
      all_goals exact Incs.within_nil _
  exact Flow.of_eq_zero hwithin (by cases k <;> decide)

theorem of_handleKeepalive (c : Connection) (addr : SockaddrStorage) (buf : Bytes) (env : PacketEnv)
    (k : Flow) : k.of (handleKeepalive c addr buf env).2.2 = 0 := by
  have hwithin : Incs.Within [.sendErrKeepalive] (handleKeepalive c addr buf env).2.2 := by
    unfold handleKeepalive
    dsimp only
    split_ifs
    · exact Incs.within_single 1 List.mem_cons_self
    · exact Incs.within_nil _
  exact Flow.of_eq_zero hwithin (by cases k <;> decide)

/-- Before it is forwarded, a datagram is counted if it is a NAK; one that is held
    back is then accounted for. -/
theorem of_onPacket (g : ConnectionGroup) (c : Connection) (buf : Bytes) (addr : SockaddrStorage) (ts : ℤ)
    (env : PacketEnv) (k : Flow) :
    k.of (onPacket g c buf addr ts env).incs =
      if carriesData buf && isSrtNakPacket buf then k.of (nakIncs (nakAccepted g buf env)) else 0 := by
  cases hcarries : carriesData buf with
  | false =>
    by_cases hkeepalive : isSrtlaKeepalive (mem buf) buf.length = true
    · rw [onPacket_of_keepalive hkeepalive]
      dsimp only
      rw [k.of_append, of_touch, of_handleKeepalive]
      rfl
    · rw [onPacket_of_short hkeepalive ((carriesData_eq_false_iff.mp hcarries).resolve_left hkeepalive)]
      exact of_touch c ts k
  | true =>
    have hforward := onPacket_forward g c buf addr ts env
    rw [onPacket_of_carriesData hcarries] at hforward ⊢
    cases hnak : isSrtNakPacket buf with
    | false =>
      dsimp only
      simp only [Bool.false_eq_true, if_false, Bool.not_true, k.of_append, of_touch, of_onSequenceNumber]
      rfl
    | true =>
      rw [relays, hcarries, Bool.true_and] at hforward
      simp only [hnak, if_true, Bool.and_self] at hforward ⊢
      split_ifs at hforward ⊢ with hheld
      · dsimp only at hforward ⊢
        rw [k.of_append, of_touch, onNak_incs, Nat.zero_add, ← hforward]
        rw [Bool.not_eq_true'] at hheld
        rw [hheld]
      · dsimp only at hforward ⊢
        rw [k.of_append, k.of_append, of_touch, of_onSequenceNumber, onNak_incs, Nat.zero_add, ← hforward]
        rw [Bool.not_eq_true', Bool.not_eq_false] at hheld
        rw [hheld]
        rfl

/-- A forward accounts for one datagram, whatever comes of it. -/
theorem flows_forward (s : State) (g : ConnectionGroup) (buf : Bytes) (env : ForwardEnv) :
    Flows s (forwardToSrtServer (s.putGroup g) g buf env).2.1
      fun | .data => 1 | _ => 0 := by
  rw [forwardToSrtServer_eq]
  split_ifs with hsock
  · rw [sendOnGroupSocket_eq]
    split_ifs with hfatal
    · have h : Flows s (((s.putGroup (g.withSocket env.socket)).inc [(.forwardErrors, 1)]).teardown
          (g.withSocket env.socket) .groupsRemovedSrtError) _ :=
        .inc (Metrics.bump_bump _ [(.forwardErrors, 1)] [(.groupsRemovedSrtError, 1)])
      exact h.congr fun k => by cases k <;> rfl
    · refine (Flows.inc (i := env.incs buf) rfl).congr fun k => ?_
      unfold ForwardEnv.incs
      split_ifs
      · cases k <;> rfl
      · cases k <;> rfl
  · exact (Flows.inc (i := [(.groupsRemovedSrtError, 1)]) rfl).congr fun k => by cases k <;> rfl

/-- A datagram on a connection is accounted for exactly once. -/
theorem flows_conn (h1 : isSrtlaReg1 (mem buf) buf.length = false)
    (h2 : isSrtlaReg2 (mem buf) buf.length = false)
    (hf : findByAddress s.groups addr = some (g, some c)) :
    Flows s (processSinglePacket s buf addr ts env).1 (packetFlow buf) := by
  have hpacket : Flows s (s.inc (onPacket g c buf addr ts env).incs) _ := .inc rfl
  rw [processSinglePacket_conn_eq h1 h2 hf]
  dsimp only
  split_ifs with hrelays
  · refine (hpacket.trans (flows_forward _ _ buf env.forward)).congr fun k => ?_
    rw [relays, Bool.and_eq_true] at hrelays
    rw [of_onPacket, hrelays.1, hrelays.2]
    unfold packetFlow
    rw [hrelays.1]
    cases k <;> cases isSrtNakPacket buf <;> rfl
  · refine Flows.congr (n := fun k => k.of (onPacket g c buf addr ts env).incs) (.inc rfl) fun k => ?_
    rw [of_onPacket]
    unfold packetFlow
    cases hcarries : carriesData buf with
    | false => cases k <;> rfl
    | true =>
      -- a datagram with data that does not go on is a NAK that is held back
      rw [relays, hcarries, Bool.true_and, Bool.not_eq_true] at hrelays
      have hnak : isSrtNakPacket buf = true := by
        cases hnak : isSrtNakPacket buf with
        | true => rfl
        | false =>
          rw [nakAccepted, hnak] at hrelays
          cases hrelays
      rw [hrelays, hnak]
      cases k <;> rfl

/-! ## The other inputs -/

/-- The counters that belong to no flow. -/
def asideCounters : List Counter :=
  [.packetsReceived, .bytesReceived, .recvBatches, .groupRegistrations, .groupRegThrottled,
    .groupRegTableFull, .groupRegDupAddr, .groupRegSendError, .connRegistrations, .connRegNoGroup,
    .connRegGroupMismatch, .connRegMaxConns, .connRegSendError, .groupsRemovedIdle,
    .groupsRemovedEvicted, .connectionsRemoved, .sendErrKeepalive, .sendErrDownstream, .srtBytesReceived,
    .recoveryCompleted, .recoveryFailed]

theorem Flow.of_aside (h : Incs.Within asideCounters i) (k : Flow) : k.of i = 0 :=
  Flow.of_eq_zero h (by cases k <;> decide)

/-- The flows stand still. -/
def Still (s s' : State) : Prop := Flows s s' fun _ => 0

theorem Still.inc (h : Incs.Within asideCounters i) (hm : s'.metrics = s.metrics.bump i) : Still s s' :=
  (Flows.inc hm).congr fun k => Flow.of_aside h k

theorem Still.trans (h : Still s s') (h' : Still s' s'') : Still s s'' := Flows.trans h h'

theorem Still.count (h : s'.metrics = s.metrics) {counter : Counter} (hcounter : counter ∈ asideCounters) :
    Still s (s'.inc [(counter, 1)]) :=
  .inc (Incs.within_single 1 hcounter) (by rw [← h]; rfl)

theorem still_evict (s : State) : Still s s.evictOldestPendingGroup.2 := by
  unfold State.evictOldestPendingGroup
  cases oldestPending s.groups with
  | none => exact .of_metrics rfl
  | some v => exact .inc (Incs.within_single 1 (by decide)) rfl

theorem still_registerGroup (s : State) (addr : SockaddrStorage) (buffer : Mem) (ts : ℤ)
    (env : PacketEnv) : Still s (registerGroup s addr buffer ts env).2.1 := by
  unfold registerGroup
  split_ifs
  · exact .count rfl (by decide)
  · cases hroom : s.makeRoom with
    | none => exact .count rfl (by decide)
    | some s' =>
      have hstill : Still s s' := by
        unfold State.makeRoom at hroom
        split_ifs at hroom
        · have hevict := still_evict s
          cases hvictim : s.evictOldestPendingGroup with
          | mk found s'' =>
            rw [hvictim] at hroom hevict
            cases found with
            | false => cases hroom
            | true => exact Option.some.inj hroom ▸ hevict
        · exact Option.some.inj hroom ▸ .of_metrics rfl
      refine hstill.trans ?_
      dsimp only
      cases findByAddress s'.groups addr with
      | some p => exact .count rfl (by decide)
      | none =>
        dsimp only
        split_ifs
        · exact .count rfl (by decide)
        · exact .count rfl (by decide)

theorem still_registerConnection (s : State) (addr : SockaddrStorage) (buffer : Mem) (ts : ℤ)
    (env : PacketEnv) : Still s (registerConnection s addr buffer ts env).2.1 := by
  unfold registerConnection
  cases findGroupById s.groups (readBlock buffer 2 256) with
  | none => exact .count rfl (by decide)
  | some g =>
    dsimp only
    split_ifs <;> exact .count rfl (by decide)

theorem within_cleanupConns (t : ℤ) (ret : ℕ → ℤ) (conns : List Connection) :
    Incs.Within asideCounters (cleanupConns t ret conns).2.2 := by
  have hcheck : ∀ c : Connection, Incs.Within asideCounters (c.checkRecovery t).2 := by
    intro c
    unfold Connection.checkRecovery
    split_ifs
    all_goals first
      | exact Incs.within_nil _
      | exact Incs.within_single 1 (by decide)
  induction conns with
  | nil => exact Incs.within_nil _
  | cons c conns ih =>
    unfold cleanupConns
    dsimp only
    split_ifs
    · exact ((hcheck c).append (Incs.within_single 1 (by decide))).append ih
    · refine ((hcheck c).append ?_).append ih
      unfold sendKeepalive
      dsimp only
      split_ifs
      · exact Incs.within_single 1 (by decide)
      · exact Incs.within_nil _
    · exact (hcheck c).append ih

theorem within_cleanupGroups (t : ℤ) (ret : ℕ → ℤ) (groups : List ConnectionGroup) :
    Incs.Within asideCounters (cleanupGroups t ret groups).2.2 := by
  induction groups with
  | nil => exact Incs.within_nil _
  | cons g groups ih =>
    have hconns := within_cleanupConns t ret g.conns
    unfold cleanupGroups
    dsimp only
    split_ifs
    · exact (hconns.append (Incs.within_single 1 (by decide))).append ih
    · exact hconns.append ih

/-! ## Packets of the server -/

theorem flows_handleSrtPacket (s : State) (g : ConnectionGroup) (buf : Bytes) (env : SrtEnv) :
    Flows s (handleSrtPacket s g buf env).1
      fun | .failures | .rejections => (failedAuth g buf).toNat | _ => 0 := by
  have hrelay : Incs.Within asideCounters (relayDownstream (g.noteAck buf) buf env).2 := by
    unfold relayDownstream
    dsimp only
    split_ifs
    all_goals first
      | exact Incs.within_nil _
      | exact Incs.within_single _ (by decide)
  unfold handleSrtPacket
  dsimp only
  rw [failedAuth_noteAck]
  cases hfailed : failedAuth g buf with
  | false =>
    simp only [Bool.false_eq_true, if_false]
    have hkept : Still s (s.putGroup (g.noteAck buf)) := .of_metrics rfl
    split_ifs
    · exact hkept.congr fun k => by cases k <;> rfl
    · exact (hkept.trans (.inc hrelay rfl)).congr fun k => by cases k <;> rfl
  | true =>
    -- a rejection is not a broadcast, so the group is torn down on this path
    have hbroadcast : isBroadcast buf = false := by
      by_contra hbroadcast
      rw [Bool.not_eq_false] at hbroadcast
      rw [failedAuth_of_isBroadcast hbroadcast] at hfailed
      cases hfailed
    simp only [hbroadcast, Bool.false_and, Bool.false_eq_true, if_false, if_true]
    set recorded := (s.putGroup (g.noteAck buf)).recordFailure (g.noteAck buf).lastAddr env.now
    have hrecord : Flows s recorded fun k => k.of [(.authFailures, 1)] := .inc rfl
    have hsent : Still recorded (recorded.inc (relayDownstream (g.noteAck buf) buf env).2) :=
      .inc hrelay rfl
    have hgone : Flows (recorded.inc (relayDownstream (g.noteAck buf) buf env).2)
        ((recorded.inc (relayDownstream (g.noteAck buf) buf env).2).teardown (g.noteAck buf)
          .groupsRemovedAuth) fun k => k.of [(.groupsRemovedAuth, 1)] := .inc rfl
    exact ((hrecord.trans hsent).trans hgone).congr fun k => by cases k <;> rfl

/-- What `recv` gives for the group `ref`: the group and the packet. -/
def State.serverRead (s : State) (ref : ℕ) (env : SrtEnv) : Option (ConnectionGroup × Option Bytes) :=
  (Keyed.get ConnectionGroup.ref ref s.groups).map fun g =>
    (g, (env.recv.map fun datagram => datagram.take mtu).filter fun buf => decide (srtMinLen ≤ buf.length))

theorem serverRead_failed {ref : ℕ} (hget : Keyed.get ConnectionGroup.ref ref s.groups = some g)
    {env : SrtEnv} (hrecv : env.recv = none) : s.serverRead ref env = some (g, none) := by
  unfold State.serverRead
  rw [hget, hrecv]
  rfl

theorem serverRead_short {ref : ℕ} (hget : Keyed.get ConnectionGroup.ref ref s.groups = some g)
    {env : SrtEnv} {datagram : Bytes} (hrecv : env.recv = some datagram)
    (hlen : ¬ srtMinLen ≤ (datagram.take mtu).length) : s.serverRead ref env = some (g, none) := by
  unfold State.serverRead
  rw [hget, hrecv]
  simp only [Option.map_some, Option.filter_some, hlen, decide_false, Bool.false_eq_true, if_false]

theorem serverRead_packet {ref : ℕ} (hget : Keyed.get ConnectionGroup.ref ref s.groups = some g)
    {env : SrtEnv} {datagram : Bytes} (hrecv : env.recv = some datagram)
    (hlen : srtMinLen ≤ (datagram.take mtu).length) :
    s.serverRead ref env = some (g, some (datagram.take mtu)) := by
  unfold State.serverRead
  rw [hget, hrecv]
  simp only [Option.map_some, Option.filter_some, hlen, decide_true, if_true]

/-- The datagram is for a registered connection and carries data. -/
def carried (s : State) : Op → Bool
  | .packet buf addr _ _ =>
    !isSrtlaReg1 (mem buf) buf.length && !isSrtlaReg2 (mem buf) buf.length &&
      (findByAddress s.groups addr).any (fun p => p.2.isSome) && carriesData buf
  | _ => false

/-- The datagram is a NAK of that kind. -/
def carriedNak (s : State) : Op → Bool
  | .packet buf addr ts env => carried s (.packet buf addr ts env) && isSrtNakPacket buf
  | _ => false

/-- `handle_srt_data` reads nothing of use from a registered group's socket. -/
def readFails (s : State) : Op → Bool
  | .srtData ref env => (s.serverRead ref env).any fun p => p.2.isNone
  | _ => false

/-- `handle_srt_data` reads a packet. -/
def readsPacket (s : State) : Op → Bool
  | .srtData ref env => (s.serverRead ref env).any fun p => p.2.isSome
  | _ => false

/-- The packet that `handle_srt_data` reads rejects the session. -/
def rejects (s : State) : Op → Bool
  | .srtData ref env => (s.serverRead ref env).any fun p => p.2.any fun buf => failedAuth p.1 buf
  | _ => false

/-- What an input adds to a flow. -/
def Flow.charge (k : Flow) (s : State) (op : Op) : ℕ :=
  match k with
  | .data => (carried s op).toNat + (readFails s op).toNat
  | .naks => (carriedNak s op).toNat
  | .served => (readsPacket s op).toNat
  | .failures | .rejections => (rejects s op).toNat

theorem flows_srtData {ref : ℕ} (hget : Keyed.get ConnectionGroup.ref ref s.groups = some g) (env : SrtEnv) :
    Flows s (handleSrtData s g env).1 fun k => k.charge s (.srtData ref env) := by
  have hended : s.serverRead ref env = some (g, none) →
      Flows s (s.teardown g .groupsRemovedSrtError) fun k => k.charge s (.srtData ref env) := by
    intro hread
    have h : Flows s (s.teardown g .groupsRemovedSrtError) fun k => k.of [(.groupsRemovedSrtError, 1)] :=
      .inc rfl
    refine h.congr fun k => ?_
    cases k <;>
      simp [Flow.charge, carried, carriedNak, readFails, readsPacket, rejects, hread, Flow.of, Flow.counters]
  unfold handleSrtData
  cases hrecv : env.recv with
  | none => exact hended (serverRead_failed hget hrecv)
  | some datagram =>
    dsimp only
    split_ifs with hshort
    · exact hended (serverRead_short hget hrecv (not_le.mpr hshort))
    · have hread := serverRead_packet hget hrecv (not_lt.mp hshort)
      have hcount : Flows s (s.inc [(.srtPacketsReceived, 1),
          (.srtBytesReceived, (datagram.take mtu).length)]) _ := .inc rfl
      refine (hcount.trans (flows_handleSrtPacket _ g (datagram.take mtu) env)).congr fun k => ?_
      cases k <;>
        simp [Flow.charge, carried, carriedNak, readFails, readsPacket, rejects, hread, Flow.of, Flow.counters]

/-! ## Runs -/

/-- What every input adds to the flows. -/
theorem step_flows (s : State) (op : Op) : Flows s (step s op).1 fun k => k.charge s op := by
  cases op with
  | packet buf addr ts env =>
    have hquiet : carried s (.packet buf addr ts env) = false → ∀ k : Flow,
        0 = k.charge s (.packet buf addr ts env) := by
      intro hcarried k
      cases k <;> simp [Flow.charge, carriedNak, readFails, readsPacket, rejects, hcarried]
    show Flows s (processSinglePacket s buf addr ts env).1 _
    cases packetCase s buf addr with
    | reg1 h1 =>
      unfold processSinglePacket
      rw [if_pos h1]
      exact (still_registerGroup s addr (mem buf) ts env).congr (hquiet (by simp [carried, h1]))
    | reg2 h2 =>
      unfold processSinglePacket
      split_ifs
      · exact (still_registerGroup s addr (mem buf) ts env).congr (hquiet (by simp [carried, h2]))
      · exact (still_registerConnection s addr (mem buf) ts env).congr (hquiet (by simp [carried, h2]))
    | conn h1 h2 hf =>
      refine (flows_conn h1 h2 hf).congr fun k => ?_
      cases k <;>
        simp [packetFlow, Flow.charge, carried, carriedNak, readFails, readsPacket, rejects, h1, h2, hf]
    | stranger h1 h2 hf =>
      rw [processSinglePacket_stranger h1 h2 hf]
      refine Flows.congr (.of_metrics rfl) (hquiet ?_)
      cases hfound : findByAddress s.groups addr with
      | none => simp [carried, hfound]
      | some p =>
        obtain ⟨g, oc⟩ := p
        cases oc with
        | none => simp [carried, hfound]
        | some c => exact absurd hfound (hf g c)
  | srtData ref env =>
    cases hget : Keyed.get ConnectionGroup.ref ref s.groups with
    | none =>
      have hstep : (step s (.srtData ref env)).1 = s := by
        unfold step
        dsimp only
        rw [hget]
      rw [hstep]
      refine Flows.congr (.of_metrics rfl) fun k => ?_
      cases k <;>
        simp [Flow.charge, carried, carriedNak, readFails, readsPacket, rejects, State.serverRead, hget]
    | some g =>
      rw [step_srtData hget]
      exact flows_srtData hget env
  | evict => exact (still_evict s).congr fun k => by cases k <;> rfl
  | cleanup t ret =>
    show Flows s (cleanupInactive s t ret).1 _
    unfold cleanupInactive
    split_ifs
    · exact Flows.congr (.of_metrics rfl) fun k => by cases k <;> rfl
    · exact (Still.inc (within_cleanupGroups t ret s.groups) rfl).congr fun k => by cases k <;> rfl
  | limiterCleanup t => exact Flows.congr (.of_metrics rfl) fun k => by cases k <;> rfl
  | quality t ms => exact Flows.congr (.of_metrics rfl) fun k => by cases k <;> rfl
  | count what => cases what <;> exact (Flows.inc rfl).congr fun k => by cases k <;> rfl

/-- The number of inputs of a run that `p` holds of, in the state they find. -/
def inputs (p : State → Op → Bool) (ops : List Op) : ℕ :=
  (receiver.hist State.init ops).countP fun e => p e.pre e.input

theorem inputs_concat (p : State → Op → Bool) (ops : List Op) (op : Op) :
    inputs p (ops ++ [op]) = inputs p ops + (p (receiver.run State.init ops) op).toNat := by
  unfold inputs
  rw [receiver.hist_concat, List.countP_append, List.countP_singleton]
  cases p (receiver.run State.init ops) op <;> rfl

/-- **Every datagram is accounted for.** After any inputs, with any outcomes of the
    system calls: each datagram with data on a registered connection was forwarded,
    dropped for lack of room, held back as a repeated NAK, or cost its group the
    registration, and apart from failed reads nothing else is counted as one of
    these; each NAK was let through or held back; each packet of the server is
    counted; and each rejected session is counted by the rate limiter and by the
    registry. -/
theorem datagrams_conserved (ops : List Op) :
    let m := (receiver.run State.init ops).metrics
    m .forwardedPackets + m .forwardDropped + m .naksSuppressed + m .groupsRemovedSrtError =
      inputs carried ops + inputs readFails ops ∧
    m .naksReceived + m .naksSuppressed = inputs carriedNak ops ∧
    m .srtPacketsReceived = inputs readsPacket ops ∧
    m .authFailures = inputs rejects ops ∧ m .groupsRemovedAuth = inputs rejects ops := by
  have hread : ∀ k : Flow, k.read (receiver.run State.init ops).metrics =
      match k with
      | .data => inputs carried ops + inputs readFails ops
      | .naks => inputs carriedNak ops
      | .served => inputs readsPacket ops
      | .failures | .rejections => inputs rejects ops := by
    intro k
    induction ops using List.reverseRecOn with
    | nil => cases k <;> rfl
    | append_singleton ops op ih =>
      rw [receiver.run_concat]
      have hstep := step_flows (receiver.run State.init ops) op k
      rw [ih] at hstep
      refine hstep.trans ?_
      cases k with
      | data =>
        simp only [inputs_concat, Flow.charge]
        omega
      | naks | served | failures | rejections => simp only [inputs_concat, Flow.charge]
  have hdata := hread .data
  have hnaks := hread .naks
  have hserved := hread .served
  have hfailures := hread .failures
  have hrejections := hread .rejections
  simp only [Flow.read, Flow.counters, List.map_cons, List.map_nil, List.sum_cons, List.sum_nil] at *
  refine ⟨?_, ?_, ?_, ?_, ?_⟩ <;> omega

end Srtla.Receiver
