import Srtla.Receiver.Timeouts

/-!
# Recoveries

A packet on a connection that was silent for more than `CONN_TIMEOUT` seconds
starts a recovery (`src/protocol/srtla_handler.cpp:127-137`). A cleanup ends it
as completed or as failed (`src/connection/connection_registry.cpp:140-158`)
before it looks at the timeout of the connection, and a group that is removed
for an error takes its open recoveries with it.

* `recoveries_balance`: every recovery that was started is counted once as
  completed or failed, is open, or was discarded with its group; a cleanup never
  erases a connection whose recovery is open.
-/

namespace Srtla.Receiver

open Lib

/-- 1 for a connection with a recovery under way. -/
def Connection.openRecoveries (c : Connection) : ℕ := if c.recoveryStart ≠ 0 then 1 else 0

def ConnectionGroup.openRecoveries (g : ConnectionGroup) : ℕ :=
  (g.conns.map Connection.openRecoveries).sum

/-- The registered connections with a recovery under way. -/
def State.openRecoveries (s : State) : ℕ := (s.groups.map ConnectionGroup.openRecoveries).sum

/-- The group that an input removes for an SRT error or an authentication
    failure, as it is when it is removed: a packet that cannot be forwarded has
    already been noted on its connection. -/
def State.tornDown (s : State) : Op → Option ConnectionGroup
  | .packet buf addr ts env =>
    if isSrtlaReg1 (mem buf) buf.length || isSrtlaReg2 (mem buf) buf.length then none
    else
      match findByAddress s.groups addr with
      | some (g, some c) =>
        if (afterPacket g c buf addr ts env).isNone then some (onPacket g c buf addr ts env).group
        else none
      | _ => none
  | .srtData ref env => (Keyed.get ConnectionGroup.ref ref s.groups).filter fun g => g.endsOn env
  | _ => none

/-- The open recoveries that an input discards with a group. -/
def State.discards (s : State) (op : Op) : ℕ := ((s.tornDown op).map ConnectionGroup.openRecoveries).getD 0

/-- The open recoveries that were discarded in a run. -/
def discarded (es : List (Machine.Event State Op Effect)) : ℕ :=
  (es.map fun e => e.pre.discards e.input).sum

variable {s s' : State} {is is' : Incs} {g : ConnectionGroup} {c c' : Connection} {t : ℤ}

/-! ## Counting -/

/-- What a counter says about the recoveries under way. -/
def Counter.recovery : Counter → ℤ
  | .recoveryStarted => 1
  | .recoveryCompleted | .recoveryFailed => -1
  | _ => 0

/-- The recoveries under way according to the calls. -/
def Incs.recoveries (is : Incs) : ℤ := (is.map fun p => p.1.recovery * (p.2 : ℤ)).sum

/-- The recoveries under way according to the counters. -/
def Metrics.ongoing (m : Metrics) : ℤ :=
  m .recoveryStarted - m .recoveryCompleted - m .recoveryFailed

theorem Incs.recoveries_append (is is' : Incs) :
    Incs.recoveries (is ++ is') = Incs.recoveries is + Incs.recoveries is' := by
  rw [Incs.recoveries, List.map_append, List.sum_append]
  rfl

theorem Metrics.ongoing_bump (m : Metrics) (is : Incs) :
    (m.bump is).ongoing = m.ongoing + is.recoveries := by
  have hone : ∀ p : Counter × ℕ, (((if p.1 = .recoveryStarted then p.2 else 0 : ℕ) : ℤ) -
      (if p.1 = .recoveryCompleted then p.2 else 0 : ℕ) -
      (if p.1 = .recoveryFailed then p.2 else 0 : ℕ)) = p.1.recovery * p.2 := by
    rintro ⟨c, n⟩
    cases c <;> simp [Counter.recovery]
  simp only [Metrics.ongoing, Metrics.bump, Incs.recoveries]
  induction is with
  | nil => simp
  | cons p is ih =>
    have hp := hone p
    simp only [List.map_cons, List.sum_cons]
    push_cast at ih hp ⊢
    omega

/-- Calls under other counters say nothing about recoveries. -/
theorem Incs.Within.recoveries {cs : List Counter} (h : Incs.Within cs is)
    (hcs : ∀ x ∈ cs, x.recovery = 0) : Incs.recoveries is = 0 := by
  have hzero : is.map (fun p => p.1.recovery * (p.2 : ℤ)) = is.map fun _ => 0 := by
    refine List.map_congr_left fun p hp => ?_
    rw [hcs p.1 (h p hp), zero_mul]
  rw [Incs.recoveries, hzero, List.sum_map_zero]

theorem State.ongoing_inc (s : State) (is : Incs) :
    (s.inc is).metrics.ongoing = s.metrics.ongoing + is.recoveries :=
  Metrics.ongoing_bump s.metrics is

/-! ## Connections -/

/-- A recovery starts when a packet arrives, so not after the last one. -/
structure Connection.Sound (c : Connection) : Prop where
  nonneg : 0 ≤ c.recoveryStart
  le : c.recoveryStart ≤ c.lastRcvd

theorem Connection.Sound.touch (h : c.Sound) (ht : c.lastRcvd ≤ t) : (c.touch t).1.Sound := by
  have hnonneg := h.nonneg
  have hle := h.le
  unfold Connection.touch
  split_ifs
  · exact ⟨by dsimp only; omega, le_refl t⟩
  · exact ⟨hnonneg, hle.trans ht⟩

theorem Connection.Sound.checkRecovery (h : c.Sound) (t : ℤ) : (c.checkRecovery t).1.Sound := by
  have hnonneg : (0 : ℤ) ≤ c.lastRcvd := h.nonneg.trans h.le
  unfold Connection.checkRecovery
  split_ifs
  all_goals first
    | exact h
    | exact ⟨le_refl 0, hnonneg⟩

theorem Connection.openRecoveries_of_zero (h : c.recoveryStart = 0) : c.openRecoveries = 0 :=
  if_neg (not_not.mpr h)

theorem Connection.openRecoveries_of_pos (h : 0 < c.recoveryStart) : c.openRecoveries = 1 :=
  if_pos (ne_of_gt h)

/-- The packet that starts a recovery counts it. -/
theorem Connection.Sound.openRecoveries_touch (h : c.Sound) (t : ℤ) :
    ((c.touch t).1.openRecoveries : ℤ) = c.openRecoveries + Incs.recoveries (c.touch t).2 := by
  have hle : (0 : ℤ) ≤ c.lastRcvd := h.nonneg.trans h.le
  have htimeout : (0 : ℤ) ≤ connTimeout := by decide
  unfold Connection.touch
  split_ifs with hstart
  · have hpos : 0 < t := by omega
    rw [Connection.openRecoveries_of_zero hstart.1, Connection.openRecoveries_of_pos hpos]
    rfl
  · exact (add_zero _).symm

/-- The cleanup that ends a recovery counts it. -/
theorem Connection.openRecoveries_checkRecovery (c : Connection) (t : ℤ) :
    ((c.checkRecovery t).1.openRecoveries : ℤ) =
      c.openRecoveries + Incs.recoveries (c.checkRecovery t).2 := by
  unfold Connection.checkRecovery
  split_ifs with hstart
  all_goals first
    | exact (add_zero _).symm
    | rw [Connection.openRecoveries_of_pos hstart, Connection.openRecoveries_of_zero rfl]
      rfl

/-- The recovery of a connection that has timed out is over: it started no later
    than the last packet, and `RECOVERY_CHANCE_PERIOD` is shorter than `CONN_TIMEOUT`. -/
theorem Connection.Sound.over_of_timedOut (h : c.Sound) (ht : connTimedOut c t = true) :
    (c.checkRecovery t).1.recoveryStart = 0 := by
  have hnonneg := h.nonneg
  have hle := h.le
  have hlate : c.lastRcvd + connTimeout < t := of_decide_eq_true ht
  have hperiod : recoveryChancePeriod < connTimeout := by decide
  unfold Connection.checkRecovery
  split_ifs
  · rfl
  · exfalso
    omega
  · rfl
  · exfalso
    omega
  · dsimp only
    omega

/-! ## Groups -/

theorem Connection.SameButStats.recoveryStart (h : c.SameButStats c') :
    c'.recoveryStart = c.recoveryStart := by rw [h]

theorem Connection.SameButStats.openRecoveries (h : c.SameButStats c') :
    c'.openRecoveries = c.openRecoveries := by
  unfold Connection.openRecoveries
  rw [h.recoveryStart]

theorem Connection.received_recoveryStart (c : Connection) (buf : Bytes) (ts : ℤ) :
    (c.received buf ts).recoveryStart = (c.touch ts).1.recoveryStart := by
  unfold Connection.received
  split_ifs
  · rw [Connection.registered_eq]
  · rfl

theorem ConnectionGroup.openRecoveries_map {f : Connection → Connection}
    (hf : ∀ x : Connection, x.SameButStats (f x)) (conns : List Connection) :
    ((conns.map f).map Connection.openRecoveries).sum = (conns.map Connection.openRecoveries).sum := by
  rw [List.map_map]
  exact congrArg List.sum (List.map_congr_left fun x _ => (hf x).openRecoveries)

/-- A packet changes the open recoveries of its group by what it counts. -/
theorem openRecoveries_onPacket (hnodup : (g.conns.map Connection.ref).Nodup) (hc : c ∈ g.conns)
    (hsound : c.Sound) (buf : Bytes) (addr : SockaddrStorage) (ts : ℤ) (env : PacketEnv) :
    ((onPacket g c buf addr ts env).group.openRecoveries : ℤ) =
      g.openRecoveries + Incs.recoveries (onPacket g c buf addr ts env).incs := by
  obtain ⟨f, hf, hconns⟩ := @onPacket_conns g c buf addr ts env hnodup hc
  obtain ⟨rest, hincs, hrest⟩ := onPacket_incs g c buf addr ts env
  have hput : (onPacket g c buf addr ts env).group.conns.map Connection.openRecoveries =
      (Keyed.put Connection.ref (c.received buf ts) g.conns).map Connection.openRecoveries := by
    rw [hconns, Keyed.put, List.map_map, List.map_map]
    exact List.map_congr_left fun x _ => (hf x).openRecoveries
  have hsum := Keyed.sum_map_put (f := Connection.openRecoveries) hnodup hc (c.received_ref buf ts)
  have htouch := hsound.openRecoveries_touch ts
  have hreceived : (c.received buf ts).openRecoveries = (c.touch ts).1.openRecoveries := by
    unfold Connection.openRecoveries
    rw [c.received_recoveryStart]
  rw [← hput, hreceived] at hsum
  rw [hincs, Incs.recoveries_append, hrest.recoveries (by decide)]
  unfold ConnectionGroup.openRecoveries
  omega

/-- A cleanup changes the open recoveries of a group by what it counts: a
    connection that it erases has none. -/
theorem openRecoveries_cleanupConns (t : ℤ) (ret : ℕ → ℤ) {conns : List Connection}
    (hsound : ∀ c ∈ conns, c.Sound) :
    ((((cleanupConns t ret conns).1.map Connection.openRecoveries).sum : ℕ) : ℤ) =
      ((conns.map Connection.openRecoveries).sum : ℕ) +
        Incs.recoveries (cleanupConns t ret conns).2.2 := by
  induction conns with
  | nil => rfl
  | cons c conns ih =>
    have hrest := ih fun x hx => hsound x (List.mem_cons_of_mem _ hx)
    have hc : c.Sound := hsound c List.mem_cons_self
    have hcheck := c.openRecoveries_checkRecovery t
    have hremoved : Incs.recoveries [(.connectionsRemoved, 1)] = 0 := rfl
    have hkeepalive : Incs.recoveries (sendKeepalive (c.checkRecovery t).1
        (ret (c.checkRecovery t).1.ref)).2 = 0 := by
      unfold sendKeepalive
      split_ifs <;> rfl
    unfold cleanupConns
    dsimp only
    split_ifs with hout
    · rw [connTimedOut_checkRecovery] at hout
      have hzero := Connection.openRecoveries_of_zero (hc.over_of_timedOut hout)
      rw [Incs.recoveries_append, Incs.recoveries_append, hremoved, List.map_cons, List.sum_cons]
      dsimp only
      omega
    · rw [Incs.recoveries_append, Incs.recoveries_append, hkeepalive, List.map_cons, List.sum_cons,
        List.map_cons, List.sum_cons]
      omega
    · rw [Incs.recoveries_append, List.map_cons, List.sum_cons, List.map_cons, List.sum_cons]
      omega

theorem openRecoveries_cleanupGroups (t : ℤ) (ret : ℕ → ℤ) {groups : List ConnectionGroup}
    (hsound : ∀ g ∈ groups, ∀ c ∈ g.conns, c.Sound) :
    ((((cleanupGroups t ret groups).1.map ConnectionGroup.openRecoveries).sum : ℕ) : ℤ) =
      ((groups.map ConnectionGroup.openRecoveries).sum : ℕ) +
        Incs.recoveries (cleanupGroups t ret groups).2.2 := by
  induction groups with
  | nil => rfl
  | cons g groups ih =>
    have hrest := ih fun x hx => hsound x (List.mem_cons_of_mem _ hx)
    have hconns := openRecoveries_cleanupConns t ret (hsound g List.mem_cons_self)
    have hidle : Incs.recoveries [(.groupsRemovedIdle, 1)] = 0 := rfl
    have hg : g.openRecoveries = (g.conns.map Connection.openRecoveries).sum := rfl
    unfold cleanupGroups
    dsimp only
    split_ifs with hempty
    · have hnone : (cleanupConns t ret g.conns).1 = [] := by
        rw [Bool.and_eq_true] at hempty
        exact List.isEmpty_iff.mp hempty.1
      rw [hnone] at hconns
      rw [Incs.recoveries_append, Incs.recoveries_append, hidle, List.map_cons, List.sum_cons]
      simp only [List.map_nil, List.sum_nil] at hconns ⊢
      omega
    · rw [Incs.recoveries_append, List.map_cons, List.sum_cons, List.map_cons, List.sum_cons]
      have hkept : ConnectionGroup.openRecoveries { g with conns := (cleanupConns t ret g.conns).1 } =
          ((cleanupConns t ret g.conns).1.map Connection.openRecoveries).sum := rfl
      omega

/-! ## Every input -/

/-- The recoveries are counted from `s` to `s'`, with `lost` of them discarded. -/
def Recovers (lost : ℕ) (s s' : State) : Prop :=
  s'.metrics.ongoing + s.openRecoveries = s.metrics.ongoing + s'.openRecoveries + lost

theorem Recovers.of_same (hm : s'.metrics.ongoing = s.metrics.ongoing)
    (ho : s'.openRecoveries = s.openRecoveries) : Recovers 0 s s' := by
  unfold Recovers
  rw [hm, ho]
  exact (add_zero _).symm

/-- Writing a group with as many open recoveries. -/
theorem openRecoveries_put {groups : List ConnectionGroup} {g' : ConnectionGroup}
    (h : (groups.map ConnectionGroup.ref).Nodup) (hg : g ∈ groups) (href : g'.ref = g.ref)
    (hopen : g'.openRecoveries = g.openRecoveries) :
    ((Keyed.put ConnectionGroup.ref g' groups).map ConnectionGroup.openRecoveries).sum =
      (groups.map ConnectionGroup.openRecoveries).sum := by
  have := Keyed.sum_map_put (f := ConnectionGroup.openRecoveries) h hg href
  omega

/-- The group that is evicted has no connections. -/
theorem openRecoveries_evicted (h : Inv s) {v : ConnectionGroup} (hv : oldestPending s.groups = some v) :
    ((Keyed.remove ConnectionGroup.ref v.ref s.groups).map ConnectionGroup.openRecoveries).sum =
      s.openRecoveries := by
  obtain ⟨hmem, hpending, _⟩ := oldestPending_eq_some hv
  have hnone : v.openRecoveries = 0 := by
    unfold ConnectionGroup.openRecoveries
    rw [(ConnectionGroup.pending_iff.mp hpending).1]
    rfl
  have hsum := Keyed.sum_map_remove (f := ConnectionGroup.openRecoveries) h.refs hmem
  rw [hnone] at hsum
  exact hsum

theorem openRecoveries_afterEviction (h : Inv s) :
    (s.afterEviction.map ConnectionGroup.openRecoveries).sum = s.openRecoveries := by
  unfold State.afterEviction
  cases hv : s.victim with
  | none => rfl
  | some v =>
    unfold State.victim at hv
    split_ifs at hv
    exact openRecoveries_evicted h hv

theorem makeRoom_ongoing (h : s.makeRoom = some s') : s'.metrics.ongoing = s.metrics.ongoing := by
  unfold State.makeRoom State.evictOldestPendingGroup at h
  split_ifs at h
  · cases ho : oldestPending s.groups with
    | none =>
      rw [ho] at h
      cases h
    | some v =>
      rw [ho] at h
      obtain rfl := Option.some.inj h
      exact (State.ongoing_inc s _).trans (add_zero _)
  · rw [Option.some.inj h]

theorem registerGroup_ongoing (s : State) (addr : SockaddrStorage) (buffer : Mem) (ts : ℤ)
    (env : PacketEnv) :
    (registerGroup s addr buffer ts env).2.1.metrics.ongoing = s.metrics.ongoing := by
  unfold registerGroup
  split_ifs
  · exact (State.ongoing_inc s _).trans (add_zero _)
  cases hroom : s.makeRoom with
  | none => exact (State.ongoing_inc s _).trans (add_zero _)
  | some s₁ =>
    have hsame := makeRoom_ongoing hroom
    dsimp only
    cases findByAddress s₁.groups addr with
    | some p => exact ((State.ongoing_inc s₁ _).trans (add_zero _)).trans hsame
    | none =>
      dsimp only
      split_ifs
      · exact ((State.ongoing_inc _ _).trans (add_zero _)).trans hsame
      · exact ((State.ongoing_inc _ _).trans (add_zero _)).trans hsame

theorem recovers_registerGroup (h : Inv s) (addr : SockaddrStorage) (buffer : Mem) (ts : ℤ)
    (env : PacketEnv) : Recovers 0 s (registerGroup s addr buffer ts env).2.1 := by
  refine .of_same (registerGroup_ongoing s addr buffer ts env) ?_
  have hcases := (registerGroup_cases s addr buffer ts env).2
  have hevict := openRecoveries_afterEviction h
  unfold State.openRecoveries at hevict ⊢
  cases ho : regGroupOutcome s addr ts env with
  | throttled | tableFull =>
    rw [ho] at hcases
    rw [hcases.2.1]
  | dupAddr | sendError =>
    rw [ho] at hcases
    rw [hcases.2.1, hevict]
  | registered =>
    rw [ho] at hcases
    rw [hcases.2.1, List.map_append, List.sum_append, hevict]
    rfl

theorem registerConnection_ongoing (s : State) (addr : SockaddrStorage) (buffer : Mem) (ts : ℤ)
    (env : PacketEnv) :
    (registerConnection s addr buffer ts env).2.1.metrics.ongoing = s.metrics.ongoing := by
  unfold registerConnection
  cases findGroupById s.groups (readBlock buffer 2 256) with
  | none => exact (State.ongoing_inc s _).trans (add_zero _)
  | some g =>
    dsimp only
    split_ifs
    all_goals exact (State.ongoing_inc _ _).trans (add_zero _)

theorem recovers_registerConnection (h : Inv s) (addr : SockaddrStorage) (buffer : Mem) (ts : ℤ)
    (env : PacketEnv) : Recovers 0 s (registerConnection s addr buffer ts env).2.1 := by
  refine .of_same (registerConnection_ongoing s addr buffer ts env) ?_
  unfold State.openRecoveries
  rcases registerConnection_cases s h.refs addr buffer ts env with
    hrefused | ⟨g, hid, _, _, _, _, hjoined | ⟨c, hrepeated⟩⟩
  · rw [hrefused.2.1]
  · rw [hjoined.2.2.2]
    refine openRecoveries_put h.refs (findGroupById_eq_some hid).1 rfl ?_
    unfold ConnectionGroup.openRecoveries ConnectionGroup.addConnection
    rw [List.map_append, List.sum_append]
    rfl
  · rw [hrepeated.2]
    exact openRecoveries_put h.refs (findGroupById_eq_some hid).1 rfl rfl

theorem forward_ongoing (s : State) (g : ConnectionGroup) (buf : Bytes) (env : ForwardEnv) :
    (forwardToSrtServer (s.putGroup g) g buf env).2.1.metrics.ongoing = s.metrics.ongoing := by
  rw [forwardToSrtServer_eq]
  split_ifs
  · rw [sendOnGroupSocket_eq]
    split_ifs
    · exact ((State.ongoing_inc _ _).trans (add_zero _)).trans ((State.ongoing_inc _ _).trans (add_zero _))
    · refine (State.ongoing_inc _ _).trans ?_
      unfold ForwardEnv.incs
      split_ifs <;> simp [Incs.recoveries, Counter.recovery, State.putGroup]
  · exact (State.ongoing_inc _ _).trans (add_zero _)

theorem afterPacket_openRecoveries {g' : ConnectionGroup} {buf : Bytes} {addr : SockaddrStorage}
    {ts : ℤ} {env : PacketEnv} (h : afterPacket g c buf addr ts env = some g') :
    g'.openRecoveries = (onPacket g c buf addr ts env).group.openRecoveries := by
  rw [afterPacket_frame h]
  rfl

/-- A packet on a connection: the recovery it starts is open afterwards, or it is
    discarded with its group. -/
theorem recovers_conn (h : Inv s) (hsound : ∀ g ∈ s.groups, ∀ c ∈ g.conns, c.Sound) {buf : Bytes}
    {addr : SockaddrStorage} {ts : ℤ} {env : PacketEnv}
    (h1 : isSrtlaReg1 (mem buf) buf.length = false) (h2 : isSrtlaReg2 (mem buf) buf.length = false)
    (hf : findByAddress s.groups addr = some (g, some c)) :
    Recovers (s.discards (.packet buf addr ts env)) s (processSinglePacket s buf addr ts env).1 := by
  obtain ⟨hg, hc, _⟩ := findByAddress_conn hf
  have hgroup := openRecoveries_onPacket (h.wf g hg).connRefs hc (hsound g hg c hc) buf addr ts env
  have hongoing : (processSinglePacket s buf addr ts env).1.metrics.ongoing =
      s.metrics.ongoing + Incs.recoveries (onPacket g c buf addr ts env).incs := by
    rw [processSinglePacket_conn_eq h1 h2 hf]
    dsimp only
    split_ifs
    · rw [forward_ongoing, State.ongoing_inc]
    · exact State.ongoing_inc s _
  have htorn : s.tornDown (.packet buf addr ts env) =
      if (afterPacket g c buf addr ts env).isNone then some (onPacket g c buf addr ts env).group
      else none := by
    unfold State.tornDown
    dsimp only
    rw [h1, h2, hf]
    rfl
  have hopen : (processSinglePacket s buf addr ts env).1.openRecoveries =
      ((Keyed.update ConnectionGroup.ref g.ref (afterPacket g c buf addr ts env) s.groups).map
        ConnectionGroup.openRecoveries).sum := by
    rw [State.openRecoveries, processSinglePacket_conn h1 h2 hf]
  unfold Recovers State.discards
  rw [htorn, hongoing, hopen]
  cases hafter : afterPacket g c buf addr ts env with
  | none =>
    have hsum := Keyed.sum_map_remove (f := ConnectionGroup.openRecoveries) h.refs hg
    rw [← State.openRecoveries] at hsum
    rw [Keyed.update, Option.isNone_none, if_pos rfl, Option.map_some, Option.getD_some]
    omega
  | some g' =>
    have hsum := Keyed.sum_map_put (f := ConnectionGroup.openRecoveries) h.refs hg
      (afterPacket_ref hafter)
    rw [← State.openRecoveries, afterPacket_openRecoveries hafter] at hsum
    rw [Keyed.update, Option.isNone_some, if_neg (by decide), Option.map_none, Option.getD_none]
    omega

theorem handleSrtData_ongoing (s : State) (g : ConnectionGroup) (env : SrtEnv) :
    (handleSrtData s g env).1.metrics.ongoing = s.metrics.ongoing := by
  have hrelay : ∀ g' buf, Incs.recoveries (relayDownstream g' buf env).2 = 0 := by
    intro g' buf
    unfold relayDownstream
    dsimp only
    split_ifs <;> simp [Incs.recoveries, Counter.recovery]
  have hcount : ∀ n, Incs.recoveries [(.srtPacketsReceived, 1), (.srtBytesReceived, n)] = 0 := by
    intro n
    simp [Incs.recoveries, Counter.recovery]
  have hone : ∀ reason : Counter, reason.recovery = 0 → Incs.recoveries [(reason, 1)] = 0 := by
    intro reason hreason
    simp [Incs.recoveries, hreason]
  unfold handleSrtData
  cases env.recv with
  | none => exact (State.ongoing_inc _ _).trans (add_zero _)
  | some datagram =>
    dsimp only
    split_ifs
    · exact (State.ongoing_inc _ _).trans (add_zero _)
    · unfold handleSrtPacket State.teardown State.recordFailure
      dsimp only
      split_ifs
      all_goals
        simp only [State.removeGroup, State.putGroup, State.ongoing_inc, hrelay, hcount, add_zero,
          hone .authFailures rfl, hone .groupsRemovedAuth rfl]

theorem recovers_srtData (h : Inv s) (ref : ℕ) (env : SrtEnv) :
    Recovers (s.discards (.srtData ref env)) s (step s (.srtData ref env)).1 := by
  cases hget : Keyed.get ConnectionGroup.ref ref s.groups with
  | none =>
    have hzero : s.discards (.srtData ref env) = 0 := by
      unfold State.discards State.tornDown
      dsimp only
      rw [hget]
      rfl
    rw [hzero]
    simp only [step, hget]
    exact .of_same rfl rfl
  | some g =>
    have hg := Keyed.get_mem hget
    have hlost : s.discards (.srtData ref env) = if g.endsOn env then g.openRecoveries else 0 := by
      unfold State.discards State.tornDown
      dsimp only
      rw [hget, Option.filter_some]
      split_ifs <;> rfl
    rw [step_srtData hget, hlost]
    unfold Recovers
    rw [handleSrtData_ongoing, State.openRecoveries, State.openRecoveries, handleSrtData_groups]
    split_ifs
    · have := Keyed.sum_map_remove (f := ConnectionGroup.openRecoveries) h.refs hg
      omega
    · have hsame : (g.onServerPacket env).openRecoveries = g.openRecoveries := by
        rw [ConnectionGroup.onServerPacket_eq]
        rfl
      have href : (g.onServerPacket env).ref = g.ref := by rw [ConnectionGroup.onServerPacket_eq]
      rw [openRecoveries_put h.refs hg href hsame]
      exact (add_zero _).symm

theorem recovers_cleanup (hsound : ∀ g ∈ s.groups, ∀ c ∈ g.conns, c.Sound) (t : ℤ) (ret : ℕ → ℤ) :
    Recovers 0 s (cleanupInactive s t ret).1 := by
  unfold cleanupInactive
  split_ifs
  · exact .of_same rfl rfl
  · have hgroups := openRecoveries_cleanupGroups t ret hsound
    unfold Recovers
    dsimp only
    rw [State.ongoing_inc, State.openRecoveries, State.openRecoveries]
    dsimp only [State.inc]
    omega

theorem recovers_packet (h : Inv s) (hsound : ∀ g ∈ s.groups, ∀ c ∈ g.conns, c.Sound) (buf : Bytes)
    (addr : SockaddrStorage) (ts : ℤ) (env : PacketEnv) :
    Recovers (s.discards (.packet buf addr ts env)) s (processSinglePacket s buf addr ts env).1 := by
  have hreg : isSrtlaReg1 (mem buf) buf.length = true ∨ isSrtlaReg2 (mem buf) buf.length = true →
      s.discards (.packet buf addr ts env) = 0 := by
    intro hreg
    unfold State.discards State.tornDown
    dsimp only
    rw [if_pos (by simpa using hreg)]
    rfl
  cases packetCase s buf addr with
  | reg1 h1 =>
    rw [hreg (Or.inl h1), processSinglePacket_reg1 h1]
    exact recovers_registerGroup h addr (mem buf) ts env
  | reg2 h2 =>
    rw [hreg (Or.inr h2), processSinglePacket_reg2 h2]
    exact recovers_registerConnection h addr (mem buf) ts env
  | conn h1 h2 hf => exact recovers_conn h hsound h1 h2 hf
  | stranger h1 h2 hf =>
    have hzero : s.discards (.packet buf addr ts env) = 0 := by
      unfold State.discards State.tornDown
      dsimp only
      rw [h1, h2, if_neg (by decide)]
      split
      · rename_i g c hfound
        exact absurd hfound (hf g c)
      · rfl
    rw [processSinglePacket_stranger h1 h2 hf, hzero]
    exact .of_same rfl rfl

/-- What an input does to the recoveries. -/
theorem step_recovers (h : Inv s) (hsound : ∀ g ∈ s.groups, ∀ c ∈ g.conns, c.Sound) (op : Op) :
    Recovers (s.discards op) s (step s op).1 := by
  cases op with
  | packet buf addr ts env => exact recovers_packet h hsound buf addr ts env
  | srtData ref env => exact recovers_srtData h ref env
  | evict =>
    show Recovers 0 s s.evictOldestPendingGroup.2
    unfold State.evictOldestPendingGroup
    cases hv : oldestPending s.groups with
    | none => exact .of_same rfl rfl
    | some v =>
      exact .of_same ((State.ongoing_inc _ _).trans (add_zero _)) (openRecoveries_evicted h hv)
  | cleanup t ret => exact recovers_cleanup hsound t ret
  | limiterCleanup t => exact .of_same rfl rfl
  | quality t ms =>
    refine .of_same rfl ?_
    show ((s.assess t ms).groups.map ConnectionGroup.openRecoveries).sum = s.openRecoveries
    rw [State.assess, List.map_map]
    refine congrArg List.sum (List.map_congr_left fun g _ => ?_)
    obtain ⟨⟨f, hf, hconns⟩, _⟩ := assess_frame g t (ms g.ref)
    rw [Function.comp_apply, ConnectionGroup.openRecoveries, hconns]
    exact ConnectionGroup.openRecoveries_map hf g.conns
  | count what =>
    refine .of_same ?_ rfl
    show (s.inc what.incs).metrics.ongoing = _
    rw [State.ongoing_inc]
    cases what with
    | batch => exact add_zero _
    | datagram len => simp [LoopCount.incs, Incs.recoveries, Counter.recovery]

/-! ## Runs -/

theorem Connection.SameButStats.sound (h : c.SameButStats c') (hc : c.Sound) : c'.Sound where
  nonneg := by rw [h.recoveryStart]; exact hc.nonneg
  le := by rw [h.recoveryStart, h.lastRcvd]; exact hc.le

theorem Connection.Sound.received (h : c.Sound) (ht : c.lastRcvd ≤ t) (buf : Bytes) :
    (c.received buf t).Sound where
  nonneg := by rw [c.received_recoveryStart]; exact (h.touch ht).nonneg
  le := by
    have hle := (h.touch ht).le
    rw [c.touch_lastRcvd] at hle
    rw [c.received_recoveryStart, c.received_lastRcvd]
    exact hle

theorem sound_onPacket (hnodup : (g.conns.map Connection.ref).Nodup) (hc : c ∈ g.conns) {ts : ℤ}
    (hsound : ∀ x ∈ g.conns, x.Sound) (ht : c.lastRcvd ≤ ts) (buf : Bytes) (addr : SockaddrStorage)
    (env : PacketEnv) : ∀ x ∈ (onPacket g c buf addr ts env).group.conns, x.Sound := by
  obtain ⟨f, hf, hconns⟩ := @onPacket_conns g c buf addr ts env hnodup hc
  intro x' hx'
  rw [hconns] at hx'
  obtain ⟨x, hx, rfl⟩ := List.mem_map.mp hx'
  refine (hf x).sound ?_
  unfold writeConn
  split_ifs
  · exact (hsound c hc).received ht buf
  · exact hsound x hx

/-- An input whose clock reading is not behind the state keeps the connections sound. -/
theorem step_sound (h : Inv s) (hsound : ∀ g ∈ s.groups, ∀ c ∈ g.conns, c.Sound) {op : Op}
    (hclock : ∀ t, op.time = some t → 0 ≤ t ∧ s.Clocked t) :
    ∀ g ∈ (step s op).1.groups, ∀ c ∈ g.conns, c.Sound := by
  intro g' hg' c' hc'
  cases step_groupStep h op hg' with
  | kept hg _ => exact hsound g' hg c' hc'
  | created _ heq =>
    rw [heq] at hc'
    cases hc'
  | joined _ hid heq =>
    rw [heq] at hc'
    rcases List.mem_append.mp hc' with hc' | hc'
    · exact hsound _ (findGroupById_eq_some hid).1 c' hc'
    · rw [List.mem_singleton.mp hc']
      exact ⟨le_refl 0, (hclock _ rfl).1⟩
  | repeated _ hf heq =>
    rw [heq] at hc'
    exact hsound _ (findByAddress_conn hf).1 c' hc'
  | @received g c buf addr ts env _ _ hf hafter =>
    obtain ⟨hg, hc, _⟩ := findByAddress_conn hf
    rw [afterPacket_frame hafter] at hc'
    exact sound_onPacket (h.wf g hg).connRefs hc (hsound g hg) ((hclock ts rfl).2.lastRcvd g hg c hc)
      buf addr env c' hc'
  | server hg heq =>
    rw [heq] at hc'
    exact hsound _ hg c' hc'
  | @reaped g t ret hg _ heq =>
    rw [heq] at hc'
    obtain ⟨c, hc, _, rfl⟩ := mem_keptConns.mp hc'
    exact (hsound g hg c hc).checkRecovery t
  | @assessed g t ms hg heq =>
    obtain ⟨⟨f, hf, hconns⟩, _⟩ := assess_frame g t (ms g.ref)
    rw [heq, hconns] at hc'
    obtain ⟨c, hc, rfl⟩ := List.mem_map.mp hc'
    exact (hf c).sound (hsound g hg c hc)

theorem Timed.before {ops ops' : List Op} (h : Timed (ops ++ ops')) : Timed ops := by
  unfold Timed at h ⊢
  rw [List.filterMap_append, ← List.cons_append] at h
  exact (List.pairwise_append.mp h).1

/-- The state that a run with sane clock readings leads to, and what was discarded. -/
theorem run_recovers {ops : List Op} (h : Timed ops) :
    let s := receiver.run State.init ops
    (∀ g ∈ s.groups, ∀ c ∈ g.conns, c.Sound) ∧
      s.metrics.ongoing = s.openRecoveries + discarded (receiver.hist State.init ops) := by
  induction ops using List.reverseRecOn with
  | nil => exact ⟨fun g hg => absurd hg List.not_mem_nil, rfl⟩
  | append_singleton ops op ih =>
    obtain ⟨hsound, hbalance⟩ := ih h.before
    have hinv : Inv (receiver.run State.init ops) := reachable_inv ⟨ops, rfl⟩
    have hstep : Recovers _ _ _ := step_recovers hinv hsound op
    rw [receiver.run_concat, receiver.hist_concat]
    refine ⟨step_sound hinv hsound fun t ht => ?_, ?_⟩
    · obtain ⟨hzero, hbefore, _⟩ := Timed.le h ht
      exact ⟨hzero, run_clocked hzero hbefore⟩
    · unfold Recovers at hstep
      unfold discarded at hbalance ⊢
      rw [List.map_append, List.sum_append, List.map_singleton, List.sum_singleton]
      dsimp only [receiver] at hbalance hstep ⊢
      omega

/-- **Every recovery ends exactly once.** In a run with clock readings that do
    not decrease, the recoveries started are those counted as completed, those
    counted as failed, those still open on a registered connection, and those
    discarded with a group that was removed for an SRT error or an authentication
    failure. No cleanup erases a connection whose recovery is open: the check that
    comes before the erasure has ended it. -/
theorem recoveries_balance (ops : List Op) (h : Timed ops) :
    let s := receiver.run State.init ops
    s.metrics .recoveryStarted = s.metrics .recoveryCompleted + s.metrics .recoveryFailed +
        s.openRecoveries + discarded (receiver.hist State.init ops) ∧
      ∀ e ∈ receiver.hist State.init ops, ∀ t ret, e.input = .cleanup t ret →
        ∀ g ∈ e.pre.groups, ∀ c ∈ g.conns, connTimedOut c t = true →
          (c.checkRecovery t).1.recoveryStart = 0 := by
  refine ⟨?_, fun e he t ret _ g hg c hc hout => ?_⟩
  · have hbalance := (run_recovers h).2
    unfold Metrics.ongoing at hbalance
    omega
  · obtain ⟨⟨before, after, hops, hpre⟩, _⟩ := receiver.mem_hist he
    rw [hops] at h
    rw [hpre] at hg
    exact ((run_recovers h.before).1 g hg c hc).over_of_timedOut hout

/-- A connection that speaks again after 20 seconds is in recovery. -/
theorem recoveries_balance_stream :
    (receiver.run State.init (streamOps 20)).metrics .recoveryStarted =
      (receiver.run State.init (streamOps 20)).metrics .recoveryCompleted +
        (receiver.run State.init (streamOps 20)).metrics .recoveryFailed + 1 +
        discarded (receiver.hist State.init (streamOps 20)) := by
  have hopen : (receiver.run State.init (streamOps 20)).openRecoveries = 1 := by
    rw [State.openRecoveries, (run_stream 20).1]
    decide +kernel
  have hbalance := (recoveries_balance (streamOps 20) (by decide)).1
  rw [hopen] at hbalance
  exact hbalance

end Srtla.Receiver
