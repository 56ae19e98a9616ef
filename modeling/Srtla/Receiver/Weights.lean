import Srtla.Lib.Lts
import Srtla.Receiver.GroupStep
import Srtla.Receiver.MainLoop

/-!
# Weights and error points

`evaluate_group` writes error points, at the end of an iteration of the main loop
and, after many NAKs, in the middle of one; it runs at most every five seconds.
`adjust_weights` writes weights, at the end of an iteration, if points were written
since it last ran. Both gates compare times in seconds, so that two events of one
second look alike.

The two line up because every time within an iteration is the same, and a group
whose points a packet has refreshed keeps the connection of that packet until the
end of the iteration.

* `weights_match`: at the end of every iteration the weight of every connection is
  the one for its error points.
-/

namespace Srtla.Receiver

open Lib

/-- The weight is the one for the error points. -/
def Connection.Weighed (c : Connection) : Prop :=
  c.stats.weightPercent = weightFor c.stats.errorPoints

/-- `c'` has the error points and the weight of `c`. -/
def Connection.SameScore (c c' : Connection) : Prop :=
  c'.stats.errorPoints = c.stats.errorPoints ∧ c'.stats.weightPercent = c.stats.weightPercent

/-- No score of `g` has changed. -/
structure Unscored (g g' : ConnectionGroup) : Prop where
  enabled : g'.loadBalancingEnabled = g.loadBalancingEnabled
  lastEval : g'.lastQualityEval = g.lastQualityEval
  lastAdjust : g'.lastLoadBalanceEval = g.lastLoadBalanceEval
  conns : ∀ c' ∈ g'.conns, ∃ c ∈ g.conns, c.SameScore c'

/-- An evaluation of `g` was due at `ts` and has taken place. -/
structure Evaluated (ts : ℤ) (g g' : ConnectionGroup) : Prop where
  enabled : g'.loadBalancingEnabled = g.loadBalancingEnabled
  due : g.lastQualityEval + connQualityEvalPeriod ≤ ts
  lastEval : g'.lastQualityEval = ts
  lastAdjust : g'.lastLoadBalanceEval = g.lastLoadBalanceEval

variable {s : State} {g g' g'' : ConnectionGroup} {c c' c'' : Connection} {ts : ℤ} {buf : Bytes}
  {addr : SockaddrStorage} {env : PacketEnv}

/-! ## What a packet does to the scores -/

theorem Connection.SameScore.refl (c : Connection) : c.SameScore c := ⟨rfl, rfl⟩

theorem Connection.SameScore.trans (h : c.SameScore c') (h' : c'.SameScore c'') : c.SameScore c'' :=
  ⟨h'.1.trans h.1, h'.2.trans h.2⟩

theorem Connection.SameScore.weighed (h : c.SameScore c') (hc : c.Weighed) : c'.Weighed := by
  rw [Connection.Weighed, h.1, h.2]
  exact hc

theorem Unscored.refl (g : ConnectionGroup) : Unscored g g :=
  ⟨rfl, rfl, rfl, fun c hc => ⟨c, hc, .refl c⟩⟩

theorem Unscored.trans (h : Unscored g g') (h' : Unscored g' g'') : Unscored g g'' := by
  refine ⟨h'.enabled.trans h.enabled, h'.lastEval.trans h.lastEval,
    h'.lastAdjust.trans h.lastAdjust, fun c'' hc'' => ?_⟩
  obtain ⟨c', hc', hs'⟩ := h'.conns c'' hc''
  obtain ⟨c, hc, hs⟩ := h.conns c' hc'
  exact ⟨c, hc, hs.trans hs'⟩

theorem Unscored.putConn (h : Unscored g g') (hc : c ∈ g.conns) (hs : c.SameScore c') :
    Unscored g (g'.putConn c') := by
  refine ⟨h.enabled, h.lastEval, h.lastAdjust, fun x hx => ?_⟩
  rcases Keyed.mem_put.mp hx with ⟨rfl, _⟩ | ⟨hx, _⟩
  · exact ⟨c, hc, hs⟩
  · exact h.conns x hx

theorem Evaluated.of_unscored (h : Unscored g g') (h' : Evaluated ts g' g'') : Evaluated ts g g'' :=
  ⟨h'.enabled.trans h.enabled, h.lastEval ▸ h'.due, h'.lastEval, h'.lastAdjust.trans h.lastAdjust⟩

theorem Evaluated.unscored (h : Evaluated ts g g') (h' : Unscored g' g'') : Evaluated ts g g'' :=
  ⟨h'.enabled.trans h.enabled, h.due, h'.lastEval.trans h.lastEval, h'.lastAdjust.trans h.lastAdjust⟩

/-- The gate of `evaluate_group`. -/
theorem evaluateGroup_score (g : ConnectionGroup) (ts : ℤ) (ms : Option UInt64) :
    Unscored g (evaluateGroup g ts ms) ∨ Evaluated ts g (evaluateGroup g ts ms) := by
  unfold evaluateGroup
  split_ifs with h1 h2
  · exact Or.inl (.refl g)
  · exact Or.inl (.refl g)
  · cases ms with
    | none => exact Or.inl ⟨rfl, rfl, rfl, fun c hc => ⟨c, hc, .refl c⟩⟩
    | some ms => exact Or.inr ⟨rfl, not_lt.mp h2, rfl, rfl⟩

theorem sameScore_touch (c : Connection) (ts : ℤ) : c.SameScore (c.touch ts).1 := by
  rw [c.touch_eq]
  exact ⟨rfl, rfl⟩

theorem sameScore_handleKeepalive (c : Connection) (addr : SockaddrStorage) (buf : Bytes)
    (env : PacketEnv) : c.SameScore (handleKeepalive c addr buf env).1 := by
  unfold handleKeepalive
  cases parseKeepaliveConnInfo (mem buf) buf.length with
  | none => exact .refl c
  | some info => exact ⟨rfl, rfl⟩

theorem unscored_onSequenceNumber (g : ConnectionGroup) (ref : ℕ) (buf : Bytes) (env : PacketEnv) :
    Unscored g (onSequenceNumber g ref buf env).1 := by
  unfold onSequenceNumber
  cases hget : Keyed.get Connection.ref ref g.conns with
  | none => exact .refl g
  | some c =>
    dsimp only
    split_ifs
    · refine (Unscored.refl g).putConn (Keyed.get_mem hget) ?_
      rw [registerPacket_fst, c.registered_eq]
      exact ⟨rfl, rfl⟩
    · exact .refl g

/-- A NAK may trigger an evaluation. -/
theorem onNak_score (hg : Unscored g g') (hc : c ∈ g.conns) (hs : c.SameScore c') :
    Unscored g (onNak g' c' buf ts env).2.1 ∨ Evaluated ts g (onNak g' c' buf ts env).2.1 := by
  have hput : ∀ seen, Unscored g ({ g' with nakSeenHash := seen }.putConn
      { c' with stats := c'.stats.onNakDetected 1 }) := fun seen =>
    Unscored.putConn ⟨hg.enabled, hg.lastEval, hg.lastAdjust, hg.conns⟩ hc ⟨hs.1, hs.2⟩
  unfold onNak
  dsimp only
  split_ifs
  · exact Or.inl ⟨hg.enabled, hg.lastEval, hg.lastAdjust, hg.conns⟩
  · rcases evaluateGroup_score _ ts env.evalMs with h | h
    · exact Or.inl ((hput _).trans h)
    · exact Or.inr (h.of_unscored (hput _))
  · exact Or.inl (hput _)

/-- A packet leaves the scores of its group alone, or it has them written. -/
theorem onPacket_score (hc : c ∈ g.conns) :
    Unscored g (onPacket g c buf addr ts env).group ∨
      Evaluated ts g (onPacket g c buf addr ts env).group := by
  have htouch := sameScore_touch c ts
  -- the connection and the group as the packet finds them, before the NAK branch
  have hstats : c.SameScore { (c.touch ts).1 with
      stats := (c.touch ts).1.stats.onPacketReceived buf.length } := ⟨htouch.1, htouch.2⟩
  have hput := (Unscored.refl g).putConn hc hstats
  have hstream : Unscored g { g.putConn { (c.touch ts).1 with
      stats := (c.touch ts).1.stats.onPacketReceived buf.length } with
        dataSeen := true, lastAddr := addr } :=
    ⟨hput.enabled, hput.lastEval, hput.lastAdjust, hput.conns⟩
  unfold onPacket
  dsimp only
  split_ifs
  · exact Or.inl ((Unscored.refl g).putConn hc
      (htouch.trans (sameScore_handleKeepalive _ addr buf env)))
  · exact Or.inl ((Unscored.refl g).putConn hc htouch)
  · exact onNak_score hstream hc hstats
  · rcases @onNak_score g _ c _ ts buf env hstream hc hstats with h | h
    · exact Or.inl (h.trans (unscored_onSequenceNumber _ _ buf env))
    · exact Or.inr (h.unscored (unscored_onSequenceNumber _ _ buf env))
  · exact Or.inl hstream
  · exact Or.inl (hstream.trans (unscored_onSequenceNumber _ _ buf env))

/-! ## Within an iteration -/

/-- The weights are up to date. -/
structure ConnectionGroup.Settled (g : ConnectionGroup) : Prop where
  enabled : g.loadBalancingEnabled = true
  times : g.lastLoadBalanceEval = g.lastQualityEval
  conns : ∀ c ∈ g.conns, c.Weighed

/-- The weights are up to date, or the points were written in this iteration, by
    a packet on a connection that is still there. -/
structure ConnectionGroup.Current (ts : ℤ) (g : ConnectionGroup) : Prop where
  enabled : g.loadBalancingEnabled = true
  scores : (g.lastLoadBalanceEval = g.lastQualityEval ∧ ∀ c ∈ g.conns, c.Weighed) ∨
    (g.lastLoadBalanceEval < g.lastQualityEval ∧ g.lastQualityEval = ts ∧
      ∃ c ∈ g.conns, c.lastRcvd = ts)

theorem ConnectionGroup.Settled.current (h : g.Settled) (ts : ℤ) : g.Current ts :=
  ⟨h.enabled, Or.inl ⟨h.times, h.conns⟩⟩

theorem ConnectionGroup.Current.le (h : g.Current ts) : g.lastLoadBalanceEval ≤ g.lastQualityEval := by
  rcases h.scores with ⟨heq, _⟩ | ⟨hlt, _⟩ <;> omega

/-- The connection of a packet has received something now. -/
theorem exists_received (hn : (g.conns.map Connection.ref).Nodup) (hc : c ∈ g.conns)
    (h : afterPacket g c buf addr ts env = some g') : ∃ c' ∈ g'.conns, c'.lastRcvd = ts := by
  obtain ⟨f, hf, hconns⟩ := @onPacket_conns g c buf addr ts env hn hc
  refine ⟨f c, ?_, ?_⟩
  · rw [afterPacket_frame h]
    show f c ∈ (onPacket g c buf addr ts env).group.conns
    rw [hconns]
    exact List.mem_map_of_mem hc
  · rw [(hf c).lastRcvd, writeConn, Connection.received_ref, if_pos rfl, Connection.received_lastRcvd]

theorem ConnectionGroup.Current.received (hg : g.Current ts)
    (hn : (g.conns.map Connection.ref).Nodup) (hc : c ∈ g.conns)
    (h : afterPacket g c buf addr ts env = some g') : g'.Current ts := by
  have hrecv := exists_received hn hc h
  have hframe := afterPacket_frame h
  have hscore := @onPacket_score g c ts buf addr env hc
  -- the socket a forward opens is no part of the scores
  have hle := hg.le
  rcases hscore with hs | hs
  · have hs' : Unscored g g' := by
      rw [hframe]
      exact ⟨hs.enabled, hs.lastEval, hs.lastAdjust, hs.conns⟩
    refine ⟨hs'.enabled.trans hg.enabled, ?_⟩
    rcases hg.scores with ⟨htimes, hweights⟩ | ⟨hlt, hts, _⟩
    · refine Or.inl ⟨by rw [hs'.lastAdjust, hs'.lastEval, htimes], fun c' hc' => ?_⟩
      obtain ⟨x, hx, hxs⟩ := hs'.conns c' hc'
      exact hxs.weighed (hweights x hx)
    · exact Or.inr ⟨by rw [hs'.lastAdjust, hs'.lastEval]; exact hlt, hs'.lastEval.trans hts, hrecv⟩
  · have hs' : Evaluated ts g g' := by
      rw [hframe]
      exact ⟨hs.enabled, hs.due, hs.lastEval, hs.lastAdjust⟩
    have hdue := hs'.due
    have hperiod : (0 : ℤ) < connQualityEvalPeriod := by decide
    refine ⟨hs'.enabled.trans hg.enabled, Or.inr ⟨?_, hs'.lastEval, hrecv⟩⟩
    rw [hs'.lastAdjust, hs'.lastEval]
    omega

theorem current_step (h : Inv s) (hcur : ∀ g ∈ s.groups, g.Current ts) {op : Op}
    (hop : op.During ts) (hg' : g' ∈ (step s op).1.groups) : g'.Current ts := by
  cases step_groupStep h op hg' with
  | kept hg _ => exact hcur g' hg
  | created _ heq =>
    rw [heq]
    exact ⟨rfl, Or.inl ⟨rfl, fun c hc => absurd hc List.not_mem_nil⟩⟩
  | @joined g _ addr t _ _ hid heq =>
    have hg := hcur g (findGroupById_eq_some hid).1
    rw [heq]
    refine ⟨hg.enabled, ?_⟩
    rcases hg.scores with ⟨htimes, hweights⟩ | ⟨hlt, hts, c, hc, hrecv⟩
    · refine Or.inl ⟨htimes, fun c hc => ?_⟩
      rcases List.mem_append.mp hc with hc | hc
      · exact hweights c hc
      · rw [List.mem_singleton.mp hc]
        rfl
    · exact Or.inr ⟨hlt, hts, c, List.mem_append_left _ hc, hrecv⟩
  | @repeated g _ _ _ _ _ _ hf heq =>
    have hg := hcur g (findByAddress_conn hf).1
    rw [heq]
    exact ⟨hg.enabled, hg.scores⟩
  | @received g c _ _ t _ _ _ hf hafter =>
    obtain ⟨hg, hc, _⟩ := findByAddress_conn hf
    rw [show t = ts from hop] at hafter
    exact (hcur g hg).received (h.wf g hg).connRefs hc hafter
  | @server g _ _ hg heq =>
    rw [heq]
    exact ⟨(hcur g hg).enabled, (hcur g hg).scores⟩
  | reaped => exact absurd hop id
  | assessed => exact absurd hop id

/-- A cleanup keeps the connection that has received something now. -/
theorem current_cleanup (h : Inv s) (hcur : ∀ g ∈ s.groups, g.Current ts) (ret : ℕ → ℤ)
    (hg' : g' ∈ (step s (.cleanup ts ret)).1.groups) : g'.Current ts := by
  cases step_groupStep h (.cleanup ts ret) hg' with
  | kept hg _ => exact hcur g' hg
  | @reaped g _ _ hg _ heq =>
    rw [heq]
    refine ⟨(hcur g hg).enabled, ?_⟩
    rcases (hcur g hg).scores with ⟨htimes, hweights⟩ | ⟨hlt, hts, c, hc, hrecv⟩
    · refine Or.inl ⟨htimes, fun x hx => ?_⟩
      obtain ⟨c, hc, _, rfl⟩ := mem_keptConns.mp hx
      rw [c.checkRecovery_eq]
      exact hweights c hc
    · refine Or.inr ⟨hlt, hts, (c.checkRecovery ts).1, mem_keptConns.mpr ⟨c, hc, ?_, rfl⟩, ?_⟩
      · rw [hrecv, connTimeout]
        omega
      · rw [c.checkRecovery_lastRcvd, hrecv]

/-- `adjust_weights` runs if points were written since it last ran. -/
theorem adjustWeights_settled (hon : g.loadBalancingEnabled = true)
    (h : (g.lastLoadBalanceEval = g.lastQualityEval ∧ ∀ c ∈ g.conns, c.Weighed) ∨
      (g.lastLoadBalanceEval < g.lastQualityEval ∧ g.lastQualityEval = ts ∧ g.conns ≠ [])) :
    (adjustWeights g ts).Settled := by
  unfold adjustWeights
  rw [hon]
  rcases h with ⟨htimes, hweights⟩ | ⟨hlt, hts, hne⟩
  · have hgate : (true && decide (g.lastLoadBalanceEval ≥ g.lastQualityEval)) = true := by
      rw [Bool.true_and, decide_eq_true_eq, htimes]
    rw [if_pos hgate, ite_self]
    exact ⟨hon, htimes, hweights⟩
  · have hgate : ¬ (true && decide (g.lastLoadBalanceEval ≥ g.lastQualityEval)) = true := by
      rw [Bool.true_and, decide_eq_true_eq]
      omega
    rw [if_neg (by rwa [List.isEmpty_iff]), if_neg hgate, if_neg (by simp)]
    refine ⟨rfl, hts.symm, fun c' hc' => ?_⟩
    obtain ⟨c, _, rfl⟩ := List.mem_map.mp hc'
    rfl

/-- The end of the iteration brings the weights up to date. -/
theorem assess_settled (h : g.Current ts) (ms : Option UInt64) :
    (adjustWeights (evaluateGroup g ts ms) ts).Settled := by
  have hscores : (g.lastLoadBalanceEval = g.lastQualityEval ∧ ∀ c ∈ g.conns, c.Weighed) ∨
      (g.lastLoadBalanceEval < g.lastQualityEval ∧ g.lastQualityEval = ts ∧ g.conns ≠ []) :=
    h.scores.imp_right fun ⟨hlt, hts, c, hc, _⟩ => ⟨hlt, hts, List.ne_nil_of_mem hc⟩
  unfold evaluateGroup
  split_ifs with hskip hdue
  · exact adjustWeights_settled h.enabled hscores
  · exact adjustWeights_settled h.enabled hscores
  · cases ms with
    | none => exact adjustWeights_settled h.enabled hscores
    | some ms =>
      refine adjustWeights_settled h.enabled (Or.inr ⟨?_, rfl, ?_⟩)
      · have hle := h.le
        have hperiod : (0 : ℤ) < connQualityEvalPeriod := by decide
        show g.lastLoadBalanceEval < ts
        omega
      · intro hnil
        rw [List.map_eq_nil_iff] at hnil
        rw [hnil] at hskip
        exact hskip rfl

/-! ## Over a run of the main loop -/

/-- The time, the events and the system calls of an iteration of the main loop. -/
structure Iteration where
  ts : ℤ
  events : List LoopEvent
  ret : ℕ → ℤ
  ms : ℕ → Option UInt64

/-- The main loop of the receiver; its states are those at the end of an iteration. -/
def mainLoop : Lts State Iteration where
  init := State.init
  step s i s' := ∃ effects, mainIteration i.ts s i.events i.ret i.ms = some (s', effects)

theorem settled_iteration {s' : State} (h : Inv s) (hset : ∀ g ∈ s.groups, g.Settled) {i : Iteration}
    (hstep : mainLoop.step s i s') : Inv s' ∧ ∀ g ∈ s'.groups, g.Settled := by
  obtain ⟨effects, hiter⟩ := hstep
  obtain ⟨ops, hops, hrun⟩ := mainIteration_run h.distinct i.events i.ret i.ms hiter
  obtain ⟨rfl, rfl⟩ := Prod.mk.inj hrun
  refine ⟨run_inv h _, ?_⟩
  -- the events leave every group current, and so does the cleanup
  have hevents := receiver.run_invariant_if
    (P := fun s => Inv s ∧ ∀ g ∈ s.groups, g.Current i.ts) (C := fun _ op => op.During i.ts)
    (fun s op hs hop => ⟨(step_regStep hs.1 op).inv hs.1, fun _ => current_step hs.1 hs.2 hop⟩)
    ⟨h, fun g hg => (hset g hg).current i.ts⟩ ops (fun e he => by
      obtain ⟨⟨before, after, hsplit, _⟩, _⟩ := receiver.mem_hist he
      exact hops _ (by rw [hsplit]; exact List.mem_append_right _ List.mem_cons_self))
  intro g hg
  rw [receiver.run_append, receiver.run_cons, receiver.run_cons, receiver.run_cons,
    receiver.run_nil] at hg
  obtain ⟨g₀, hg₀, rfl⟩ := List.mem_map.mp hg
  exact assess_settled (current_cleanup hevents.1 hevents.2 i.ret hg₀) _

/-- **Published weights match published error points.** At the end of every
    iteration of the main loop, the weight of every connection is the one that
    `adjust_weights` gives its error points. -/
theorem weights_match (s : State) (h : mainLoop.Reachable s) :
    ∀ g ∈ s.groups, ∀ c ∈ g.conns, c.stats.weightPercent = weightFor c.stats.errorPoints := by
  have hinv : Inv s ∧ ∀ g ∈ s.groups, g.Settled :=
    Lts.reachableIf_invariant (I := fun s => Inv s ∧ ∀ g ∈ s.groups, g.Settled)
      ⟨inv_init, fun g hg => absurd hg List.not_mem_nil⟩
      (fun s i s' hs _ hstep => settled_iteration hs.1 hs.2 hstep) h
  exact fun g hg => (hinv.2 g hg).conns

/-- A batch with a REG1 and the REG2 that follows from its answer. -/
def handshakeBatch (id : SrtlaId) (random : IdHalf) (a b : SockaddrStorage) : List Datagram :=
  [⟨reg1Frame id, a, { (default : PacketEnv) with sendtoRet := 258, random := random }⟩,
   ⟨reg2Frame (.ofHalves id.firstHalf random), b, { (default : PacketEnv) with sendtoRet := 32 }⟩]

theorem handshakeBatch_run (id : SrtlaId) (random : IdHalf) (a b : SockaddrStorage) :
    let s := (processPackets State.init (some (handshakeBatch id random a b)) 0).1
    s.groups = [handshakeGroup id random a b 0 0] ∧ s.lastRun = 0 := by
  have hlen₁ : (reg1Frame id).length = 258 := length_regFrame _ _
  have hlen₂ : (reg2Frame (.ofHalves id.firstHalf random)).length = 258 := length_regFrame _ _
  dsimp only
  rw [processPackets, handshakeBatch, processDatagrams, processDatagrams, processDatagrams,
    processDatagram_eq (by rw [hlen₂]; decide) (by rw [hlen₂]; decide),
    processDatagram_eq (by rw [hlen₁]; decide) (by rw [hlen₁]; decide)]
  -- the counters that are bumped in between do not matter
  have hinv₀ : Inv ((State.init.inc [(.recvBatches, 1)]).inc
      [(.packetsReceived, 1), (.bytesReceived, (reg1Frame id).length)]) :=
    ⟨inv_init.refs, inv_init.apart, inv_init.wf, inv_init.table⟩
  obtain ⟨⟨hgroups, hnext, _, hrun⟩, _⟩ := @step_reg1 ((State.init.inc [(.recvBatches, 1)]).inc
      [(.packetsReceived, 1), (.bytesReceived, (reg1Frame id).length)]) a 0
    { (default : PacketEnv) with sendtoRet := 258, random := random } id
    (by rw [AuthRateLimiter.isBlocked]; exact rfl) (show 0 < maxGroups by decide)
    (fun x hx => absurd hx List.not_mem_nil) rfl
  have hinv₁ := (step_regStep hinv₀ (.packet (reg1Frame id) a 0
    { (default : PacketEnv) with sendtoRet := 258, random := random })).inv hinv₀
  generalize (step _ (.packet (reg1Frame id) a 0 _)).1 = s at *
  have hinv₂ : Inv (s.inc [(.packetsReceived, 1), (.bytesReceived,
      (reg2Frame (.ofHalves id.firstHalf random)).length)]) :=
    ⟨hinv₁.refs, hinv₁.apart, hinv₁.wf, hinv₁.table⟩
  obtain ⟨hgroups', _, _, hrun'⟩ := @step_reg2 _ b 0
    { (default : PacketEnv) with sendtoRet := 32 } (.ofHalves id.firstHalf random)
    hinv₂ (ConnectionGroup.create 0 id.firstHalf random 0 a)
    (by rw [State.inc_groups, hgroups]; exact findGroupById_self _ [])
    (by rw [State.inc_groups, hgroups]; exact fun x hx _ => List.mem_singleton.mp hx)
    (fun c hc => absurd hc List.not_mem_nil) (show 0 < maxConnsPerGroup by decide) rfl
  rw [hgroups', hrun', State.inc_groups, State.inc_nextRef, State.inc_lastRun, hgroups, hnext, hrun]
  exact ⟨rfl, rfl⟩

/-- The first iteration of a receiver that such a batch reaches at once. -/
theorem mainIteration_handshakeBatch (id : SrtlaId) (random : IdHalf) (a b : SockaddrStorage) :
    ∃ r, mainIteration 0 State.init [.srtla (some (handshakeBatch id random a b))] (fun _ => 0)
      (fun _ => none) = some r ∧ r.1.groups = [handshakeGroup id random a b 0 0] ∧ r.1.lastRun = 0 := by
  obtain ⟨hgroups, hrun⟩ := handshakeBatch_run id random a b
  generalize hp : processPackets State.init (some (handshakeBatch id random a b)) 0 = p at hgroups hrun
  have hevents : ∃ effects,
      eventLoop 0 State.init [.srtla (some (handshakeBatch id random a b))] = some (p.1, effects) := by
    simp only [eventLoop, handleEvent, hp]
    split_ifs
    · exact ⟨p.2, rfl⟩
    · exact ⟨p.2 ++ [], rfl⟩
  obtain ⟨effects, hevents⟩ := hevents
  -- neither the cleanup nor the evaluation is due at 0
  have hclean : cleanupInactive p.1 0 (fun _ => 0) = (p.1, []) := by
    rw [cleanupInactive, if_pos (by rw [hrun]; decide)]
  rw [mainIteration, hevents, Option.map_some, hclean]
  refine ⟨_, rfl, ?_, hrun⟩
  show p.1.groups.map _ = _
  rw [hgroups]
  rfl

/-- The group after its first evaluation, at 12. -/
def evaluatedGroup : ConnectionGroup :=
  adjustWeights (evaluateGroup (handshakeGroup default default (sampleAddr 1) (sampleAddr 2) 0 0) 12
    (some 12000)) 12

/-- A second iteration, at 12, cleans up and evaluates the group. -/
theorem mainIteration_evaluated {s : State}
    (hgroups : s.groups = [handshakeGroup default default (sampleAddr 1) (sampleAddr 2) 0 0])
    (hrun : s.lastRun = 0) :
    ∃ r, mainIteration 12 s [] (fun _ => 0) (fun _ => some 12000) = some r ∧
      r.1.groups = [evaluatedGroup] := by
  refine ⟨_, rfl, ?_⟩
  have hclean : (cleanupInactive s 12 fun _ => 0).1.groups =
      [handshakeGroup default default (sampleAddr 1) (sampleAddr 2) 0 0] := by
    rw [cleanupInactive, if_neg (by rw [hrun]; decide), hgroups]
    rfl
  show (cleanupInactive s 12 fun _ => 0).1.groups.map _ = _
  rw [hclean]
  rfl

/-- A handshake at 0, and the evaluation at 12 of a connection that is past its
    grace period and has received no data. -/
theorem weights_match_evaluated :
    ∃ s g c, mainLoop.Reachable s ∧ s.groups = [g] ∧ g.conns = [c] ∧ g.lastQualityEval = 12 ∧
      c.stats.errorPoints = 40 ∧ c.stats.weightPercent = weightCritical := by
  obtain ⟨r₁, hr₁, hgroups₁, hrun₁⟩ :=
    mainIteration_handshakeBatch default default (sampleAddr 1) (sampleAddr 2)
  obtain ⟨r₂, hr₂, hgroups₂⟩ := mainIteration_evaluated hgroups₁ hrun₁
  have hreach₁ : mainLoop.Reachable r₁.1 := .step (a := ⟨0, _, fun _ => 0, fun _ => none⟩) .init trivial
    ⟨r₁.2, hr₁⟩
  have hreach₂ : mainLoop.Reachable r₂.1 := .step (a := ⟨12, [], fun _ => 0, fun _ => some 12000⟩) hreach₁
    trivial ⟨r₂.2, hr₂⟩
  obtain ⟨c, hconns⟩ : ∃ c, evaluatedGroup.conns = [c] := ⟨_, rfl⟩
  have hpoints : c.stats.errorPoints = 40 := by
    have hall : evaluatedGroup.conns.map (fun c => c.stats.errorPoints) = [40] := by decide +kernel
    rw [hconns] at hall
    exact List.head_eq_of_cons_eq hall
  have hmatch := weights_match r₂.1 hreach₂ evaluatedGroup (hgroups₂ ▸ List.mem_singleton_self _) c
    (hconns ▸ List.mem_singleton_self _)
  refine ⟨r₂.1, evaluatedGroup, c, hreach₂, hgroups₂, hconns, rfl, hpoints, ?_⟩
  rw [hmatch, hpoints]
  rfl

end Srtla.Receiver
