import Srtla.Receiver.GroupStep
import Srtla.Receiver.Sent

/-!
# Packets of the SRT server

`handle_srt_data` sends an SRT ACK or NAK of the server to every connection of
the group, and anything else to the group's `last_address`. That address is
written by a REG1, a REG2 and a packet of the stream, but not by a keepalive,
and `cleanup_inactive` drops connections without looking at it. A link that only
sends keepalives can therefore outlive the link `last_address` points to.

* `lastAddr_live_iff`: in a run the address is that of a registered connection,
  in every state with connections, exactly when no cleanup drops the connection
  at `last_address` and keeps another one of its group.
* `broadcast_complete`: the limits hold in every reachable state, so that an ACK
  or a NAK goes to every connection once.
-/

namespace Srtla.Receiver

open Lib

/-! ## What is sent -/

/-- The datagrams a call is handed, each with the address it is for. -/
def Effect.copies : Effect → List (SockaddrStorage × Bytes)
  | .padSendto _ addr buf _ => [(addr, buf)]
  | .sendmmsg addrs buf _ => addrs.map fun a => (a, buf)
  | .send .. => []

/-- The calls made for a packet of the SRT server that is not too short. -/
theorem handleSrtData_sent (s : State) (g : ConnectionGroup) {env : SrtEnv} {datagram : Bytes}
    (hrecv : env.recv = some datagram) (hlen : srtMinLen ≤ (datagram.take mtu).length) :
    (handleSrtData s g env).2 =
      if isBroadcast (datagram.take mtu) then
        if g.conns.isEmpty then []
        else [.sendmmsg ((g.conns.take maxConnsPerGroup).map Connection.addr) (datagram.take mtu)
          env.sendmmsgRet]
      else [.padSendto .downstream g.lastAddr (datagram.take mtu) env.sendtoRet] := by
  have hnote : (g.noteAck (datagram.take mtu)).conns = g.conns ∧
      (g.noteAck (datagram.take mtu)).lastAddr = g.lastAddr := by
    rw [ConnectionGroup.noteAck_eq]
    exact ⟨rfl, rfl⟩
  unfold handleSrtData
  rw [hrecv]
  dsimp only
  rw [if_neg (not_lt.mpr hlen), handleSrtPacket]
  dsimp only [relayDownstream]
  rw [hnote.1, hnote.2]
  cases hb : isBroadcast (datagram.take mtu) with
  | false => rw [Bool.false_and, if_neg (by decide)]; rfl
  | true =>
    simp only [Bool.true_and, if_true]
    by_cases hempty : g.conns.isEmpty = true
    · rw [if_pos hempty, if_pos hempty]
    · rw [if_neg hempty, if_neg hempty]

/-! ## The last address -/

/-- If the group has connections, its last address is the address of one. -/
def ConnectionGroup.LastLive (g : ConnectionGroup) : Prop :=
  g.conns ≠ [] → ∃ c ∈ g.conns, addressesEqual c.addr g.lastAddr = true

/-- The input is no cleanup that is due and drops the connection at the last
    address of a group while another connection of the group stays. -/
def Op.KeepsLast (s : State) : Op → Prop
  | .cleanup t _ =>
    s.lastRun + cleanupPeriod ≤ t → ∀ g ∈ s.groups, ∀ c ∈ g.conns,
      addressesEqual c.addr g.lastAddr = true → connTimedOut c t = true →
        ∀ c' ∈ g.conns, connTimedOut c' t = true
  | _ => True

variable {s : State} {op : Op} {g g' : ConnectionGroup} {c : Connection} {t : ℤ}

/-- A group whose connections keep their addresses stays live, if its last address
    moves to a connection at most. -/
theorem ConnectionGroup.LastLive.of_map (h : g.LastLive) {f : Connection → Connection}
    (hf : ∀ c ∈ g.conns, (f c).addr = c.addr) (hconns : g'.conns = g.conns.map f)
    (hlast : g'.lastAddr = g.lastAddr ∨ ∃ c ∈ g.conns, addressesEqual c.addr g'.lastAddr = true) :
    g'.LastLive := by
  intro hne
  have hold : ∃ c ∈ g.conns, addressesEqual c.addr g'.lastAddr = true := by
    rcases hlast with hlast | hlast
    · rw [hlast]
      exact h fun hnil => hne (by rw [hconns, hnil, List.map_nil])
    · exact hlast
  obtain ⟨c, hc, ha⟩ := hold
  refine ⟨f c, ?_, by rw [hf c hc]; exact ha⟩
  rw [hconns]
  exact List.mem_map_of_mem hc

/-- A cleanup that keeps connections keeps the one at the last address. -/
theorem ConnectionGroup.LastLive.keptConns (h : g.LastLive)
    (hkeep : ∀ c ∈ g.conns, addressesEqual c.addr g.lastAddr = true → connTimedOut c t = true →
      ∀ c' ∈ g.conns, connTimedOut c' t = true) :
    ({ g with conns := keptConns t g.conns } : ConnectionGroup).LastLive := by
  intro hne
  obtain ⟨x, hx⟩ := List.exists_mem_of_ne_nil _ hne
  obtain ⟨c', hc', hstays, _⟩ := mem_keptConns.mp hx
  obtain ⟨c, hc, ha⟩ := h (List.ne_nil_of_mem hc')
  have hin : connTimedOut c t = false := by
    rw [← Bool.not_eq_true]
    intro hout
    rw [← connTimedOut_eq_false_iff, hkeep c hc ha hout c' hc'] at hstays
    exact absurd hstays (by decide)
  refine ⟨_, mem_keptConns.mpr ⟨c, hc, connTimedOut_eq_false_iff.mp hin, rfl⟩, ?_⟩
  rw [Connection.checkRecovery_addr]
  exact ha

theorem lastLive_step (h : Inv s) (hlive : ∀ g ∈ s.groups, g.LastLive) (hop : op.KeepsLast s)
    (hg' : g' ∈ (step s op).1.groups) : g'.LastLive := by
  cases step_groupStep h op hg' with
  | kept hg _ => exact hlive g' hg
  | created _ heq =>
    rw [heq]
    exact fun hne => absurd rfl hne
  | @joined g _ addr ts _ _ _ heq =>
    rw [heq]
    intro _
    exact ⟨.create s.nextRef addr ts, List.mem_append_right _ (List.mem_singleton_self _),
      addressesEqual_refl addr⟩
  | repeated _ hf heq =>
    obtain ⟨_, hc, ha⟩ := findByAddress_conn hf
    rw [heq]
    exact fun _ => ⟨_, hc, ha⟩
  | @received g c buf addr ts env _ _ hf hafter =>
    obtain ⟨hg, hc, ha⟩ := findByAddress_conn hf
    obtain ⟨f, hcore, hconns⟩ := @onPacket_conns g c buf addr ts env (h.wf g hg).connRefs hc
    refine (hlive g hg).of_map (f := f) ?_ (by rw [afterPacket_frame hafter]; exact hconns) ?_
    · intro x hx
      rw [(hcore x).addr, writeConn, Connection.received_ref]
      split_ifs with hxc
      · rw [Connection.received_addr, Keyed.eq_of_key_eq (h.wf g hg).connRefs hx hc hxc]
      · rfl
    · rw [afterPacket_lastAddr hafter]
      split_ifs
      · exact Or.inr ⟨c, hc, ha⟩
      · exact Or.inl rfl
  | @server g _ _ hg heq =>
    rw [heq]
    exact hlive g hg
  | reaped hg hdue heq =>
    rw [heq]
    exact (hlive _ hg).keptConns fun c hc => hop hdue _ hg c hc
  | @assessed g t ms hg heq =>
    obtain ⟨⟨f, hf, hconns⟩, hframe⟩ := assess_frame g t (ms g.ref)
    rw [← heq] at hconns hframe
    exact (hlive g hg).of_map (fun c _ => (hf c).addr) hconns (Or.inl (by rw [hframe]))

/-- After a cleanup that leaves a connection the one at the last address is kept,
    if the group is still live. -/
theorem keepsLast_of_lastLive (h : Inv s) {ret : ℕ → ℤ}
    (hlive : ∀ g ∈ (step s (.cleanup t ret)).1.groups, g.LastLive) :
    (Op.cleanup t ret).KeepsLast s := by
  intro hdue g hg c hc ha hout c' hc'
  by_contra hstays
  rw [Bool.not_eq_true] at hstays
  have hkept : (c'.checkRecovery t).1 ∈ keptConns t g.conns :=
    mem_keptConns.mpr ⟨c', hc', connTimedOut_eq_false_iff.mp hstays, rfl⟩
  have hmem : { g with conns := keptConns t g.conns } ∈ (step s (.cleanup t ret)).1.groups := by
    rw [step, cleanupInactive_groups, if_neg (not_lt.mpr hdue), List.mem_filterMap]
    refine ⟨g, hg, ?_⟩
    rw [reapGroup, if_neg]
    intro hempty
    rw [Bool.and_eq_true, List.isEmpty_iff] at hempty
    exact List.ne_nil_of_mem hkept hempty.1
  obtain ⟨x, hx, hxa⟩ := hlive _ hmem (List.ne_nil_of_mem hkept)
  obtain ⟨c₀, hc₀, hin, rfl⟩ := mem_keptConns.mp hx
  -- the endpoints of a group are distinct, so the kept connection is the dropped one
  rw [Connection.checkRecovery_addr] at hxa
  have heq : c₀ = c := by
    refine (h.wf g hg).conn_unique hc₀ hc ?_
    rw [addressesEqual_iff] at hxa ha ⊢
    exact hxa.trans ha.symm
  rw [heq, ← connTimedOut_eq_false_iff, hout] at hin
  exact absurd hin (by decide)

/-- What is no ACK or NAK goes to the last address. -/
theorem downstream_addr (h : Inv s) (hg : g ∈ s.groups) {env : SrtEnv} {a : SockaddrStorage}
    {buf : Bytes} {ret : ℤ}
    (he : .padSendto .downstream a buf ret ∈ (step s (.srtData g.ref env)).2) : a = g.lastAddr := by
  have hget := (Keyed.get_eq_some_iff h.refs).mpr ⟨hg, rfl⟩
  cases step_effects h (.srtData g.ref env) _ he with
  | downstream hget' _ _ =>
    rw [hget] at hget'
    rw [Option.some.inj hget']

/-- **The last address of a group.** In a run, every group with connections has
    the address of one of them as its last address, so that `handle_srt_data`
    sends nothing to an address the group has dropped, exactly when no cleanup of
    the run drops the connection at the last address and keeps another one. -/
theorem lastAddr_live_iff (ops : List Op) :
    (∀ before, before <+: ops → ∀ g ∈ (receiver.run State.init before).groups, g.conns ≠ [] →
      (∃ c ∈ g.conns, addressesEqual c.addr g.lastAddr = true) ∧
      ∀ env a buf ret, .padSendto .downstream a buf ret ∈
          (step (receiver.run State.init before) (.srtData g.ref env)).2 →
        ∃ c ∈ g.conns, addressesEqual c.addr a = true) ↔
      ∀ e ∈ receiver.hist State.init ops, e.input.KeepsLast e.pre := by
  constructor
  · intro hlive e he
    obtain ⟨⟨before, after, hops, hpre⟩, _⟩ := receiver.mem_hist he
    have hinv : Inv e.pre := reachable_inv (hist_spec ops e he).1
    cases hop : e.input with
    | cleanup t ret =>
      refine keepsLast_of_lastLive hinv fun g hg hne => ?_
      refine (hlive (before ++ [e.input]) ⟨after, by rw [hops, List.append_assoc]; rfl⟩ g ?_ hne).1
      rw [receiver.run_concat, ← hpre, hop]
      exact hg
    | packet | srtData | evict | limiterCleanup | quality | count => exact trivial
  · rintro hkeep before ⟨after, rfl⟩ g hg hne
    have hrun := receiver.run_invariant_if
      (P := fun s => Inv s ∧ ∀ g ∈ s.groups, g.LastLive) (C := fun s op => op.KeepsLast s)
      (fun s op h hop => ⟨(step_regStep h.1 op).inv h.1, fun _ => lastLive_step h.1 h.2 hop⟩)
      ⟨inv_init, fun g hg => absurd hg List.not_mem_nil⟩ before fun e he => hkeep e (by
        rw [receiver.hist_append]
        exact List.mem_append_left _ he)
    have hlast := hrun.2 g hg hne
    refine ⟨hlast, fun env a buf ret he => ?_⟩
    rw [downstream_addr hrun.1 hg he]
    exact hlast

/-- A group with two links: the first sends keepalives, the second joined last. -/
def twoLinks : List Op :=
  handshake default default (sampleAddr 1) (sampleAddr 2) 0 0 ++
    [.packet (reg2Frame (.ofHalves (SrtlaId.firstHalf default) default)) (sampleAddr 3) 0
      { (default : PacketEnv) with sendtoRet := 32 }]

/-- The group that `twoLinks` leaves. -/
def twoLinksGroup : ConnectionGroup :=
  { (handshakeGroup default default (sampleAddr 1) (sampleAddr 2) 0 0).addConnection
      (.create 2 (sampleAddr 3) 0) with lastAddr := sampleAddr 3 }

theorem run_twoLinks :
    (receiver.run State.init twoLinks).groups = [twoLinksGroup] ∧
      (receiver.run State.init twoLinks).nextRef = 3 ∧
      (receiver.run State.init twoLinks).limiter = ∅ ∧
      (receiver.run State.init twoLinks).lastRun = 0 := by
  obtain ⟨hgroups, hnext, hlim, hrun⟩ :=
    run_handshake default default (sampleAddr 1) (sampleAddr 2) 0 0
  have hinv : Inv (receiver.run State.init
      (handshake default default (sampleAddr 1) (sampleAddr 2) 0 0)) := reachable_inv ⟨_, rfl⟩
  rw [twoLinks, receiver.run_concat]
  generalize receiver.run State.init
    (handshake default default (sampleAddr 1) (sampleAddr 2) 0 0) = s at *
  obtain ⟨hgroups', hnext', hlim', hrun'⟩ := @step_reg2 s (sampleAddr 3) 0
    { (default : PacketEnv) with sendtoRet := 32 } (.ofHalves (SrtlaId.firstHalf default) default)
    hinv (handshakeGroup default default (sampleAddr 1) (sampleAddr 2) 0 0)
    (by rw [hgroups]; exact findGroupById_self _ [])
    (by rw [hgroups]; exact fun x hx _ => List.mem_singleton.mp hx)
    (fun c hc => by rw [List.mem_singleton.mp hc]; exact sampleAddr_ne (by decide)) (by decide) rfl
  have hstep : receiver.step s = step s := rfl
  rw [hstep, hgroups', hnext', hlim', hrun', hgroups, hnext]
  exact ⟨rfl, rfl, hlim, hrun⟩

/-- The keepalive of the first link and the cleanup that follows it. -/
def staleLast : List Op :=
  twoLinks ++ [.packet (putBe16 srtlaTypeKeepalive) (sampleAddr 2) 16 default,
    .cleanup 16 fun _ => 0]

/-- A handshake packet of the SRT server. -/
def serverHandshake : SrtEnv :=
  { (default : SrtEnv) with recv := some (putBe16 srtTypeHandshake ++ List.replicate 14 0) }

/-- The keepalive moves the first link's time and nothing else that matters here. -/
theorem twoLinks_keepalive :
    let g := (onPacket twoLinksGroup (.create 1 (sampleAddr 2) 0) (putBe16 srtlaTypeKeepalive)
      (sampleAddr 2) 16 default).group
    afterPacket twoLinksGroup (.create 1 (sampleAddr 2) 0) (putBe16 srtlaTypeKeepalive)
        (sampleAddr 2) 16 default = some g ∧
      g.ref = 0 ∧ g.lastAddr = sampleAddr 3 ∧
      ∃ c d, g.conns = [c, d] ∧ c.addr = sampleAddr 2 ∧ c.lastRcvd = 16 ∧ d.lastRcvd = 0 := by
  have hcarries : carriesData (putBe16 srtlaTypeKeepalive) = false := by decide
  obtain ⟨f, hf, hconns⟩ := @onPacket_conns twoLinksGroup (.create 1 (sampleAddr 2) 0)
    (putBe16 srtlaTypeKeepalive) (sampleAddr 2) 16 default (by decide) (List.mem_cons_self ..)
  refine ⟨?_, onPacket_ref _ _ _ _ 16 default, ?_, f (.create 1 (sampleAddr 2) 0),
    f (.create 2 (sampleAddr 3) 0), hconns, ?_, ?_, ?_⟩
  · rw [afterPacket, relays, hcarries, Bool.false_and, if_neg (by decide)]
  · rw [onPacket_frame, hcarries]
    rfl
  · rw [(hf _).addr, writeConn, Connection.received_ref, if_pos rfl, Connection.received_addr]
    rfl
  · rw [(hf _).lastRcvd, writeConn, Connection.received_ref, if_pos rfl,
      Connection.received_lastRcvd]
  · rw [(hf _).lastRcvd, writeConn, Connection.received_ref, if_neg (by decide)]
    rfl

/-- After the keepalive and the cleanup only the first link is left. -/
theorem run_staleLast :
    ∃ (g : ConnectionGroup) (c : Connection),
      (receiver.run State.init staleLast).groups = [{ g with conns := [c] }] ∧
      c.addr = sampleAddr 2 ∧ g.lastAddr = sampleAddr 3 := by
  obtain ⟨hgroups, _, _, hlast⟩ := run_twoLinks
  rw [staleLast, receiver.run_append, receiver.run_cons, receiver.run_cons, receiver.run_nil]
  generalize receiver.run State.init twoLinks = s at *
  have hfound : findByAddress s.groups (sampleAddr 2) =
      some (twoLinksGroup, some (.create 1 (sampleAddr 2) 0)) := by
    rw [hgroups]
    rfl
  -- the keepalive is received on the first link
  obtain ⟨hafter, href, haddr, c, d, hconns, hca, hct, hdt⟩ := twoLinks_keepalive
  generalize (onPacket twoLinksGroup _ _ _ _ _).group = g at *
  have hkeep : (processSinglePacket s (putBe16 srtlaTypeKeepalive) (sampleAddr 2) 16
      default).1.groups = [g] := by
    rw [processSinglePacket_conn (by decide) (by decide) hfound, hgroups, hafter, Keyed.update,
      Keyed.put, List.map_singleton, if_pos (by rw [href]; rfl)]
  have hframe : (processSinglePacket s (putBe16 srtlaTypeKeepalive) (sampleAddr 2) 16
      default).1.lastRun = 0 := by
    rw [(processSinglePacket_conn_frame (by decide) (by decide) hfound).2.1, hlast]
  -- the cleanup keeps that link and drops the other
  have hkept : keptConns 16 g.conns = [(c.checkRecovery 16).1] := by
    rw [keptConns, hconns, List.filter_cons_of_pos, List.filter_cons_of_neg]
    · rfl
    · rw [connTimedOut, hdt]
      decide
    · rw [connTimedOut, hct]
      decide
  refine ⟨g, (c.checkRecovery 16).1, ?_, (c.checkRecovery_addr 16).trans hca, haddr⟩
  show (cleanupInactive (processSinglePacket s _ _ _ _).1 16 _).1.groups = _
  rw [cleanupInactive_groups, hframe, if_neg (by decide), hkeep, List.filterMap_cons, reapGroup,
    hkept, if_neg (by simp)]
  rfl

/-- The second link has been dropped and the server's handshake goes to it, although
    the first link is up. -/
theorem lastAddr_dropped :
    let s := receiver.run State.init staleLast
    ∃ g ∈ s.groups, g.conns ≠ [] ∧ (∀ c ∈ g.conns, addressesEqual c.addr g.lastAddr = false) ∧
      .padSendto .downstream g.lastAddr (putBe16 srtTypeHandshake ++ List.replicate 14 0) 0 ∈
        (step s (.srtData g.ref serverHandshake)).2 := by
  obtain ⟨g, c, hgroups, hca, haddr⟩ := run_staleLast
  generalize receiver.run State.init staleLast = s at *
  have hmem : { g with conns := [c] } ∈ s.groups := by
    rw [hgroups]
    exact List.mem_singleton_self _
  have hget : Keyed.get ConnectionGroup.ref g.ref s.groups = some { g with conns := [c] } := by
    rw [hgroups]
    exact List.find?_cons_of_pos (by simp)
  refine ⟨_, hmem, List.cons_ne_nil _ _, ?_, ?_⟩
  · intro x hx
    rw [List.mem_singleton.mp hx, hca, haddr]
    exact sampleAddr_ne (by decide)
  · rw [step_srtData hget, handleSrtData_sent s _ rfl (by decide), if_neg (by decide),
      List.take_of_length_le (by decide)]
    exact List.mem_singleton_self _

/-! ## Broadcasts -/

/-- **No link is left out of a broadcast.** The limits on groups and connections
    hold in every reachable state. The array of `handle_srt_data` is therefore
    never too small: an SRT ACK or NAK of the server goes to every connection of
    the group once, and anything else to the last address. -/
theorem broadcast_complete (s : State) (h : Reachable s) :
    s.groups.length ≤ maxGroups ∧
    ∀ g ∈ s.groups, g.conns.length ≤ maxConnsPerGroup ∧
      (g.conns.Pairwise fun c c' => addressesEqual c.addr c'.addr = false) ∧
      ∀ env datagram, env.recv = some datagram → srtMinLen ≤ (datagram.take mtu).length →
        (step s (.srtData g.ref env)).2.flatMap Effect.copies =
          if isSrtAck (mem (datagram.take mtu)) (datagram.take mtu).length ∨
              isSrtNak (mem (datagram.take mtu)) (datagram.take mtu).length then
            g.conns.map fun c => (c.addr, datagram.take mtu)
          else [(g.lastAddr, datagram.take mtu)] := by
  have hinv := reachable_inv h
  refine ⟨hinv.table, fun g hg => ⟨(hinv.wf g hg).size, ?_, ?_⟩⟩
  · exact (hinv.wf g hg).addrs_apart
  · intro env datagram hrecv hlen
    rw [step_srtData ((Keyed.get_eq_some_iff hinv.refs).mpr ⟨hg, rfl⟩),
      handleSrtData_sent s g hrecv hlen, List.take_of_length_le (hinv.wf g hg).size]
    simp only [isBroadcast, Bool.or_eq_true]
    split_ifs with hb hempty
    · rw [List.isEmpty_iff.mp hempty]
      rfl
    · rw [List.flatMap_singleton, Effect.copies, List.map_map]
      rfl
    · rfl

/-- An SRT ACK of the server. -/
def serverAck : SrtEnv :=
  { (default : SrtEnv) with recv := some (putBe16 srtTypeAck ++ List.replicate 14 0) }

theorem broadcast_complete_two_links :
    (step (receiver.run State.init twoLinks) (.srtData 0 serverAck)).2.flatMap Effect.copies =
      [(sampleAddr 2, putBe16 srtTypeAck ++ List.replicate 14 0),
       (sampleAddr 3, putBe16 srtTypeAck ++ List.replicate 14 0)] := by
  have hmem : twoLinksGroup ∈ (receiver.run State.init twoLinks).groups := by
    rw [run_twoLinks.1]
    exact List.mem_singleton_self _
  have hsent := ((broadcast_complete (receiver.run State.init twoLinks) ⟨_, rfl⟩).2 _ hmem).2.2
    serverAck _ rfl (by decide)
  rw [List.take_of_length_le (by decide), if_pos (by decide)] at hsent
  exact hsent

end Srtla.Receiver
