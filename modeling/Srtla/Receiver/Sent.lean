import Srtla.Receiver.Registry

/-!
# What the receiver sends, and why

Every buffer that a step hands to the system has one of eight origins.

* `step_effects`: the effects of a step, each with the input and the registered
  objects it comes from.
-/

namespace Srtla.Receiver

open Lib

/-- Why a step on `op` in state `s` has an effect. -/
inductive EffectOrigin (s : State) : Op → Effect → Prop
  /-- A REG1 was refused, or a REG2 answered. -/
  | reply {buf : Bytes} {addr : SockaddrStorage} {ts : ℤ} {env : PacketEnv} {type : ℕ}
      (reg : isSrtlaReg1 (mem buf) buf.length = true ∨ isSrtlaReg2 (mem buf) buf.length = true)
      (types : type = srtlaTypeRegErr ∨ type = srtlaTypeRegNgp ∨ type = srtlaTypeReg3) :
      EffectOrigin s (.packet buf addr ts env) (regReply type addr env)
  /-- A REG1 was answered with the id of a new group, which is registered if the
      answer was sent. -/
  | reg2 {buf : Bytes} {addr : SockaddrStorage} {ts : ℤ} {env : PacketEnv}
      (reg1 : isSrtlaReg1 (mem buf) buf.length = true)
      (created : env.sendtoRet = srtlaTypeReg2Len →
        newGroup s addr (mem buf) ts env ∈ (step s (.packet buf addr ts env)).1.groups) :
      EffectOrigin s (.packet buf addr ts env)
        (.padSendto .regReply addr (reg2Frame (newGroup s addr (mem buf) ts env).id) env.sendtoRet)
  /-- The log of a connection is full. -/
  | ack {buf : Bytes} {addr : SockaddrStorage} {ts : ℤ} {env : PacketEnv} {g : ConnectionGroup}
      {c : Connection} (data : isDataPacket buf = true)
      (found : findByAddress s.groups addr = some (g, some c))
      (full : ((c.touch ts).1.logPacket (getSrtSn (mem buf) buf.length)).recvIdx = recvAckInt) :
      EffectOrigin s (.packet buf addr ts env)
        (.padSendto (.ack c.ref) c.addr
          ((c.touch ts).1.logPacket (getSrtSn (mem buf) buf.length)).ackFrame env.sendtoRet)
  /-- A keepalive is echoed. -/
  | echo {buf : Bytes} {addr : SockaddrStorage} {ts : ℤ} {env : PacketEnv}
      (keepalive : isSrtlaKeepalive (mem buf) buf.length = true) :
      EffectOrigin s (.packet buf addr ts env) (.padSendto .keepaliveEcho addr buf env.sendtoRet)
  /-- A packet is forwarded to the SRT server, on the socket the group has or gets. -/
  | forward {buf : Bytes} {addr : SockaddrStorage} {ts : ℤ} {env : PacketEnv} {g : ConnectionGroup}
      {c : Connection} (reg1 : isSrtlaReg1 (mem buf) buf.length = false)
      (reg2 : isSrtlaReg2 (mem buf) buf.length = false)
      (found : findByAddress s.groups addr = some (g, some c)) :
      EffectOrigin s (.packet buf addr ts env)
        (.send g.ref (g.withSocket env.forward.socket).srtSock buf env.forward.sendRet)
  /-- A packet of the SRT server goes to the client's last address. -/
  | downstream {ref : ℕ} {env : SrtEnv} {g : ConnectionGroup} {datagram : Bytes}
      (get : Keyed.get ConnectionGroup.ref ref s.groups = some g) (recv : env.recv = some datagram)
      (len : srtMinLen ≤ (datagram.take mtu).length) :
      EffectOrigin s (.srtData ref env)
        (.padSendto .downstream g.lastAddr (datagram.take mtu) env.sendtoRet)
  /-- An SRT ACK or NAK of the server goes to every connection. -/
  | broadcast {ref : ℕ} {env : SrtEnv} {g : ConnectionGroup} {datagram : Bytes}
      (get : Keyed.get ConnectionGroup.ref ref s.groups = some g) (recv : env.recv = some datagram)
      (len : srtMinLen ≤ (datagram.take mtu).length) :
      EffectOrigin s (.srtData ref env)
        (.sendmmsg ((g.conns.take maxConnsPerGroup).map Connection.addr) (datagram.take mtu)
          env.sendmmsgRet)
  /-- A connection that recovers is sent a keepalive. -/
  | keepalive {t : ℤ} {ret : ℕ → ℤ} {g : ConnectionGroup} {c : Connection} (group : g ∈ s.groups)
      (conn : c ∈ g.conns) :
      EffectOrigin s (.cleanup t ret)
        (.padSendto .keepalive c.addr (putBe16 srtlaTypeKeepalive) (ret c.ref))

variable {s : State} {buf : Bytes} {addr : SockaddrStorage} {ts : ℤ} {env : PacketEnv}

theorem registerGroup_effects (h1 : isSrtlaReg1 (mem buf) buf.length = true) :
    ∀ e ∈ (registerGroup s addr (mem buf) ts env).2.2,
      EffectOrigin s (.packet buf addr ts env) e := by
  obtain ⟨_, hcase⟩ := registerGroup_cases s addr (mem buf) ts env
  intro e he
  cases ho : regGroupOutcome s addr ts env with
  | throttled | tableFull | dupAddr =>
    rw [ho] at hcase
    rw [hcase.2.2, List.mem_singleton] at he
    rw [he]
    exact .reply (Or.inl h1) (Or.inl rfl)
  | sendError =>
    rw [ho] at hcase
    rw [hcase.2.2, List.mem_singleton] at he
    rw [he]
    refine .reg2 h1 fun hret => ?_
    -- the send failed, so it did not return the length of the frame
    unfold regGroupOutcome at ho
    rw [hret] at ho
    split_ifs at ho with _ _ _ hfail
    exact absurd rfl hfail
  | registered =>
    rw [ho] at hcase
    rw [hcase.2.2.2, List.mem_singleton] at he
    rw [he]
    refine .reg2 h1 fun _ => ?_
    rw [step, processSinglePacket_reg1 h1, hcase.2.1]
    exact List.mem_append_right _ (List.mem_singleton_self _)

theorem registerConnection_effects (h : Inv s) (h2 : isSrtlaReg2 (mem buf) buf.length = true) :
    ∀ e ∈ (registerConnection s addr (mem buf) ts env).2.2,
      EffectOrigin s (.packet buf addr ts env) e := by
  intro e he
  rcases registerConnection_cases s h.refs addr (mem buf) ts env with
    ⟨_, _, type, href, heff⟩ | ⟨g, _, _, _, _, heff, _⟩
  · rw [heff, List.mem_singleton] at he
    rw [he]
    refine .reply (Or.inr h2) ?_
    cases href with
    | noGroup => exact Or.inr (Or.inl rfl)
    | groupMismatch => exact Or.inl rfl
    | maxConns => exact Or.inl rfl
    | sendError => exact Or.inr (Or.inr rfl)
  · rw [heff, List.mem_singleton] at he
    rw [he]
    exact .reply (Or.inr h2) (Or.inr (Or.inr rfl))

theorem processSinglePacket_effects (h : Inv s) :
    ∀ e ∈ (processSinglePacket s buf addr ts env).2, EffectOrigin s (.packet buf addr ts env) e := by
  cases packetCase s buf addr with
  | reg1 h1 =>
    rw [processSinglePacket_reg1 h1]
    exact registerGroup_effects h1
  | reg2 h2 =>
    rw [processSinglePacket_reg2 h2]
    exact registerConnection_effects h h2
  | @conn g c h1 h2 hf =>
    obtain ⟨hg, hc, _⟩ := findByAddress_conn hf
    intro e he
    rw [processSinglePacket_conn_effects h1 h2 hf, onPacket_effects (h.wf g hg).connRefs hc,
      registerPacket_effects] at he
    rcases List.mem_append.mp he with he | he
    · split_ifs at he with hk hd hfull
      · rw [List.mem_singleton.mp he]
        exact .echo hk
      · rw [List.mem_singleton.mp he, c.touch_ref, c.touch_addr]
        exact .ack hd hf hfull
      · exact absurd he List.not_mem_nil
      · exact absurd he List.not_mem_nil
    · split_ifs at he
      · rw [List.mem_singleton.mp he]
        exact .forward h1 h2 hf
      · exact absurd he List.not_mem_nil
  | stranger h1 h2 hf =>
    rw [processSinglePacket_stranger h1 h2 hf]
    exact fun e he => absurd he List.not_mem_nil

theorem handleSrtData_effects {ref : ℕ} {env : SrtEnv} {g : ConnectionGroup}
    (hget : Keyed.get ConnectionGroup.ref ref s.groups = some g) :
    ∀ e ∈ (handleSrtData s g env).2, EffectOrigin s (.srtData ref env) e := by
  intro e he
  unfold handleSrtData at he
  cases hrecv : env.recv with
  | none =>
    rw [hrecv] at he
    exact absurd he List.not_mem_nil
  | some datagram =>
    rw [hrecv] at he
    have hrelay : srtMinLen ≤ (datagram.take mtu).length →
        ∀ e ∈ (relayDownstream (g.noteAck (datagram.take mtu)) (datagram.take mtu) env).1,
          EffectOrigin s (.srtData ref env) e := by
      intro hlen e he
      rw [g.noteAck_eq, relayDownstream] at he
      by_cases hb : isBroadcast (datagram.take mtu) = true
      · rw [if_pos hb] at he
        rw [List.mem_singleton.mp he]
        exact @EffectOrigin.broadcast s ref env g datagram hget hrecv hlen
      · rw [if_neg hb] at he
        rw [List.mem_singleton.mp he]
        exact @EffectOrigin.downstream s ref env g datagram hget hrecv hlen
    dsimp only [handleSrtPacket] at he
    split_ifs at he with hshort
    all_goals first
      | exact absurd he List.not_mem_nil
      | exact hrelay (not_lt.mp hshort) e he

/-- **Everything a step sends has an origin.** -/
theorem step_effects (h : Inv s) (op : Op) : ∀ e ∈ (step s op).2, EffectOrigin s op e := by
  intro e he
  cases op with
  | packet buf addr ts env => exact processSinglePacket_effects h e he
  | srtData ref env =>
    cases hget : Keyed.get ConnectionGroup.ref ref s.groups with
    | none =>
      simp only [step, hget] at he
      exact absurd he List.not_mem_nil
    | some g =>
      rw [step_srtData hget] at he
      exact handleSrtData_effects hget e he
  | cleanup t ret =>
    rw [step, cleanupInactive] at he
    split_ifs at he
    · exact absurd he List.not_mem_nil
    · dsimp only at he
      rw [cleanupGroups_effects] at he
      obtain ⟨g, hg, he⟩ := List.mem_flatMap.mp he
      obtain ⟨c, hc, rfl⟩ := List.mem_map.mp he
      exact .keepalive hg (List.mem_filter.mp hc).1
  | evict | limiterCleanup | quality | count => exact absurd he List.not_mem_nil

end Srtla.Receiver
