import Srtla.Receiver.Ownership
import Srtla.Receiver.Sent

/-!
# The relay to the SRT server

The buffers handed to `send` on a group's SRT socket over a whole run.

* `relay_exact`: they are, in order and byte for byte, the datagrams that came
  from a connection of the group while it was registered and that were neither
  too short nor a keepalive, a registration or a suppressed NAK, less those for
  which the socket could not be opened. What a failed socket and each kind of
  send error do to the group is part of the statement.
-/

namespace Srtla.Receiver

open Lib

/-- The buffers that the effects hand to `send` for group `r`; `EffectOrigin.descriptor`
    says on which socket. -/
def sendsTo (r : ℕ) (es : List Effect) : List Bytes :=
  es.filterMap fun
    | .send g _ buf _ => if g = r then some buf else none
    | _ => none

/-- A datagram that the relay owes the SRT server of `g`: it comes from a
    registered connection of `g`, it is long enough, and it is neither a
    keepalive nor a registration nor a NAK that `should_accept_nak` rejects. -/
def Relayable (g : ConnectionGroup) (buf : Bytes) (addr : SockaddrStorage) (env : PacketEnv) : Bool :=
  (g.conns.any fun c => addressesEqual c.addr addr) && decide (srtMinLen ≤ buf.length) &&
    !isSrtlaKeepalive (mem buf) buf.length && !isSrtlaReg1 (mem buf) buf.length &&
    !isSrtlaReg2 (mem buf) buf.length && nakAccepted g buf env

/-- What one step owes to the socket of group `r`: a relayable datagram, if the
    socket exists or can be opened. -/
def relayed (r : ℕ) (e : Machine.Event State Op Effect) : List Bytes :=
  match e.input, Keyed.get ConnectionGroup.ref r e.pre.groups with
  | .packet buf addr _ env, some g =>
    if Relayable g buf addr env && g.getsSocket env.forward.socket then [buf] else []
  | _, _ => []

variable {s : State}

/-! ## Which effects are sends -/

theorem sendsTo_append (r : ℕ) (es es' : List Effect) :
    sendsTo r (es ++ es') = sendsTo r es ++ sendsTo r es' := List.filterMap_append

/-- Effects on the SRTLA socket are no sends. -/
def Effect.onSrtla : Effect → Bool
  | .send .. => false
  | _ => true

theorem sendsTo_of_onSrtla (r : ℕ) {es : List Effect} (h : ∀ e ∈ es, e.onSrtla = true) :
    sendsTo r es = [] := by
  apply List.filterMap_eq_nil_iff.mpr
  intro e he
  have := h e he
  cases e with
  | send g sock buf ret => cases this
  | padSendto site addr buf ret => rfl
  | sendmmsg addrs buf ret => rfl

/-- A send is made on the socket of the group. -/
theorem EffectOrigin.descriptor {op : Op} {r : ℕ} {sock : ℤ} {buf : Bytes} {ret : ℤ}
    (h : EffectOrigin s op (.send r sock buf ret)) :
    ∃ g ∈ s.groups, g.ref = r ∧ ∃ addr ts env, op = .packet buf addr ts env ∧
      sock = (g.withSocket env.forward.socket).srtSock := by
  cases h with
  | forward _ _ hfound => exact ⟨_, (findByAddress_conn hfound).1, rfl, _, _, _, rfl, rfl⟩

theorem onPacket_onSrtla {g : ConnectionGroup} {c : Connection}
    (hnodup : (g.conns.map Connection.ref).Nodup) (hc : c ∈ g.conns) (buf : Bytes)
    (addr : SockaddrStorage) (ts : ℤ) (env : PacketEnv) :
    ∀ e ∈ (onPacket g c buf addr ts env).effects, e.onSrtla = true := by
  rw [onPacket_effects hnodup hc, registerPacket_effects]
  intro e he
  split_ifs at he
  · rw [List.mem_singleton.mp he]; rfl
  · rw [List.mem_singleton.mp he]; rfl
  · exact absurd he List.not_mem_nil
  · exact absurd he List.not_mem_nil

/-- Only a packet that is no registration is forwarded. -/
theorem EffectOrigin.onSrtla {op : Op} {e : Effect} (h : EffectOrigin s op e)
    (hop : ∀ buf addr ts env, op = .packet buf addr ts env →
      isSrtlaReg1 (mem buf) buf.length = true ∨ isSrtlaReg2 (mem buf) buf.length = true) :
    e.onSrtla = true := by
  cases h with
  | forward h1 h2 =>
    rcases hop _ _ _ _ rfl with h | h
    · rw [h1] at h; cases h
    · rw [h2] at h; cases h
  | reply | reg2 | ack | echo | downstream | broadcast | keepalive => rfl

/-! ## One step -/

variable {g : ConnectionGroup} {buf : Bytes} {addr : SockaddrStorage} {ts : ℤ} {env : PacketEnv}

/-- A relayable datagram is resolved to its group, and `process_single_packet`
    goes on to forward it. -/
theorem Relayable.found (h : Inv s) (hg : g ∈ s.groups) (hr : Relayable g buf addr env = true) :
    isSrtlaReg1 (mem buf) buf.length = false ∧ isSrtlaReg2 (mem buf) buf.length = false ∧
      relays g buf env = true ∧
      ∃ c ∈ g.conns, addressesEqual c.addr addr = true ∧
        findByAddress s.groups addr = some (g, some c) := by
  simp only [Relayable, Bool.and_eq_true, Bool.not_eq_true', decide_eq_true_eq,
    List.any_eq_true] at hr
  obtain ⟨⟨⟨⟨⟨⟨c, hc, ha⟩, hlen⟩, hk⟩, h1⟩, h2⟩, hn⟩ := hr
  have hfind := findByAddress_owner h (List.Perm.refl _) hg (Or.inl ⟨c, hc, ha⟩)
  rw [(find_conn_eq_some_iff (h.wf g hg)).mpr ⟨hc, ha⟩] at hfind
  refine ⟨h1, h2, ?_, c, hc, ha, hfind⟩
  simp [relays, carriesData, hk, hlen, hn]

/-- For a datagram on a connection the filter of the relay is `relays`. -/
theorem relayable_eq_relays {c : Connection} (h1 : isSrtlaReg1 (mem buf) buf.length = false)
    (h2 : isSrtlaReg2 (mem buf) buf.length = false) (hc : c ∈ g.conns)
    (ha : addressesEqual c.addr addr = true) : Relayable g buf addr env = relays g buf env := by
  have hany : (g.conns.any fun c => addressesEqual c.addr addr) = true :=
    List.any_eq_true.mpr ⟨c, hc, ha⟩
  unfold Relayable relays carriesData
  rw [hany, h1, h2]
  cases isSrtlaKeepalive (mem buf) buf.length <;> simp

/-- A registration is owed to nobody. -/
theorem relayed_of_reg (h : isSrtlaReg1 (mem buf) buf.length = true ∨
    isSrtlaReg2 (mem buf) buf.length = true) (r : ℕ) (outs : List Effect) :
    relayed r ⟨s, .packet buf addr ts env, outs⟩ = [] := by
  unfold relayed
  dsimp only
  cases Keyed.get ConnectionGroup.ref r s.groups with
  | none => rfl
  | some g =>
    have hr : Relayable g buf addr env = false := by
      rcases h with h | h <;> simp [Relayable, h]
    simp [hr]

theorem relayed_of_relayable {r : ℕ} (hget : Keyed.get ConnectionGroup.ref r s.groups = some g)
    (hr : Relayable g buf addr env = true) (outs : List Effect) :
    relayed r ⟨s, .packet buf addr ts env, outs⟩ =
      if g.getsSocket env.forward.socket then [buf] else [] := by
  unfold relayed
  dsimp only
  rw [hget]
  dsimp only
  rw [hr, Bool.true_and]

/-- The group of the connection is the only one that can owe the datagram. -/
theorem not_relayable {g : ConnectionGroup} (h : Inv s) (hg : g ∈ s.groups)
    (hne : ∀ c, findByAddress s.groups addr ≠ some (g, some c)) :
    Relayable g buf addr env = false := by
  rw [← Bool.not_eq_true]
  intro hr
  obtain ⟨_, _, _, c, _, _, hf⟩ := Relayable.found h hg hr
  exact hne c hf

theorem sendsTo_packet_conn {g : ConnectionGroup} {c : Connection} (h : Inv s)
    (h1 : isSrtlaReg1 (mem buf) buf.length = false) (h2 : isSrtlaReg2 (mem buf) buf.length = false)
    (hf : findByAddress s.groups addr = some (g, some c)) (r : ℕ) (outs : List Effect) :
    sendsTo r (processSinglePacket s buf addr ts env).2 =
      relayed r ⟨s, .packet buf addr ts env, outs⟩ := by
  obtain ⟨hg, hc, ha⟩ := findByAddress_conn hf
  have hon := onPacket_onSrtla (h.wf g hg).connRefs hc buf addr ts env
  unfold relayed
  rw [processSinglePacket_conn_effects h1 h2 hf, sendsTo_append, sendsTo_of_onSrtla r hon,
    List.nil_append]
  dsimp only
  cases hget : Keyed.get ConnectionGroup.ref r s.groups with
  | none =>
    have hne : g.ref ≠ r := Keyed.get_eq_none_iff.mp hget g hg
    split_ifs <;> simp [sendsTo, hne]
  | some g' =>
    obtain ⟨hg', hr⟩ := (Keyed.get_eq_some_iff h.refs).mp hget
    dsimp only
    by_cases hgr : g.ref = r
    · have : g = g' := Keyed.eq_of_key_eq h.refs hg hg' (hgr.trans hr.symm)
      subst this
      rw [relayable_eq_relays h1 h2 hc ha]
      split_ifs <;> simp [sendsTo, hgr]
    · have hne : ∀ c, findByAddress s.groups addr ≠ some (g', some c) := by
        intro c' hf'
        rw [hf] at hf'
        cases hf'
        exact hgr hr
      rw [not_relayable h hg' hne]
      split_ifs <;> simp_all [sendsTo]

/-- A packet hands to the socket of `r` what it owes to it. -/
theorem sendsTo_packet (h : Inv s) (r : ℕ) :
    sendsTo r (step s (.packet buf addr ts env)).2 =
      relayed r ⟨s, .packet buf addr ts env, (step s (.packet buf addr ts env)).2⟩ := by
  cases packetCase s buf addr with
  | reg1 h1 =>
    rw [relayed_of_reg (Or.inl h1)]
    exact sendsTo_of_onSrtla r fun e he => (step_effects h _ e he).onSrtla
      fun _ _ _ _ heq => by cases heq; exact Or.inl h1
  | reg2 h2 =>
    rw [relayed_of_reg (Or.inr h2)]
    exact sendsTo_of_onSrtla r fun e he => (step_effects h _ e he).onSrtla
      fun _ _ _ _ heq => by cases heq; exact Or.inr h2
  | conn h1 h2 hf => exact sendsTo_packet_conn h h1 h2 hf r _
  | stranger h1 h2 hf =>
    show sendsTo r (processSinglePacket s buf addr ts env).2 = _
    rw [processSinglePacket_stranger h1 h2 hf, relayed]
    dsimp only
    cases hget : Keyed.get ConnectionGroup.ref r s.groups with
    | none => rfl
    | some g' =>
      dsimp only
      rw [not_relayable h (Keyed.get_mem hget) (hf g')]
      rfl

/-- So does every other input: it owes nothing. -/
theorem sendsTo_step (h : Inv s) (r : ℕ) (op : Op) :
    sendsTo r (step s op).2 = relayed r ⟨s, op, (step s op).2⟩ := by
  cases op with
  | packet buf addr ts env => exact sendsTo_packet h r
  | srtData | evict | cleanup | limiterCleanup | quality | count =>
    exact sendsTo_of_onSrtla r fun e he => (step_effects h _ e he).onSrtla
      fun _ _ _ _ heq => by cases heq

theorem survives_iff_of_getsSocket (h : g.getsSocket env.forward.socket = true) :
    g.survives buf env.forward = true ↔ env.forward.sendRet = buf.length ∨
      env.forward.sendRet < 0 ∧ isTransientForwardError env.forward.sendErrno = true := by
  unfold ConnectionGroup.survives ForwardEnv.fatal
  rw [h]
  by_cases hret : env.forward.sendRet = buf.length <;> simp [hret]

/-- What a relayable datagram does to its group: it goes on exactly when it has
    or gets a socket and the send error is not fatal. -/
theorem relayable_ends (h : Inv s) (hg : g ∈ s.groups) (hr : Relayable g buf addr env = true) :
    (∃ g' ∈ (step s (.packet buf addr ts env)).1.groups, g'.ref = g.ref) ↔
      g.survives buf env.forward = true := by
  obtain ⟨h1, h2, hrel, c, hc, ha, hf⟩ := Relayable.found h hg hr
  show (∃ g' ∈ (processSinglePacket s buf addr ts env).1.groups, g'.ref = g.ref) ↔ _
  rw [processSinglePacket_conn h1 h2 hf]
  unfold afterPacket
  rw [if_pos hrel]
  by_cases hsurv : g.survives buf env.forward = true
  · rw [if_pos hsurv]
    simp only [hsurv, iff_true]
    have href : ((onPacket g c buf addr ts env).group.withSocket env.forward.socket).ref = g.ref := by
      rw [ConnectionGroup.withSocket_ref, onPacket_ref]
    refine ⟨_, Keyed.mem_put.mpr (Or.inl ⟨rfl, ?_⟩), href⟩
    rw [href]
    exact List.mem_map_of_mem hg
  · rw [if_neg hsurv]
    refine iff_of_false ?_ hsurv
    rintro ⟨g', hg', href⟩
    exact (Keyed.mem_remove.mp hg').2 href

/-- A datagram on a connection of `g` reaches no socket but that of `g`. -/
theorem relayed_of_ne (h : Inv s) (hg : g ∈ s.groups) {c : Connection} (hc : c ∈ g.conns)
    (ha : addressesEqual c.addr addr = true) {r : ℕ} (hr : r ≠ g.ref) (outs : List Effect) :
    relayed r ⟨s, .packet buf addr ts env, outs⟩ = [] := by
  unfold relayed
  dsimp only
  cases hget : Keyed.get ConnectionGroup.ref r s.groups with
  | none => rfl
  | some g' =>
    dsimp only
    rw [if_neg]
    intro hrel
    obtain ⟨_, _, _, c', hc', ha', _⟩ :=
      Relayable.found h (Keyed.get_mem hget) (Bool.and_eq_true_iff.mp hrel).1
    have : g' = g := h.owner_unique (Keyed.get_mem hget) hg (Or.inl ⟨c', hc', ha'⟩) (Or.inl ⟨c, hc, ha⟩)
    exact hr (this ▸ (Keyed.get_key hget).symm)

/-! ## Whole runs -/

theorem sendsTo_outs (ops : List Op) (r : ℕ) :
    sendsTo r (receiver.outs State.init ops) =
      (receiver.hist State.init ops).flatMap (relayed r) := by
  unfold Machine.outs sendsTo
  rw [List.filterMap_flatMap]
  apply List.flatMap_congr
  intro e he
  obtain ⟨hs, houts⟩ := hist_spec ops e he
  have := sendsTo_step (reachable_inv hs) r e.input
  rw [← houts] at this
  exact this

/-- **The relay is exact.** In every run the buffers handed to `send` on the
    socket of a group are, in order, the relayable datagrams of that group, each
    once. A relayable datagram whose socket cannot be opened is not handed over
    and ends the group; one that is handed over ends the group unless it is sent
    or the error is transient. A datagram on a connection of one group reaches no
    socket of another: the descriptor is the one that its group has, or the one that
    `ensure_group_socket` has just opened for it. -/
theorem relay_exact (ops : List Op) :
    (∀ r, sendsTo r (receiver.outs State.init ops) =
      (receiver.hist State.init ops).flatMap (relayed r)) ∧
    (∀ e ∈ receiver.hist State.init ops, ∀ r sock buf ret, .send r sock buf ret ∈ e.outs →
      ∃ g ∈ e.pre.groups, g.ref = r ∧ ∃ addr ts env, e.input = .packet buf addr ts env ∧
        sock = (g.withSocket env.forward.socket).srtSock) ∧
    ∀ e ∈ receiver.hist State.init ops, ∀ g ∈ e.pre.groups, ∀ buf addr ts env,
      e.input = .packet buf addr ts env →
      (Relayable g buf addr env = true →
        let registered := ∃ g' ∈ (step e.pre e.input).1.groups, g'.ref = g.ref
        if g.getsSocket env.forward.socket then
          sendsTo g.ref e.outs = [buf] ∧
            (registered ↔ env.forward.sendRet = buf.length ∨
              env.forward.sendRet < 0 ∧ isTransientForwardError env.forward.sendErrno = true)
        else sendsTo g.ref e.outs = [] ∧ ¬ registered) ∧
      ((∃ c ∈ g.conns, addressesEqual c.addr addr = true) →
        ∀ r, r ≠ g.ref → sendsTo r e.outs = []) := by
  refine ⟨sendsTo_outs ops, fun e he r sock buf ret hsend => ?_, ?_⟩
  · obtain ⟨hs, houts⟩ := hist_spec ops e he
    rw [houts] at hsend
    exact (step_effects (reachable_inv hs) e.input _ hsend).descriptor
  rintro ⟨s, op, outs⟩ he g hg buf addr ts env hop
  obtain ⟨hs, houts⟩ := hist_spec ops _ he
  dsimp only at hs houts hop hg ⊢
  subst hop houts
  have hinv := reachable_inv hs
  constructor
  · intro hr
    have hget : Keyed.get ConnectionGroup.ref g.ref s.groups = some g :=
      (Keyed.get_eq_some_iff hinv.refs).mpr ⟨hg, rfl⟩
    have hends := @relayable_ends s g buf addr ts env hinv hg hr
    rw [sendsTo_packet hinv, hends, relayed_of_relayable hget hr]
    split_ifs with hsock
    · exact ⟨rfl, survives_iff_of_getsSocket hsock⟩
    · exact ⟨rfl, by simp [ConnectionGroup.survives, hsock]⟩
  · rintro ⟨c, hc, ha⟩ r hr
    rw [sendsTo_packet hinv]
    exact relayed_of_ne hinv hg hc ha hr _

theorem relay_exact_stream :
    sendsTo 0 (receiver.outs State.init (streamOps 1)) = [List.replicate 16 0] := by
  have hreg : (receiver.hist State.init
      (handshake default default (sampleAddr 1) (sampleAddr 2) 0 0)).flatMap (relayed 0) = [] := by
    simp only [handshake, Machine.hist_cons, Machine.hist_nil, List.flatMap_cons, List.flatMap_nil,
      relayed_of_reg (Or.inl (isSrtlaReg1_reg1Frame _)),
      relayed_of_reg (Or.inr (isSrtlaReg2_reg2Frame _)), List.append_nil]
  have hgroups := (run_handshake default default (sampleAddr 1) (sampleAddr 2) 0 0).1
  set s := receiver.run State.init (handshake default default (sampleAddr 1) (sampleAddr 2) 0 0) with hs
  set g := handshakeGroup default default (sampleAddr 1) (sampleAddr 2) 0 0
  have hget : Keyed.get ConnectionGroup.ref 0 s.groups = some g := by
    rw [hgroups]
    rfl
  have hrel : Relayable g (List.replicate 16 0) (sampleAddr 2) streamEnv = true := by decide +kernel
  have hsock : g.getsSocket streamEnv.forward.socket = true := by decide +kernel
  rw [(relay_exact (streamOps 1)).1, streamOps, Machine.hist_append, List.flatMap_append, hreg, ← hs,
    Machine.hist_cons, Machine.hist_nil, List.flatMap_singleton, relayed_of_relayable hget hrel,
    if_pos hsock, List.nil_append]

end Srtla.Receiver
