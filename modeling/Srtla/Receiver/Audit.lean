import Srtla.Receiver.Balance

/-!
# The counters and the socket calls agree

The handlers call `metrics::inc` beside every buffer they hand to the system, on
the branch that the result of the call selects. `Effect.charges` says what a call
with a given result is to be counted as. Reading the counters of a run back as the
calls that were made needs every branch of every handler to count the right thing,
once, and nothing else to count it.

**Deviation.** A failed `send` is charged as one thing, although the code counts
it as dropped or as an error by its `errno`, which an `Effect` does not keep.
REG_ERR replies are charged as one thing as well; the code counts five reasons.

Results:
* `step_charged`: the `metrics::inc` calls of an input are, in order, the charges of
  its socket calls, apart from counters that count no socket call.
* `calls_counted`: in every run the counters of an account read as its calls.
-/

namespace Srtla.Receiver

open Lib

/-! ## Accounts -/

/-- What the socket calls of the receiver are counted as. -/
inductive Account
  /-- Packets handed to the SRT server, and their bytes. -/
  | forwarded | forwardedBytes
  /-- Packets that `send` did not take. -/
  | unforwarded
  /-- SRTLA ACKs, keepalives and server packets that were not sent. -/
  | acksLost | keepalivesLost | downstreamLost
  /-- REG2 replies that were sent, and that were not. -/
  | groupReplies | groupRepliesLost
  /-- REG3 replies that were sent, and that were not. -/
  | connReplies | connRepliesLost
  /-- REG_NGP and REG_ERR replies. -/
  | unknownGroup | refusals
deriving DecidableEq

/-- The account a counter belongs to, if it counts socket calls. -/
def Counter.account : Counter → Option Account
  | .forwardedPackets => some .forwarded
  | .forwardedBytes => some .forwardedBytes
  | .forwardDropped | .forwardErrors => some .unforwarded
  | .sendErrAck => some .acksLost
  | .sendErrKeepalive => some .keepalivesLost
  | .sendErrDownstream => some .downstreamLost
  | .groupRegistrations => some .groupReplies
  | .groupRegSendError => some .groupRepliesLost
  | .connRegistrations => some .connReplies
  | .connRegSendError => some .connRepliesLost
  | .connRegNoGroup => some .unknownGroup
  | .groupRegThrottled | .groupRegTableFull | .groupRegDupAddr | .connRegGroupMismatch
  | .connRegMaxConns => some .refusals
  | _ => none

/-- The counters of an account, added up. -/
def Account.read (m : Metrics) : Account → ℕ
  | .forwarded => m .forwardedPackets
  | .forwardedBytes => m .forwardedBytes
  | .unforwarded => m .forwardDropped + m .forwardErrors
  | .acksLost => m .sendErrAck
  | .keepalivesLost => m .sendErrKeepalive
  | .downstreamLost => m .sendErrDownstream
  | .groupReplies => m .groupRegistrations
  | .groupRepliesLost => m .groupRegSendError
  | .connReplies => m .connRegistrations
  | .connRepliesLost => m .connRegSendError
  | .unknownGroup => m .connRegNoGroup
  | .refusals => m .groupRegThrottled + m .groupRegTableFull + m .groupRegDupAddr +
      m .connRegGroupMismatch + m .connRegMaxConns

/-- `pad_sendto` returned the length of its buffer. -/
def padSent (buf : Bytes) (ret : ℤ) : Bool := decide (padRet buf.length ret = buf.length)

/-- What a registration reply of a type is to be counted as. -/
def replyAccount (type : ℕ) (sent : Bool) : Account :=
  if type = srtlaTypeReg2 then if sent then .groupReplies else .groupRepliesLost
  else if type = srtlaTypeReg3 then if sent then .connReplies else .connRepliesLost
  else if type = srtlaTypeRegNgp then .unknownGroup
  else .refusals

/-- What a socket call is to be counted as. -/
def Effect.charges : Effect → List (Account × ℕ)
  | .send _ _ buf ret =>
    if ret = buf.length then [(.forwarded, 1), (.forwardedBytes, buf.length)] else [(.unforwarded, 1)]
  | .sendmmsg addrs _ ret =>
    if ret < addrs.length then [(.downstreamLost, addrs.length - ret.toNat)] else []
  | .padSendto .downstream _ buf ret => if padSent buf ret then [] else [(.downstreamLost, 1)]
  | .padSendto (.ack _) _ buf ret => if padSent buf ret then [] else [(.acksLost, 1)]
  | .padSendto .keepaliveEcho _ buf ret | .padSendto .keepalive _ buf ret =>
    if padSent buf ret then [] else [(.keepalivesLost, 1)]
  | .padSendto .regReply _ buf ret => [(replyAccount (getSrtType (mem buf) buf.length) (padSent buf ret), 1)]

/-- The calls of `metrics::inc` that count socket calls. -/
def Incs.charges (is : Incs) : List (Account × ℕ) :=
  is.filterMap fun p => p.1.account.map fun k => (k, p.2)

/-- What is charged to an account. -/
def Account.total (k : Account) (charges : List (Account × ℕ)) : ℕ :=
  (charges.map fun p => if p.1 = k then p.2 else 0).sum

/-! ## Reading -/

theorem Account.total_append (k : Account) (cs cs' : List (Account × ℕ)) :
    k.total (cs ++ cs') = k.total cs + k.total cs' := by
  rw [Account.total, List.map_append, List.sum_append]
  rfl

theorem Account.read_add (k : Account) (m m' : Metrics) :
    k.read (fun c => m c + m' c) = k.read m + k.read m' := by
  cases k <;> simp only [Account.read] <;> omega

theorem Account.read_zero (k : Account) : k.read (fun _ => 0) = 0 := by
  cases k <;> rfl

theorem Account.read_mul (k : Account) (n : ℕ) (m : Metrics) :
    k.read (fun c => n * m c) = n * k.read m := by
  cases k <;> simp only [Account.read, Nat.mul_add]

/-- An account reads the counters that belong to it, each once. -/
theorem Account.read_indicator (k : Account) (c : Counter) :
    k.read (fun c' => if c = c' then 1 else 0) = if c.account = some k then 1 else 0 := by
  cases k <;> cases c <;> rfl

theorem Account.total_charges_single (k : Account) (c : Counter) (n : ℕ) :
    k.total (Incs.charges [(c, n)]) = if c.account = some k then n else 0 := by
  unfold Account.total Incs.charges
  cases h : c.account with
  | none => simp [h]
  | some k' => simp [h]

theorem Account.read_single (k : Account) (c : Counter) (n : ℕ) :
    k.read (fun c' => if c = c' then n else 0) = k.total (Incs.charges [(c, n)]) := by
  have hmul : (fun c' => if c = c' then n else 0) = fun c' => n * if c = c' then 1 else 0 := by
    funext c'
    split_ifs <;> simp
  rw [hmul, k.read_mul, k.read_indicator, k.total_charges_single]
  split_ifs <;> simp

/-- Counter calls add to an account what they charge to it. -/
theorem Account.read_bump (k : Account) (m : Metrics) (is : Incs) :
    k.read (m.bump is) = k.read m + k.total (Incs.charges is) := by
  have hsum : k.read (fun c => Incs.total c is) = k.total (Incs.charges is) := by
    induction is with
    | nil => exact k.read_zero
    | cons p is ih =>
      have hsplit : Incs.charges (p :: is) = Incs.charges [p] ++ Incs.charges is :=
        List.filterMap_append (l := [p])
      rw [hsplit, k.total_append, ← ih, ← k.read_single, ← k.read_add]
      rfl
  rw [← hsum, ← k.read_add]
  rfl

/-! ## Calls of the handlers -/

/-- Between the two states the counters moved by what the socket calls charge. -/
def Charged (s s' : State) (effects : List Effect) : Prop :=
  ∃ is : Incs, s'.metrics = s.metrics.bump is ∧ Incs.charges is = effects.flatMap Effect.charges

variable {s s' s'' : State} {effects effects' : List Effect} {g : ConnectionGroup} {c : Connection}
  {buf : Bytes} {addr : SockaddrStorage} {ts : ℤ} {env : PacketEnv}

theorem Metrics.bump_bump (m : Metrics) (is is' : Incs) : (m.bump is).bump is' = m.bump (is ++ is') := by
  funext c
  show m c + Incs.total c is + Incs.total c is' = m c + Incs.total c (is ++ is')
  rw [Incs.total_append, Nat.add_assoc]

theorem Charged.of_metrics (h : s'.metrics = s.metrics) : Charged s s' [] := ⟨[], h, rfl⟩

theorem Charged.trans (h : Charged s s' effects) (h' : Charged s' s'' effects') :
    Charged s s'' (effects ++ effects') := by
  obtain ⟨is, hm, hc⟩ := h
  obtain ⟨is', hm', hc'⟩ := h'
  refine ⟨is ++ is', ?_, ?_⟩
  · rw [hm', hm, Metrics.bump_bump]
  · rw [List.flatMap_append, ← hc, ← hc']
    exact List.filterMap_append

/-- The counter calls of a handler are the charges of its socket calls. -/
theorem Charged.inc (is : Incs) (h : s'.metrics = s.metrics.bump is)
    (hcharges : Incs.charges is = effects.flatMap Effect.charges) : Charged s s' effects :=
  ⟨is, h, hcharges⟩

/-- A counter that counts no socket call. -/
theorem Charged.aside (h : Charged s s' effects) (is : Incs) (hm : s''.metrics = s'.metrics.bump is)
    (his : Incs.charges is = []) : Charged s s'' effects := by
  have h' : Charged s s'' (effects ++ []) := h.trans (.inc is hm his)
  rwa [List.append_nil] at h'

theorem charges_regReply {type : ℕ} (h : type < 65536) :
    (regReply type addr env).charges = [(replyAccount type (decide (padRet 2 env.sendtoRet = 2)), 1)] := by
  have htype : getSrtType (mem (putBe16 type)) 2 = type := by
    unfold getSrtType
    rw [if_neg (by decide)]
    have hget := be16_putBe16 h []
    rwa [List.append_nil] at hget
  show [(replyAccount (getSrtType (mem (putBe16 type)) 2) _, 1)] = _
  rw [htype]
  rfl

theorem charges_reg2Reply (id : SrtlaId) (ret : ℤ) :
    (Effect.padSendto .regReply addr (reg2Frame id) ret).charges =
      [(replyAccount srtlaTypeReg2 (padSent (reg2Frame id) ret), 1)] := by
  have htype : getSrtType (mem (reg2Frame id)) (reg2Frame id).length = srtlaTypeReg2 :=
    getSrtType_regFrame (by decide) id
  show [(replyAccount (getSrtType (mem (reg2Frame id)) (reg2Frame id).length) _, 1)] = _
  rw [htype]

/-- Making room counts no socket call. -/
theorem charged_makeRoom (h : s.makeRoom = some s') : Charged s s' [] := by
  unfold State.makeRoom State.evictOldestPendingGroup at h
  split_ifs at h
  · cases hv : oldestPending s.groups with
    | none =>
      rw [hv] at h
      cases h
    | some v =>
      rw [hv] at h
      rw [← Option.some.inj h]
      exact .inc [(.groupsRemovedEvicted, 1)] rfl rfl
  · rw [← Option.some.inj h]
    exact .of_metrics rfl

theorem charged_registerGroup (s : State) (addr : SockaddrStorage) (buffer : Mem) (ts : ℤ)
    (env : PacketEnv) :
    Charged s (registerGroup s addr buffer ts env).2.1 (registerGroup s addr buffer ts env).2.2 := by
  have hrefused : ∀ (s : State) (counter : Counter), counter.account = some .refusals →
      Charged s (s.inc [(counter, 1)]) [regReply srtlaTypeRegErr addr env] := by
    intro s counter hcounter
    refine .inc [(counter, 1)] rfl ?_
    rw [List.flatMap_singleton, charges_regReply (by decide)]
    simp [Incs.charges, hcounter, replyAccount, srtlaTypeRegErr, srtlaTypeReg2, srtlaTypeReg3,
      srtlaTypeRegNgp]
  unfold registerGroup
  split_ifs
  · exact hrefused s _ rfl
  · cases hroom : s.makeRoom with
    | none => exact hrefused s _ rfl
    | some s' =>
      refine (charged_makeRoom hroom).trans ?_
      dsimp only
      cases findByAddress s'.groups addr with
      | some p => exact hrefused s' _ rfl
      | none =>
        dsimp only
        split_ifs with hsend
        · refine .inc [(.groupRegSendError, 1)] rfl ?_
          rw [List.flatMap_singleton, charges_reg2Reply, padSent, decide_eq_false hsend]
          rfl
        · refine .inc [(.groupRegistrations, 1)] rfl ?_
          rw [List.flatMap_singleton, charges_reg2Reply, padSent, decide_eq_true (not_not.mp hsend)]
          rfl

theorem charged_registerConnection (s : State) (addr : SockaddrStorage) (buffer : Mem) (ts : ℤ)
    (env : PacketEnv) :
    Charged s (registerConnection s addr buffer ts env).2.1
      (registerConnection s addr buffer ts env).2.2 := by
  have hreply : ∀ (s' : State) (counter : Counter) (type : ℕ), type < 65536 →
      counter.account = some (replyAccount type (decide (padRet 2 env.sendtoRet = 2))) →
      s'.metrics = s.metrics → Charged s (s'.inc [(counter, 1)]) [regReply type addr env] := by
    intro s' counter type htype hcounter hm
    refine .inc [(counter, 1)] (by rw [← hm]; rfl) ?_
    rw [List.flatMap_singleton, charges_regReply htype]
    simp [Incs.charges, hcounter]
  unfold registerConnection
  cases findGroupById s.groups (readBlock buffer 2 256) with
  | none => exact hreply s _ _ (by decide) rfl rfl
  | some g =>
    dsimp only
    split_ifs with hmismatch hmax hsend hnew hnew
    · exact hreply s _ _ (by decide) rfl rfl
    · exact hreply s _ _ (by decide) rfl rfl
    · exact hreply _ _ _ (by decide) (by rw [decide_eq_false hsend]; rfl) rfl
    · exact hreply _ _ _ (by decide) (by rw [decide_eq_false hsend]; rfl) rfl
    · exact hreply _ _ _ (by decide) (by rw [decide_eq_true (not_not.mp hsend)]; rfl) rfl
    · exact hreply _ _ _ (by decide) (by rw [decide_eq_true (not_not.mp hsend)]; rfl) rfl

theorem charges_touch (c : Connection) (ts : ℤ) : Incs.charges (c.touch ts).2 = [] := by
  unfold Connection.touch
  split_ifs <;> rfl

theorem charges_onNak (g : ConnectionGroup) (c : Connection) (buf : Bytes) (ts : ℤ) (env : PacketEnv) :
    Incs.charges (onNak g c buf ts env).2.2 = [] := by
  unfold onNak
  dsimp only
  split_ifs <;> rfl

/-- A send that is counted when it fails. -/
theorem charges_sendErr {counter : Counter} {k : Account} (hcounter : counter.account = some k)
    (site : SendSite) (addr : SockaddrStorage) (buf : Bytes) (ret : ℤ)
    (hsite : (Effect.padSendto site addr buf ret).charges = if padSent buf ret then [] else [(k, 1)]) :
    Incs.charges (if padRet buf.length ret ≠ buf.length then [(counter, 1)] else []) =
      [Effect.padSendto site addr buf ret].flatMap Effect.charges := by
  rw [List.flatMap_singleton, hsite, padSent]
  by_cases hsent : padRet buf.length ret = buf.length
  · rw [if_neg (not_not.mpr hsent), decide_eq_true hsent]
    rfl
  · rw [if_pos hsent, decide_eq_false hsent]
    simp [Incs.charges, hcounter]

theorem charges_registerPacket (c : Connection) (sn : ℤ) (env : PacketEnv) :
    Incs.charges (registerPacket c sn env).2.2 = (registerPacket c sn env).2.1.flatMap Effect.charges := by
  have hack : Counter.sendErrAck.account = some .acksLost := rfl
  unfold registerPacket
  by_cases hfull : (c.logPacket sn).recvIdx = recvAckInt
  · dsimp only
    rw [if_pos hfull]
    exact charges_sendErr hack (.ack (c.logPacket sn).ref) _ _ _ rfl
  · dsimp only
    rw [if_neg hfull]
    rfl

theorem charges_onSequenceNumber (g : ConnectionGroup) (ref : ℕ) (buf : Bytes) (env : PacketEnv) :
    Incs.charges (onSequenceNumber g ref buf env).2.2 =
      (onSequenceNumber g ref buf env).2.1.flatMap Effect.charges := by
  unfold onSequenceNumber
  dsimp only
  cases Keyed.get Connection.ref ref g.conns with
  | none => rfl
  | some c =>
    dsimp only
    split_ifs
    · exact charges_registerPacket c _ env
    · rfl

theorem charges_handleKeepalive (c : Connection) (addr : SockaddrStorage) (buf : Bytes)
    (env : PacketEnv) :
    Incs.charges (handleKeepalive c addr buf env).2.2 =
      (handleKeepalive c addr buf env).2.1.flatMap Effect.charges := by
  have hkeepalive : Counter.sendErrKeepalive.account = some .keepalivesLost := rfl
  exact charges_sendErr hkeepalive .keepaliveEcho addr buf env.sendtoRet rfl

theorem Incs.charges_append (is is' : Incs) :
    Incs.charges (is ++ is') = Incs.charges is ++ Incs.charges is' := List.filterMap_append

/-- A packet before it is forwarded. -/
theorem charges_onPacket (g : ConnectionGroup) (c : Connection) (buf : Bytes) (addr : SockaddrStorage)
    (ts : ℤ) (env : PacketEnv) :
    Incs.charges (onPacket g c buf addr ts env).incs =
      (onPacket g c buf addr ts env).effects.flatMap Effect.charges := by
  unfold onPacket
  dsimp only
  by_cases hkeepalive : isSrtlaKeepalive (mem buf) buf.length = true
  · rw [if_pos hkeepalive]
    dsimp only
    rw [Incs.charges_append, charges_touch, List.nil_append, charges_handleKeepalive]
  · rw [if_neg hkeepalive]
    by_cases hlen : buf.length < srtMinLen
    · rw [if_pos hlen]
      exact charges_touch c ts
    · rw [if_neg hlen]
      generalize hnak : (if isSrtNakPacket buf then _ else _ : Bool × ConnectionGroup × Incs) = nak
      have hincs : Incs.charges nak.2.2 = [] := by
        rw [← hnak]
        split_ifs
        · exact charges_onNak _ _ buf ts env
        · rfl
      split_ifs
      · dsimp only
        rw [Incs.charges_append, charges_touch, hincs]
        rfl
      · dsimp only
        rw [Incs.charges_append, Incs.charges_append, charges_touch, hincs]
        exact charges_onSequenceNumber _ _ buf env

theorem charged_forward (s : State) (g : ConnectionGroup) (buf : Bytes) (env : ForwardEnv) :
    Charged s (forwardToSrtServer (s.putGroup g) g buf env).2.1
      (forwardToSrtServer (s.putGroup g) g buf env).2.2 := by
  rw [forwardToSrtServer_eq]
  split_ifs with hsock
  · -- a failed send is counted as dropped or as an error, which ends the group
    have hfailed : ¬ env.sendRet = buf.length → ∀ counter : Counter, counter.account = some .unforwarded →
        Incs.charges [(counter, 1)] =
          [Effect.send g.ref (g.withSocket env.socket).srtSock buf env.sendRet].flatMap Effect.charges := by
      intro hsent counter hcounter
      rw [List.flatMap_singleton, Effect.charges, if_neg hsent]
      simp [Incs.charges, hcounter]
    rw [sendOnGroupSocket_eq, g.withSocket_ref]
    split_ifs with hfatal
    · have hsent : ¬ env.sendRet = buf.length := by
        intro hsent
        simp [ForwardEnv.fatal, hsent] at hfatal
      have h : Charged s ((s.putGroup (g.withSocket env.socket)).inc [(.forwardErrors, 1)])
          [.send g.ref (g.withSocket env.socket).srtSock buf env.sendRet] :=
        .inc _ rfl (hfailed hsent .forwardErrors rfl)
      exact h.aside [(.groupsRemovedSrtError, 1)] rfl rfl
    · refine .inc (env.incs buf) rfl ?_
      unfold ForwardEnv.incs
      split_ifs with hsent
      · rw [List.flatMap_singleton, Effect.charges, if_pos hsent]
        rfl
      · exact hfailed hsent .forwardDropped rfl
  · exact .inc [(.groupsRemovedSrtError, 1)] rfl rfl

theorem charged_packet (s : State) (buf : Bytes) (addr : SockaddrStorage) (ts : ℤ) (env : PacketEnv) :
    Charged s (processSinglePacket s buf addr ts env).1 (processSinglePacket s buf addr ts env).2 := by
  cases packetCase s buf addr with
  | reg1 h1 =>
    unfold processSinglePacket
    rw [if_pos h1]
    exact charged_registerGroup s addr (mem buf) ts env
  | reg2 h2 =>
    unfold processSinglePacket
    split_ifs
    · exact charged_registerGroup s addr (mem buf) ts env
    · exact charged_registerConnection s addr (mem buf) ts env
  | @conn g c h1 h2 hf =>
    have hpacket : Charged s (s.inc (onPacket g c buf addr ts env).incs)
        (onPacket g c buf addr ts env).effects :=
      .inc _ rfl (charges_onPacket g c buf addr ts env)
    rw [processSinglePacket_conn_eq h1 h2 hf]
    dsimp only
    split_ifs
    · exact hpacket.trans (charged_forward _ _ buf env.forward)
    · exact .inc _ rfl (charges_onPacket g c buf addr ts env)
  | stranger h1 h2 hf =>
    rw [processSinglePacket_stranger h1 h2 hf]
    exact .of_metrics rfl

/-! ## Server packets and cleanups -/

theorem charges_relayDownstream (g : ConnectionGroup) (buf : Bytes) (env : SrtEnv) :
    Incs.charges (relayDownstream g buf env).2 = (relayDownstream g buf env).1.flatMap Effect.charges := by
  have hlost : Counter.sendErrDownstream.account = some .downstreamLost := rfl
  unfold relayDownstream
  by_cases hbroadcast : isBroadcast buf = true
  · rw [if_pos hbroadcast]
    dsimp only
    rw [List.flatMap_singleton, Effect.charges]
    generalize (List.map Connection.addr _) = addrs
    split_ifs with hfailed hshort hshort
    · -- a failed `sendmmsg` sent nothing
      have hzero : env.sendmmsgRet.toNat = 0 := by omega
      rw [hzero]
      rfl
    · omega
    · rfl
    · rfl
  · rw [if_neg hbroadcast]
    exact charges_sendErr hlost .downstream g.lastAddr buf env.sendtoRet rfl

theorem charged_handleSrtPacket (s : State) (g : ConnectionGroup) (buf : Bytes) (env : SrtEnv) :
    Charged s (handleSrtPacket s g buf env).1 (handleSrtPacket s g buf env).2 := by
  have hrecord : ∀ g' : ConnectionGroup, Charged s (if failedAuth g' buf then
      (s.putGroup g').recordFailure g'.lastAddr env.now else s.putGroup g') [] := by
    intro g'
    split_ifs
    · exact .inc [(.authFailures, 1)] rfl rfl
    · exact .of_metrics rfl
  unfold handleSrtPacket
  dsimp only
  by_cases hempty : (isBroadcast buf && (g.noteAck buf).conns.isEmpty) = true
  · rw [if_pos hempty]
    exact hrecord _
  · rw [if_neg hempty]
    have hrelay : ∀ s' : State, Charged s s' [] →
        Charged s (s'.inc (relayDownstream (g.noteAck buf) buf env).2)
          (relayDownstream (g.noteAck buf) buf env).1 := fun s' h =>
      h.trans (.inc _ rfl (charges_relayDownstream (g.noteAck buf) buf env))
    by_cases hfailed : failedAuth (g.noteAck buf) buf = true
    · have h := hrelay _ (hrecord (g.noteAck buf))
      rw [if_pos hfailed] at h ⊢
      rw [if_pos hfailed]
      exact h.aside [(.groupsRemovedAuth, 1)] rfl rfl
    · have h := hrelay _ (hrecord (g.noteAck buf))
      rw [if_neg hfailed] at h ⊢
      rw [if_neg hfailed]
      exact h

theorem charged_handleSrtData (s : State) (g : ConnectionGroup) (env : SrtEnv) :
    Charged s (handleSrtData s g env).1 (handleSrtData s g env).2 := by
  have hended : Charged s (s.teardown g .groupsRemovedSrtError) [] :=
    .inc [(.groupsRemovedSrtError, 1)] rfl rfl
  unfold handleSrtData
  cases env.recv with
  | none => exact hended
  | some datagram =>
    dsimp only
    split_ifs
    · exact hended
    · have hread : Charged s (s.inc [(.srtPacketsReceived, 1),
          (.srtBytesReceived, (datagram.take mtu).length)]) [] := .inc _ rfl rfl
      exact hread.trans (charged_handleSrtPacket _ g _ env)

theorem charges_checkRecovery (c : Connection) (t : ℤ) : Incs.charges (c.checkRecovery t).2 = [] := by
  unfold Connection.checkRecovery
  split_ifs <;> rfl

theorem charges_cleanupConns (t : ℤ) (ret : ℕ → ℤ) (conns : List Connection) :
    Incs.charges (cleanupConns t ret conns).2.2 =
      (cleanupConns t ret conns).2.1.flatMap Effect.charges := by
  have hlost : Counter.sendErrKeepalive.account = some .keepalivesLost := rfl
  induction conns with
  | nil => rfl
  | cons c conns ih =>
    unfold cleanupConns
    dsimp only
    split_ifs
    · rw [Incs.charges_append, Incs.charges_append, charges_checkRecovery, ih]
      rfl
    · rw [Incs.charges_append, Incs.charges_append, charges_checkRecovery, ih, List.flatMap_append]
      congr 1
      exact charges_sendErr hlost .keepalive _ (putBe16 srtlaTypeKeepalive) _ rfl
    · rw [Incs.charges_append, charges_checkRecovery, ih]
      rfl

theorem charges_cleanupGroups (t : ℤ) (ret : ℕ → ℤ) (groups : List ConnectionGroup) :
    Incs.charges (cleanupGroups t ret groups).2.2 =
      (cleanupGroups t ret groups).2.1.flatMap Effect.charges := by
  induction groups with
  | nil => rfl
  | cons g groups ih =>
    have hconns := charges_cleanupConns t ret g.conns
    unfold cleanupGroups
    dsimp only
    split_ifs
    · rw [Incs.charges_append, Incs.charges_append, hconns, ih, List.flatMap_append, List.append_assoc]
      rfl
    · rw [Incs.charges_append, hconns, ih, List.flatMap_append]

/-! ## Runs -/

/-- The counter calls of an input are the charges of its socket calls. -/
theorem step_charged (s : State) (op : Op) : Charged s (step s op).1 (step s op).2 := by
  cases op with
  | packet buf addr ts env => exact charged_packet s buf addr ts env
  | srtData ref env =>
    unfold step
    dsimp only
    cases Keyed.get ConnectionGroup.ref ref s.groups with
    | none => exact .of_metrics rfl
    | some g => exact charged_handleSrtData s g env
  | evict =>
    show Charged s s.evictOldestPendingGroup.2 []
    unfold State.evictOldestPendingGroup
    cases oldestPending s.groups with
    | none => exact .of_metrics rfl
    | some v => exact .inc [(.groupsRemovedEvicted, 1)] rfl rfl
  | cleanup t ret =>
    show Charged s (cleanupInactive s t ret).1 (cleanupInactive s t ret).2
    unfold cleanupInactive
    split_ifs
    · exact .of_metrics rfl
    · exact .inc _ rfl (charges_cleanupGroups t ret s.groups)
  | limiterCleanup t => exact .of_metrics rfl
  | quality t ms => exact .of_metrics rfl
  | count what => cases what <;> exact .inc _ rfl rfl

theorem run_charged (s : State) (ops : List Op) : Charged s (receiver.run s ops) (receiver.outs s ops) := by
  induction ops generalizing s with
  | nil => exact .of_metrics rfl
  | cons op ops ih => exact (step_charged s op).trans (ih (step s op).1)

/-- **The counters of a run are its socket calls.** After any inputs, with any
    outcomes of the system calls, the counters of every account add up to what the
    calls made on the way are to be counted as: the packets and bytes handed to the
    SRT server and those it did not take, the ACKs, keepalives and server packets
    that were not sent (for a broadcast, one for every recipient missed), and the
    registration replies by type and result. -/
theorem calls_counted (ops : List Op) (k : Account) :
    k.read (receiver.run State.init ops).metrics =
      k.total ((receiver.outs State.init ops).flatMap Effect.charges) := by
  obtain ⟨is, hm, hcharges⟩ := run_charged State.init ops
  have hzero : k.read State.init.metrics = 0 := k.read_zero
  rw [hm, k.read_bump, hzero, hcharges, Nat.zero_add]

end Srtla.Receiver
