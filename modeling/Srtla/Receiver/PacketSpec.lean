import Srtla.Receiver.SrtlaHandler

/-!
# What a packet on a connection does

Specifications of the handler functions, so that nothing later unfolds them.

* `onPacket_conns`: the connections after a packet. Up to statistics only the
  connection itself changes, and it becomes `Connection.received`.
* `onPacket_effects`: the one call a packet can make before it is forwarded, a
  keepalive echo or an SRTLA ACK.
* `onPacket_forward`: the packets that are forwarded, `relays`.
* `processSinglePacket_conn`: the registry after a packet on a connection.
-/

namespace Srtla.Receiver

open Lib

/-! ## Kinds of packets -/

/-- A data packet: at least `SRT_MIN_LEN` bytes and the top bit clear. -/
def isDataPacket (buf : Bytes) : Bool :=
  decide (srtMinLen ≤ buf.length) && decide (0 ≤ getSrtSn (mem buf) buf.length)

/-- Neither a keepalive nor too short: the packets that mark the group as streaming. -/
def carriesData (buf : Bytes) : Bool :=
  !isSrtlaKeepalive (mem buf) buf.length && decide (srtMinLen ≤ buf.length)

/-- `should_accept_nak` lets the packet through, if it is a NAK at all. -/
def nakAccepted (g : ConnectionGroup) (buf : Bytes) (env : PacketEnv) : Bool :=
  !isSrtNakPacket buf ||
    (shouldAcceptNak g.nakSeenHash (hashNakPayload (mem buf) buf.length 128) env.nakMs).1

/-- The packets of a connection that `process_single_packet` hands to
    `forward_to_srt_server`. -/
def relays (g : ConnectionGroup) (buf : Bytes) (env : PacketEnv) : Bool :=
  carriesData buf && nakAccepted g buf env

theorem isDataPacket_iff {buf : Bytes} :
    isDataPacket buf = true ↔ srtMinLen ≤ buf.length ∧ be32 (mem buf) 0 < 2 ^ 31 := by
  unfold isDataPacket
  rw [Bool.and_eq_true, decide_eq_true_eq, decide_eq_true_eq]
  constructor
  · rintro ⟨h1, h2⟩
    refine ⟨h1, (getSrtSn_nonneg_iff ?_).mp h2⟩
    simp only [srtMinLen] at h1
    omega
  · rintro ⟨h1, h2⟩
    refine ⟨h1, (getSrtSn_nonneg_iff ?_).mpr h2⟩
    simp only [srtMinLen] at h1
    omega

/-- The type word of a data packet is below `0x8000`, unlike every control type. -/
theorem getSrtType_lt_of_isDataPacket {buf : Bytes} (h : isDataPacket buf = true) :
    getSrtType (mem buf) buf.length < 0x8000 := by
  obtain ⟨hlen, hsn⟩ := isDataPacket_iff.mp h
  simp only [srtMinLen] at hlen
  have htype : getSrtType (mem buf) buf.length = be16 (mem buf) 0 := by
    unfold getSrtType
    rw [if_neg (by omega)]
  have hword : be32 (mem buf) 0 = be16 (mem buf) 0 * 65536 + be16 (mem buf) 2 := rfl
  rw [htype]
  omega

theorem carriesData_of_isDataPacket {buf : Bytes} (h : isDataPacket buf = true) :
    carriesData buf = true := by
  have hlt := getSrtType_lt_of_isDataPacket h
  have hne : getSrtType (mem buf) buf.length ≠ srtlaTypeKeepalive := by
    simp only [srtlaTypeKeepalive]
    omega
  simp [carriesData, isSrtlaKeepalive, hne, (isDataPacket_iff.mp h).1]

theorem isSrtNakPacket_of_isDataPacket {buf : Bytes} (h : isDataPacket buf = true) :
    isSrtNakPacket buf = false := by
  have hlt := getSrtType_lt_of_isDataPacket h
  have hne : getSrtType (mem buf) buf.length ≠ srtTypeNak := by
    simp only [srtTypeNak]
    omega
  simp [isSrtNakPacket, hne]

theorem nakAccepted_of_nak {g : ConnectionGroup} {buf : Bytes} {env : PacketEnv}
    (h : isSrtNakPacket buf = true) :
    nakAccepted g buf env =
      (shouldAcceptNak g.nakSeenHash (hashNakPayload (mem buf) buf.length 128) env.nakMs).1 := by
  rw [nakAccepted, h]
  rfl

theorem relays_of_isDataPacket {g : ConnectionGroup} {buf : Bytes} {env : PacketEnv}
    (h : isDataPacket buf = true) : relays g buf env = true := by
  simp [relays, nakAccepted, carriesData_of_isDataPacket h, isSrtNakPacket_of_isDataPacket h]

theorem not_isSrtlaReg_of_isDataPacket {buf : Bytes} (h : isDataPacket buf = true) :
    isSrtlaReg1 (mem buf) buf.length = false ∧ isSrtlaReg2 (mem buf) buf.length = false := by
  have hlt := getSrtType_lt_of_isDataPacket h
  have h1 : getSrtType (mem buf) buf.length ≠ srtlaTypeReg1 := by
    simp only [srtlaTypeReg1]
    omega
  have h2 : getSrtType (mem buf) buf.length ≠ srtlaTypeReg2 := by
    simp only [srtlaTypeReg2]
    omega
  simp [isSrtlaReg1, isSrtlaReg2, h1, h2]

/-! ## Connections up to statistics -/

namespace Connection.SameButStats

variable {c c' c'' : Connection}

theorem trans (h : c.SameButStats c') (h' : c'.SameButStats c'') : c.SameButStats c'' := by
  unfold Connection.SameButStats at *
  rw [h', h]

theorem ref (h : c.SameButStats c') : c'.ref = c.ref := by rw [h]
theorem addr (h : c.SameButStats c') : c'.addr = c.addr := by rw [h]
theorem lastRcvd (h : c.SameButStats c') : c'.lastRcvd = c.lastRcvd := by rw [h]
theorem recvIdx (h : c.SameButStats c') : c'.recvIdx = c.recvIdx := by rw [h]
theorem recvLog (h : c.SameButStats c') : c'.recvLog = c.recvLog := by rw [h]

theorem withStats (c : Connection) (st : ConnectionStats) : c.SameButStats { c with stats := st } := rfl

end Connection.SameButStats

theorem ConnectionGroup.SameButQuality.trans {g g' g'' : ConnectionGroup} (h : g.SameButQuality g')
    (h' : g'.SameButQuality g'') : g.SameButQuality g'' := by
  obtain ⟨⟨f, hf, hconns⟩, hg⟩ := h
  obtain ⟨⟨f', hf', hconns'⟩, hg'⟩ := h'
  refine ⟨⟨f' ∘ f, fun c => (hf c).trans (hf' (f c)), by rw [hconns', hconns, List.map_map]⟩, ?_⟩
  rw [hg] at hg'
  exact hg'

theorem assess_frame (g : ConnectionGroup) (t : ℤ) (ms : Option UInt64) :
    g.SameButQuality (adjustWeights (evaluateGroup g t ms) t) :=
  ConnectionGroup.SameButQuality.trans (evaluateGroup_frame g t ms) (adjustWeights_frame _ t)

/-- The connections of `g'` are those of `g` changed by `core`, up to statistics. -/
def ConnsVia (core : Connection → Connection) (g g' : ConnectionGroup) : Prop :=
  ∃ f : Connection → Connection, (∀ x : Connection, (core x).SameButStats (f x)) ∧
    g'.conns = g.conns.map f

/-- The change that writes `c` to the connection with its identity. -/
def writeConn (c : Connection) : Connection → Connection := fun x => if x.ref = c.ref then c else x

theorem connsVia_putConn {g : ConnectionGroup} {c c' : Connection} (h : c.SameButStats c') :
    ConnsVia (writeConn c) g (g.putConn c') := by
  refine ⟨writeConn c', ?_, rfl⟩
  intro x
  unfold writeConn
  rw [h.ref]
  split_ifs
  · exact h
  · exact Connection.sameButStats_self x

theorem ConnsVia.evaluateGroup {core : Connection → Connection} {g g' : ConnectionGroup}
    (h : ConnsVia core g g') (ts : ℤ) (ms : Option UInt64) :
    ConnsVia core g (evaluateGroup g' ts ms) := by
  obtain ⟨f, hf, hg⟩ := h
  obtain ⟨⟨k, hk, hg'⟩, _⟩ := evaluateGroup_frame g' ts ms
  refine ⟨k ∘ f, fun x => (hf x).trans (hk (f x)), ?_⟩
  rw [hg', hg, List.map_map]

/-! ## Logging a sequence number -/

/-- The connection after `register_packet`. -/
def Connection.registered (c : Connection) (sn : ℤ) : Connection :=
  if (c.logPacket sn).recvIdx = recvAckInt then { c.logPacket sn with recvIdx := 0 }
  else c.logPacket sn

/-- The connection after a packet `buf` at time `ts`, up to statistics. -/
def Connection.received (c : Connection) (buf : Bytes) (ts : ℤ) : Connection :=
  if isDataPacket buf then (c.touch ts).1.registered (getSrtSn (mem buf) buf.length)
  else (c.touch ts).1

theorem registerPacket_fst (c : Connection) (sn : ℤ) (env : PacketEnv) :
    (registerPacket c sn env).1 = c.registered sn := by
  unfold registerPacket Connection.registered
  dsimp only
  split_ifs <;> rfl

theorem registerPacket_effects (c : Connection) (sn : ℤ) (env : PacketEnv) :
    (registerPacket c sn env).2.1 =
      if (c.logPacket sn).recvIdx = recvAckInt then
        [.padSendto (.ack c.ref) c.addr (c.logPacket sn).ackFrame env.sendtoRet]
      else [] := by
  unfold registerPacket
  dsimp only
  split_ifs <;> rfl

theorem Connection.touch_eq (c : Connection) (ts : ℤ) :
    (c.touch ts).1 = { c with lastRcvd := ts, recoveryStart := (c.touch ts).1.recoveryStart } := by
  unfold Connection.touch
  split_ifs <;> rfl

@[simp] theorem Connection.touch_ref (c : Connection) (ts : ℤ) : (c.touch ts).1.ref = c.ref := by
  rw [c.touch_eq]

@[simp] theorem Connection.touch_addr (c : Connection) (ts : ℤ) : (c.touch ts).1.addr = c.addr := by
  rw [c.touch_eq]

@[simp] theorem Connection.touch_lastRcvd (c : Connection) (ts : ℤ) :
    (c.touch ts).1.lastRcvd = ts := by
  rw [c.touch_eq]

theorem Connection.registered_eq (c : Connection) (sn : ℤ) :
    c.registered sn =
      { c with recvIdx := (c.registered sn).recvIdx, recvLog := (c.registered sn).recvLog,
               recvLog_length := (c.registered sn).recvLog_length } := by
  unfold Connection.registered Connection.logPacket
  dsimp only
  split_ifs <;> rfl

@[simp] theorem Connection.registered_ref (c : Connection) (sn : ℤ) : (c.registered sn).ref = c.ref := by
  rw [c.registered_eq]

@[simp] theorem Connection.registered_addr (c : Connection) (sn : ℤ) :
    (c.registered sn).addr = c.addr := by
  rw [c.registered_eq]

@[simp] theorem Connection.registered_lastRcvd (c : Connection) (sn : ℤ) :
    (c.registered sn).lastRcvd = c.lastRcvd := by
  rw [c.registered_eq]

@[simp] theorem Connection.received_ref (c : Connection) (buf : Bytes) (ts : ℤ) :
    (c.received buf ts).ref = c.ref := by
  unfold Connection.received
  split_ifs
  · rw [Connection.registered_ref, c.touch_ref]
  · exact c.touch_ref ts

@[simp] theorem Connection.received_addr (c : Connection) (buf : Bytes) (ts : ℤ) :
    (c.received buf ts).addr = c.addr := by
  unfold Connection.received
  split_ifs
  · rw [Connection.registered_addr, c.touch_addr]
  · exact c.touch_addr ts

@[simp] theorem Connection.received_lastRcvd (c : Connection) (buf : Bytes) (ts : ℤ) :
    (c.received buf ts).lastRcvd = ts := by
  unfold Connection.received
  split_ifs
  · rw [Connection.registered_lastRcvd, c.touch_lastRcvd]
  · exact c.touch_lastRcvd ts

/-- Statistics play no role in the log. -/
theorem Connection.registered_withStats (c : Connection) (st : ConnectionStats) (sn : ℤ) :
    ({ c with stats := st } : Connection).registered sn = { c.registered sn with stats := st } := by
  unfold Connection.registered Connection.logPacket
  dsimp only
  split_ifs <;> rfl

theorem Connection.SameButStats.registered {c c' : Connection} (h : c.SameButStats c') (sn : ℤ) :
    (c.registered sn).SameButStats (c'.registered sn) := by
  have heq : c'.registered sn = { c.registered sn with stats := c'.stats } := by
    conv_lhs => rw [h]
    exact c.registered_withStats c'.stats sn
  rw [heq]
  exact Connection.SameButStats.withStats _ _

/-! ## One packet -/

variable {g : ConnectionGroup} {c : Connection} {buf : Bytes} {addr : SockaddrStorage} {ts : ℤ}
  {env : PacketEnv}

theorem handleKeepalive_fst (c : Connection) (addr : SockaddrStorage) (buf : Bytes)
    (env : PacketEnv) : c.SameButStats (handleKeepalive c addr buf env).1 := by
  unfold handleKeepalive
  dsimp only
  cases parseKeepaliveConnInfo (mem buf) buf.length with
  | none => exact Connection.sameButStats_self c
  | some info => exact Connection.SameButStats.withStats c _

theorem received_of_not_carriesData (h : carriesData buf = false) :
    c.received buf ts = (c.touch ts).1 := by
  have hd : isDataPacket buf = false := by
    cases hd : isDataPacket buf with
    | false => rfl
    | true => rw [carriesData_of_isDataPacket hd] at h; exact absurd h (by decide)
  rw [Connection.received, hd, if_neg (by decide)]

theorem ConnsVia.putConn {g₀ : ConnectionGroup} {c' : Connection} (h : ConnsVia (writeConn c) g₀ g)
    (hc : c.SameButStats c') : ConnsVia (writeConn c) g₀ (g.putConn c') := by
  obtain ⟨f, hf, hg⟩ := h
  refine ⟨writeConn c' ∘ f, ?_, ?_⟩
  · intro x
    have hx := hf x
    simp only [Function.comp_apply, writeConn] at hx ⊢
    by_cases h : x.ref = c.ref
    · rw [if_pos h] at hx ⊢
      rwa [if_pos (hx.ref.trans hc.ref.symm)]
    · rw [if_neg h] at hx ⊢
      rwa [if_neg (by rw [hx.ref, hc.ref]; exact h)]
  · show Keyed.put Connection.ref c' g.conns = _
    rw [hg, ← List.map_map]
    rfl

theorem onNak_conns {g₀ : ConnectionGroup} {c' : Connection} (hg : ConnsVia (writeConn c) g₀ g)
    (hc : c.SameButStats c') : ConnsVia (writeConn c) g₀ (onNak g c' buf ts env).2.1 := by
  unfold onNak
  dsimp only
  split_ifs with h1 h2
  · exact hg
  · apply ConnsVia.evaluateGroup
    exact ConnsVia.putConn hg (hc.trans (Connection.SameButStats.withStats c' _))
  · exact ConnsVia.putConn hg (hc.trans (Connection.SameButStats.withStats c' _))

theorem onSequenceNumber_of_not_data (hlen : srtMinLen ≤ buf.length) (hd : isDataPacket buf = false)
    (ref : ℕ) : onSequenceNumber g ref buf env = (g, [], []) := by
  have hsn : ¬ getSrtSn (mem buf) buf.length ≥ 0 := by
    intro h
    have : isDataPacket buf = true := by
      rw [isDataPacket, decide_eq_true hlen, decide_eq_true h]
      rfl
    rw [hd] at this
    exact absurd this (by decide)
  unfold onSequenceNumber
  dsimp only
  cases Keyed.get Connection.ref ref g.conns with
  | none => rfl
  | some c => exact if_neg hsn

/-- A data packet is registered on the connection just written. -/
theorem onSequenceNumber_of_data {g₀ : ConnectionGroup} (hd : isDataPacket buf = true)
    (hg : g.conns = Keyed.put Connection.ref c g₀.conns)
    (hnodup : (g₀.conns.map Connection.ref).Nodup) (hc : c.ref ∈ g₀.conns.map Connection.ref) :
    onSequenceNumber g c.ref buf env =
      (g.putConn (c.registered (getSrtSn (mem buf) buf.length)),
        (registerPacket c (getSrtSn (mem buf) buf.length) env).2) := by
  have hsn : getSrtSn (mem buf) buf.length ≥ 0 := by
    rw [isDataPacket, Bool.and_eq_true, decide_eq_true_eq, decide_eq_true_eq] at hd
    exact hd.2
  have hget : Keyed.get Connection.ref c.ref g.conns = some c := by
    rw [hg, Keyed.get_eq_some_iff (by rw [Keyed.map_key_put]; exact hnodup)]
    exact ⟨Keyed.mem_put.mpr (Or.inl ⟨rfl, hc⟩), rfl⟩
  unfold onSequenceNumber
  dsimp only
  rw [hget]
  dsimp only
  rw [if_pos hsn, registerPacket_fst]

/-! ### The connections -/

theorem carriesData_eq_false_iff :
    carriesData buf = false ↔
      isSrtlaKeepalive (mem buf) buf.length = true ∨ buf.length < srtMinLen := by
  unfold carriesData
  cases isSrtlaKeepalive (mem buf) buf.length <;> simp

/-- The connection and group as lines 150-152 leave them. -/
def streaming (g : ConnectionGroup) (c : Connection) (buf : Bytes) (addr : SockaddrStorage) (ts : ℤ) :
    Connection × ConnectionGroup :=
  let c := { (c.touch ts).1 with stats := (c.touch ts).1.stats.onPacketReceived buf.length }
  (c, { g.putConn c with dataSeen := true, lastAddr := addr })

theorem onPacket_of_keepalive (h : isSrtlaKeepalive (mem buf) buf.length = true) :
    onPacket g c buf addr ts env =
      let r := handleKeepalive (c.touch ts).1 addr buf env
      ⟨g.putConn r.1, r.2.1, (c.touch ts).2 ++ r.2.2, false⟩ := by
  unfold onPacket
  dsimp only
  rw [if_pos h]

theorem onPacket_of_short (h : ¬ isSrtlaKeepalive (mem buf) buf.length = true)
    (hlen : buf.length < srtMinLen) :
    onPacket g c buf addr ts env = ⟨g.putConn (c.touch ts).1, [], (c.touch ts).2, false⟩ := by
  unfold onPacket
  dsimp only
  rw [if_neg h, if_pos hlen]

theorem onPacket_of_carriesData (h : carriesData buf = true) :
    onPacket g c buf addr ts env =
      let st := streaming g c buf addr ts
      let nak := if isSrtNakPacket buf then onNak st.2 st.1 buf ts env else (true, st.2, [])
      if !nak.1 then ⟨nak.2.1, [], (c.touch ts).2 ++ nak.2.2, false⟩
      else
        let r := onSequenceNumber nak.2.1 c.ref buf env
        ⟨r.1, r.2.1, (c.touch ts).2 ++ nak.2.2 ++ r.2.2, true⟩ := by
  have hk : ¬ isSrtlaKeepalive (mem buf) buf.length = true ∧ ¬ buf.length < srtMinLen := by
    rw [← not_or, ← carriesData_eq_false_iff, h]
    decide
  unfold onPacket streaming
  dsimp only
  rw [if_neg hk.1, if_neg hk.2, c.touch_ref]

/-- The connections after a packet: `c` has become `c.received buf ts`, and no
    other connection has changed, up to statistics. -/
theorem onPacket_conns (hnodup : (g.conns.map Connection.ref).Nodup) (hc : c ∈ g.conns) :
    ConnsVia (writeConn (c.received buf ts)) g (onPacket g c buf addr ts env).group := by
  have hmem : c.ref ∈ g.conns.map Connection.ref := List.mem_map_of_mem hc
  cases hcd : carriesData buf with
  | false =>
    rw [received_of_not_carriesData hcd]
    by_cases hk : isSrtlaKeepalive (mem buf) buf.length = true
    · rw [onPacket_of_keepalive hk]
      exact connsVia_putConn (handleKeepalive_fst _ addr buf env)
    · have hlen := (carriesData_eq_false_iff.mp hcd).resolve_left hk
      rw [onPacket_of_short hk hlen]
      exact connsVia_putConn (Connection.sameButStats_self _)
  | true =>
    rw [onPacket_of_carriesData hcd]
    have hlen : srtMinLen ≤ buf.length := by
      by_contra h
      rw [carriesData_eq_false_iff.mpr (Or.inr (by omega))] at hcd
      exact absurd hcd (by decide)
    have hst : (c.touch ts).1.SameButStats (streaming g c buf addr ts).1 :=
      Connection.SameButStats.withStats _ _
    have hconns : (streaming g c buf addr ts).2.conns =
        Keyed.put Connection.ref (streaming g c buf addr ts).1 g.conns := rfl
    have href : (streaming g c buf addr ts).1.ref = c.ref := hst.ref.trans (c.touch_ref ts)
    have hvia : ConnsVia (writeConn (c.touch ts).1) g (streaming g c buf addr ts).2 :=
      connsVia_putConn hst
    cases hd : isDataPacket buf with
    | true =>
      rw [Connection.received, hd, if_pos rfl]
      simp only [isSrtNakPacket_of_isDataPacket hd, Bool.false_eq_true, if_false, Bool.not_true]
      rw [← href, onSequenceNumber_of_data hd hconns hnodup (by rwa [href])]
      have hreg : ((c.touch ts).1.registered (getSrtSn (mem buf) buf.length)).SameButStats
          ((streaming g c buf addr ts).1.registered (getSrtSn (mem buf) buf.length)) := by
        exact hst.registered _
      obtain ⟨f, hf, hgf⟩ := connsVia_putConn (g := g) hreg
      exact ⟨f, hf, (Keyed.put_put (Connection.registered_ref _ _)).trans hgf⟩
    | false =>
      rw [Connection.received, hd, if_neg (by decide)]
      simp only [onSequenceNumber_of_not_data hlen hd]
      cases hn : isSrtNakPacket buf with
      | false => exact hvia
      | true =>
        simp only [if_true]
        split_ifs <;> exact onNak_conns hvia hst

/-! ### The rest of the group, the calls and the forwarding -/

theorem onNak_fst (g : ConnectionGroup) (c : Connection) (buf : Bytes) (ts : ℤ) (env : PacketEnv) :
    (onNak g c buf ts env).1 =
      (shouldAcceptNak g.nakSeenHash (hashNakPayload (mem buf) buf.length 128) env.nakMs).1 := by
  unfold onNak
  dsimp only
  split_ifs with h1 h2
  all_goals simp_all

/-- The NAK branch touches the NAK cache, connections and evaluation data. -/
theorem onNak_frame (g : ConnectionGroup) (c : Connection) (buf : Bytes) (ts : ℤ) (env : PacketEnv) :
    (onNak g c buf ts env).2.1 =
      { g with conns := (onNak g c buf ts env).2.1.conns
               nakSeenHash := (onNak g c buf ts env).2.1.nakSeenHash
               totalTargetBandwidth := (onNak g c buf ts env).2.1.totalTargetBandwidth
               lastQualityEval := (onNak g c buf ts env).2.1.lastQualityEval
               lastLoadBalanceEval := (onNak g c buf ts env).2.1.lastLoadBalanceEval } := by
  unfold onNak
  dsimp only
  split_ifs with h1 h2
  · rfl
  · rw [(evaluateGroup_frame _ ts env.evalMs).2]
    rfl
  · rfl

theorem onSequenceNumber_frame (g : ConnectionGroup) (ref : ℕ) (buf : Bytes) (env : PacketEnv) :
    (onSequenceNumber g ref buf env).1 =
      { g with conns := (onSequenceNumber g ref buf env).1.conns } := by
  unfold onSequenceNumber
  dsimp only
  cases Keyed.get Connection.ref ref g.conns with
  | none => rfl
  | some c => dsimp only; split_ifs <;> rfl

/-- A packet that carries data marks the group as streaming from its address;
    identity, id, creation time, session and socket never change. -/
theorem onPacket_frame (g : ConnectionGroup) (c : Connection) (buf : Bytes) (addr : SockaddrStorage)
    (ts : ℤ) (env : PacketEnv) :
    (onPacket g c buf addr ts env).group =
      { (onPacket g c buf addr ts env).group with
        ref := g.ref, id := g.id, createdAt := g.createdAt, established := g.established
        srtSock := g.srtSock, epollFd := g.epollFd, loadBalancingEnabled := g.loadBalancingEnabled
        dataSeen := g.dataSeen || carriesData buf
        lastAddr := if carriesData buf then addr else g.lastAddr } := by
  cases hcd : carriesData buf with
  | false =>
    by_cases hk : isSrtlaKeepalive (mem buf) buf.length = true
    · rw [onPacket_of_keepalive hk, Bool.or_false]
      rfl
    · rw [onPacket_of_short hk ((carriesData_eq_false_iff.mp hcd).resolve_left hk), Bool.or_false]
      rfl
  | true =>
    rw [onPacket_of_carriesData hcd, Bool.or_true]
    dsimp only
    cases hn : isSrtNakPacket buf with
    | false =>
      simp only [Bool.false_eq_true, if_false, Bool.not_true]
      rw [onSequenceNumber_frame]
      rfl
    | true =>
      simp only [if_true]
      split_ifs with h1
      · rw [onNak_frame]
        rfl
      · rw [onSequenceNumber_frame, onNak_frame]
        rfl

theorem onPacket_forward (g : ConnectionGroup) (c : Connection) (buf : Bytes)
    (addr : SockaddrStorage) (ts : ℤ) (env : PacketEnv) :
    (onPacket g c buf addr ts env).forward = relays g buf env := by
  unfold relays nakAccepted
  cases hcd : carriesData buf with
  | false =>
    by_cases hk : isSrtlaKeepalive (mem buf) buf.length = true
    · rw [onPacket_of_keepalive hk, Bool.false_and]
    · rw [onPacket_of_short hk ((carriesData_eq_false_iff.mp hcd).resolve_left hk), Bool.false_and]
  | true =>
    rw [onPacket_of_carriesData hcd, Bool.true_and]
    dsimp only
    cases hn : isSrtNakPacket buf with
    | false => rfl
    | true =>
      simp only [if_true, onNak_fst, Bool.not_true, Bool.false_or]
      split_ifs with h1 <;> simp_all [streaming, ConnectionGroup.putConn]

/-- The call a packet makes before it is forwarded: the echo of a keepalive, or
    the SRTLA ACK that its sequence number completes. -/
theorem onPacket_effects (hnodup : (g.conns.map Connection.ref).Nodup) (hc : c ∈ g.conns) :
    (onPacket g c buf addr ts env).effects =
      if isSrtlaKeepalive (mem buf) buf.length then
        [.padSendto .keepaliveEcho addr buf env.sendtoRet]
      else if isDataPacket buf then
        (registerPacket (c.touch ts).1 (getSrtSn (mem buf) buf.length) env).2.1
      else [] := by
  by_cases hk : isSrtlaKeepalive (mem buf) buf.length = true
  · rw [onPacket_of_keepalive hk, if_pos hk]
    rfl
  · rw [if_neg hk]
    by_cases hlen : buf.length < srtMinLen
    · have hd : isDataPacket buf = false := by
        rw [isDataPacket, decide_eq_false (by omega), Bool.false_and]
      rw [onPacket_of_short hk hlen, hd, if_neg (by decide)]
    · have hcd : carriesData buf = true := by
        by_contra h
        rcases carriesData_eq_false_iff.mp (by simpa using h) with h | h
        · exact hk h
        · exact hlen h
      rw [onPacket_of_carriesData hcd]
      cases hd : isDataPacket buf with
      | true =>
        have href : (streaming g c buf addr ts).1.ref = c.ref := c.touch_ref ts
        simp only [isSrtNakPacket_of_isDataPacket hd, Bool.false_eq_true, if_false, Bool.not_true]
        rw [← href, onSequenceNumber_of_data hd rfl hnodup (by rw [href]; exact List.mem_map_of_mem hc)]
        rw [if_pos trivial, registerPacket_effects, registerPacket_effects]
        rfl
      | false =>
        simp only [onSequenceNumber_of_not_data (not_lt.mp hlen) hd, Bool.false_eq_true, if_false]
        split_ifs <;> rfl

/-! ## The counters of a packet -/

/-- The calls count under the counters `cs` only. -/
def Incs.Within (cs : List Counter) (is : Incs) : Prop := ∀ p ∈ is, p.1 ∈ cs

theorem Incs.within_nil (cs : List Counter) : Incs.Within cs [] := fun _ hp => absurd hp List.not_mem_nil

theorem Incs.within_single {cs : List Counter} {counter : Counter} (n : ℕ) (h : counter ∈ cs) :
    Incs.Within cs [(counter, n)] := by
  intro p hp
  rw [List.mem_singleton.mp hp]
  exact h

theorem Incs.Within.append {cs : List Counter} {is is' : Incs} (h : Incs.Within cs is)
    (h' : Incs.Within cs is') : Incs.Within cs (is ++ is') := by
  intro p hp
  rcases List.mem_append.mp hp with hp | hp
  · exact h p hp
  · exact h' p hp

/-- What a packet on a connection can count, apart from the start of a recovery. -/
def packetCounters : List Counter := [.naksReceived, .naksSuppressed, .sendErrAck, .sendErrKeepalive]

theorem onNak_within (g : ConnectionGroup) (c : Connection) (buf : Bytes) (ts : ℤ) (env : PacketEnv) :
    Incs.Within packetCounters (onNak g c buf ts env).2.2 := by
  unfold onNak
  dsimp only
  split_ifs <;> exact Incs.within_single 1 (by decide)

theorem onSequenceNumber_within (g : ConnectionGroup) (ref : ℕ) (buf : Bytes) (env : PacketEnv) :
    Incs.Within packetCounters (onSequenceNumber g ref buf env).2.2 := by
  unfold onSequenceNumber registerPacket
  dsimp only
  cases Keyed.get Connection.ref ref g.conns with
  | none => exact Incs.within_nil _
  | some c =>
    dsimp only
    split_ifs
    · exact Incs.within_single 1 (by decide)
    · exact Incs.within_nil _
    · exact Incs.within_nil _
    · exact Incs.within_nil _

/-- A packet counts the start of a recovery first. -/
theorem onPacket_incs (g : ConnectionGroup) (c : Connection) (buf : Bytes) (addr : SockaddrStorage)
    (ts : ℤ) (env : PacketEnv) :
    ∃ rest, (onPacket g c buf addr ts env).incs = (c.touch ts).2 ++ rest ∧
      Incs.Within packetCounters rest := by
  unfold onPacket handleKeepalive
  dsimp only
  split_ifs
  · exact ⟨_, rfl, Incs.within_single 1 (by decide)⟩
  · exact ⟨_, rfl, Incs.within_nil _⟩
  · exact ⟨[], (List.append_nil _).symm, Incs.within_nil _⟩
  · exact ⟨_, rfl, onNak_within _ _ buf ts env⟩
  · exact ⟨_, List.append_assoc _ _ _, (onNak_within _ _ buf ts env).append
      (onSequenceNumber_within _ _ buf env)⟩
  · exact ⟨_, rfl, Incs.within_nil _⟩
  · exact ⟨_, List.append_assoc _ _ _, (Incs.within_nil _).append (onSequenceNumber_within _ _ buf env)⟩

/-! ## `process_single_packet` on a connection -/

/-- The group after a packet on its connection `c`: `none` when the packet could
    not be forwarded and the group was removed. -/
def afterPacket (g : ConnectionGroup) (c : Connection) (buf : Bytes) (addr : SockaddrStorage)
    (ts : ℤ) (env : PacketEnv) : Option ConnectionGroup :=
  let g' := (onPacket g c buf addr ts env).group
  if relays g buf env then
    if g.survives buf env.forward then some (g'.withSocket env.forward.socket) else none
  else some g'

theorem onPacket_ref (g : ConnectionGroup) (c : Connection) (buf : Bytes) (addr : SockaddrStorage)
    (ts : ℤ) (env : PacketEnv) : (onPacket g c buf addr ts env).group.ref = g.ref := by
  rw [onPacket_frame]

theorem onPacket_id (g : ConnectionGroup) (c : Connection) (buf : Bytes) (addr : SockaddrStorage)
    (ts : ℤ) (env : PacketEnv) : (onPacket g c buf addr ts env).group.id = g.id := by
  rw [onPacket_frame]

theorem onPacket_createdAt (g : ConnectionGroup) (c : Connection) (buf : Bytes)
    (addr : SockaddrStorage) (ts : ℤ) (env : PacketEnv) :
    (onPacket g c buf addr ts env).group.createdAt = g.createdAt := by
  rw [onPacket_frame]

theorem onPacket_dataSeen (g : ConnectionGroup) (c : Connection) (buf : Bytes)
    (addr : SockaddrStorage) (ts : ℤ) (env : PacketEnv) :
    (onPacket g c buf addr ts env).group.dataSeen = (g.dataSeen || carriesData buf) := by
  rw [onPacket_frame]

theorem onPacket_srtSock (g : ConnectionGroup) (c : Connection) (buf : Bytes)
    (addr : SockaddrStorage) (ts : ℤ) (env : PacketEnv) :
    (onPacket g c buf addr ts env).group.srtSock = g.srtSock := by
  rw [onPacket_frame]

/-- A forward gives the group at most a socket. -/
theorem afterPacket_frame {g' : ConnectionGroup} (h : afterPacket g c buf addr ts env = some g') :
    g' = { (onPacket g c buf addr ts env).group with
      srtSock := g'.srtSock, epollFd := g'.epollFd } := by
  unfold afterPacket at h
  dsimp only at h
  split_ifs at h with h1 h2
  · rw [← Option.some.inj h, ConnectionGroup.withSocket]
    split_ifs <;> rfl
  · rw [← Option.some.inj h]

theorem afterPacket_ref {g' : ConnectionGroup} (h : afterPacket g c buf addr ts env = some g') :
    g'.ref = g.ref := by
  rw [afterPacket_frame h]
  exact onPacket_ref g c buf addr ts env

theorem afterPacket_lastAddr {g' : ConnectionGroup}
    (h : afterPacket g c buf addr ts env = some g') :
    g'.lastAddr = if carriesData buf then addr else g.lastAddr := by
  rw [afterPacket_frame h]
  show (onPacket g c buf addr ts env).group.lastAddr = _
  rw [onPacket_frame]

variable {s : State}

theorem processSinglePacket_conn_eq (h1 : isSrtlaReg1 (mem buf) buf.length = false)
    (h2 : isSrtlaReg2 (mem buf) buf.length = false)
    (hf : findByAddress s.groups addr = some (g, some c)) :
    processSinglePacket s buf addr ts env =
      let r := onPacket g c buf addr ts env
      let s := (s.inc r.incs).putGroup r.group
      if relays g buf env then
        let f := forwardToSrtServer s r.group buf env.forward
        (f.2.1, r.effects ++ f.2.2)
      else (s, r.effects) := by
  unfold processSinglePacket
  rw [h1, h2, if_neg (by decide), if_neg (by decide), hf]
  dsimp only
  rw [onPacket_forward]

/-- The registry after a packet on a connection: its group is written or removed. -/
theorem processSinglePacket_conn (h1 : isSrtlaReg1 (mem buf) buf.length = false)
    (h2 : isSrtlaReg2 (mem buf) buf.length = false)
    (hf : findByAddress s.groups addr = some (g, some c)) :
    (processSinglePacket s buf addr ts env).1.groups =
      Keyed.update ConnectionGroup.ref g.ref (afterPacket g c buf addr ts env) s.groups := by
  rw [processSinglePacket_conn_eq h1 h2 hf]
  unfold afterPacket
  dsimp only
  have hs : (onPacket g c buf addr ts env).group.survives buf env.forward =
      g.survives buf env.forward := by
    unfold ConnectionGroup.survives ConnectionGroup.getsSocket
    rw [onPacket_srtSock]
  by_cases hr : relays g buf env = true
  · rw [if_pos hr, if_pos hr, forwardToSrtServer_groups, hs, onPacket_ref]
    split_ifs <;> rfl
  · rw [if_neg hr, if_neg hr]
    rfl

theorem processSinglePacket_conn_effects (h1 : isSrtlaReg1 (mem buf) buf.length = false)
    (h2 : isSrtlaReg2 (mem buf) buf.length = false)
    (hf : findByAddress s.groups addr = some (g, some c)) :
    (processSinglePacket s buf addr ts env).2 =
      (onPacket g c buf addr ts env).effects ++
        if relays g buf env && g.getsSocket env.forward.socket then
          [.send g.ref (g.withSocket env.forward.socket).srtSock buf env.forward.sendRet]
        else [] := by
  rw [processSinglePacket_conn_eq h1 h2 hf]
  dsimp only
  have hsock : (onPacket g c buf addr ts env).group.getsSocket env.forward.socket =
      g.getsSocket env.forward.socket := by
    unfold ConnectionGroup.getsSocket
    rw [onPacket_srtSock]
  have hfd : ((onPacket g c buf addr ts env).group.withSocket env.forward.socket).srtSock =
      (g.withSocket env.forward.socket).srtSock := by
    unfold ConnectionGroup.withSocket
    rw [onPacket_srtSock]
    split_ifs
    · exact onPacket_srtSock g c buf addr ts env
    · rfl
  by_cases hr : relays g buf env = true
  · rw [if_pos hr, hr, Bool.true_and, forwardToSrtServer_effects, hsock, hfd, onPacket_ref]
  · rw [if_neg hr, Bool.eq_false_iff.mpr hr, Bool.false_and, if_neg (by decide), List.append_nil]

theorem processSinglePacket_conn_frame (h1 : isSrtlaReg1 (mem buf) buf.length = false)
    (h2 : isSrtlaReg2 (mem buf) buf.length = false)
    (hf : findByAddress s.groups addr = some (g, some c)) :
    (processSinglePacket s buf addr ts env).1.limiter = s.limiter ∧
    (processSinglePacket s buf addr ts env).1.lastRun = s.lastRun ∧
    (processSinglePacket s buf addr ts env).1.nextRef = s.nextRef := by
  rw [processSinglePacket_conn_eq h1 h2 hf]
  dsimp only
  split_ifs
  · exact forwardToSrtServer_frame _ _ _ _
  · exact ⟨rfl, rfl, rfl⟩

/-- A packet from an address without a connection is ignored. -/
theorem processSinglePacket_stranger (h1 : isSrtlaReg1 (mem buf) buf.length = false)
    (h2 : isSrtlaReg2 (mem buf) buf.length = false)
    (hf : ∀ g c, findByAddress s.groups addr ≠ some (g, some c)) :
    processSinglePacket s buf addr ts env = (s, []) := by
  unfold processSinglePacket
  rw [h1, h2, if_neg (by decide), if_neg (by decide)]
  cases h : findByAddress s.groups addr with
  | none => rfl
  | some p =>
    obtain ⟨g, oc⟩ := p
    cases oc with
    | none => rfl
    | some c => exact absurd h (hf g c)

/-- Where `process_single_packet` takes a datagram: to a registration, to the
    connection with its address, or nowhere. -/
inductive PacketCase (s : State) (buf : Bytes) (addr : SockaddrStorage) : Prop
  | reg1 (h1 : isSrtlaReg1 (mem buf) buf.length = true)
  | reg2 (h2 : isSrtlaReg2 (mem buf) buf.length = true)
  | conn {g : ConnectionGroup} {c : Connection} (h1 : isSrtlaReg1 (mem buf) buf.length = false)
      (h2 : isSrtlaReg2 (mem buf) buf.length = false)
      (hf : findByAddress s.groups addr = some (g, some c))
  | stranger (h1 : isSrtlaReg1 (mem buf) buf.length = false)
      (h2 : isSrtlaReg2 (mem buf) buf.length = false)
      (hf : ∀ g c, findByAddress s.groups addr ≠ some (g, some c))

theorem packetCase (s : State) (buf : Bytes) (addr : SockaddrStorage) : PacketCase s buf addr := by
  cases h1 : isSrtlaReg1 (mem buf) buf.length with
  | true => exact .reg1 h1
  | false =>
    cases h2 : isSrtlaReg2 (mem buf) buf.length with
    | true => exact .reg2 h2
    | false =>
      by_cases hf : ∃ g c, findByAddress s.groups addr = some (g, some c)
      · obtain ⟨g, c, hf⟩ := hf
        exact .conn h1 h2 hf
      · exact .stranger h1 h2 fun g c he => hf ⟨g, c, he⟩

end Srtla.Receiver
