import Srtla.Receiver.Quality
import Srtla.Receiver.SrtHandler

/-!
# The SRTLA side (`src/protocol/srtla_handler.cpp`)

`processSinglePacket` dispatches one datagram from the SRTLA socket: a group
registration (REG1), a connection registration (REG2), or a packet on a
registered connection, which is a keepalive or is forwarded to the SRT server.

The handling of a packet on a connection is split where the source touches the
registry: `onPacket` works on the group alone and says whether the packet is to
be forwarded; `processSinglePacket` writes the group back and forwards.
-/

namespace Srtla.Receiver

open Lib

/-- What the system calls made for one datagram return. No path makes more than
    one `pad_sendto` call. `random` is what `get_random_bytes` yields, `nakMs` the
    clock `is_duplicate_nak` reads (0 when `get_ms` fails), `evalMs` the one
    `evaluate_group` reads, `keepaliveSec` the one `handle_keepalive` reads. -/
structure PacketEnv where
  sendtoRet : ℤ
  random : IdHalf
  nakMs : UInt64
  evalMs : Option UInt64
  keepaliveSec : ℤ
  forward : ForwardEnv
deriving DecidableEq, Inhabited

/-! ## Registration -/

/-- A reply of two bytes: the header alone. -/
def regReply (type : ℕ) (addr : SockaddrStorage) (env : PacketEnv) : Effect :=
  .padSendto .regReply addr (putBe16 type) env.sendtoRet

/-- The table-full test of `register_group` (lines 226-235): the state to go on
    with, or `none` when the registration is refused. -/
def State.makeRoom (s : State) : Option State :=
  if s.groups.length ≥ maxGroups then
    match s.evictOldestPendingGroup with
    | (false, _) => none
    | (true, s') => some s'
  else some s

/-- `register_group` (`src/protocol/srtla_handler.cpp:206-277`). -/
def registerGroup (s : State) (addr : SockaddrStorage) (buffer : Mem) (ts : ℤ) (env : PacketEnv) :
    ℤ × State × List Effect :=
  if s.limiter.isBlocked addr ts then
    (-1, s.inc [(.groupRegThrottled, 1)], [regReply srtlaTypeRegErr addr env])
  else
    match s.makeRoom with
    | none => (-1, s.inc [(.groupRegTableFull, 1)], [regReply srtlaTypeRegErr addr env])
    | some s =>
      match findByAddress s.groups addr with
      | some _ => (-1, s.inc [(.groupRegDupAddr, 1)], [regReply srtlaTypeRegErr addr env])
      | none =>
        let group := ConnectionGroup.create s.nextRef (readBlock buffer 2 128) env.random ts addr
        let s := { s with nextRef := s.nextRef + 1 }
        let outBuf := reg2Frame group.id
        let effects := [Effect.padSendto .regReply addr outBuf env.sendtoRet]
        if padRet outBuf.length env.sendtoRet ≠ outBuf.length then
          (-1, s.inc [(.groupRegSendError, 1)], effects)
        else (0, (s.addGroup group).inc [(.groupRegistrations, 1)], effects)

/-- `register_connection` (`src/protocol/srtla_handler.cpp:279-350`); the info file
    that it writes is among the `registerConnectionCalls`. -/
def registerConnection (s : State) (addr : SockaddrStorage) (buffer : Mem) (ts : ℤ)
    (env : PacketEnv) : ℤ × State × List Effect :=
  match findGroupById s.groups (readBlock buffer 2 256) with
  | none => (-1, s.inc [(.connRegNoGroup, 1)], [regReply srtlaTypeRegNgp addr env])
  | some group =>
    let found := findByAddress s.groups addr
    if found.any fun p => decide (p.1.ref ≠ group.ref) then
      (-1, s.inc [(.connRegGroupMismatch, 1)], [regReply srtlaTypeRegErr addr env])
    else
      let conn := found.bind Prod.snd
      if conn.isNone && decide (group.conns.length ≥ maxConnsPerGroup) then
        (-1, s.inc [(.connRegMaxConns, 1)], [regReply srtlaTypeRegErr addr env])
      else
        let s' := if conn.isNone then { s with nextRef := s.nextRef + 1 } else s
        let effects := [regReply srtlaTypeReg3 addr env]
        if padRet 2 env.sendtoRet ≠ 2 then (-1, s'.inc [(.connRegSendError, 1)], effects)
        else
          let group :=
            if conn.isNone then group.addConnection (Connection.create s.nextRef addr ts) else group
          (0, (s'.putGroup { group with lastAddr := addr }).inc [(.connRegistrations, 1)], effects)

/-! ## Data packets -/

/-- `is_srt_nak_packet` (`src/protocol/srtla_handler.cpp:35-41`). -/
def isSrtNakPacket (buf : Bytes) : Bool :=
  if buf.length < sizeofSrtHeader then false else getSrtType (mem buf) buf.length == srtTypeNak

/-- Lines 355-361 of `register_packet`: the sequence number goes into the next
    slot of the log. -/
def Connection.logPacket (c : Connection) (sn : ℤ) : Connection :=
  let nextIdx := c.recvIdx + 1
  -- defensive reset if the index is out of bounds
  let nextIdx := if nextIdx ≤ 0 ∨ nextIdx > recvAckInt then 1 else nextIdx
  { c with
    recvIdx := nextIdx
    recvLog := c.recvLog.set (nextIdx - 1).toNat (putBe32 sn.toNat)
    recvLog_length := by rw [List.length_set, c.recvLog_length] }

/-- `srtla_ack_pkt` (`src/receiver_config.h:79-82`): the type word and the log. -/
def Connection.ackFrame (c : Connection) : Bytes :=
  putBe32 (srtlaTypeAck <<< 16) ++ c.recvLog.flatten

/-- `register_packet` (`src/protocol/srtla_handler.cpp:352-385`). -/
def registerPacket (c : Connection) (sn : ℤ) (env : PacketEnv) : Connection × List Effect × Incs :=
  let c := c.logPacket sn
  if c.recvIdx = recvAckInt then
    ({ c with recvIdx := 0 }, [.padSendto (.ack c.ref) c.addr c.ackFrame env.sendtoRet],
      if padRet c.ackFrame.length env.sendtoRet ≠ c.ackFrame.length then [(.sendErrAck, 1)] else [])
  else (c, [], [])

/-! ## Keepalives -/

/-- `update_rtt_history` (`src/protocol/srtla_handler.cpp:387-391`). -/
def ConnectionStats.updateRttHistory (st : ConnectionStats) (rtt : UInt32) : ConnectionStats :=
  { st with
    rttHistory := st.rttHistory.set st.rttHistoryIdx rtt
    rttHistory_length := by rw [List.length_set, st.rttHistory_length]
    rttHistoryIdx := (st.rttHistoryIdx + 1) % rttHistorySize
    rttMs := rtt }

/-- `update_connection_telemetry` (`src/protocol/srtla_handler.cpp:393-419`). -/
def ConnectionStats.updateConnectionTelemetry (st : ConnectionStats) (info : ConnectionInfo)
    (currentTime : ℤ) : ConnectionStats :=
  { st.updateRttHistory info.rttMs with
    senderSupportsExtendedKeepalives := true
    window := info.window
    inFlight := info.inFlight
    senderNakCount := info.nakCount
    senderBitrateBps := info.bitrateBytesPerSec
    lastKeepalive := currentTime }

/-- `handle_keepalive` (`src/protocol/srtla_handler.cpp:421-509`). -/
def handleKeepalive (c : Connection) (addr : SockaddrStorage) (buf : Bytes) (env : PacketEnv) :
    Connection × List Effect × Incs :=
  let c :=
    match parseKeepaliveConnInfo (mem buf) buf.length with
    | some info => { c with stats := c.stats.updateConnectionTelemetry info env.keepaliveSec }
    | none => c
  (c, [.padSendto .keepaliveEcho addr buf env.sendtoRet],
    if padRet buf.length env.sendtoRet ≠ buf.length then [(.sendErrKeepalive, 1)] else [])

/-- `send_keepalive` (`src/protocol/srtla_handler.cpp:190-204`). -/
def sendKeepalive (c : Connection) (sendtoRet : ℤ) : List Effect × Incs :=
  ([.padSendto .keepalive c.addr (putBe16 srtlaTypeKeepalive) sendtoRet],
    if padRet 2 sendtoRet ≠ 2 then [(.sendErrKeepalive, 1)] else [])

/-! ## Packets on a connection -/

/-- Lines 127-137 of `process_single_packet`: the receive time and the start of
    a recovery. -/
def Connection.touch (c : Connection) (ts : ℤ) : Connection × Incs :=
  if c.recoveryStart = 0 ∧ c.lastRcvd + connTimeout < ts then
    ({ c with lastRcvd := ts, recoveryStart := ts }, [(.recoveryStarted, 1)])
  else ({ c with lastRcvd := ts }, [])

/-- The NAK branch (lines 154-178), on a group whose connection `c` is up to
    date: whether the packet goes on, and the group and counters afterwards. -/
def onNak (g : ConnectionGroup) (c : Connection) (buf : Bytes) (ts : ℤ) (env : PacketEnv) :
    Bool × ConnectionGroup × Incs :=
  let nak := shouldAcceptNak g.nakSeenHash (hashNakPayload (mem buf) buf.length 128) env.nakMs
  let g := { g with nakSeenHash := nak.2 }
  if !nak.1 then (false, g, [(.naksSuppressed, 1)])
  else
    let c := { c with stats := c.stats.onNakDetected 1 }
    let g := g.putConn c
    let g :=
      if c.stats.nackCount > 5 ∧ g.lastQualityEval + 1 < ts then evaluateGroup g ts env.evalMs
      else g
    (true, g, [(.naksReceived, 1)])

/-- Lines 180-183: a data packet is registered on the connection, which is read
    through its pointer. -/
def onSequenceNumber (g : ConnectionGroup) (ref : ℕ) (buf : Bytes) (env : PacketEnv) :
    ConnectionGroup × List Effect × Incs :=
  let sn := getSrtSn (mem buf) buf.length
  match Keyed.get Connection.ref ref g.conns with
  | none => (g, [], [])
  | some c =>
    if sn ≥ 0 then
      let r := registerPacket c sn env
      (g.putConn r.1, r.2)
    else (g, [], [])

/-- What a packet does before it is forwarded: the group, the calls and counters,
    and whether it is handed to `forward_to_srt_server`. -/
structure PacketResult where
  group : ConnectionGroup
  effects : List Effect
  incs : Incs
  forward : Bool

/-- Lines 127-183 of `process_single_packet`, for the group and connection that
    `find_by_address` returned. -/
def onPacket (g : ConnectionGroup) (c : Connection) (buf : Bytes) (addr : SockaddrStorage) (ts : ℤ)
    (env : PacketEnv) : PacketResult :=
  let touched := c.touch ts
  if isSrtlaKeepalive (mem buf) buf.length then
    let r := handleKeepalive touched.1 addr buf env
    ⟨g.putConn r.1, r.2.1, touched.2 ++ r.2.2, false⟩
  else if buf.length < srtMinLen then ⟨g.putConn touched.1, [], touched.2, false⟩
  else
    let c := { touched.1 with stats := touched.1.stats.onPacketReceived buf.length }
    let g := { g.putConn c with dataSeen := true, lastAddr := addr }
    let nak := if isSrtNakPacket buf then onNak g c buf ts env else (true, g, [])
    if !nak.1 then ⟨nak.2.1, [], touched.2 ++ nak.2.2, false⟩
    else
      let r := onSequenceNumber nak.2.1 c.ref buf env
      ⟨r.1, r.2.1, touched.2 ++ nak.2.2 ++ r.2.2, true⟩

/-- `process_single_packet` (`src/protocol/srtla_handler.cpp:107-188`). -/
def processSinglePacket (s : State) (buf : Bytes) (addr : SockaddrStorage) (ts : ℤ)
    (env : PacketEnv) : State × List Effect :=
  if isSrtlaReg1 (mem buf) buf.length then (registerGroup s addr (mem buf) ts env).2
  else if isSrtlaReg2 (mem buf) buf.length then (registerConnection s addr (mem buf) ts env).2
  else
    match findByAddress s.groups addr with
    | some (g, some c) =>
      let r := onPacket g c buf addr ts env
      let s := (s.inc r.incs).putGroup r.group
      if r.forward then
        let f := forwardToSrtServer s r.group buf env.forward
        (f.2.1, r.effects ++ f.2.2)
      else (s, r.effects)
    | _ => (s, [])

/-! ## Batches -/

/-- One message of `recvmmsg`, with the outcomes of its processing. -/
structure Datagram where
  buf : Bytes
  addr : SockaddrStorage
  env : PacketEnv
deriving DecidableEq

/-- The loop body of `process_packets`; a longer datagram is cut at `MTU` bytes. -/
def processDatagram (s : State) (d : Datagram) (ts : ℤ) : State × List Effect :=
  let buf := d.buf.take mtu
  if buf.length > 0 then
    processSinglePacket (s.inc [(.packetsReceived, 1), (.bytesReceived, buf.length)]) buf d.addr ts
      d.env
  else (s, [])

/-- The loop of `process_packets`. -/
def processDatagrams (ts : ℤ) : State → List Datagram → State × List Effect
  | s, [] => (s, [])
  | s, d :: ds =>
    let r := processDatagram s d ts
    let rest := processDatagrams ts r.1 ds
    (rest.1, r.2 ++ rest.2)

/-- `process_packets` (`src/protocol/srtla_handler.cpp:63-105`): `none` when
    `recvmmsg` fails. -/
def processPackets (s : State) (batch : Option (List Datagram)) (ts : ℤ) : State × List Effect :=
  match batch with
  | none => (s, [])
  | some ds => processDatagrams ts (s.inc [(.recvBatches, 1)]) ds

end Srtla.Receiver
