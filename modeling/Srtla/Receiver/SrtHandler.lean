import Srtla.Receiver.State

/-!
# The SRT side (`src/protocol/srt_handler.cpp`)

One UDP socket per group carries the client's packets to the SRT server and the
server's packets back. What the system calls return is given by an environment;
what the program hands to them is recorded as `Effect`s.

* `forwardToSrtServer_groups`, `forwardToSrtServer_effects`: a forward keeps the
  group exactly when it has or gets a socket and the send error is not fatal,
  and hands the buffer to `send` exactly once when there is a socket.
* `handleSrtData_groups`: a server packet ends the group, or it leaves the
  registry as it was except that the group may become established.
-/

namespace Srtla.Receiver

open Lib

/-! ## Effects -/

/-- The calls of `pad_sendto` in the receiver. -/
inductive SendSite
  | regReply
  | ack (conn : ℕ)
  | keepaliveEcho
  | keepalive
  | downstream
deriving DecidableEq

/-- A buffer handed to the system: with `pad_sendto` on the SRTLA socket, with
    `sendmmsg` on the SRTLA socket, or with `send` on a group's SRT socket.
    `ret` is what the system call returned. -/
inductive Effect
  | padSendto (site : SendSite) (addr : SockaddrStorage) (buf : Bytes) (ret : ℤ)
  | sendmmsg (addrs : List SockaddrStorage) (buf : Bytes) (ret : ℤ)
  | send (group : ℕ) (sock : ℤ) (buf : Bytes) (ret : ℤ)
deriving DecidableEq

/-- The datagrams an effect puts on the SRTLA network: a `sendto` that returned
    the length of its buffer sent it, and `sendmmsg` sent the messages it counted. -/
def Effect.wire : Effect → List (SockaddrStorage × Bytes)
  | .padSendto _ addr buf ret => if ret = (padWire buf).length then [(addr, padWire buf)] else []
  | .sendmmsg addrs buf ret => (addrs.take ret.toNat).map fun a => (a, buf)
  | .send .. => []

/-- `SRTHandler::remove_group` (`src/protocol/srt_handler.cpp:285-288`). -/
def State.teardown (s : State) (g : ConnectionGroup) (reason : Counter) : State :=
  (s.inc [(reason, 1)]).removeGroup g

@[simp] theorem State.teardown_groups (s : State) (g : ConnectionGroup) (r : Counter) :
    (s.teardown g r).groups = Keyed.remove ConnectionGroup.ref g.ref s.groups := rfl
@[simp] theorem State.teardown_limiter (s : State) (g : ConnectionGroup) (r : Counter) :
    (s.teardown g r).limiter = s.limiter := rfl
@[simp] theorem State.teardown_lastRun (s : State) (g : ConnectionGroup) (r : Counter) :
    (s.teardown g r).lastRun = s.lastRun := rfl
@[simp] theorem State.teardown_nextRef (s : State) (g : ConnectionGroup) (r : Counter) :
    (s.teardown g r).nextRef = s.nextRef := rfl

/-! ## To the SRT server -/

/-- What the system calls of `ensure_group_socket` return. `connect` is `-1`
    when `srt_addr_` belongs to neither family; `epollFd` is `epoll_fd_`. -/
structure SocketEnv where
  socket : ℤ
  setRcvbuf : ℤ
  setSndbuf : ℤ
  getFl : ℤ
  setFl : ℤ
  connect : ℤ
  epollAdd : ℤ
  epollFd : ℤ
deriving DecidableEq, Inhabited

/-- What the system calls of `forward_to_srt_server` return, and `errno`. -/
structure ForwardEnv where
  socket : SocketEnv
  sendRet : ℤ
  sendErrno : ℤ
deriving DecidableEq, Inhabited

/-- `ensure_group_socket` (`src/protocol/srt_handler.cpp:219-283`): the group
    with its socket, or `none` when the group was removed. -/
def ensureGroupSocket (s : State) (g : ConnectionGroup) (env : SocketEnv) :
    Option ConnectionGroup × State :=
  if g.srtSock ≥ 0 then (some g, s)
  else if env.socket < 0 then (none, s.teardown g .groupsRemovedSrtError)
  else if env.setRcvbuf ≠ 0 then (none, s.teardown g .groupsRemovedSrtError)
  else if env.setSndbuf ≠ 0 then (none, s.teardown g .groupsRemovedSrtError)
  else if env.getFl = -1 ∨ env.setFl = -1 then (none, s.teardown g .groupsRemovedSrtError)
  else if env.connect ≠ 0 then (none, s.teardown g .groupsRemovedSrtError)
  else if env.epollAdd ≠ 0 then (none, s.teardown g .groupsRemovedSrtError)
  else
    let g := { g with srtSock := env.socket, epollFd := env.epollFd }
    (some g, s.putGroup g)

def eintr : ℤ := 4
def eagain : ℤ := 11
def enobufs : ℤ := 105

/-- `is_transient_forward_error` (`src/protocol/forward_policy.h:28-40`). -/
def isTransientForwardError (err : ℤ) : Bool :=
  decide (err = eagain) || decide (err = enobufs) || decide (err = eintr)

/-- Lines 191-216 of `forward_to_srt_server`: `send` on the group's socket, and
    what follows from its result. -/
def sendOnGroupSocket (s : State) (g : ConnectionGroup) (buf : Bytes) (env : ForwardEnv) :
    Bool × State × List Effect :=
  let effects := [Effect.send g.ref g.srtSock buf env.sendRet]
  if env.sendRet = buf.length then
    (true, s.inc [(.forwardedPackets, 1), (.forwardedBytes, buf.length)], effects)
  else if env.sendRet < 0 && isTransientForwardError env.sendErrno then
    (true, s.inc [(.forwardDropped, 1)], effects)
  else
    (false, (s.inc [(.forwardErrors, 1)]).teardown g .groupsRemovedSrtError, effects)

/-- `forward_to_srt_server` (`src/protocol/srt_handler.cpp:186-217`). -/
def forwardToSrtServer (s : State) (g : ConnectionGroup) (buf : Bytes) (env : ForwardEnv) :
    Bool × State × List Effect :=
  match ensureGroupSocket s g env.socket with
  | (none, s) => (false, s, [])
  | (some g, s) => sendOnGroupSocket s g buf env

/-! ## From the SRT server -/

/-- What the system calls of `handle_srt_data` return: the datagram `recv` reads
    (`none` when it fails), the time in seconds, and the results of the sends. -/
structure SrtEnv where
  recv : Option Bytes
  now : ℤ
  sendmmsgRet : ℤ
  sendtoRet : ℤ
deriving DecidableEq, Inhabited

/-- `is_srt_ack(buf, n) || is_srt_nak(buf, n)`: the packets sent to every connection. -/
def isBroadcast (buf : Bytes) : Bool := isSrtAck (mem buf) buf.length || isSrtNak (mem buf) buf.length

/-- Lines 117-168 of `handle_srt_data`: the calls that relay `buf` to the
    client, and the counters of those that failed. -/
def relayDownstream (g : ConnectionGroup) (buf : Bytes) (env : SrtEnv) : List Effect × Incs :=
  if isBroadcast buf then
    let addrs := (g.conns.take maxConnsPerGroup).map Connection.addr
    ([.sendmmsg addrs buf env.sendmmsgRet],
      if env.sendmmsgRet < 0 then [(.sendErrDownstream, addrs.length)]
      else if env.sendmmsgRet < addrs.length then
        [(.sendErrDownstream, addrs.length - env.sendmmsgRet.toNat)]
      else [])
  else
    ([.padSendto .downstream g.lastAddr buf env.sendtoRet],
      if padRet buf.length env.sendtoRet ≠ buf.length then [(.sendErrDownstream, 1)] else [])

/-- `failed_auth` of `handle_srt_data`. -/
def failedAuth (g : ConnectionGroup) (buf : Bytes) : Bool :=
  isSrtHandshakeReject (mem buf) buf.length ||
    (isSrtShutdown (mem buf) buf.length && !g.established)

/-- `record_failure` on the receiver's rate limiter. -/
def State.recordFailure (s : State) (addr : SockaddrStorage) (now : ℤ) : State :=
  { s.inc [(.authFailures, 1)] with limiter := s.limiter.recordFailure addr now }

/-- An SRT ACK from the server establishes the session (lines 92-94). -/
def ConnectionGroup.noteAck (g : ConnectionGroup) (buf : Bytes) : ConnectionGroup :=
  if isSrtAck (mem buf) buf.length then { g with established := true } else g

/-- Lines 92-180 of `handle_srt_data`, on a packet `buf` of at least `SRT_MIN_LEN` bytes. -/
def handleSrtPacket (s : State) (g : ConnectionGroup) (buf : Bytes) (env : SrtEnv) :
    State × List Effect :=
  let g := g.noteAck buf
  let s := s.putGroup g
  let failed := failedAuth g buf
  let s := if failed then s.recordFailure g.lastAddr env.now else s
  if isBroadcast buf && g.conns.isEmpty then (s, [])
  else
    let relay := relayDownstream g buf env
    let s := s.inc relay.2
    (if failed then s.teardown g .groupsRemovedAuth else s, relay.1)

/-- `handle_srt_data` (`src/protocol/srt_handler.cpp:71-181`). -/
def handleSrtData (s : State) (g : ConnectionGroup) (env : SrtEnv) : State × List Effect :=
  match env.recv with
  | none => (s.teardown g .groupsRemovedSrtError, [])
  | some datagram =>
    let buf := datagram.take mtu
    if buf.length < srtMinLen then (s.teardown g .groupsRemovedSrtError, [])
    else
      handleSrtPacket (s.inc [(.srtPacketsReceived, 1), (.srtBytesReceived, buf.length)]) g buf env

/-! ## Outcomes of a forward -/

/-- Every call of `ensure_group_socket` succeeds. -/
def SocketEnv.opens (env : SocketEnv) : Bool :=
  decide (0 ≤ env.socket) && decide (env.setRcvbuf = 0) && decide (env.setSndbuf = 0) &&
    decide (env.getFl ≠ -1) && decide (env.setFl ≠ -1) && decide (env.connect = 0) &&
    decide (env.epollAdd = 0)

/-- The group has a socket or gets one. -/
def ConnectionGroup.getsSocket (g : ConnectionGroup) (env : SocketEnv) : Bool :=
  decide (0 ≤ g.srtSock) || env.opens

/-- The group with the socket `ensure_group_socket` leaves it with. -/
def ConnectionGroup.withSocket (g : ConnectionGroup) (env : SocketEnv) : ConnectionGroup :=
  if 0 ≤ g.srtSock then g else { g with srtSock := env.socket, epollFd := env.epollFd }

/-- A send error that ends the group: neither a full nor a transiently failed send. -/
def ForwardEnv.fatal (env : ForwardEnv) (buf : Bytes) : Bool :=
  decide (env.sendRet ≠ buf.length) && !(decide (env.sendRet < 0) && isTransientForwardError env.sendErrno)

theorem ConnectionGroup.withSocket_ref (g : ConnectionGroup) (env : SocketEnv) :
    (g.withSocket env).ref = g.ref := by
  unfold ConnectionGroup.withSocket
  split_ifs <;> rfl

theorem ensureGroupSocket_eq (s : State) (g : ConnectionGroup) (env : SocketEnv) :
    ensureGroupSocket s g env =
      if g.srtSock ≥ 0 then (some g, s)
      else if env.opens then (some (g.withSocket env), s.putGroup (g.withSocket env))
      else (none, s.teardown g .groupsRemovedSrtError) := by
  unfold ensureGroupSocket
  by_cases h0 : g.srtSock ≥ 0
  · rw [if_pos h0, if_pos h0]
  · rw [if_neg h0, if_neg h0]
    have hw : g.withSocket env = { g with srtSock := env.socket, epollFd := env.epollFd } :=
      if_neg h0
    by_cases ho : env.opens = true
    · rw [if_pos ho, hw]
      simp only [SocketEnv.opens, Bool.and_eq_true, decide_eq_true_eq] at ho
      obtain ⟨⟨⟨⟨⟨⟨h1, h2⟩, h3⟩, h4⟩, h5⟩, h6⟩, h7⟩ := ho
      simp [not_lt.mpr h1, h2, h3, h4, h5, h6, h7]
    · rw [if_neg ho]
      split_ifs with h1 h2 h3 h4 h5 h6
      all_goals first
        | rfl
        | exact absurd (by simp_all [SocketEnv.opens]) ho

/-- The counters of a send that does not end the group. -/
def ForwardEnv.incs (env : ForwardEnv) (buf : Bytes) : Incs :=
  if env.sendRet = buf.length then [(.forwardedPackets, 1), (.forwardedBytes, buf.length)]
  else [(.forwardDropped, 1)]

theorem sendOnGroupSocket_eq (s : State) (g : ConnectionGroup) (buf : Bytes) (env : ForwardEnv) :
    sendOnGroupSocket s g buf env =
      (!env.fatal buf,
        if env.fatal buf then (s.inc [(.forwardErrors, 1)]).teardown g .groupsRemovedSrtError
        else s.inc (env.incs buf),
        [.send g.ref g.srtSock buf env.sendRet]) := by
  unfold sendOnGroupSocket ForwardEnv.fatal ForwardEnv.incs
  by_cases h1 : env.sendRet = buf.length
  · simp [h1]
  · cases h2 : decide (env.sendRet < 0) && isTransientForwardError env.sendErrno <;> simp [h1]

/-- A forward by its two questions: is there a socket, and is the send error fatal. -/
theorem forwardToSrtServer_eq (s : State) (g : ConnectionGroup) (buf : Bytes) (env : ForwardEnv) :
    forwardToSrtServer (s.putGroup g) g buf env =
      if g.getsSocket env.socket then
        sendOnGroupSocket (s.putGroup (g.withSocket env.socket)) (g.withSocket env.socket) buf env
      else (false, (s.putGroup g).teardown g .groupsRemovedSrtError, []) := by
  unfold forwardToSrtServer ConnectionGroup.getsSocket
  rw [ensureGroupSocket_eq]
  by_cases h0 : 0 ≤ g.srtSock
  · have hw : g.withSocket env.socket = g := if_pos h0
    rw [if_pos h0, hw]
    simp [h0]
  · rw [if_neg h0]
    by_cases ho : env.socket.opens = true
    · have hput : (s.putGroup g).putGroup (g.withSocket env.socket) =
          s.putGroup (g.withSocket env.socket) := by
        simp only [State.putGroup, Keyed.put_put (g.withSocket_ref env.socket)]
      rw [if_pos ho, hput]
      simp [ho]
    · simp [h0, ho]

/-- The group survives a forward: it has or gets a socket, and the send error is not fatal. -/
def ConnectionGroup.survives (g : ConnectionGroup) (buf : Bytes) (env : ForwardEnv) : Bool :=
  g.getsSocket env.socket && !env.fatal buf

theorem forwardToSrtServer_groups (s : State) (g : ConnectionGroup) (buf : Bytes)
    (env : ForwardEnv) :
    (forwardToSrtServer (s.putGroup g) g buf env).2.1.groups =
      if g.survives buf env then Keyed.put ConnectionGroup.ref (g.withSocket env.socket) s.groups
      else Keyed.remove ConnectionGroup.ref g.ref s.groups := by
  rw [forwardToSrtServer_eq]
  unfold ConnectionGroup.survives
  cases hs : g.getsSocket env.socket with
  | false => simp [Keyed.remove_put]
  | true =>
    rw [if_pos rfl, sendOnGroupSocket_eq]
    cases hf : env.fatal buf with
    | false => simp
    | true => simp [Keyed.remove_put, g.withSocket_ref]

theorem forwardToSrtServer_effects (s : State) (g : ConnectionGroup) (buf : Bytes)
    (env : ForwardEnv) :
    (forwardToSrtServer (s.putGroup g) g buf env).2.2 =
      if g.getsSocket env.socket then
        [.send g.ref (g.withSocket env.socket).srtSock buf env.sendRet]
      else [] := by
  rw [forwardToSrtServer_eq]
  split_ifs with h
  · rw [sendOnGroupSocket_eq, g.withSocket_ref]
  · rfl

/-- A forward touches groups and counters only. -/
theorem forwardToSrtServer_frame (s : State) (g : ConnectionGroup) (buf : Bytes)
    (env : ForwardEnv) :
    (forwardToSrtServer (s.putGroup g) g buf env).2.1.limiter = s.limiter ∧
    (forwardToSrtServer (s.putGroup g) g buf env).2.1.lastRun = s.lastRun ∧
    (forwardToSrtServer (s.putGroup g) g buf env).2.1.nextRef = s.nextRef := by
  rw [forwardToSrtServer_eq]
  split_ifs with h
  · rw [sendOnGroupSocket_eq]
    split_ifs <;> exact ⟨rfl, rfl, rfl⟩
  · exact ⟨rfl, rfl, rfl⟩

/-! ## Outcomes of a server packet -/

/-- The datagram `recv` reads ends the group: it is missing or too short, or it
    rejects the session. -/
def ConnectionGroup.endsOn (g : ConnectionGroup) (env : SrtEnv) : Bool :=
  match env.recv with
  | none => true
  | some datagram =>
    decide ((datagram.take mtu).length < srtMinLen) || failedAuth g (datagram.take mtu)

/-- The group after a server packet that keeps it. -/
def ConnectionGroup.onServerPacket (g : ConnectionGroup) (env : SrtEnv) : ConnectionGroup :=
  match env.recv with
  | none => g
  | some datagram => g.noteAck (datagram.take mtu)

theorem ConnectionGroup.noteAck_eq (g : ConnectionGroup) (buf : Bytes) :
    g.noteAck buf = { g with established := (g.noteAck buf).established } := by
  unfold ConnectionGroup.noteAck
  split_ifs <;> rfl

@[simp] theorem ConnectionGroup.noteAck_ref (g : ConnectionGroup) (buf : Bytes) :
    (g.noteAck buf).ref = g.ref := by rw [ConnectionGroup.noteAck_eq]

theorem failedAuth_of_isBroadcast {g : ConnectionGroup} {buf : Bytes} (h : isBroadcast buf = true) :
    failedAuth g buf = false := by
  have ht : getSrtType (mem buf) buf.length = srtTypeAck ∨
      getSrtType (mem buf) buf.length = srtTypeNak := by
    simpa [isBroadcast, isSrtAck, isSrtNak] using h
  have h1 : getSrtType (mem buf) buf.length ≠ srtTypeHandshake := by
    rcases ht with ht | ht <;> rw [ht] <;> decide
  have h2 : getSrtType (mem buf) buf.length ≠ srtTypeShutdown := by
    rcases ht with ht | ht <;> rw [ht] <;> decide
  simp [failedAuth, isSrtHandshakeReject, isSrtShutdown, h1, h2]

/-- Establishing the session does not change whether the packet rejects it. -/
theorem failedAuth_noteAck (g : ConnectionGroup) (buf : Bytes) :
    failedAuth (g.noteAck buf) buf = failedAuth g buf := by
  by_cases h : isSrtAck (mem buf) buf.length = true
  · have hb : isBroadcast buf = true := by simp [isBroadcast, h]
    rw [failedAuth_of_isBroadcast hb, failedAuth_of_isBroadcast hb]
  · rw [ConnectionGroup.noteAck, if_neg h]

theorem handleSrtPacket_groups (s : State) (g : ConnectionGroup) (buf : Bytes) (env : SrtEnv) :
    (handleSrtPacket s g buf env).1.groups =
      if failedAuth g buf then Keyed.remove ConnectionGroup.ref g.ref s.groups
      else Keyed.put ConnectionGroup.ref (g.noteAck buf) s.groups := by
  unfold handleSrtPacket
  simp only [failedAuth_noteAck]
  cases hb : isBroadcast buf with
  | true =>
    simp only [failedAuth_of_isBroadcast hb, Bool.false_eq_true, if_false]
    split_ifs <;> rfl
  | false =>
    cases hf : failedAuth g buf with
    | false => simp
    | true =>
      have hrem := Keyed.remove_put (l := s.groups) (g.noteAck_ref buf)
      simpa [State.recordFailure] using hrem

theorem handleSrtData_groups (s : State) (g : ConnectionGroup) (env : SrtEnv) :
    (handleSrtData s g env).1.groups =
      if g.endsOn env then Keyed.remove ConnectionGroup.ref g.ref s.groups
      else Keyed.put ConnectionGroup.ref (g.onServerPacket env) s.groups := by
  unfold handleSrtData ConnectionGroup.endsOn ConnectionGroup.onServerPacket
  cases env.recv with
  | none => simp
  | some datagram =>
    dsimp only
    by_cases hlen : (datagram.take mtu).length < srtMinLen
    · simp only [hlen, if_true, decide_true, Bool.true_or, State.teardown_groups]
    · simp only [hlen, if_false, decide_false, Bool.false_or, handleSrtPacket_groups, State.inc_groups]

/-- A server packet leaves the cleanup time and the supply of identities alone. -/
theorem handleSrtData_frame (s : State) (g : ConnectionGroup) (env : SrtEnv) :
    (handleSrtData s g env).1.lastRun = s.lastRun ∧
    (handleSrtData s g env).1.nextRef = s.nextRef := by
  unfold handleSrtData
  cases env.recv with
  | none => exact ⟨rfl, rfl⟩
  | some datagram =>
    dsimp only [handleSrtPacket]
    split_ifs <;> exact ⟨rfl, rfl⟩

end Srtla.Receiver
