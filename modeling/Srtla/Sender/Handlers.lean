import Srtla.Sender.State

/-!
# The handlers of the sender (`src/sender.cpp:218-240`, `:329-433`, `:599-845`)

`handleSrtData` sends a packet of the SRT caller on the best link.
`handleSrtlaData` handles a datagram of the receiver. `connectionHousekeeping`
probes and re-registers the links. `step` is one of the calls the main loop
makes; the loop makes them in a fixed order, a run of `step`s in any.

A datagram lies in a buffer on the stack of which only the first `n` bytes are
set by `recvfrom`, so the buffer is memory and `n` a number: two handlers read
past `n`.
-/

namespace Srtla.Sender

open Lib

/-! ## Packets of the SRT caller -/

/-- The system calls of `handle_srt_data`. `src` is the address `recvfrom`
    stores when it succeeds, `ret` what `sendto` returns. -/
structure SrtDataEnv where
  n : ℤ
  buf : Mem
  src : SockaddrStorage
  seconds : Option ℤ
  ret : ℤ

/-- `handle_srt_data` (`src/sender.cpp:218-240`). -/
def handleSrtData (s : State) (env : SrtDataEnv) : State × List Effect :=
  let s := { s with srtAddr := if 0 ≤ env.n then env.src else s.srtAddr }
  match selectConn s.conns env.seconds with
  | none => (s, [])
  | some c =>
    let sn := getSrtSn env.buf env.n
    let r := s.sendto c (window env.buf 0 env.n.toNat) env.ret
    let c :=
      if r.1 = env.n then (if sn ≥ 0 then c.regPkt sn else c)
      -- the link is out of use until the receiver is heard from again
      else { c with lastRcvd := 1 }
    (s.putConn c, r.2)

/-! ## Datagrams of the receiver -/

/-- The loop `for (int32_t lost = id; lost <= last_id; lost++)` (line 399): the
    arguments of `register_nak`. `lost` is compared as an unsigned number and
    wraps around; the loop does not end when `last_id` is `0xFFFFFFFF`. -/
def nakRange : (fuel : ℕ) → (lost lastId : ℕ) → Option (List ℤ)
  | 0, _, _ => none
  | fuel + 1, lost, lastId =>
    if lost ≤ lastId then
      (nakRange fuel ((lost + 1) % 2 ^ 32) lastId).map fun rest => toInt32 lost :: rest
    else some []

/-- The loop over the words of a NAK (lines 394-406) from word `i` on, with at
    most `k` iterations. A range takes the next word as its end, also when that
    word is past the `n` bytes received. -/
def nakIds (fuel : ℕ) (buf : Mem) (n : ℤ) : (k i : ℕ) → Option (List ℤ)
  | 0, _ => some []
  | k + 1, i =>
    if (i : ℤ) < n / 4 then
      let id := be32 buf (4 * i)
      if id &&& (1 <<< 31) ≠ 0 then
        (nakRange fuel (id &&& 0x7FFFFFFF) (be32 buf (4 * (i + 1)))).bind fun range =>
          (nakIds fuel buf n k (i + 2)).map fun rest => range ++ rest
      else (nakIds fuel buf n k (i + 1)).map fun rest => toInt32 id :: rest
    else some []

/-- The arguments of `register_srtla_ack` in the loop over the words of an SRTLA
    ACK (lines 412-417). -/
def srtlaAckIds (buf : Mem) (n : ℤ) : List ℤ :=
  (List.range' 1 ((n / 4).toNat - 1)).map fun i => toInt32 (be32 buf (4 * i))

/-- The REG_NGP branch (lines 343-356). -/
def onRegNgp (s : State) (c : Conn) (ts : ℤ) (ret : ℕ → ℤ) : State × List Effect :=
  if s.activeConnections = 0 ∧ s.pendingReg2Conn = none ∧ ts > s.pendingRegTimeout then
    let r := s.sendReg1 c (ret c.ref)
    if r.1 = 0 then
      ({ s with pendingReg2Conn := some c.ref, pendingRegTimeout := ts + reg2Timeout }, r.2)
    else (s, r.2)
  else (s, [])

/-- The loop that broadcasts REG2 (lines 372-374). -/
def State.broadcastReg2 (s : State) (ret : ℕ → ℤ) : List Effect :=
  s.conns.flatMap fun i => (s.sendReg2 i (ret i.ref)).2

/-- The REG2 branch (lines 358-380); it does not look at the length. -/
def onReg2 (s : State) (c : Conn) (buf : Mem) (ts : ℤ) (ret : ℕ → ℤ) : State × List Effect :=
  if s.pendingReg2Conn = some c.ref then
    if readBlock buf 2 128 ≠ s.srtlaId.firstHalf then (s, [])
    else
      let s := { s with srtlaId := readBlock buf 2 256 }
      ({ s with pendingReg2Conn := none, pendingRegTimeout := ts + reg3Timeout },
        s.broadcastReg2 ret)
  else (s, [])

/-- The `switch` (lines 384-432), after `last_rcvd` was written. -/
def dispatch (s : State) (buf : Mem) (n : ℤ) (fuel : ℕ) : Option (State × List Effect) :=
  let type := getSrtType buf n
  let toCaller := [Effect.caller s.srtAddr (window buf 0 n.toNat)]
  if type = srtTypeAck then
    some ({ s with conns := registerSrtAck (toInt32 (be32 buf 16)) s.conns }, toCaller)
  else if type = srtTypeNak then
    (nakIds fuel buf n (n / 4).toNat 4).map fun ids =>
      ({ s with conns := ids.foldl (fun conns id => registerNak id conns) s.conns }, toCaller)
  else if type = srtlaTypeAck then
    some ({ s with
      conns := (srtlaAckIds buf n).foldl (fun conns id => registerSrtlaAck id conns) s.conns }, [])
  else if type = srtlaTypeKeepalive then some (s, [])
  else if type = srtlaTypeReg3 then
    some ({ s with hasConnected := true, activeConnections := s.activeConnections + 1 }, [])
  else some (s, toCaller)

/-- `handle_srtla_data` (`src/sender.cpp:329-433`) for a link `c` of the list:
    `n` bytes were received at time `ts`, and `ret` is what a `sendto` on each
    link returns. `none` when a NAK range needs more than `fuel` iterations. -/
def handleSrtlaData (s : State) (c : Conn) (buf : Mem) (n : ℤ) (ts : ℤ) (ret : ℕ → ℤ) (fuel : ℕ) :
    Option (State × List Effect) :=
  if n ≤ 0 then some (s, [])
  else if getSrtType buf n = srtlaTypeRegNgp then some (onRegNgp s c ts ret)
  else if getSrtType buf n = srtlaTypeReg2 then some (onReg2 s c buf ts ret)
  else dispatch (s.putConn { c with lastRcvd := ts }) buf n fuel

/-! ## Housekeeping -/

/-- The system calls of `connection_housekeeping`: the clock (`none` when
    `get_ms` fails), and per link those of `open_socket` and of `sendto`. -/
structure HousekeepingEnv where
  ms : Option ℕ
  opens : ℕ → OpenEnv
  ret : ℕ → ℤ

/-- Lines 631-641: a link that has just failed is reset. -/
def Conn.reset (c : Conn) : Conn :=
  if c.lastRcvd > 0 then
    { c with
      lastRcvd := 0
      lastSent := 0
      window := windowMin * windowMult
      inFlightPkts := 0
      pktLog := Vector.replicate pktLogSz (-1) }
  else c

/-- What one iteration of the loop over the links leaves. -/
structure LinkPass where
  fds : List ℤ
  conn : Conn
  active : ℤ
  effects : List Effect

/-- The loop body (lines 623-660). -/
def housekeepConn (s : State) (time : ℤ) (env : HousekeepingEnv) (fds : List ℤ) (c : Conn) :
    LinkPass :=
  if c.fd < 0 then
    let r := openSocket fds c (env.opens c.ref)
    ⟨r.2.1, r.2.2, 0, []⟩
  else if c.timedOut time then
    let c := c.reset
    ⟨fds, c, 0,
      if s.pendingReg2Conn = none then (s.sendReg2 c (env.ret c.ref)).2
      else if s.pendingReg2Conn = some c.ref then (s.sendReg1 c (env.ret c.ref)).2
      else []⟩
  else
    ⟨fds, c, 1, if c.lastSent + idleTime < time then s.sendKeepalive c (env.ret c.ref) else []⟩

/-- The loop over the links (lines 622-661): the descriptors, the links, the
    number of active ones and the calls. -/
def housekeepLoop (s : State) (time : ℤ) (env : HousekeepingEnv) :
    List ℤ → List Conn → List ℤ × List Conn × ℤ × List Effect
  | fds, [] => (fds, [], 0, [])
  | fds, c :: cs =>
    let p := housekeepConn s time env fds c
    let rest := housekeepLoop s time env p.fds cs
    (rest.1, p.conn :: rest.2.1, p.active + rest.2.2.1, p.effects ++ rest.2.2.2)

/-- Lines 663-694: what happens when no link is active. -/
def State.checkFailed (s : State) (ms : ℕ) : State :=
  if s.activeConnections = 0 then
    let s := if s.allFailedAt = 0 then { s with allFailedAt := ms } else s
    if ms > s.allFailedAt + globalTimeout * 1000 then
      if s.hasConnected then { s with exited := true }
      else
        match s.addrs with
        | next :: rest => { s with addrs := rest, srtlaAddr := next, allFailedAt := 0 }
        | [] => { s with exited := true }
    else s
  else { s with allFailedAt := 0 }

/-- Lines 618-620: a REG1 that got no answer in time is given up. -/
def State.expirePending (s : State) (time : ℤ) : State :=
  if s.pendingReg2Conn ≠ none ∧ time > s.pendingRegTimeout then { s with pendingReg2Conn := none }
  else s

/-- `connection_housekeeping` (`src/sender.cpp:599-697`). -/
def connectionHousekeeping (s : State) (env : HousekeepingEnv) : State × List Effect :=
  match env.ms with
  | none => (s, [])
  | some ms =>
    if s.lastRan + housekeepingInt > ms then (s, [])
    else
      let time : ℤ := (ms / 1000 : ℕ)
      let s := s.expirePending time
      let r := housekeepLoop s time env s.activeFds s.conns
      let s := { s with activeFds := r.1, conns := r.2.1, activeConnections := r.2.2.1 }
      ({ s.checkFailed ms with lastRan := ms }, r.2.2.2)

/-! ## The program -/

/-- What `main` reads at start-up: the lines of the file of source addresses,
    the random half of the id, the listening socket, the system calls for each
    link, and the resolved addresses of the receiver (none when
    `getaddrinfo` fails). -/
structure Config where
  lines : List (Option (Block 4))
  half : IdHalf
  listenfd : ℤ
  bind : ℤ
  opens : ℕ → OpenEnv
  addrs : List SockaddrStorage

/-- The globals before `main`: `srtla_id` is filled with zeros. -/
def State.zero : State where
  conns := []
  activeFds := []
  listenfd := 0
  srtlaAddr := default
  srtAddr := default
  addrs := []
  activeConnections := 0
  hasConnected := false
  pendingReg2Conn := none
  pendingRegTimeout := 0
  srtlaId := zeroBlock 256
  allFailedAt := 0
  lastRan := 0
  exited := false
  nextRef := 0

/-- `main` up to its loop (`src/sender.cpp:752-806`); `none` when it exits. -/
def start (cfg : Config) : Option State :=
  let s := State.zero.setupConns cfg.lines
  if s.conns = [] then none
  else
    let s := { s with srtlaId := .ofHalves cfg.half s.srtlaId.secondHalf, listenfd := cfg.listenfd }
    if cfg.listenfd < 0 ∨ cfg.bind < 0 then none
    else
      let r := openConns cfg.opens (addActiveFd [] cfg.listenfd) s.conns
      if r.1 < 1 then none
      else
        match cfg.addrs with
        | [] => none
        | addr :: rest =>
          some { s with activeFds := r.2.1, conns := r.2.2, srtlaAddr := addr, addrs := rest }

/-- The calls of the main loop. -/
inductive Op
  /-- `handle_srt_data`. -/
  | srtData (env : SrtDataEnv)
  /-- `handle_srtla_data` for the link `conn`. -/
  | srtlaData (conn : ℕ) (buf : Mem) (n : ℤ) (ts : ℤ) (ret : ℕ → ℤ) (fuel : ℕ)
  /-- `update_conns`, after a SIGHUP. -/
  | updateConns (file : Option (List (Option (Block 4))))
  /-- `connection_housekeeping`. -/
  | housekeeping (env : HousekeepingEnv)

/-- One call, `none` when it does not return or there is none to make: the
    program has exited, or the link is not in the list or has no socket. -/
def step (s : State) (op : Op) : Option (State × List Effect) :=
  if s.exited then none
  else
    match op with
    | .srtData env => some (handleSrtData s env)
    | .srtlaData ref buf n ts ret fuel =>
      match Keyed.get Conn.ref ref s.conns with
      | none => none
      | some c => if c.fd < 0 then none else handleSrtlaData s c buf n ts ret fuel
    | .updateConns file => some (s.updateConns file, [])
    | .housekeeping env => some (connectionHousekeeping s env)

end Srtla.Sender
