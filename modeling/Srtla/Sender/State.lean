import Srtla.Lib.Keyed
import Srtla.Sender.Conn

/-!
# State of the sender, its sockets and its list of links
(`src/sender.cpp:70-148`, `:440-596`)

The globals of `sender.cpp` are one record, `State`; the two `static` locals of
`connection_housekeeping` are fields of it too. Links are objects with an
identity, as in the receiver; a pointer to a link is its `ref`.
-/

namespace Srtla.Sender

open Lib

/-- The globals of the sender. `addrs` is the list of resolved receiver
    addresses from `addrs->ai_next` on. `exited` records a call of `exit`, after
    which the program does nothing. -/
structure State where
  conns : List Conn
  activeFds : List ℤ
  listenfd : ℤ
  srtlaAddr : SockaddrStorage
  srtAddr : SockaddrStorage
  addrs : List SockaddrStorage
  activeConnections : ℤ
  hasConnected : Bool
  pendingReg2Conn : Option ℕ
  pendingRegTimeout : ℤ
  srtlaId : SrtlaId
  /-- `all_failed_at`, in milliseconds. -/
  allFailedAt : ℕ
  /-- `last_ran`, in milliseconds. -/
  lastRan : ℕ
  exited : Bool
  nextRef : ℕ
deriving DecidableEq

/-- Writes a link through its pointer. -/
def State.putConn (s : State) (c : Conn) : State := { s with conns := Keyed.put Conn.ref c s.conns }

/-! ## Sockets -/

/-- The `sendto` calls of the sender: on the socket of a link, to the receiver,
    with the value returned; and on the listening socket, to the SRT caller. -/
inductive Effect
  | link (conn : ℕ) (addr : SockaddrStorage) (dst : SockaddrStorage) (buf : Bytes) (ret : ℤ)
  | caller (dst : SockaddrStorage) (buf : Bytes)
deriving DecidableEq

/-- The datagram an effect puts on the SRTLA network, with its source address. -/
def Effect.wire : Effect → List (SockaddrStorage × Bytes)
  | .link _ addr _ buf ret => if ret = buf.length then [(addr, buf)] else []
  | .caller .. => []

/-- What `sendto` on a link returns and does, given what the system call returns
    on an open descriptor; on a closed one (`fd` is `-1`) it fails. -/
def State.sendto (s : State) (c : Conn) (buf : Bytes) (ret : ℤ) : ℤ × List Effect :=
  let ret := if c.fd < 0 then -1 else ret
  (ret, [.link c.ref c.addr s.srtlaAddr buf ret])

/-- `send_reg1` (`src/sender.cpp:121-135`). -/
def State.sendReg1 (s : State) (c : Conn) (ret : ℤ) : ℤ × List Effect :=
  if c.fd < 0 then (-1, [])
  else
    let r := s.sendto c (reg1Frame s.srtlaId) ret
    (if r.1 ≠ srtlaTypeReg1Len then -1 else 0, r.2)

/-- `send_reg2` (`src/sender.cpp:137-148`). -/
def State.sendReg2 (s : State) (c : Conn) (ret : ℤ) : ℤ × List Effect :=
  if c.fd < 0 then (-1, [])
  else
    let r := s.sendto c (reg2Frame s.srtlaId) ret
    (if r.1 = srtlaTypeReg2Len then 0 else -1, r.2)

/-- `send_keepalive` (`src/sender.cpp:591-596`). -/
def State.sendKeepalive (s : State) (c : Conn) (ret : ℤ) : List Effect :=
  (s.sendto c (putBe16 srtlaTypeKeepalive) ret).2

/-- `add_active_fd` (`src/sender.cpp:96-105`). -/
def addActiveFd (fds : List ℤ) (fd : ℤ) : List ℤ := if fd < 0 then fds else fd :: fds

/-- `remove_active_fd` (`src/sender.cpp:107-114`). -/
def removeActiveFd (fds : List ℤ) (fd : ℤ) : List ℤ :=
  if fd < 0 then fds else fds.filter fun x => decide (x ≠ fd)

/-- The system calls of `open_socket`: the descriptor `socket` returns, the
    values of `setsockopt` and `bind`, and the address the socket gets. -/
structure OpenEnv where
  socket : ℤ
  setsockopt : ℤ
  bind : ℤ
  addr : SockaddrStorage
deriving DecidableEq, Inhabited

/-- `open_socket` (`src/sender.cpp:530-568`): the value returned, the set of
    descriptors and the link. -/
def openSocket (fds : List ℤ) (c : Conn) (env : OpenEnv) : ℤ × List ℤ × Conn :=
  let fds := if c.fd ≥ 0 then removeActiveFd fds c.fd else fds
  let c := if c.fd ≥ 0 then { c with fd := -1 } else c
  if env.socket < 0 then (-1, fds, c)
  else if env.setsockopt ≠ 0 ∨ env.bind ≠ 0 then (-1, fds, c)
  else (0, addActiveFd fds env.socket, { c with fd := env.socket, addr := env.addr })

/-- `open_conns` (`src/sender.cpp:570-579`): the number of sockets opened, the
    set of descriptors and the links. -/
def openConns (env : ℕ → OpenEnv) : List ℤ → List Conn → ℕ × List ℤ × List Conn
  | fds, [] => (0, fds, [])
  | fds, c :: cs =>
    let r := openSocket fds c (env c.ref)
    let rest := openConns env r.2.1 cs
    ((if r.1 = 0 then 1 else 0) + rest.1, rest.2.1, r.2.2 :: rest.2.2)

/-! ## The list of links -/

/-- `conn_find_by_src` (`src/sender.cpp:440-448`). -/
def connFindBySrc (conns : List Conn) (src : Block 4) : Option Conn :=
  conns.find? fun c => decide (src = c.src)

/-- One line of the file, as `parse_ip` reads it (`none` when it fails):
    lines 466-489 of `setup_conns`. -/
def State.setupLine (s : State) (line : Option (Block 4)) : State :=
  match line with
  | none => s
  | some src =>
    match connFindBySrc s.conns src with
    | none => { s with conns := Conn.create s.nextRef src :: s.conns, nextRef := s.nextRef + 1 }
    | some c => s.putConn { c with removed := false }

/-- `setup_conns` (`src/sender.cpp:450-497`) on the lines of the file. -/
def State.setupConns (s : State) (lines : List (Option (Block 4))) : State :=
  lines.foldl State.setupLine s

/-- The removal loop of `update_conns` (lines 508-525). -/
def removeLoop : State → List Conn → State
  | s, [] => { s with conns := [] }
  | s, c :: cs =>
    if c.removed then
      removeLoop
        { s with
          pendingReg2Conn := if s.pendingReg2Conn = some c.ref then none else s.pendingReg2Conn
          activeFds := removeActiveFd s.activeFds c.fd } cs
    else
      let rest := removeLoop s cs
      { rest with conns := c :: rest.conns }

/-- `update_conns` (`src/sender.cpp:499-526`); `none` when the file cannot be
    opened, where `setup_conns` exits. -/
def State.updateConns (s : State) (file : Option (List (Option (Block 4)))) : State :=
  let s := { s with conns := s.conns.map fun c : Conn => { c with removed := true } }
  match file with
  | none => { s with exited := true }
  | some lines =>
    let s := s.setupConns lines
    removeLoop s s.conns

end Srtla.Sender
