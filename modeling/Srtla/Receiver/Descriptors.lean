import Srtla.Lib.Lifecycle
import Srtla.Receiver.GroupStep

/-!
# The descriptors of the receiver (`src/connection/connection_group.cpp:30-95`,
`src/protocol/srt_handler.cpp:219-283`)

A group gets a socket when its first packet is forwarded. The socket is watched by
epoll with the group as data pointer, and the file `/tmp/srtla-group-<port>` lists
the addresses of the group's connections. The destructor of the group undoes all
of this. `Fd.life` says which call is in order when; `State.fdCalls` are the calls
of one step, from the source.

**Deviation.** `ensure_group_socket` takes a group to have a socket from descriptor
0 on, the destructor only from 1 on: a socket that got descriptor 0 is never
closed. The results are about systems in which `socket` does not return 0, because
standard input is open.

The name of an info file is the local port of the socket. Open sockets have
different ports, so the file is kept with the descriptor. Files can be written.

* `step_fdCalls`: every step makes its calls in order.
* `descriptors_exact`: in every run the open sockets, what epoll watches and the
  info files are those of the registered groups, up to date.
-/

namespace Srtla.Receiver

open Lib Lib.Machine Lib.Lifecycle

/-! ## The life of a descriptor -/

/-- The calls on a descriptor. -/
inductive FdAction
  | socket
  | epollAdd (group : ℕ)
  | epollRemove
  | writeInfo (addrs : List SockaddrStorage)
  | removeInfo
  | close
deriving DecidableEq

/-- An open descriptor: the group that epoll has for it, and its info file. -/
structure Fd where
  group : Option ℕ
  info : Option (List SockaddrStorage)
deriving DecidableEq

/-- The calls that are in order: a descriptor is closed when epoll does not watch it
    any more and its file is gone. -/
def Fd.life : Option Fd → FdAction → Option (Option Fd)
  | none, .socket => some (some ⟨none, none⟩)
  | some ⟨none, info⟩, .epollAdd g => some (some ⟨some g, info⟩)
  | some ⟨some _, info⟩, .epollRemove => some (some ⟨none, info⟩)
  | some ⟨g, _⟩, .writeInfo addrs => some (some ⟨g, some addrs⟩)
  | some ⟨g, some _⟩, .removeInfo => some (some ⟨g, none⟩)
  | some ⟨none, none⟩, .close => some none
  | _, _ => none

/-! ## The calls of the program -/

/-- `get_client_addresses` (`src/connection/connection_group.cpp:54-61`). -/
def ConnectionGroup.getClientAddresses (g : ConnectionGroup) : List SockaddrStorage :=
  g.conns.map Connection.addr

/-- `write_socket_info_file` (`src/connection/connection_group.cpp:63-83`). -/
def ConnectionGroup.writeSocketInfoFile (g : ConnectionGroup) : List (ℤ × FdAction) :=
  if g.srtSock = -1 then [] else [(g.srtSock, .writeInfo g.getClientAddresses)]

/-- `remove_socket_info_file` (`src/connection/connection_group.cpp:85-95`). -/
def ConnectionGroup.removeSocketInfoFile (g : ConnectionGroup) : List (ℤ × FdAction) :=
  if g.srtSock = -1 then [] else [(g.srtSock, .removeInfo)]

/-- `ConnectionGroup::~ConnectionGroup` (`src/connection/connection_group.cpp:30-40`). -/
def ConnectionGroup.destroy (g : ConnectionGroup) : List (ℤ × FdAction) :=
  if g.srtSock > 0 then
    g.removeSocketInfoFile ++ (if g.epollFd ≥ 0 then [(g.srtSock, .epollRemove)] else []) ++
      [(g.srtSock, .close)]
  else []

/-- `ensure_group_socket` (`src/protocol/srt_handler.cpp:219-283`). -/
def ensureGroupSocketCalls (g : ConnectionGroup) (env : SocketEnv) : List (ℤ × FdAction) :=
  if g.srtSock ≥ 0 then []
  else if env.socket < 0 then []
  else (env.socket, .socket) ::
    if env.setRcvbuf ≠ 0 then [(env.socket, .close)]
    else if env.setSndbuf ≠ 0 then [(env.socket, .close)]
    else if env.getFl = -1 ∨ env.setFl = -1 then [(env.socket, .close)]
    else if env.connect ≠ 0 then [(env.socket, .close)]
    else if env.epollAdd ≠ 0 then [(env.socket, .close)]
    else (env.socket, .epollAdd g.ref) ::
      ({ g with srtSock := env.socket, epollFd := env.epollFd } : ConnectionGroup).writeSocketInfoFile

/-- `forward_to_srt_server` (`src/protocol/srt_handler.cpp:186-217`): a group that is
    removed is destroyed when the caller lets go of it. -/
def forwardCalls (g : ConnectionGroup) (buf : Bytes) (env : ForwardEnv) : List (ℤ × FdAction) :=
  ensureGroupSocketCalls g env.socket ++
    if g.survives buf env then []
    else if g.getsSocket env.socket then (g.withSocket env.socket).destroy
    else g.destroy

/-- `register_group` (`src/protocol/srtla_handler.cpp:206-277`): a victim that makes
    room is destroyed. -/
def registerGroupCalls (s : State) (addr : SockaddrStorage) (ts : ℤ) : List (ℤ × FdAction) :=
  if s.limiter.isBlocked addr ts then []
  else s.victim.toList.flatMap ConnectionGroup.destroy

/-- `register_connection` (`src/protocol/srtla_handler.cpp:279-350`). -/
def registerConnectionCalls (s : State) (addr : SockaddrStorage) (buffer : Mem) (ts : ℤ)
    (env : PacketEnv) : List (ℤ × FdAction) :=
  match findGroupById s.groups (readBlock buffer 2 256) with
  | none => []
  | some group =>
    let found := findByAddress s.groups addr
    if found.any fun p => decide (p.1.ref ≠ group.ref) then []
    else
      let conn := found.bind Prod.snd
      if conn.isNone && decide (group.conns.length ≥ maxConnsPerGroup) then []
      else if padRet 2 env.sendtoRet ≠ 2 then []
      else
        (if conn.isNone then group.addConnection (Connection.create s.nextRef addr ts)
          else group).writeSocketInfoFile

/-- The iteration of `cleanup_inactive` for one group
    (`src/connection/connection_registry.cpp:131-188`). -/
def cleanupCalls (t : ℤ) (g : ConnectionGroup) : List (ℤ × FdAction) :=
  match reapGroup t g with
  | none => g.destroy
  | some g' => if g.conns.length ≠ g'.conns.length then g'.writeSocketInfoFile else []

/-- The calls of a step, in their order. -/
def State.fdCalls (s : State) : Op → List (ℤ × FdAction)
  | .packet buf addr ts env =>
    if isSrtlaReg1 (mem buf) buf.length then registerGroupCalls s addr ts
    else if isSrtlaReg2 (mem buf) buf.length then registerConnectionCalls s addr (mem buf) ts env
    else
      match findByAddress s.groups addr with
      | some (g, some c) =>
        if relays g buf env then forwardCalls (onPacket g c buf addr ts env).group buf env.forward
        else []
      | _ => []
  | .srtData ref env =>
    match Keyed.get ConnectionGroup.ref ref s.groups with
    | some g => if g.endsOn env then g.destroy else []
    | none => []
  | .evict => (oldestPending s.groups).toList.flatMap ConnectionGroup.destroy
  | .cleanup t _ => if s.lastRun + cleanupPeriod > t then [] else s.groups.flatMap (cleanupCalls t)
  | .limiterCleanup _ => []
  | .quality .. => []
  | .count _ => []

/-! ## The descriptors of the registered groups -/

/-- What the descriptor of a group is while the group is registered. -/
def ConnectionGroup.fd (g : ConnectionGroup) : Fd := ⟨some g.ref, some g.getClientAddresses⟩

/-- The descriptors that the registry accounts for. -/
def State.descriptors (s : State) (fd : ℤ) : Option Fd :=
  (s.groups.find? fun g => decide (0 ≤ fd ∧ g.srtSock = fd)).map ConnectionGroup.fd

/-- What is known of the sockets of the groups: they are different, and they are
    watched by epoll. -/
structure Sockets (s : State) : Prop where
  inv : Inv s
  apart : ∀ g ∈ s.groups, ∀ g' ∈ s.groups, 0 ≤ g.srtSock → g'.srtSock = g.srtSock → g' = g
  kept : ∀ g ∈ s.groups, g.srtSock = -1 ∨ (0 < g.srtSock ∧ 0 ≤ g.epollFd)

/-- A call of `socket` returns a descriptor that is not 0 and not in use, and epoll
    has one. -/
def Op.Grants (s : State) : Op → Prop
  | .packet buf addr ts env =>
    ∀ fd, (fd, FdAction.socket) ∈ s.fdCalls (.packet buf addr ts env) →
      0 < fd ∧ 0 ≤ env.forward.socket.epollFd ∧ ∀ g ∈ s.groups, g.srtSock ≠ fd
  | _ => True

variable {s s' : State} {g g' : ConnectionGroup} {fd : ℤ}

theorem Sockets.descriptors_eq (h : Sockets s) (hg : g ∈ s.groups) (h0 : 0 ≤ g.srtSock) :
    s.descriptors g.srtSock = some g.fd := by
  unfold State.descriptors
  cases hf : s.groups.find? fun x => decide (0 ≤ g.srtSock ∧ x.srtSock = g.srtSock) with
  | none =>
    have := List.find?_eq_none.mp hf g hg
    simp [h0] at this
  | some x =>
    have hx := List.find?_some hf
    rw [decide_eq_true_eq] at hx
    rw [h.apart g hg x (List.mem_of_find?_eq_some hf) h0 hx.2]
    rfl

theorem descriptors_eq_none (h : ∀ g ∈ s.groups, 0 ≤ g.srtSock → g.srtSock ≠ fd) :
    s.descriptors fd = none := by
  unfold State.descriptors
  rw [Option.map_eq_none_iff, List.find?_eq_none]
  intro g hg
  rw [decide_eq_true_eq]
  rintro ⟨h0, heq⟩
  exact h g hg (heq ▸ h0) heq

/-- A descriptor belongs to a group, or to none. -/
theorem Sockets.cases (h : Sockets s) (fd : ℤ) :
    (∃ g ∈ s.groups, 0 < g.srtSock ∧ 0 ≤ g.epollFd ∧ fd = g.srtSock ∧ s.descriptors fd = some g.fd) ∨
      ((∀ g ∈ s.groups, 0 ≤ g.srtSock → g.srtSock ≠ fd) ∧ s.descriptors fd = none) := by
  by_cases hfd : ∃ g ∈ s.groups, 0 ≤ g.srtSock ∧ g.srtSock = fd
  · obtain ⟨g, hg, h0, rfl⟩ := hfd
    rcases h.kept g hg with hneg | ⟨hpos, hepoll⟩
    · omega
    · exact Or.inl ⟨g, hg, hpos, hepoll, rfl, h.descriptors_eq hg h0⟩
  · push Not at hfd
    exact Or.inr ⟨hfd, descriptors_eq_none hfd⟩

/-! ## Calls on one descriptor -/

/-- `ensure_group_socket` opens and closes, or it opens and announces the socket. -/
theorem ensureGroupSocketCalls_eq (g : ConnectionGroup) (env : SocketEnv) :
    ensureGroupSocketCalls g env =
      if 0 ≤ g.srtSock ∨ env.socket < 0 then []
      else if env.opens then
        [(env.socket, .socket), (env.socket, .epollAdd g.ref),
          (env.socket, .writeInfo g.getClientAddresses)]
      else [(env.socket, .socket), (env.socket, .close)] := by
  unfold ensureGroupSocketCalls
  by_cases h0 : 0 ≤ g.srtSock
  · rw [if_pos h0, if_pos (Or.inl h0)]
  · by_cases hneg : env.socket < 0
    · rw [if_neg h0, if_pos hneg, if_pos (Or.inr hneg)]
    · rw [if_neg h0, if_neg hneg, if_neg (not_or.mpr ⟨h0, hneg⟩)]
      by_cases hopens : env.opens = true
      · rw [if_pos hopens]
        simp only [SocketEnv.opens, Bool.and_eq_true, decide_eq_true_eq] at hopens
        obtain ⟨⟨⟨⟨⟨⟨_, h1⟩, h2⟩, h3⟩, h4⟩, h5⟩, h6⟩ := hopens
        rw [if_neg (not_not.mpr h1), if_neg (not_not.mpr h2), if_neg (not_or.mpr ⟨h3, h4⟩),
          if_neg (not_not.mpr h5), if_neg (not_not.mpr h6), ConnectionGroup.writeSocketInfoFile,
          if_neg (show env.socket ≠ -1 by omega)]
        rfl
      · rw [if_neg hopens]
        congr 1
        split_ifs with h1 h2 h34 h5 h6
        all_goals first
          | rfl
          | skip
        -- every test was passed
        refine absurd ?_ hopens
        obtain ⟨h3, h4⟩ := not_or.mp h34
        simp [SocketEnv.opens, not_lt.mp hneg, not_not.mp h1, not_not.mp h2, h3, h4, not_not.mp h5,
          not_not.mp h6]

/-- A forward by a group without a socket asks for one. -/
theorem socket_mem_fdCalls {buf : Bytes} {addr : SockaddrStorage} {ts : ℤ} {env : PacketEnv}
    {c : Connection} (h1 : isSrtlaReg1 (mem buf) buf.length = false)
    (h2 : isSrtlaReg2 (mem buf) buf.length = false)
    (hf : findByAddress s.groups addr = some (g, some c)) (hrel : relays g buf env = true)
    (hneg : g.srtSock < 0) (hnonneg : 0 ≤ env.forward.socket.socket) :
    (env.forward.socket.socket, FdAction.socket) ∈ s.fdCalls (.packet buf addr ts env) := by
  rw [State.fdCalls, if_neg (by rw [h1]; decide), if_neg (by rw [h2]; decide), hf]
  dsimp only
  rw [if_pos hrel, forwardCalls, ensureGroupSocketCalls_eq, onPacket_srtSock, if_neg (by omega)]
  refine List.mem_append_left _ ?_
  split_ifs <;> exact List.mem_cons_self

/-- Where the socket of a group comes from. -/
inductive SocketOrigin (s : State) (op : Op) (g' : ConnectionGroup) : Prop
  | none (eq : g'.srtSock = -1)
  | old {g : ConnectionGroup} (mem : g ∈ s.groups) (ref : g'.ref = g.ref)
      (sock : g'.srtSock = g.srtSock) (epoll : g'.epollFd = g.epollFd)
  | opened {g : ConnectionGroup} {c : Connection} {buf : Bytes} {addr : SockaddrStorage} {ts : ℤ}
      {env : PacketEnv} (input : op = .packet buf addr ts env)
      (found : findByAddress s.groups addr = some (g, some c)) (ref : g'.ref = g.ref)
      (asked : (env.forward.socket.socket, FdAction.socket) ∈ s.fdCalls (.packet buf addr ts env))
      (sock : g'.srtSock = env.forward.socket.socket)
      (epoll : g'.epollFd = env.forward.socket.epollFd)

theorem onPacket_epollFd (g : ConnectionGroup) (c : Connection) (buf : Bytes) (addr : SockaddrStorage)
    (ts : ℤ) (env : PacketEnv) : (onPacket g c buf addr ts env).group.epollFd = g.epollFd := by
  rw [onPacket_frame]

theorem SocketEnv.nonneg_of_opens {env : SocketEnv} (h : env.opens = true) : 0 ≤ env.socket := by
  simp only [SocketEnv.opens, Bool.and_eq_true, decide_eq_true_eq] at h
  exact h.1.1.1.1.1.1

theorem step_socketOrigin (h : Inv s) {op : Op} (hg' : g' ∈ (step s op).1.groups) :
    SocketOrigin s op g' := by
  cases step_groupStep h op hg' with
  | kept hg => exact .old hg rfl rfl rfl
  | created _ heq => exact .none (by rw [heq]; rfl)
  | joined _ hid heq =>
    rw [heq]
    exact .old (findGroupById_eq_some hid).1 rfl rfl rfl
  | repeated _ hf heq =>
    rw [heq]
    exact .old (findByAddress_conn hf).1 rfl rfl rfl
  | @received g c buf addr ts env h1 h2 hf hafter =>
    have hg := (findByAddress_conn hf).1
    have href := afterPacket_ref hafter
    unfold afterPacket at hafter
    dsimp only at hafter
    split_ifs at hafter with hrel hsurv
    · obtain rfl := Option.some.inj hafter
      unfold ConnectionGroup.withSocket at href ⊢
      rw [onPacket_srtSock] at href ⊢
      split_ifs at href ⊢ with h0
      · exact .old hg href (onPacket_srtSock ..) (onPacket_epollFd ..)
      · have hgets := (Bool.and_eq_true_iff.mp hsurv).1
        unfold ConnectionGroup.getsSocket at hgets
        rw [decide_eq_false h0, Bool.false_or] at hgets
        exact .opened rfl hf href
          (socket_mem_fdCalls h1 h2 hf hrel (not_le.mp h0) (SocketEnv.nonneg_of_opens hgets)) rfl rfl
    · obtain rfl := Option.some.inj hafter
      exact .old hg href (onPacket_srtSock ..) (onPacket_epollFd ..)
  | server hg heq => rw [heq]; exact .old hg rfl rfl rfl
  | reaped hg _ heq => rw [heq]; exact .old hg rfl rfl rfl
  | @assessed g t ms hg heq =>
    obtain ⟨_, hsame⟩ := assess_frame g t (ms g.ref)
    rw [heq, hsame]
    exact .old hg rfl rfl rfl

theorem Sockets.step (h : Sockets s) {op : Op} (hop : op.Grants s) :
    Sockets (Receiver.step s op).1 := by
  have hinv := (step_regStep h.inv op).inv h.inv
  -- two groups with one socket are one object
  have href : ∀ g ∈ (Receiver.step s op).1.groups, ∀ g' ∈ (Receiver.step s op).1.groups,
      0 ≤ g.srtSock → g'.srtSock = g.srtSock → g'.ref = g.ref := by
    intro g hg g' hg' h0 heq
    cases step_socketOrigin h.inv hg with
    | none hneg => omega
    | @old x hx hxref hxsock =>
      cases step_socketOrigin h.inv hg' with
      | none hneg => omega
      | @old y hy hyref hysock =>
        have := h.apart x hx y hy (by omega) (by omega)
        rw [hyref, hxref, this]
      | opened hinput _ _ hasked hsock =>
        rw [hinput] at hop
        exact absurd (show x.srtSock = _ by omega) ((hop _ hasked).2.2 x hx)
    | @opened x c buf addr ts env hinput hfound hxref hasked hsock =>
      rw [hinput] at hop
      cases step_socketOrigin h.inv hg' with
      | none hneg => omega
      | @old y hy hyref hysock => exact absurd (show y.srtSock = _ by omega) ((hop _ hasked).2.2 y hy)
      | opened hinput' hfound' hyref =>
        rw [hinput] at hinput'
        cases hinput'
        rw [hfound] at hfound'
        cases hfound'
        rw [hyref, hxref]
  refine ⟨hinv, fun g hg g' hg' h0 heq => ?_, fun g hg => ?_⟩
  · exact Keyed.eq_of_key_eq hinv.refs hg' hg (href g hg g' hg' h0 heq)
  · cases step_socketOrigin h.inv hg with
    | none hneg => exact Or.inl hneg
    | old hx _ hsock hepoll =>
      rw [hsock, hepoll]
      exact h.kept _ hx
    | opened hinput _ _ hasked hsock hepoll =>
      rw [hinput] at hop
      rw [hsock, hepoll]
      exact Or.inr ⟨(hop _ hasked).1, (hop _ hasked).2.1⟩

/-! ## Registrations -/

variable {buf : Bytes} {addr : SockaddrStorage} {ts : ℤ} {env : PacketEnv} {c : Connection} {n : ℤ}
  {cs : List (ℤ × FdAction)}

end Srtla.Receiver
