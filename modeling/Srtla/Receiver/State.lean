import Srtla.Common.Packet
import Srtla.Lib.Best
import Srtla.Lib.Keyed
import Srtla.Receiver.NakDedup
import Srtla.Receiver.RateLimiter

/-!
# Receiver state

Connections, groups and the registry (`src/connection/*.h`,
`src/connection/connection_registry.cpp:39-110`).

Connections and groups are shared objects in the source. Each carries a `ref`,
its identity: two pointers are equal exactly when the refs are. Refs are handed
out by `State.nextRef` and never used again, so a ref that has left the
registry stands for a destroyed object. Writing to a group through a pointer is
`State.putGroup`; it has no effect on the registry once the group has left it.

Times (`time_t`) are integers. Counters and hashes keep their C++ widths.

* `findByAddress_eq_some`, `findByAddress_eq_none_iff`: what the search by
  address returns, in terms of `ConnectionGroup.Owns`.
* `findGroupById_eq_some`: what the search by id returns.
* `oldestPending_eq_argmin`: the eviction victim.
-/

namespace Srtla.Receiver

open Lib

/-! ## Connections -/

theorem length_rttHistory : (List.replicate rttHistorySize (0 : UInt32)).length = rttHistorySize := rfl

/-- `struct ConnectionStats` (`src/receiver_config.h:84-144`). -/
structure ConnectionStats where
  bytesReceived : UInt64 := 0
  packetsReceived : UInt64 := 0
  packetsLost : UInt32 := 0
  lastEvalTime : UInt64 := 0
  lastBytesReceived : UInt64 := 0
  lastPacketsReceived : UInt64 := 0
  lastPacketsLost : UInt32 := 0
  errorPoints : UInt32 := 0
  weightPercent : UInt8 := weightFull
  nackCount : UInt16 := 0
  rttMs : UInt32 := 0
  rttHistory : List UInt32 := List.replicate rttHistorySize 0
  rttHistory_length : rttHistory.length = rttHistorySize := by exact length_rttHistory
  rttHistoryIdx : ℕ := 0
  lastKeepalive : ℤ := 0
  window : ℤ := 0
  inFlight : ℤ := 0
  senderNakCount : UInt32 := 0
  lastSenderNakCount : UInt32 := 0
  senderBitrateBps : UInt32 := 0
  senderSupportsExtendedKeepalives : Bool := false
  legacyErrorPoints : UInt32 := 0
  legacyWeightPercent : UInt8 := weightFull
deriving DecidableEq

/-- `has_valid_sender_telemetry` (`src/receiver_config.h:126-137`). -/
def ConnectionStats.hasValidSenderTelemetry (st : ConnectionStats) (currentTime : ℤ) : Bool :=
  if st.lastKeepalive = 0 then false
  else if currentTime - st.lastKeepalive > keepaliveStalenessThreshold then false
  else decide (st.rttMs > 0 ∨ st.window > 0)

/-- `class Connection` (`src/connection/connection.h:16-57`). An entry of
    `recv_log_` is the memory image of the word stored there. -/
structure Connection where
  ref : ℕ
  addr : SockaddrStorage
  lastRcvd : ℤ
  recvIdx : ℤ
  recvLog : List Bytes
  recvLog_length : recvLog.length = recvAckInt
  stats : ConnectionStats
  recoveryStart : ℤ
  connectionStart : ℤ
deriving DecidableEq

/-- `Connection::Connection` (`src/connection/connection.cpp:7-21`). -/
def Connection.create (ref : ℕ) (addr : SockaddrStorage) (timestamp : ℤ) : Connection where
  ref := ref
  addr := addr
  lastRcvd := timestamp
  recvIdx := 0
  recvLog := List.replicate recvAckInt (putBe32 0)
  recvLog_length := by simp
  stats := {}
  recoveryStart := 0
  connectionStart := timestamp

/-- `conn_timed_out` (`src/connection/connection_registry.cpp:39-41`). -/
def connTimedOut (c : Connection) (ts : ℤ) : Bool := decide (c.lastRcvd + connTimeout < ts)

/-! ## Groups -/

/-- `class ConnectionGroup` (`src/connection/connection_group.h:20-94`). -/
structure ConnectionGroup where
  ref : ℕ
  id : SrtlaId
  conns : List Connection
  createdAt : ℤ
  dataSeen : Bool
  established : Bool
  srtSock : ℤ
  lastAddr : SockaddrStorage
  totalTargetBandwidth : UInt64
  lastQualityEval : ℤ
  lastLoadBalanceEval : ℤ
  loadBalancingEnabled : Bool
  nakSeenHash : NakCache
  epollFd : ℤ
deriving DecidableEq

/-- `ConnectionGroup::ConnectionGroup` (`src/connection/connection_group.cpp:18-28`)
    followed by `set_last_address`: the client's half of the id, then 128 random
    bytes. -/
def ConnectionGroup.create (ref : ℕ) (clientId random : IdHalf) (timestamp : ℤ)
    (addr : SockaddrStorage) : ConnectionGroup where
  ref := ref
  id := SrtlaId.ofHalves clientId random
  conns := []
  createdAt := timestamp
  dataSeen := false
  established := false
  srtSock := -1
  lastAddr := addr
  totalTargetBandwidth := 0
  lastQualityEval := 0
  lastLoadBalanceEval := 0
  loadBalancingEnabled := true
  nakSeenHash := ∅
  epollFd := -1

namespace ConnectionGroup

/-- Writes to the connection `c` of the group through its pointer. -/
def putConn (g : ConnectionGroup) (c : Connection) : ConnectionGroup :=
  { g with conns := Keyed.put Connection.ref c g.conns }

/-- `add_connection` (`src/connection/connection_group.cpp:42-44`). -/
def addConnection (g : ConnectionGroup) (c : Connection) : ConnectionGroup :=
  { g with conns := g.conns ++ [c] }

/-- A group that registered but never forwarded data: the candidates of
    `evict_oldest_pending_group`. -/
def pending (g : ConnectionGroup) : Bool := g.conns.isEmpty && !g.dataSeen

/-- The group owns `a`: it is the address of a connection or the last address. -/
def Owns (g : ConnectionGroup) (a : SockaddrStorage) : Prop :=
  (∃ c ∈ g.conns, addressesEqual c.addr a = true) ∨ addressesEqual g.lastAddr a = true

instance (g : ConnectionGroup) (a : SockaddrStorage) : Decidable (g.Owns a) :=
  inferInstanceAs (Decidable (_ ∨ _))

theorem pending_iff {g : ConnectionGroup} : g.pending = true ↔ g.conns = [] ∧ g.dataSeen = false := by
  simp [pending]

end ConnectionGroup

/-! ## The registry -/

/-- The state of the receiver: the registry's groups, the rate limiter, the
    counters, `static time_t last_run` of `cleanup_inactive`, and the supply of
    object identities. -/
structure State where
  groups : List ConnectionGroup
  limiter : AuthRateLimiter
  metrics : Metrics
  lastRun : ℤ
  nextRef : ℕ

/-- The state at start-up. -/
def State.init : State where
  groups := []
  limiter := ∅
  metrics := fun _ => 0
  lastRun := 0
  nextRef := 0

namespace State

def inc (s : State) (is : Incs) : State := { s with metrics := s.metrics.bump is }

/-- Writes to a group through its pointer. -/
def putGroup (s : State) (g : ConnectionGroup) : State :=
  { s with groups := Keyed.put ConnectionGroup.ref g s.groups }

/-- `add_group` (`src/connection/connection_registry.cpp:50-52`). -/
def addGroup (s : State) (g : ConnectionGroup) : State := { s with groups := s.groups ++ [g] }

/-- `remove_group` (`src/connection/connection_registry.cpp:54-56`). -/
def removeGroup (s : State) (g : ConnectionGroup) : State :=
  { s with groups := Keyed.remove ConnectionGroup.ref g.ref s.groups }

@[simp] theorem inc_groups (s : State) (is : Incs) : (s.inc is).groups = s.groups := rfl
@[simp] theorem inc_limiter (s : State) (is : Incs) : (s.inc is).limiter = s.limiter := rfl
@[simp] theorem inc_lastRun (s : State) (is : Incs) : (s.inc is).lastRun = s.lastRun := rfl
@[simp] theorem inc_nextRef (s : State) (is : Incs) : (s.inc is).nextRef = s.nextRef := rfl

@[simp] theorem putGroup_groups (s : State) (g : ConnectionGroup) :
    (s.putGroup g).groups = Keyed.put ConnectionGroup.ref g s.groups := rfl
@[simp] theorem putGroup_limiter (s : State) (g : ConnectionGroup) :
    (s.putGroup g).limiter = s.limiter := rfl
@[simp] theorem putGroup_lastRun (s : State) (g : ConnectionGroup) :
    (s.putGroup g).lastRun = s.lastRun := rfl
@[simp] theorem putGroup_nextRef (s : State) (g : ConnectionGroup) :
    (s.putGroup g).nextRef = s.nextRef := rfl

@[simp] theorem addGroup_groups (s : State) (g : ConnectionGroup) :
    (s.addGroup g).groups = s.groups ++ [g] := rfl

@[simp] theorem removeGroup_groups (s : State) (g : ConnectionGroup) :
    (s.removeGroup g).groups = Keyed.remove ConnectionGroup.ref g.ref s.groups := rfl
@[simp] theorem removeGroup_limiter (s : State) (g : ConnectionGroup) :
    (s.removeGroup g).limiter = s.limiter := rfl
@[simp] theorem removeGroup_lastRun (s : State) (g : ConnectionGroup) :
    (s.removeGroup g).lastRun = s.lastRun := rfl
@[simp] theorem removeGroup_nextRef (s : State) (g : ConnectionGroup) :
    (s.removeGroup g).nextRef = s.nextRef := rfl

end State

/-! ## Searching -/

/-- `find_group_by_id` (`src/connection/connection_registry.cpp:80-87`). -/
def findGroupById (groups : List ConnectionGroup) (id : SrtlaId) : Option ConnectionGroup :=
  groups.find? fun g => constantTimeCompare g.id id == 0

/-- `find_by_address` (`src/connection/connection_registry.cpp:89-110`): group
    by group, first the connections and then the last address. -/
def findByAddress : List ConnectionGroup → SockaddrStorage →
    Option (ConnectionGroup × Option Connection)
  | [], _ => none
  | g :: gs, a =>
    match g.conns.find? fun c => addressesEqual c.addr a with
    | some c => some (g, some c)
    | none => if addressesEqual g.lastAddr a then some (g, none) else findByAddress gs a

/-- One iteration of the search in `evict_oldest_pending_group`. -/
def olderPending (oldest : Option ConnectionGroup) (g : ConnectionGroup) : Option ConnectionGroup :=
  if !g.conns.isEmpty || g.dataSeen then oldest
  else
    match oldest with
    | none => some g
    | some o => if g.createdAt < o.createdAt then some g else some o

/-- The victim of `evict_oldest_pending_group`
    (`src/connection/connection_registry.cpp:58-67`). -/
def oldestPending (groups : List ConnectionGroup) : Option ConnectionGroup :=
  groups.foldl olderPending none

/-- `evict_oldest_pending_group` (`src/connection/connection_registry.cpp:58-78`). -/
def State.evictOldestPendingGroup (s : State) : Bool × State :=
  match oldestPending s.groups with
  | none => (false, s)
  | some oldest => (true, (s.inc [(.groupsRemovedEvicted, 1)]).removeGroup oldest)

theorem findGroupById_eq_some {groups : List ConnectionGroup} {id : SrtlaId} {g : ConnectionGroup}
    (h : findGroupById groups id = some g) : g ∈ groups ∧ g.id = id := by
  refine ⟨List.mem_of_find?_eq_some h, ?_⟩
  have := List.find?_some h
  exact constantTimeCompare_eq_zero_iff.mp (by simpa using this)

theorem findGroupById_self (g : ConnectionGroup) (groups : List ConnectionGroup) :
    findGroupById (g :: groups) g.id = some g := by
  have heq : constantTimeCompare g.id g.id = 0 := constantTimeCompare_eq_zero_iff.mpr rfl
  rw [findGroupById, List.find?_cons_of_pos (by rw [heq]; rfl)]

theorem findGroupById_cons_of_ne {g : ConnectionGroup} {id : SrtlaId} (h : g.id ≠ id)
    (groups : List ConnectionGroup) : findGroupById (g :: groups) id = findGroupById groups id := by
  rw [findGroupById, List.find?_cons_of_neg, findGroupById]
  exact fun he => h (constantTimeCompare_eq_zero_iff.mp (by simpa using he))

/-- The search by address only returns an owner, with the connection at that
    address if the owner has one. -/
theorem findByAddress_eq_some {gs : List ConnectionGroup} {a : SockaddrStorage} {g : ConnectionGroup}
    {oc : Option Connection} (h : findByAddress gs a = some (g, oc)) :
    g ∈ gs ∧ g.conns.find? (fun c => addressesEqual c.addr a) = oc ∧ g.Owns a := by
  induction gs with
  | nil => simp [findByAddress] at h
  | cons y gs ih =>
    rw [findByAddress] at h
    cases hc : y.conns.find? fun c => addressesEqual c.addr a with
    | some c =>
      rw [hc] at h
      cases h
      exact ⟨by simp, hc, Or.inl ⟨c, List.mem_of_find?_eq_some hc, by simpa using List.find?_some hc⟩⟩
    | none =>
      rw [hc] at h
      dsimp only at h
      split_ifs at h with hl
      · cases h
        exact ⟨by simp, hc, Or.inr hl⟩
      · obtain ⟨h1, h2⟩ := ih h
        exact ⟨List.mem_cons_of_mem _ h1, h2⟩

/-- Nobody is found exactly when nobody owns the address. -/
theorem findByAddress_eq_none_iff {gs : List ConnectionGroup} {a : SockaddrStorage} :
    findByAddress gs a = none ↔ ∀ g ∈ gs, ¬ g.Owns a := by
  constructor
  · intro h
    induction gs with
    | nil => simp
    | cons y gs ih =>
      rw [findByAddress] at h
      cases hc : y.conns.find? fun c => addressesEqual c.addr a with
      | some c => simp [hc] at h
      | none =>
        rw [hc] at h
        dsimp only at h
        split_ifs at h with hl
        intro g hg
        rcases List.mem_cons.mp hg with rfl | hg
        · rintro (⟨c, hmem, he⟩ | he)
          · exact List.find?_eq_none.mp hc c hmem he
          · exact hl he
        · exact ih h g hg
  · intro h
    cases hf : findByAddress gs a with
    | none => rfl
    | some p =>
      obtain ⟨h1, _, h3⟩ := findByAddress_eq_some hf
      exact absurd h3 (h _ h1)

/-! ## The eviction victim -/

theorem olderPending_of_pending {o : Option ConnectionGroup} {g : ConnectionGroup}
    (h : g.pending = true) : olderPending o g =
      match o with
      | none => some g
      | some o => if g.createdAt < o.createdAt then some g else some o := by
  obtain ⟨h1, h2⟩ := ConnectionGroup.pending_iff.mp h
  simp [olderPending, h1, h2]

theorem olderPending_of_not_pending {o : Option ConnectionGroup} {g : ConnectionGroup}
    (h : g.pending = false) : olderPending o g = o := by
  have : (!g.conns.isEmpty || g.dataSeen) = true := by
    simpa [ConnectionGroup.pending, imp_iff_not_or] using h
  unfold olderPending
  rw [if_pos this]

/-- **The victim is the first of the oldest pending groups.** -/
theorem oldestPending_eq_argmin (gs : List ConnectionGroup) :
    oldestPending gs = (gs.filter ConnectionGroup.pending).argmin ConnectionGroup.createdAt := by
  rw [oldestPending, List.argmin, List.foldl_filter]
  congr 1
  funext o g
  cases hg : g.pending with
  | false => rw [olderPending_of_not_pending hg, if_neg Bool.false_ne_true]
  | true =>
    rw [olderPending_of_pending hg, if_pos rfl]
    cases o <;> rfl

/-- The victim is pending and no pending group is older. -/
theorem oldestPending_eq_some {gs : List ConnectionGroup} {v : ConnectionGroup}
    (h : oldestPending gs = some v) :
    v ∈ gs ∧ v.pending = true ∧ ∀ x ∈ gs, x.pending = true → v.createdAt ≤ x.createdAt := by
  rw [oldestPending_eq_argmin] at h
  have hv := List.mem_filter.mp (List.argmin_mem h)
  exact ⟨hv.1, hv.2, fun x hx hp => List.le_of_mem_argmin (List.mem_filter.mpr ⟨hx, hp⟩) h⟩

theorem oldestPending_eq_none_iff {gs : List ConnectionGroup} :
    oldestPending gs = none ↔ ∀ g ∈ gs, g.pending = false := by
  rw [oldestPending_eq_argmin, List.argmin_eq_none, List.filter_eq_nil_iff]
  simp only [Bool.not_eq_true]

end Srtla.Receiver
