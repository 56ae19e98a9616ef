import Srtla.Receiver.SrtlaHandler

/-!
# Cleanup (`src/connection/connection_registry.cpp:112-192`)

`cleanup_inactive` runs at most once in `CLEANUP_PERIOD` seconds. It drops
connections that have been silent for `CONN_TIMEOUT` seconds, sends keepalives
to those silent for `KEEPALIVE_PERIOD`, and drops groups without connections
that are old enough. The two erase-while-iterating loops are recursions on the
lists.

* `cleanupConns_fst`, `cleanupGroups_fst`: the lists the loops leave, in closed
  form.
* `cleanupInactive_groups`: the registry after a cleanup.
* `cleanupGroups_effects`: the keepalives that a cleanup sends.
-/

namespace Srtla.Receiver

open Lib

/-- The recovery bookkeeping for one connection (lines 140-158). -/
def Connection.checkRecovery (c : Connection) (currentTime : ℤ) : Connection × Incs :=
  if c.recoveryStart > 0 then
    if c.lastRcvd > c.recoveryStart then
      if currentTime - c.recoveryStart > recoveryChancePeriod then
        ({ c with recoveryStart := 0 }, [(.recoveryCompleted, 1)])
      else (c, [])
    else if c.recoveryStart + recoveryChancePeriod < currentTime then
      ({ c with recoveryStart := 0 }, [(.recoveryFailed, 1)])
    else (c, [])
  else (c, [])

/-- The loop over the connections of a group. `ret` gives what `sendto` returns
    for the keepalive to a connection. -/
def cleanupConns (currentTime : ℤ) (ret : ℕ → ℤ) :
    List Connection → List Connection × List Effect × Incs
  | [] => ([], [], [])
  | conn :: conns =>
    let (c, incs) := conn.checkRecovery currentTime
    let rest := cleanupConns currentTime ret conns
    if connTimedOut c currentTime then
      (rest.1, rest.2.1, incs ++ [(.connectionsRemoved, 1)] ++ rest.2.2)
    else if c.lastRcvd + keepalivePeriod < currentTime then
      let k := sendKeepalive c (ret c.ref)
      (c :: rest.1, k.1 ++ rest.2.1, incs ++ k.2 ++ rest.2.2)
    else (c :: rest.1, rest.2.1, incs ++ rest.2.2)

/-- `empty_timeout`. -/
def emptyTimeout (g : ConnectionGroup) : ℤ := if g.dataSeen then groupTimeout else pendingGroupTimeout

/-- The loop over the groups. -/
def cleanupGroups (currentTime : ℤ) (ret : ℕ → ℤ) :
    List ConnectionGroup → List ConnectionGroup × List Effect × Incs
  | [] => ([], [], [])
  | group :: groups =>
    let r := cleanupConns currentTime ret group.conns
    let rest := cleanupGroups currentTime ret groups
    if r.1.isEmpty && decide (group.createdAt + emptyTimeout group < currentTime) then
      (rest.1, r.2.1 ++ rest.2.1, r.2.2 ++ [(.groupsRemovedIdle, 1)] ++ rest.2.2)
    else ({ group with conns := r.1 } :: rest.1, r.2.1 ++ rest.2.1, r.2.2 ++ rest.2.2)

/-- `cleanup_inactive` (`src/connection/connection_registry.cpp:112-192`). -/
def cleanupInactive (s : State) (currentTime : ℤ) (ret : ℕ → ℤ) : State × List Effect :=
  if s.lastRun + cleanupPeriod > currentTime then (s, [])
  else
    let r := cleanupGroups currentTime ret s.groups
    (({ s with lastRun := currentTime, groups := r.1 } : State).inc r.2.2, r.2.1)

/-! ## Closed forms -/

theorem Connection.checkRecovery_eq (c : Connection) (t : ℤ) :
    (c.checkRecovery t).1 = { c with recoveryStart := (c.checkRecovery t).1.recoveryStart } := by
  unfold Connection.checkRecovery
  split_ifs <;> rfl

@[simp] theorem Connection.checkRecovery_ref (c : Connection) (t : ℤ) :
    (c.checkRecovery t).1.ref = c.ref := by rw [c.checkRecovery_eq]
@[simp] theorem Connection.checkRecovery_addr (c : Connection) (t : ℤ) :
    (c.checkRecovery t).1.addr = c.addr := by rw [c.checkRecovery_eq]
@[simp] theorem Connection.checkRecovery_lastRcvd (c : Connection) (t : ℤ) :
    (c.checkRecovery t).1.lastRcvd = c.lastRcvd := by rw [c.checkRecovery_eq]
@[simp] theorem Connection.checkRecovery_recvIdx (c : Connection) (t : ℤ) :
    (c.checkRecovery t).1.recvIdx = c.recvIdx := by rw [c.checkRecovery_eq]
@[simp] theorem Connection.checkRecovery_recvLog (c : Connection) (t : ℤ) :
    (c.checkRecovery t).1.recvLog = c.recvLog := by rw [c.checkRecovery_eq]

theorem connTimedOut_checkRecovery (c : Connection) (t t' : ℤ) :
    connTimedOut (c.checkRecovery t).1 t' = connTimedOut c t' := by
  unfold connTimedOut
  rw [c.checkRecovery_lastRcvd]

/-- The connections a cleanup at `t` keeps. -/
def keptConns (t : ℤ) (conns : List Connection) : List Connection :=
  (conns.filter fun c => !connTimedOut c t).map fun c => (c.checkRecovery t).1

theorem cleanupConns_fst (t : ℤ) (ret : ℕ → ℤ) (conns : List Connection) :
    (cleanupConns t ret conns).1 = keptConns t conns := by
  induction conns with
  | nil => rfl
  | cons c conns ih =>
    rw [cleanupConns]
    dsimp only
    rw [connTimedOut_checkRecovery]
    unfold keptConns at ih ⊢
    cases h : connTimedOut c t with
    | true =>
      rw [if_pos rfl, List.filter_cons_of_neg (by simp [h])]
      exact ih
    | false =>
      rw [if_neg (by decide), List.filter_cons_of_pos (by simp [h]), List.map_cons, ← ih]
      split_ifs <;> rfl

/-- A group under a cleanup at `t`: `none` when it is dropped. -/
def reapGroup (t : ℤ) (g : ConnectionGroup) : Option ConnectionGroup :=
  if (keptConns t g.conns).isEmpty && decide (g.createdAt + emptyTimeout g < t) then none
  else some { g with conns := keptConns t g.conns }

theorem cleanupGroups_fst (t : ℤ) (ret : ℕ → ℤ) (groups : List ConnectionGroup) :
    (cleanupGroups t ret groups).1 = groups.filterMap (reapGroup t) := by
  induction groups with
  | nil => rfl
  | cons g groups ih =>
    rw [cleanupGroups, List.filterMap_cons]
    unfold reapGroup at ih ⊢
    rw [cleanupConns_fst]
    split_ifs with h
    · exact ih
    · rw [ih]

theorem cleanupInactive_groups (s : State) (t : ℤ) (ret : ℕ → ℤ) :
    (cleanupInactive s t ret).1.groups =
      if s.lastRun + cleanupPeriod > t then s.groups else s.groups.filterMap (reapGroup t) := by
  unfold cleanupInactive
  split_ifs
  · rfl
  · exact cleanupGroups_fst t ret s.groups

theorem cleanupInactive_frame (s : State) (t : ℤ) (ret : ℕ → ℤ) :
    (cleanupInactive s t ret).1.limiter = s.limiter ∧
    (cleanupInactive s t ret).1.nextRef = s.nextRef ∧
    (cleanupInactive s t ret).1.lastRun = if s.lastRun + cleanupPeriod > t then s.lastRun else t := by
  unfold cleanupInactive
  split_ifs <;> exact ⟨rfl, rfl, rfl⟩

/-- The group a cleanup leaves is the old one with fewer connections. -/
theorem reapGroup_eq_some {t : ℤ} {g g' : ConnectionGroup} (h : reapGroup t g = some g') :
    g' = { g with conns := keptConns t g.conns } := by
  unfold reapGroup at h
  split_ifs at h
  exact (Option.some.inj h).symm

/-- A group is dropped exactly when it has no connection left and is older than
    its timeout. -/
theorem reapGroup_eq_none_iff {t : ℤ} {g : ConnectionGroup} :
    reapGroup t g = none ↔
      (∀ c ∈ g.conns, c.lastRcvd + connTimeout < t) ∧ g.createdAt + emptyTimeout g < t := by
  have hempty : (keptConns t g.conns).isEmpty = true ↔ ∀ c ∈ g.conns, c.lastRcvd + connTimeout < t := by
    simp [keptConns, connTimedOut, List.filter_eq_nil_iff]
  unfold reapGroup
  rw [← hempty]
  split_ifs with h
  · simpa using h
  · simpa using h

theorem connTimedOut_eq_false_iff {c : Connection} {t : ℤ} :
    connTimedOut c t = false ↔ t ≤ c.lastRcvd + connTimeout := by
  simp [connTimedOut]

theorem mem_keptConns {t : ℤ} {conns : List Connection} {x : Connection} :
    x ∈ keptConns t conns ↔ ∃ c ∈ conns, t ≤ c.lastRcvd + connTimeout ∧ (c.checkRecovery t).1 = x := by
  simp [keptConns, connTimedOut, and_assoc]

/-- A cleanup at `t` keeps the connection and sends it a keepalive. -/
def keepaliveDue (t : ℤ) (c : Connection) : Bool :=
  !connTimedOut c t && decide (c.lastRcvd + keepalivePeriod < t)

/-- The keepalive to a connection. -/
def keepaliveTo (ret : ℕ → ℤ) (c : Connection) : Effect :=
  .padSendto .keepalive c.addr (putBe16 srtlaTypeKeepalive) (ret c.ref)

theorem cleanupConns_effects (t : ℤ) (ret : ℕ → ℤ) (conns : List Connection) :
    (cleanupConns t ret conns).2.1 = (conns.filter (keepaliveDue t)).map (keepaliveTo ret) := by
  induction conns with
  | nil => rfl
  | cons c conns ih =>
    rw [cleanupConns]
    dsimp only
    rw [connTimedOut_checkRecovery, c.checkRecovery_lastRcvd]
    cases hout : connTimedOut c t with
    | true =>
      rw [if_pos rfl, List.filter_cons_of_neg (by simp [keepaliveDue, hout])]
      exact ih
    | false =>
      rw [if_neg Bool.false_ne_true]
      by_cases hidle : c.lastRcvd + keepalivePeriod < t
      · rw [if_pos hidle, List.filter_cons_of_pos (by simp [keepaliveDue, hout, hidle]), List.map_cons, ← ih]
        show [Effect.padSendto _ (c.checkRecovery t).1.addr _ (ret (c.checkRecovery t).1.ref)] ++ _ = _
        rw [c.checkRecovery_addr, c.checkRecovery_ref]
        rfl
      · rw [if_neg hidle, List.filter_cons_of_neg (by simp [keepaliveDue, hidle])]
        exact ih

/-- **What a cleanup sends**: one keepalive to every connection that is due. -/
theorem cleanupGroups_effects (t : ℤ) (ret : ℕ → ℤ) (groups : List ConnectionGroup) :
    (cleanupGroups t ret groups).2.1 =
      groups.flatMap fun g => (g.conns.filter (keepaliveDue t)).map (keepaliveTo ret) := by
  induction groups with
  | nil => rfl
  | cons g groups ih =>
    rw [List.flatMap_cons, ← cleanupConns_effects, ← ih, cleanupGroups]
    split_ifs <;> rfl

end Srtla.Receiver
