import Srtla.Receiver.Balance

/-!
# What the reaper removes (`src/connection/connection_registry.cpp:112-192`)

The two erase-while-iterating loops of `cleanup_inactive` are filters.

**Deviation.** The static `last_run` of the function is a field of the state.

* `cleanupGroups_eq_filter`: the registry that the loops leave.
* `cleanupGroups_removed`: the counters against the lengths of the lists.
* `reaper_exact`: the registry, the keepalives and the counters after a call.
-/

namespace Srtla.Receiver

open Lib

/-- The connections of all groups, in the order of the two loops. -/
def State.connections (s : State) : List Connection := s.groups.flatMap ConnectionGroup.conns

/-- A connection that has been heard in the last `CONN_TIMEOUT` seconds. -/
def Connection.Live (t : ℤ) (c : Connection) : Prop := t ≤ c.lastRcvd + connTimeout

instance (t : ℤ) : DecidablePred (Connection.Live t) := fun c =>
  inferInstanceAs (Decidable (t ≤ c.lastRcvd + connTimeout))

/-- A connection that has been silent for more than `KEEPALIVE_PERIOD` seconds. -/
def Connection.Idle (t : ℤ) (c : Connection) : Prop := c.lastRcvd + keepalivePeriod < t

instance (t : ℤ) : DecidablePred (Connection.Idle t) := fun c =>
  inferInstanceAs (Decidable (c.lastRcvd + keepalivePeriod < t))

/-- A group that has a connection or is not older than its timeout. -/
def ConnectionGroup.Lasting (t : ℤ) (g : ConnectionGroup) : Prop :=
  g.conns ≠ [] ∨ t ≤ g.createdAt + emptyTimeout g

instance (t : ℤ) : DecidablePred (ConnectionGroup.Lasting t) := fun g =>
  inferInstanceAs (Decidable (g.conns ≠ [] ∨ t ≤ g.createdAt + emptyTimeout g))

/-- The group with its live connections, whose `recovery_start` is what `recovery`
    says and which are otherwise as they were. -/
def ConnectionGroup.survivors (t : ℤ) (recovery : Connection → ℤ) (g : ConnectionGroup) : ConnectionGroup :=
  { g with conns := (g.conns.filter fun c => c.Live t).map fun c => { c with recoveryStart := recovery c } }

/-- A cleanup at `t` turns `s` into `s'` and sends `effects`. -/
structure Reaps (t : ℤ) (ret : ℕ → ℤ) (s s' : State) (effects : List Effect) : Prop where
  groups : ∃ recovery : Connection → ℤ,
    s'.groups = (s.groups.map (ConnectionGroup.survivors t recovery)).filter fun g => g.Lasting t
  keepalives : effects = (s'.connections.filter fun c => c.Idle t).map (keepaliveTo ret)
  connectionsRemoved : s'.metrics .connectionsRemoved + s'.connections.length =
    s.metrics .connectionsRemoved + s.connections.length
  groupsRemoved : s'.metrics .groupsRemovedIdle + s'.groups.length =
    s.metrics .groupsRemovedIdle + s.groups.length
  lastRun : s'.lastRun = t
  limiter : s'.limiter = s.limiter
  nextRef : s'.nextRef = s.nextRef

variable {t : ℤ} {ret : ℕ → ℤ}

/-! ## The registry -/

theorem keptConns_eq (t : ℤ) (conns : List Connection) :
    keptConns t conns = (conns.filter fun c => c.Live t).map fun c =>
      { c with recoveryStart := (c.checkRecovery t).1.recoveryStart } := by
  unfold keptConns
  have hlive : (fun c : Connection => !connTimedOut c t) = fun c => decide (c.Live t) := by
    funext c
    rw [Bool.eq_iff_iff, Bool.not_eq_true', connTimedOut_eq_false_iff, decide_eq_true_iff]
    rfl
  rw [hlive]
  exact List.map_congr_left fun c _ => c.checkRecovery_eq t

theorem reapGroup_eq_filter (t : ℤ) (g : ConnectionGroup) :
    reapGroup t g = (some { g with conns := keptConns t g.conns }).filter fun g => g.Lasting t := by
  unfold reapGroup
  split_ifs with h <;> symm
  · obtain ⟨hnil, hold⟩ := (Bool.and_eq_true _ _).mp h
    rw [Option.filter_some, if_neg]
    intro hlasting
    rcases of_decide_eq_true hlasting with hne | hyoung
    · exact hne (List.isEmpty_iff.mp hnil)
    · exact absurd (of_decide_eq_true hold) (not_lt.mpr hyoung)
  · rw [Option.filter_some, if_pos]
    refine decide_eq_true ?_
    by_contra hnot
    obtain ⟨hnil, hold⟩ := not_or.mp hnot
    exact h ((Bool.and_eq_true _ _).mpr
      ⟨List.isEmpty_iff.mpr (not_not.mp hnil), decide_eq_true (not_le.mp hold)⟩)

/-- The loops are a filter of the connections and then one of the groups. -/
theorem cleanupGroups_eq_filter (t : ℤ) (ret : ℕ → ℤ) (groups : List ConnectionGroup) :
    (cleanupGroups t ret groups).1 =
      (groups.map (ConnectionGroup.survivors t fun c => (c.checkRecovery t).1.recoveryStart)).filter
        fun g => g.Lasting t := by
  rw [cleanupGroups_fst]
  induction groups with
  | nil => rfl
  | cons g groups ih =>
    have hsurvivors : ({ g with conns := keptConns t g.conns } : ConnectionGroup) =
        g.survivors t fun c => (c.checkRecovery t).1.recoveryStart := by
      rw [keptConns_eq]
      rfl
    rw [List.filterMap_cons, reapGroup_eq_filter, hsurvivors, Option.filter_some, List.map_cons,
      List.filter_cons, ih]
    split_ifs <;> rfl

/-! ## The keepalives -/

/-- A connection is sent a keepalive when it is live and idle. -/
theorem keepaliveDue_iff {c : Connection} : keepaliveDue t c = true ↔ c.Live t ∧ c.Idle t := by
  rw [keepaliveDue, Bool.and_eq_true, Bool.not_eq_true', connTimedOut_eq_false_iff, decide_eq_true_iff]
  rfl

/-- Of a group's connections, those that are sent a keepalive are the idle ones
    among the survivors. -/
theorem filter_keepaliveDue (recovery : Connection → ℤ) (g : ConnectionGroup) :
    (g.conns.filter (keepaliveDue t)).map (keepaliveTo ret) =
      ((g.survivors t recovery).conns.filter fun c => c.Idle t).map (keepaliveTo ret) := by
  have hdue : keepaliveDue t = fun c => decide (c.Idle t) && decide (c.Live t) := by
    funext c
    rw [Bool.eq_iff_iff, keepaliveDue_iff, Bool.and_eq_true, decide_eq_true_iff, decide_eq_true_iff, and_comm]
  rw [ConnectionGroup.survivors, hdue, ← List.filter_filter, List.filter_map, List.map_map]
  rfl

/-- A group that is dropped has no connection to send to. -/
theorem flatMap_filter_lasting {β : Type} (f : ConnectionGroup → List β) (hf : ∀ g, g.conns = [] → f g = [])
    (groups : List ConnectionGroup) :
    (groups.filter fun g => g.Lasting t).flatMap f = groups.flatMap f := by
  induction groups with
  | nil => rfl
  | cons g groups ih =>
    rw [List.filter_cons, List.flatMap_cons, ← ih]
    split_ifs with hlasting
    · rfl
    · have hnone : g.conns = [] := by
        by_contra hne
        exact hlasting (decide_eq_true (.inl hne))
      rw [hf g hnone, List.nil_append]

/-! ## The counters -/

theorem checkRecovery_total {x : Counter} (c : Connection) (hcompleted : .recoveryCompleted ≠ x)
    (hfailed : .recoveryFailed ≠ x) : Incs.total x (c.checkRecovery t).2 = 0 := by
  refine Incs.total_eq_zero fun p hp => ?_
  unfold Connection.checkRecovery at hp
  split_ifs at hp
  all_goals first
    | exact absurd hp List.not_mem_nil
    | (rw [List.mem_singleton.mp hp]; assumption)

theorem sendKeepalive_total {x : Counter} (c : Connection) (r : ℤ) (hx : .sendErrKeepalive ≠ x) :
    Incs.total x (sendKeepalive c r).2 = 0 := by
  refine Incs.total_eq_zero fun p hp => ?_
  unfold sendKeepalive at hp
  split_ifs at hp
  · rw [List.mem_singleton.mp hp]
    exact hx
  · exact absurd hp List.not_mem_nil

/-- The loop over the connections counts those that it erases. -/
theorem cleanupConns_removed (t : ℤ) (ret : ℕ → ℤ) (conns : List Connection) :
    Incs.total .connectionsRemoved (cleanupConns t ret conns).2.2 + (cleanupConns t ret conns).1.length =
      conns.length := by
  induction conns with
  | nil => rfl
  | cons c conns ih =>
    have hcheck := checkRecovery_total (x := .connectionsRemoved) (t := t) c (by decide) (by decide)
    have hsend := sendKeepalive_total (x := .connectionsRemoved) (c.checkRecovery t).1
      (ret (c.checkRecovery t).1.ref) (by decide)
    have hone : Incs.total .connectionsRemoved [(.connectionsRemoved, 1)] = 1 := rfl
    unfold cleanupConns
    dsimp only
    split_ifs
    · dsimp only
      rw [Incs.total_append, Incs.total_append, hcheck, hone, List.length_cons]
      omega
    · rw [Incs.total_append, Incs.total_append, hcheck, hsend, List.length_cons, List.length_cons]
      omega
    · rw [Incs.total_append, hcheck, List.length_cons, List.length_cons]
      omega

/-- The loop over the groups counts what it erases. -/
theorem cleanupGroups_removed (t : ℤ) (ret : ℕ → ℤ) (groups : List ConnectionGroup) :
    Incs.total .connectionsRemoved (cleanupGroups t ret groups).2.2 +
        ((cleanupGroups t ret groups).1.flatMap ConnectionGroup.conns).length =
      (groups.flatMap ConnectionGroup.conns).length ∧
    Incs.total .groupsRemovedIdle (cleanupGroups t ret groups).2.2 + (cleanupGroups t ret groups).1.length =
      groups.length := by
  induction groups with
  | nil => exact ⟨rfl, rfl⟩
  | cons g groups ih =>
    obtain ⟨hconns, hgroups⟩ := ih
    have hremoved := cleanupConns_removed t ret g.conns
    have hneutral : Incs.total .groupsRemovedIdle (cleanupConns t ret g.conns).2.2 = 0 :=
      Incs.total_eq_zero fun p hp heq => by
        have hnot := (neutral_cleanupConns t ret g.conns p hp).2
        rw [heq] at hnot
        exact absurd hnot (by decide)
    have hidle : Incs.total .connectionsRemoved [(.groupsRemovedIdle, 1)] = 0 := rfl
    have hone : Incs.total .groupsRemovedIdle [(.groupsRemovedIdle, 1)] = 1 := rfl
    unfold cleanupGroups
    dsimp only
    split_ifs with hdrop
    · have hnil := List.isEmpty_iff.mp ((Bool.and_eq_true _ _).mp hdrop).1
      rw [hnil, List.length_nil] at hremoved
      simp only [Incs.total_append, hidle, hone, hneutral, List.flatMap_cons, List.length_append,
        List.length_cons]
      omega
    · simp only [Incs.total_append, hneutral, List.flatMap_cons, List.length_append, List.length_cons]
      omega

/-! ## A call -/

/-- **The reaper removes what is dead**, for every registry. A call in the first
    `CLEANUP_PERIOD` seconds after the last one changes nothing. Any other leaves of
    each group its live connections, and of these groups those that have a
    connection or are not too old, in their order. It sends one keepalive to every
    idle connection that is left and counts what it removed; of a connection that
    is left only `recovery_start` can change. -/
theorem reaper_exact (s : State) (t : ℤ) (ret : ℕ → ℤ) :
    if t < s.lastRun + cleanupPeriod then cleanupInactive s t ret = (s, [])
    else Reaps t ret s (cleanupInactive s t ret).1 (cleanupInactive s t ret).2 := by
  split_ifs with hthrottled
  · rw [cleanupInactive, if_pos hthrottled]
  · obtain ⟨hconns, hgroups⟩ := cleanupGroups_removed t ret s.groups
    have hfilter := cleanupGroups_eq_filter t ret s.groups
    rw [cleanupInactive, if_neg hthrottled]
    refine ⟨⟨_, hfilter⟩, ?_, ?_, ?_, rfl, rfl, rfl⟩
    · show (cleanupGroups t ret s.groups).2.1 =
        (((cleanupGroups t ret s.groups).1.flatMap ConnectionGroup.conns).filter fun c => c.Idle t).map _
      rw [cleanupGroups_effects, hfilter, flatMap_filter_lasting _ (fun _ h => h), List.filter_flatMap,
        List.map_flatMap, List.flatMap_map]
      exact congrArg (List.flatMap · s.groups) (funext fun g => filter_keepaliveDue _ g)
    · show s.metrics _ + Incs.total .connectionsRemoved (cleanupGroups t ret s.groups).2.2 +
        ((cleanupGroups t ret s.groups).1.flatMap ConnectionGroup.conns).length = _ + (s.groups.flatMap _).length
      omega
    · show s.metrics _ + Incs.total .groupsRemovedIdle (cleanupGroups t ret s.groups).2.2 +
        (cleanupGroups t ret s.groups).1.length = _
      omega

end Srtla.Receiver
