import Srtla.Receiver.Handshake

/-!
# The counters of groups

`SRTHandler::remove_group` counts a removal under its reason whether or not the
group is still in the registry, and groups leave the registry from three classes.
On every path the removed group is in the registry, and it is removed once.

* `group_counters_balance`: after every input the registrations equal the groups
  in the registry and the removals under the four reasons; each input counts
  exactly the groups that it takes out.
-/

namespace Srtla.Receiver

open Lib

/-- The groups counted as removed, under whichever reason. -/
def Metrics.removals (m : Metrics) : ℕ :=
  m .groupsRemovedIdle + m .groupsRemovedAuth + m .groupsRemovedSrtError + m .groupsRemovedEvicted

/-- The reasons for the removal of a group. -/
def Counter.isRemoval : Counter → Bool
  | .groupsRemovedIdle | .groupsRemovedAuth | .groupsRemovedSrtError | .groupsRemovedEvicted => true
  | _ => false

/-- The calls leave the counters of groups alone. -/
def Incs.Neutral (is : Incs) : Prop :=
  ∀ p ∈ is, p.1 ≠ .groupRegistrations ∧ p.1.isRemoval = false

/-- What the calls count under the four reasons. -/
def Incs.removals (is : Incs) : ℕ := (is.map fun p => if p.1.isRemoval then p.2 else 0).sum

/-- The identities of the registered groups. -/
def State.refs (s : State) : List ℕ := s.groups.map ConnectionGroup.ref

/-- `s'` has lost some of the groups of `s`, and counted as many. -/
structure Removes (s s' : State) : Prop where
  refs : s'.refs.Sublist s.refs
  registrations : s'.metrics .groupRegistrations = s.metrics .groupRegistrations
  removals : s'.metrics.removals + s'.groups.length = s.metrics.removals + s.groups.length

variable {s s' s'' : State} {is is' : Incs} {g : ConnectionGroup} {buf : Bytes}

/-! ## Counting -/

/-- What the calls count under `c`. -/
def Incs.total (c : Counter) (is : Incs) : ℕ := (is.map fun p => if p.1 = c then p.2 else 0).sum

theorem Incs.total_append (c : Counter) (is is' : Incs) :
    Incs.total c (is ++ is') = Incs.total c is + Incs.total c is' := by
  rw [Incs.total, List.map_append, List.sum_append]
  rfl

theorem Incs.total_eq_zero {c : Counter} (h : ∀ p ∈ is, p.1 ≠ c) : Incs.total c is = 0 := by
  rw [Incs.total, List.sum_eq_zero_iff]
  intro x hx
  obtain ⟨p, hp, rfl⟩ := List.mem_map.mp hx
  rw [if_neg (h p hp)]

theorem Metrics.bump_of_ne {m : Metrics} {c : Counter} (h : ∀ p ∈ is, p.1 ≠ c) :
    m.bump is c = m c := by
  show m c + Incs.total c is = m c
  rw [Incs.total_eq_zero h, Nat.add_zero]

/-- The calls count towards the removals what they count under the four reasons. -/
theorem Metrics.removals_bump (m : Metrics) (is : Incs) :
    (m.bump is).removals = m.removals + is.removals := by
  have hone : ∀ p : Counter × ℕ, (if p.1 = .groupsRemovedIdle then p.2 else 0) +
      (if p.1 = .groupsRemovedAuth then p.2 else 0) +
      (if p.1 = .groupsRemovedSrtError then p.2 else 0) +
      (if p.1 = .groupsRemovedEvicted then p.2 else 0) = if p.1.isRemoval then p.2 else 0 := by
    rintro ⟨c, n⟩
    cases c <;> simp [Counter.isRemoval]
  simp only [Metrics.removals, Metrics.bump, Incs.removals]
  induction is with
  | nil => simp
  | cons p is ih =>
    have hp := hone p
    simp only [List.map_cons, List.sum_cons]
    omega

theorem Incs.removals_append (is is' : Incs) :
    Incs.removals (is ++ is') = Incs.removals is + Incs.removals is' := by
  rw [Incs.removals, List.map_append, List.sum_append]
  rfl

theorem Incs.Neutral.removals (h : Incs.Neutral is) : Incs.removals is = 0 := by
  rw [Incs.removals, List.sum_eq_zero_iff]
  intro x hx
  obtain ⟨p, hp, rfl⟩ := List.mem_map.mp hx
  rw [(h p hp).2]
  rfl

theorem Incs.Neutral.nil : Incs.Neutral [] := fun _ hp => absurd hp List.not_mem_nil

theorem Incs.Neutral.append (h : Incs.Neutral is) (h' : Incs.Neutral is') :
    Incs.Neutral (is ++ is') := by
  intro p hp
  rcases List.mem_append.mp hp with hp | hp
  · exact h p hp
  · exact h' p hp

theorem Incs.Neutral.single {c : Counter} (n : ℕ) (h : c ≠ .groupRegistrations)
    (h' : c.isRemoval = false) : Incs.Neutral [(c, n)] := by
  intro p hp
  rw [List.mem_singleton.mp hp]
  exact ⟨h, h'⟩

/-! ## Removals -/

theorem Removes.refl (s : State) : Removes s s := ⟨List.Sublist.refl _, rfl, rfl⟩

theorem Removes.trans (h : Removes s s') (h' : Removes s' s'') : Removes s s'' :=
  ⟨h'.refs.trans h.refs, h'.registrations.trans h.registrations, h'.removals.trans h.removals⟩

theorem Removes.congr (h : Removes s s') (hg : s''.groups = s'.groups)
    (hm : s''.metrics = s'.metrics) : Removes s s'' := by
  refine ⟨?_, ?_, ?_⟩
  · rw [State.refs, hg]
    exact h.refs
  · rw [hm]
    exact h.registrations
  · rw [hm, hg]
    exact h.removals

theorem removes_nextRef (s : State) (n : ℕ) : Removes s { s with nextRef := n } :=
  (Removes.refl s).congr rfl rfl

theorem Removes.inc (h : Removes s s') (his : Incs.Neutral is) : Removes s (s'.inc is) := by
  refine h.trans ⟨List.Sublist.refl _, Metrics.bump_of_ne fun p hp => (his p hp).1, ?_⟩
  show (s'.metrics.bump is).removals + _ = _
  rw [Metrics.removals_bump, his.removals]
  rfl

theorem Removes.putGroup (h : Removes s s') (g : ConnectionGroup) : Removes s (s'.putGroup g) := by
  refine h.trans ⟨?_, rfl, ?_⟩
  · rw [State.refs, State.putGroup_groups, Keyed.map_key_put]
    exact List.Sublist.refl _
  · rw [State.putGroup_groups, Keyed.length_put]
    rfl

/-- A group of the registry is removed and counted. -/
theorem Removes.teardown (h : Removes s s') (hn : s.refs.Nodup) (hg : g.ref ∈ s'.refs)
    {reason : Counter} (hr : reason.isRemoval = true) : Removes s (s'.teardown g reason) := by
  obtain ⟨x, hx, href⟩ := List.mem_map.mp hg
  refine h.trans ⟨Keyed.remove_sublist.map _, ?_, ?_⟩
  · refine Metrics.bump_of_ne fun p hp heq => ?_
    rw [List.mem_singleton.mp hp] at heq
    rw [show reason = .groupRegistrations from heq] at hr
    exact absurd hr (by decide)
  · show (s'.metrics.bump [(reason, 1)]).removals + (Keyed.remove _ g.ref s'.groups).length = _
    have hlen := Keyed.length_remove_of_mem (h.refs.nodup hn) hx
    have hone : Incs.removals [(reason, 1)] = 1 := by
      rw [Incs.removals, List.map_singleton, List.sum_singleton, if_pos hr]
    rw [href] at hlen
    rw [Metrics.removals_bump, hone]
    omega

/-- What `evict_oldest_pending_group` removes is in the registry. -/
theorem removes_evict (hn : s.refs.Nodup) : Removes s s.evictOldestPendingGroup.2 := by
  unfold State.evictOldestPendingGroup
  cases hv : oldestPending s.groups with
  | none => exact .refl s
  | some v =>
    have hmem : v ∈ s.groups := (oldestPending_eq_some hv).1
    exact (Removes.refl s).teardown hn (List.mem_map_of_mem hmem) rfl

/-! ## The counters of a packet -/

theorem neutral_sendErr (c : Counter) (p : Prop) [Decidable p] (h : c ≠ .groupRegistrations)
    (h' : c.isRemoval = false) : Incs.Neutral (if p then [(c, 1)] else []) := by
  split_ifs
  · exact .single 1 h h'
  · exact .nil

theorem neutral_touch (c : Connection) (ts : ℤ) : Incs.Neutral (c.touch ts).2 := by
  unfold Connection.touch
  split_ifs
  · exact .single 1 (by decide) rfl
  · exact .nil

theorem neutral_onPacket (g : ConnectionGroup) (c : Connection) (buf : Bytes)
    (addr : SockaddrStorage) (ts : ℤ) (env : PacketEnv) :
    Incs.Neutral (onPacket g c buf addr ts env).incs := by
  obtain ⟨rest, hincs, hrest⟩ := onPacket_incs g c buf addr ts env
  have hcounters : ∀ x ∈ packetCounters, x ≠ .groupRegistrations ∧ x.isRemoval = false := by decide
  rw [hincs]
  exact (neutral_touch c ts).append fun p hp => hcounters p.1 (hrest p hp)

theorem neutral_cleanupConns (t : ℤ) (ret : ℕ → ℤ) (conns : List Connection) :
    Incs.Neutral (cleanupConns t ret conns).2.2 := by
  have hcheck : ∀ c : Connection, Incs.Neutral (c.checkRecovery t).2 := by
    intro c
    unfold Connection.checkRecovery
    split_ifs
    all_goals first
      | exact .nil
      | exact .single 1 (by decide) rfl
  induction conns with
  | nil => exact .nil
  | cons c conns ih =>
    unfold cleanupConns
    dsimp only
    split_ifs
    · exact ((hcheck c).append (.single 1 (by decide) rfl)).append ih
    · exact ((hcheck c).append (neutral_sendErr _ _ (by decide) rfl)).append ih
    · exact (hcheck c).append ih

/-! ## Every input -/

theorem State.refs_putGroup (s : State) (g : ConnectionGroup) : (s.putGroup g).refs = s.refs :=
  Keyed.map_key_put

theorem removes_forward (hn : s.refs.Nodup) (hg : g.ref ∈ s.refs) (buf : Bytes) (env : ForwardEnv) :
    Removes s (forwardToSrtServer (s.putGroup g) g buf env).2.1 := by
  rw [forwardToSrtServer_eq]
  split_ifs with hsock
  · have hput := (Removes.refl s).putGroup (g.withSocket env.socket)
    rw [sendOnGroupSocket_eq]
    split_ifs with hfatal
    · refine (hput.inc (.single 1 (by decide) rfl)).teardown hn ?_ rfl
      rw [g.withSocket_ref]
      exact (s.refs_putGroup _).symm ▸ hg
    · refine hput.inc ?_
      unfold ForwardEnv.incs
      split_ifs
      · exact (Incs.Neutral.single 1 (c := .forwardedPackets) (by decide) rfl).append
          (.single buf.length (c := .forwardedBytes) (by decide) rfl)
      · exact .single 1 (by decide) rfl
  · refine ((Removes.refl s).putGroup g).teardown hn ?_ rfl
    exact (s.refs_putGroup g).symm ▸ hg

theorem removes_registerConnection (s : State) (addr : SockaddrStorage) (buffer : Mem) (ts : ℤ)
    (env : PacketEnv) : Removes s (registerConnection s addr buffer ts env).2.1 := by
  unfold registerConnection
  cases findGroupById s.groups (readBlock buffer 2 256) with
  | none => exact (Removes.refl s).inc (.single 1 (by decide) rfl)
  | some g =>
    dsimp only
    split_ifs
    · exact (Removes.refl s).inc (.single 1 (by decide) rfl)
    · exact (Removes.refl s).inc (.single 1 (by decide) rfl)
    · exact (removes_nextRef s _).inc (.single 1 (by decide) rfl)
    · exact (Removes.refl s).inc (.single 1 (by decide) rfl)
    · exact ((removes_nextRef s _).putGroup _).inc (.single 1 (by decide) rfl)
    · exact ((Removes.refl s).putGroup _).inc (.single 1 (by decide) rfl)

theorem removes_handleSrtPacket (hs : Removes s s') (hn : s.refs.Nodup) (hg : g.ref ∈ s'.refs)
    (buf : Bytes) (env : SrtEnv) : Removes s (handleSrtPacket s' g buf env).1 := by
  have hput := hs.putGroup (g.noteAck buf)
  have hrelay : Incs.Neutral (relayDownstream (g.noteAck buf) buf env).2 := by
    unfold relayDownstream
    dsimp only
    split_ifs
    all_goals first
      | exact .nil
      | exact .single _ (by decide) rfl
  -- a rejected session is recorded first, and its group removed last
  have hfail : Removes s ((s'.putGroup (g.noteAck buf)).recordFailure (g.noteAck buf).lastAddr
      env.now) :=
    (hput.inc (.single 1 (c := .authFailures) (by decide) rfl)).congr rfl rfl
  have hmem : (g.noteAck buf).ref ∈ (s'.putGroup (g.noteAck buf)).refs := by
    rw [s'.refs_putGroup, g.noteAck_ref]
    exact hg
  unfold handleSrtPacket
  dsimp only
  split_ifs
  · exact hfail
  · exact hput
  · exact (hfail.inc hrelay).teardown hn hmem rfl
  · exact hput.inc hrelay

theorem removes_handleSrtData (hn : s.refs.Nodup) (hg : g.ref ∈ s.refs) (env : SrtEnv) :
    Removes s (handleSrtData s g env).1 := by
  unfold handleSrtData
  cases env.recv with
  | none => exact (Removes.refl s).teardown hn hg rfl
  | some datagram =>
    dsimp only
    split_ifs
    · exact (Removes.refl s).teardown hn hg rfl
    · refine removes_handleSrtPacket ((Removes.refl s).inc ?_) hn hg _ env
      exact (Incs.Neutral.single 1 (c := .srtPacketsReceived) (by decide) rfl).append
        (.single _ (c := .srtBytesReceived) (by decide) rfl)

/-- The reaper counts the groups it drops. -/
theorem cleanupGroups_counted (t : ℤ) (ret : ℕ → ℤ) (groups : List ConnectionGroup) :
    let r := cleanupGroups t ret groups
    (r.1.map ConnectionGroup.ref).Sublist (groups.map ConnectionGroup.ref) ∧
      (∀ p ∈ r.2.2, p.1 ≠ .groupRegistrations) ∧
      Incs.removals r.2.2 + r.1.length = groups.length := by
  induction groups with
  | nil => exact ⟨List.Sublist.refl _, fun p hp => absurd hp List.not_mem_nil, rfl⟩
  | cons g groups ih =>
    obtain ⟨hrefs, hreg, hlen⟩ := ih
    have hconns := neutral_cleanupConns t ret g.conns
    unfold cleanupGroups
    dsimp only
    split_ifs
    · refine ⟨hrefs.cons _, ?_, ?_⟩
      · intro p hp
        rcases List.mem_append.mp hp with hp | hp
        · rcases List.mem_append.mp hp with hp | hp
          · exact (hconns p hp).1
          · rw [List.mem_singleton.mp hp]
            decide
        · exact hreg p hp
      · have hone : Incs.removals [(.groupsRemovedIdle, 1)] = 1 := rfl
        dsimp only
        rw [Incs.removals_append, Incs.removals_append, hconns.removals, hone, List.length_cons]
        omega
    · refine ⟨hrefs.cons_cons _, ?_, ?_⟩
      · intro p hp
        rcases List.mem_append.mp hp with hp | hp
        · exact (hconns p hp).1
        · exact hreg p hp
      · rw [Incs.removals_append, hconns.removals, List.length_cons, List.length_cons, ← hlen]
        omega

theorem removes_cleanup (s : State) (t : ℤ) (ret : ℕ → ℤ) :
    Removes s (cleanupInactive s t ret).1 := by
  unfold cleanupInactive
  split_ifs
  · exact .refl s
  · obtain ⟨hrefs, hreg, hlen⟩ := cleanupGroups_counted t ret s.groups
    refine ⟨hrefs, Metrics.bump_of_ne hreg, ?_⟩
    show (s.metrics.bump _).removals + (cleanupGroups t ret s.groups).1.length = _
    rw [Metrics.removals_bump, ← hlen]
    omega

/-- What a step does to the registry and its counters: groups are removed, and
    then one may be added. -/
inductive Accounts (s s' : State) : Prop
  | removes (h : Removes s s')
  | registers {s₁ : State} {g : ConnectionGroup} (h : Removes s s₁) (fresh : g.ref ∉ s.refs)
      (groups : s'.groups = s₁.groups ++ [g])
      (registrations : s'.metrics .groupRegistrations = s₁.metrics .groupRegistrations + 1)
      (removals : s'.metrics.removals = s₁.metrics.removals)

theorem accounts_registerGroup (h : Inv s) (addr : SockaddrStorage) (buffer : Mem) (ts : ℤ)
    (env : PacketEnv) : Accounts s (registerGroup s addr buffer ts env).2.1 := by
  unfold registerGroup
  split_ifs with hb
  · exact .removes ((Removes.refl s).inc (.single 1 (by decide) rfl))
  cases hroom : s.makeRoom with
  | none => exact .removes ((Removes.refl s).inc (.single 1 (by decide) rfl))
  | some s₁ =>
    have hnext := (makeRoom_eq_some hroom).2.2.2
    have h₁ : Removes s s₁ := by
      unfold State.makeRoom at hroom
      split_ifs at hroom
      · have hevict : Removes s s.evictOldestPendingGroup.2 := removes_evict h.refs
        rcases hev : s.evictOldestPendingGroup with ⟨b, s'⟩
        rw [hev] at hroom hevict
        cases b with
        | false => exact absurd hroom (by simp)
        | true =>
          rw [← Option.some.inj hroom]
          exact hevict
      · rw [← Option.some.inj hroom]
        exact .refl s
    dsimp only
    cases findByAddress s₁.groups addr with
    | some p => exact .removes (h₁.inc (.single 1 (by decide) rfl))
    | none =>
      dsimp only
      split_ifs
      · exact .removes ((h₁.trans (removes_nextRef s₁ _)).inc (.single 1 (by decide) rfl))
      · refine .registers (h₁.trans (removes_nextRef s₁ (s₁.nextRef + 1))) ?_ rfl ?_ ?_
        · intro hmem
          obtain ⟨x, hx, href⟩ := List.mem_map.mp hmem
          have hlt := (h.wf x hx).ref_lt
          rw [href, ← hnext] at hlt
          exact absurd hlt (lt_irrefl _)
        · rfl
        · exact Metrics.removals_bump _ _

theorem step_accounts (h : Inv s) (op : Op) : Accounts s (step s op).1 := by
  have hn : s.refs.Nodup := h.refs
  cases op with
  | packet buf addr ts env =>
    show Accounts s (processSinglePacket s buf addr ts env).1
    cases packetCase s buf addr with
    | reg1 h1 =>
      rw [processSinglePacket_reg1 h1]
      exact accounts_registerGroup h addr (mem buf) ts env
    | reg2 h2 =>
      rw [processSinglePacket_reg2 h2]
      exact .removes (removes_registerConnection s addr (mem buf) ts env)
    | @conn g c h1 h2 hf =>
      have hinc : Removes s (s.inc (onPacket g c buf addr ts env).incs) :=
        (Removes.refl s).inc (neutral_onPacket g c buf addr ts env)
      rw [processSinglePacket_conn_eq h1 h2 hf]
      dsimp only
      split_ifs
      · refine .removes (hinc.trans (removes_forward (s := s.inc _) hn ?_ buf env.forward))
        rw [onPacket_ref]
        exact List.mem_map_of_mem (findByAddress_conn hf).1
      · exact .removes (hinc.putGroup _)
    | stranger h1 h2 hf =>
      rw [processSinglePacket_stranger h1 h2 hf]
      exact .removes (.refl s)
  | srtData ref env =>
    cases hget : Keyed.get ConnectionGroup.ref ref s.groups with
    | none =>
      simp only [step, hget]
      exact .removes (.refl s)
    | some g =>
      rw [step_srtData hget]
      exact .removes (removes_handleSrtData hn (List.mem_map_of_mem (Keyed.get_mem hget)) env)
  | evict => exact .removes (removes_evict hn)
  | cleanup t ret => exact .removes (removes_cleanup s t ret)
  | limiterCleanup t => exact .removes ((Removes.refl s).congr rfl rfl)
  | quality t ms =>
    have hrefs : (s.assess t ms).refs = s.refs := by
      rw [State.refs, State.assess, List.map_map]
      refine List.map_congr_left fun g _ => ?_
      rw [Function.comp_apply, (assess_frame g t (ms g.ref)).2]
    refine .removes ⟨hrefs ▸ List.Sublist.refl _, rfl, ?_⟩
    show s.metrics.removals + (s.assess t ms).groups.length = _
    rw [State.assess, List.length_map]
  | count what =>
    refine .removes ((Removes.refl s).inc ?_)
    cases what with
    | batch => exact .single 1 (by decide) rfl
    | datagram len =>
      exact (Incs.Neutral.single 1 (c := .packetsReceived) (by decide) rfl).append
        (.single len (c := .bytesReceived) (by decide) rfl)

/-! ## The balance -/

theorem Removes.removed (h : Removes s s') (hn : s.refs.Nodup) :
    s'.metrics.removals = s.metrics.removals +
      (s.refs.filter fun r => decide (r ∉ s'.refs)).length := by
  have hlen := Narrowing.length_filter_notMem h.refs hn
  have hlen' : s'.refs.length = s'.groups.length := List.length_map _
  have hlen'' : s.refs.length = s.groups.length := List.length_map _
  have hrem := h.removals
  omega

/-- A step counts as removed what it takes out of the registry. -/
theorem Accounts.removed (h : Accounts s s') (hn : s.refs.Nodup) :
    s'.metrics.removals = s.metrics.removals +
      (s.refs.filter fun r => decide (r ∉ s'.refs)).length := by
  cases h with
  | removes h => exact h.removed hn
  | @registers s₁ g h hfresh hgroups _ hrem =>
    have hsame : (s.refs.filter fun r => decide (r ∉ s'.refs)) =
        s.refs.filter fun r => decide (r ∉ s₁.refs) := by
      refine List.filter_congr fun r hr => ?_
      have hne : r ≠ g.ref := fun heq => hfresh (heq ▸ hr)
      simp [State.refs, hgroups, hne]
    rw [hrem, hsame]
    exact h.removed hn

/-- A step keeps the balance. -/
theorem Accounts.balance (h : Accounts s s')
    (hs : s.metrics .groupRegistrations = s.groups.length + s.metrics.removals) :
    s'.metrics .groupRegistrations = s'.groups.length + s'.metrics.removals := by
  cases h with
  | removes h =>
    have hreg := h.registrations
    have hrem := h.removals
    omega
  | registers h _ hgroups hreg hrem =>
    have hreg' := h.registrations
    have hrem' := h.removals
    rw [hgroups, List.length_append, List.length_singleton]
    omega

/-- **The counters of groups balance.** After every input, the registrations are
    the groups in the registry and those removed for one of the four reasons; and
    each input counts as removed exactly the groups that it takes out of the
    registry. -/
theorem group_counters_balance (ops : List Op) :
    let s := receiver.run State.init ops
    s.metrics .groupRegistrations = s.groups.length + s.metrics .groupsRemovedIdle +
        s.metrics .groupsRemovedAuth + s.metrics .groupsRemovedSrtError +
        s.metrics .groupsRemovedEvicted ∧
      ∀ e ∈ receiver.hist State.init ops,
        (step e.pre e.input).1.metrics.removals = e.pre.metrics.removals +
          (e.pre.refs.filter fun r => decide (r ∉ (step e.pre e.input).1.refs)).length := by
  have hrun := receiver.run_invariant
    (P := fun s => Inv s ∧ s.metrics .groupRegistrations = s.groups.length + s.metrics.removals)
    (fun s op h => ⟨(step_regStep h.1 op).inv h.1, (step_accounts h.1 op).balance h.2⟩)
    (s := State.init) ⟨inv_init, rfl⟩ ops
  refine ⟨?_, ?_⟩
  · rw [hrun.2, Metrics.removals]
    omega
  · intro e he
    have hinv := reachable_inv (hist_spec ops e he).1
    exact (step_accounts hinv e.input).removed hinv.refs

/-- A flood for which the table has room removes nothing. -/
theorem removals_flood {n : ℕ} (h : n ≤ maxGroups) :
    (receiver.run State.init (flood n)).metrics.removals = 0 := by
  induction n with
  | zero => rfl
  | succ n ih =>
    have hinv : Inv (receiver.run State.init (flood n)) := run_inv inv_init _
    have hgroups := (run_flood (show n ≤ maxGroups by omega)).1
    have hgroups' := (run_flood h).1
    rw [flood_succ, Machine.run_concat] at hgroups' ⊢
    generalize Op.packet _ _ _ _ = op at hgroups' ⊢
    refine ((step_accounts hinv op).removed hinv.refs).trans ?_
    rw [ih (by omega), Nat.zero_add, List.length_eq_zero_iff, List.filter_eq_nil_iff]
    intro r hr
    rw [State.refs, hgroups, List.map_map] at hr
    obtain ⟨i, hi, rfl⟩ := List.mem_map.mp hr
    have hkept : floodGroup i ∈ (List.range (n + 1)).map floodGroup :=
      List.mem_map_of_mem (List.mem_range.mpr ((List.mem_range.mp hi).trans n.lt_succ_self))
    rw [decide_eq_true_eq, not_not]
    exact List.mem_map_of_mem (hgroups' ▸ hkept)

/-- Two groups register and are reaped before they have a connection. -/
theorem group_counters_balance_reaped :
    let s := receiver.run State.init (flood 2 ++ [.cleanup 100 fun _ => 0])
    s.groups = [] ∧ s.metrics .groupRegistrations = 2 ∧ s.metrics.removals = 2 := by
  obtain ⟨hsum, hsteps⟩ := group_counters_balance (flood 2 ++ [.cleanup 100 fun _ => 0])
  have hlast := hsteps _ (by rw [Machine.hist_concat]; exact List.mem_concat_self)
  have hnone : (receiver.run State.init (flood 2)).metrics.removals = 0 := removals_flood (by decide)
  obtain ⟨hgroups, -, -, hrun⟩ := run_flood (show 2 ≤ maxGroups by decide)
  rw [Machine.run_concat] at hsum ⊢
  generalize receiver.run State.init (flood 2) = s at *
  have hclean : (receiver.step s (.cleanup 100 fun _ => 0)).1.groups = [] := by
    show (cleanupInactive s 100 fun _ => 0).1.groups = []
    rw [cleanupInactive, if_neg (by rw [hrun]; decide), hgroups]
    rfl
  have hremoved : (receiver.step s (.cleanup 100 fun _ => 0)).1.metrics.removals = 2 := by
    refine hlast.trans ?_
    show s.metrics.removals + (s.refs.filter fun r =>
      decide (r ∉ (receiver.step s (.cleanup 100 fun _ => 0)).1.refs)).length = 2
    rw [hnone, State.refs, State.refs, hgroups, hclean]
    rfl
  refine ⟨hclean, ?_, hremoved⟩
  rw [Metrics.removals] at hremoved
  rw [hclean, List.length_nil] at hsum
  omega

end Srtla.Receiver
