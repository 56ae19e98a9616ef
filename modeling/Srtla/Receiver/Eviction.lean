import Srtla.Receiver.Balance
import Srtla.Receiver.Refusal

/-!
# A full table (`src/protocol/srtla_handler.cpp:206-277`,
`src/connection/connection_registry.cpp:58-78`)

With `MAX_GROUPS` groups registered, a REG1 takes the place of the oldest pending
group, one that has neither a connection nor seen data.

Results:
* `afterEviction_split`: what eviction leaves, by the place of the victim.
* `registerGroup_tableFull_iff`: when a REG1 is refused for a full table.
* `full_table_evicts_oldest`: which group goes and who is admitted, in every
  reachable state.
-/

namespace Srtla.Receiver

open Lib

variable {s : State} {addr : SockaddrStorage} {buffer : Mem} {ts : ℤ} {env : PacketEnv}

/-- The victim is the first of the oldest pending groups, and the others stay in
    their order. -/
theorem afterEviction_split (h : Inv s) (hfull : s.groups.length ≥ maxGroups) {v : ConnectionGroup}
    (hv : oldestPending s.groups = some v) :
    ∃ before after, s.groups = before ++ v :: after ∧ v.pending = true ∧
      (∀ g ∈ before, g.pending = true → v.createdAt < g.createdAt) ∧
      (∀ g ∈ after, g.pending = true → v.createdAt ≤ g.createdAt) ∧
      s.afterEviction = before ++ after := by
  have hargmin := hv
  rw [oldestPending_eq_argmin] at hargmin
  obtain ⟨before, after, hgroups, hpending, hbefore, hafter⟩ := Best.argmin_filter_split hargmin
  refine ⟨before, after, hgroups, hpending, hbefore, hafter, ?_⟩
  have hrefs := h.refs
  rw [hgroups] at hrefs
  rw [afterEviction_of_victim hfull hv, hgroups]
  exact Keyed.remove_append_cons hrefs

theorem afterEviction_of_room (hroom : s.groups.length < maxGroups) : s.afterEviction = s.groups := by
  unfold State.afterEviction State.victim
  rw [if_neg (not_le.mpr hroom)]

/-- A REG1 is admitted at the last exit only. -/
theorem registerGroup_admitted_iff :
    (registerGroup s addr buffer ts env).1 = 0 ↔ regGroupOutcome s addr ts env = .registered := by
  obtain ⟨_, hcase⟩ := registerGroup_cases s addr buffer ts env
  cases ho : regGroupOutcome s addr ts env with
  | registered =>
    rw [ho] at hcase
    simp [hcase.1]
  | throttled | tableFull | dupAddr | sendError =>
    rw [ho] at hcase
    simp [hcase.1]

/-- Making room is not counted as a refusal. -/
theorem makeRoom_metrics {s' : State} (h : s.makeRoom = some s') :
    s'.metrics .groupRegTableFull = s.metrics .groupRegTableFull := by
  unfold State.makeRoom State.evictOldestPendingGroup at h
  split_ifs at h
  · cases hv : oldestPending s.groups with
    | none =>
      rw [hv] at h
      cases h
    | some v =>
      rw [hv] at h
      rw [← Option.some.inj h]
      exact Metrics.bump_of_ne (by decide)
  · rw [← Option.some.inj h]

/-- `GROUP_REG_TABLE_FULL` counts the REG1s that find no room. -/
theorem registerGroup_tableFull_iff (hb : s.limiter.isBlocked addr ts = false) :
    (registerGroup s addr buffer ts env).2.1.metrics .groupRegTableFull ≠ s.metrics .groupRegTableFull ↔
      s.groups.length ≥ maxGroups ∧ ∀ g ∈ s.groups, g.pending = false := by
  rw [← oldestPending_eq_none_iff, ← makeRoom_eq_none_iff]
  unfold registerGroup
  rw [hb, if_neg Bool.false_ne_true]
  cases hroom : s.makeRoom with
  | none => simp [State.inc, Metrics.bump]
  | some s' =>
    refine ⟨fun h => absurd ?_ h, fun h => by cases h⟩
    rw [← makeRoom_metrics hroom]
    dsimp only
    cases findByAddress s'.groups addr with
    | some p => exact Metrics.bump_of_ne (by decide)
    | none =>
      dsimp only
      split_ifs <;> exact Metrics.bump_of_ne (by decide)

/-- The group a REG1 evicts in a full table, the list that remains, and the new
    group behind it. -/
def Replaces (s s' : State) (newcomer : ConnectionGroup) : Prop :=
  ∃ before v after, s.groups = before ++ v :: after ∧ (v.conns = [] ∧ v.dataSeen = false) ∧
    (∀ g ∈ before, g.pending = true → v.createdAt < g.createdAt) ∧
    (∀ g ∈ after, g.pending = true → v.createdAt ≤ g.createdAt) ∧
    s'.groups = before ++ after ++ [newcomer]

/-- **A full table evicts the right group and admits the newcomer.** For a REG1 in a
    reachable state, from an address that is not throttled: if it is admitted with
    `MAX_GROUPS` groups registered, the first of the oldest pending groups is gone
    and the new group is last; with fewer groups, it is only added. It is refused
    for a full table iff there are `MAX_GROUPS` groups and none is pending. If there
    is room or a pending group, no group owns the address and the reply is sent,
    it is admitted. -/
theorem full_table_evicts_oldest (h : Reachable s) (hb : s.limiter.isBlocked addr ts = false)
    (buffer : Mem) (env : PacketEnv) :
    let r := registerGroup s addr buffer ts env
    (r.1 = 0 → s.groups.length = maxGroups → Replaces s r.2.1 (newGroup s addr buffer ts env)) ∧
    (r.1 = 0 → s.groups.length < maxGroups →
      r.2.1.groups = s.groups ++ [newGroup s addr buffer ts env]) ∧
    (r.2.1.metrics .groupRegTableFull ≠ s.metrics .groupRegTableFull ↔
      s.groups.length = maxGroups ∧ ∀ g ∈ s.groups, g.pending = false) ∧
    ((s.groups.length < maxGroups ∨ ∃ g ∈ s.groups, g.pending = true) →
      (∀ g ∈ s.groups, ¬ g.Owns addr) → padRet srtlaTypeReg2Len env.sendtoRet = srtlaTypeReg2Len →
      r.1 = 0) := by
  intro r
  have hinv := reachable_inv h
  have htable := hinv.table
  have hadmitted : r.1 = 0 → r.2.1.groups = s.afterEviction ++ [newGroup s addr buffer ts env] := by
    intro hr
    obtain ⟨_, hcase⟩ := registerGroup_cases s addr buffer ts env
    rw [registerGroup_admitted_iff.mp hr] at hcase
    exact hcase.2.1
  refine ⟨fun hr hfull => ?_, fun hr hroom => ?_, ?_, fun hslot hnew hsent => ?_⟩
  · have hroom := (regGroupOutcome_eq_registered_iff.mp (registerGroup_admitted_iff.mp hr)).2.1
    obtain ⟨v, hv⟩ := Option.ne_none_iff_exists'.mp fun hnone => hroom ⟨hfull.ge, hnone⟩
    obtain ⟨before, after, hgroups, hpending, hbefore, hafter, hleft⟩ := afterEviction_split hinv hfull.ge hv
    refine ⟨before, v, after, hgroups, ConnectionGroup.pending_iff.mp hpending, hbefore, hafter, ?_⟩
    rw [hadmitted hr, hleft]
  · rw [hadmitted hr, afterEviction_of_room hroom]
  · rw [registerGroup_tableFull_iff hb]
    exact and_congr_left fun _ => ⟨fun hge => le_antisymm htable hge, fun heq => heq.ge⟩
  · rw [registerGroup_admitted_iff, regGroupOutcome_eq_registered_iff]
    refine ⟨hb, ?_, findByAddress_eq_none_iff.mpr fun g hg => hnew g ?_, hsent⟩
    · rintro ⟨hfull, hnone⟩
      rcases hslot with hroom | ⟨g, hg, hpending⟩
      · omega
      · rw [oldestPending_eq_none_iff.mp hnone g hg] at hpending
        cases hpending
    · exact (afterEviction_sublist s).subset hg

/-- 200 groups have registered, and a REG1 from a new address takes the place of the
    first one. -/
theorem full_table_evicts_oldest_flood :
    let s := receiver.run State.init (flood 200)
    let env : PacketEnv := { (default : PacketEnv) with sendtoRet := 258 }
    Reachable s ∧ s.groups.length = maxGroups ∧
      Replaces s (registerGroup s (sampleAddr 300) (mem (reg1Frame default)) 0 env).2.1
        (newGroup s (sampleAddr 300) (mem (reg1Frame default)) 0 env) := by
  have hreach : Reachable (receiver.run State.init (flood 200)) := ⟨_, rfl⟩
  obtain ⟨hgroups, _, hlim, _⟩ := run_flood (show 200 ≤ maxGroups from le_refl _)
  -- the run itself is not to be evaluated
  generalize receiver.run State.init (flood 200) = s at hreach hgroups hlim ⊢
  intro _ env
  have hfull : s.groups.length = maxGroups := by
    rw [hgroups, List.length_map, List.length_range]
    rfl
  have hb : s.limiter.isBlocked (sampleAddr 300) 0 = false := by
    rw [hlim, AuthRateLimiter.isBlocked, AList.lookup_empty]
  obtain ⟨hevicts, _, _, hadmits⟩ := full_table_evicts_oldest hreach hb (mem (reg1Frame default)) env
  have hpending : ∃ g ∈ s.groups, g.pending = true := by
    refine ⟨floodGroup 0, ?_, rfl⟩
    rw [hgroups]
    exact List.mem_map_of_mem (List.mem_range.mpr (by decide))
  have hnew : ∀ g ∈ s.groups, ¬ g.Owns (sampleAddr 300) := by
    intro g hg howns
    rw [hgroups] at hg
    obtain ⟨i, hi, rfl⟩ := List.mem_map.mp hg
    rcases howns with ⟨c, hc, _⟩ | haddr
    · cases hc
    · have hport := congrArg UInt16.toNat (addressesEqual_sampleAddr.mp haddr)
      rw [UInt16.toNat_ofNat'] at hport
      have hi := List.mem_range.mp hi
      replace hport : i % 65536 = 300 := hport
      omega
  exact ⟨hreach, hfull, hevicts (hadmits (Or.inr hpending) hnew rfl) hfull⟩

end Srtla.Receiver
