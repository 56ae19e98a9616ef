import Srtla.Receiver.Handshake

/-!
# Refused registrations

`register_connection` changes nothing when it refuses. `register_group` does in
one case: in a full table it evicts the oldest pending group first, and only
then looks for the address among the groups and sends the reply. If either
fails, the REG1 is refused and the evicted group is lost.

* `refused_registration_iff`: a refused registration leaves the list of groups
  as it was exactly when it is not such a REG1.
* `refused_registration_evicts`: 200 groups are registered, and a REG1 from the
  address of one of them is refused and takes another one down.
-/

namespace Srtla.Receiver

open Lib

variable {s : State} {addr : SockaddrStorage} {ts : ℤ} {env : PacketEnv}

/-- A REG1 that meets a full table, evicts `v` and is then refused: the address
    belongs to another group, or the reply cannot be sent. -/
def EvictsInVain (s : State) (addr : SockaddrStorage) (ts : ℤ) (env : PacketEnv) : Prop :=
  s.limiter.isBlocked addr ts = false ∧ s.groups.length ≥ maxGroups ∧
    ∃ v, oldestPending s.groups = some v ∧
      ((∃ g ∈ s.groups, g.ref ≠ v.ref ∧ g.Owns addr) ∨
        padRet srtlaTypeReg2Len env.sendtoRet ≠ srtlaTypeReg2Len)

theorem afterEviction_of_victim {v : ConnectionGroup} (hfull : s.groups.length ≥ maxGroups)
    (hv : oldestPending s.groups = some v) :
    s.afterEviction = Keyed.remove ConnectionGroup.ref v.ref s.groups := by
  unfold State.afterEviction State.victim
  rw [if_pos hfull, hv]

/-- Eviction shortens the list. -/
theorem length_afterEviction (h : Inv s) {v : ConnectionGroup}
    (hfull : s.groups.length ≥ maxGroups) (hv : oldestPending s.groups = some v) :
    s.afterEviction.length + 1 = s.groups.length := by
  rw [afterEviction_of_victim hfull hv]
  exact Keyed.length_remove_of_mem h.refs (oldestPending_eq_some hv).1

/-- Such a REG1 is refused, and the victim is gone. -/
theorem EvictsInVain.refused (hvain : EvictsInVain s addr ts env) (buffer : Mem) :
    (registerGroup s addr buffer ts env).1 = -1 ∧
      (registerGroup s addr buffer ts env).2.1.groups = s.afterEviction := by
  obtain ⟨hb, hfull, v, hv, hor⟩ := hvain
  have hroom : ¬ (s.groups.length ≥ maxGroups ∧ oldestPending s.groups = none) := by
    rw [hv]
    simp
  have hne : regGroupOutcome s addr ts env ≠ .registered := by
    intro ho
    obtain ⟨_, _, hfresh, hsend⟩ := regGroupOutcome_eq_registered_iff.mp ho
    rcases hor with ⟨g, hg, hgv, howns⟩ | hfail
    · refine findByAddress_eq_none_iff.mp hfresh g ?_ howns
      rw [afterEviction_of_victim hfull hv]
      exact Keyed.mem_remove.mpr ⟨hg, hgv⟩
    · exact hfail hsend
  obtain ⟨_, hcase⟩ := registerGroup_cases s addr buffer ts env
  cases ho : regGroupOutcome s addr ts env with
  | throttled =>
    unfold regGroupOutcome at ho
    rw [hb, if_neg (by decide), if_neg hroom] at ho
    split_ifs at ho
  | tableFull =>
    unfold regGroupOutcome at ho
    rw [hb, if_neg (by decide), if_neg hroom] at ho
    split_ifs at ho
  | dupAddr => rw [ho] at hcase; exact ⟨hcase.1, hcase.2.1⟩
  | sendError => rw [ho] at hcase; exact ⟨hcase.1, hcase.2.1⟩
  | registered => exact absurd ho hne

/-- A refused REG1 that is not of this kind leaves the groups alone. -/
theorem registerGroup_refused (hvain : ¬ EvictsInVain s addr ts env) (buffer : Mem)
    (hret : (registerGroup s addr buffer ts env).1 = -1) :
    (registerGroup s addr buffer ts env).2.1.groups = s.groups := by
  obtain ⟨_, hcase⟩ := registerGroup_cases s addr buffer ts env
  -- without a victim the groups that remain are all of them
  have hkeep : s.victim = none → s.afterEviction = s.groups := by
    intro hv
    rw [State.afterEviction, hv]
  have hno : regGroupOutcome s addr ts env = .dupAddr ∨ regGroupOutcome s addr ts env = .sendError →
      s.victim = none := by
    intro ho
    by_contra hsome
    obtain ⟨v, hv⟩ := Option.ne_none_iff_exists'.mp hsome
    unfold State.victim at hv
    split_ifs at hv with hfull
    unfold regGroupOutcome at ho
    split_ifs at ho with h1 h2 h3 h4
    · exact absurd ho (by simp)
    · exact absurd ho (by simp)
    · refine hvain ⟨by simpa using h1, hfull, v, hv, Or.inl ?_⟩
      obtain ⟨p, hp⟩ := Option.isSome_iff_exists.mp h3
      obtain ⟨hmem, _, howns⟩ := findByAddress_eq_some (show _ = some (p.1, p.2) from hp)
      rw [afterEviction_of_victim hfull hv] at hmem
      exact ⟨p.1, (Keyed.mem_remove.mp hmem).1, (Keyed.mem_remove.mp hmem).2, howns⟩
    · exact hvain ⟨by simpa using h1, hfull, v, hv, Or.inr h4⟩
    · exact absurd ho (by simp)
  cases ho : regGroupOutcome s addr ts env with
  | throttled => rw [ho] at hcase; exact hcase.2.1
  | tableFull => rw [ho] at hcase; exact hcase.2.1
  | dupAddr => rw [ho] at hcase; exact hcase.2.1.trans (hkeep (hno (Or.inl ho)))
  | sendError => rw [ho] at hcase; exact hcase.2.1.trans (hkeep (hno (Or.inr ho)))
  | registered =>
    rw [ho] at hcase
    rw [hcase.1] at hret
    exact absurd hret (by decide)

/-- **When a refused registration changes nothing.** For a REG1 or a REG2 in a
    reachable state, refusal leaves the list of groups, with all their fields, as
    it was, exactly when the datagram is not a REG1 that evicts in vain. -/
theorem refused_registration_iff (s : State) (h : Reachable s) (buf : Bytes)
    (addr : SockaddrStorage) (ts : ℤ) (env : PacketEnv) :
    ((isSrtlaReg1 (mem buf) buf.length = true →
        (registerGroup s addr (mem buf) ts env).1 = -1 →
        (registerGroup s addr (mem buf) ts env).2.1.groups = s.groups) ∧
      (isSrtlaReg2 (mem buf) buf.length = true →
        (registerConnection s addr (mem buf) ts env).1 = -1 →
        (registerConnection s addr (mem buf) ts env).2.1.groups = s.groups)) ↔
    ¬ (isSrtlaReg1 (mem buf) buf.length = true ∧ EvictsInVain s addr ts env) := by
  have hinv := reachable_inv h
  constructor
  · rintro ⟨hreg1, _⟩ ⟨h1, hvain⟩
    obtain ⟨hret, hgroups⟩ := hvain.refused (mem buf)
    obtain ⟨_, hfull, v, hv, _⟩ := hvain
    have hlen := length_afterEviction hinv hfull hv
    rw [← hgroups, hreg1 h1 hret] at hlen
    omega
  · intro hvain
    constructor
    · intro h1 hret
      exact registerGroup_refused (fun hv => hvain ⟨h1, hv⟩) (mem buf) hret
    · intro _ hret
      rcases registerConnection_cases s hinv.refs addr (mem buf) ts env with
        href | ⟨g, _, _, hok, _⟩
      · exact href.2.1
      · rw [hok] at hret
        exact absurd hret (by decide)

/-- A REG1 from the address of a connection is refused, and the table is not full. -/
theorem refused_registration_handshake :
    let s := receiver.run State.init (handshake default default (sampleAddr 1) (sampleAddr 2) 0 0)
    (registerGroup s (sampleAddr 2) (mem (reg1Frame default)) 0 default).1 = -1 ∧
      (registerGroup s (sampleAddr 2) (mem (reg1Frame default)) 0 default).2.1.groups = s.groups := by
  obtain ⟨hgroups, _, hlim, _⟩ := run_handshake default default (sampleAddr 1) (sampleAddr 2) 0 0
  have hreach : Reachable (receiver.run State.init
    (handshake default default (sampleAddr 1) (sampleAddr 2) 0 0)) := ⟨_, rfl⟩
  generalize receiver.run State.init
    (handshake default default (sampleAddr 1) (sampleAddr 2) 0 0) = s at hgroups hlim hreach ⊢
  have hroom : ¬ s.groups.length ≥ maxGroups := by
    rw [hgroups]
    decide
  have hdup : regGroupOutcome s (sampleAddr 2) 0 default = .dupAddr := by
    have hb : s.limiter.isBlocked (sampleAddr 2) 0 = false := by
      rw [AuthRateLimiter.isBlocked, hlim, AList.lookup_empty]
    rw [regGroupOutcome, hb, if_neg Bool.false_ne_true, if_neg fun h => hroom h.1, State.afterEviction,
      State.victim, if_neg hroom, hgroups]
    rfl
  have hret : (registerGroup s (sampleAddr 2) (mem (reg1Frame default)) 0 default).1 = -1 := by
    have hcase := (registerGroup_cases s (sampleAddr 2) (mem (reg1Frame default)) 0 default).2
    rw [hdup] at hcase
    exact hcase.1
  have hiff := refused_registration_iff s hreach (reg1Frame default) (sampleAddr 2) 0 default
  exact ⟨hret, (hiff.mpr fun h => hroom h.2.2.1).1 (isSrtlaReg1_reg1Frame default) hret⟩

/-! ## The failing input -/

/-- Among groups of the same age the first one stays the victim. -/
theorem foldl_olderPending_floodGroup (l : List ℕ) :
    (l.map floodGroup).foldl olderPending (some (floodGroup 0)) = some (floodGroup 0) := by
  induction l with
  | nil => rfl
  | cons i l ih =>
    have hstep : olderPending (some (floodGroup 0)) (floodGroup i) = some (floodGroup 0) := by
      rw [olderPending_of_pending rfl]
      exact if_neg (lt_irrefl _)
    rw [List.map_cons, List.foldl_cons, hstep, ih]

theorem oldestPending_flood (n : ℕ) :
    oldestPending ((List.range (n + 1)).map floodGroup) = some (floodGroup 0) := by
  have hfirst : olderPending none (floodGroup 0) = some (floodGroup 0) := olderPending_of_pending rfl
  rw [oldestPending, List.range_succ_eq_map, List.map_cons, List.foldl_cons, hfirst,
    foldl_olderPending_floodGroup]

/-- **The failing input.** 200 groups have registered and a REG1 arrives from the
    address of group 5: it is refused, but group 0 is gone. -/
theorem refused_registration_evicts :
    let s := receiver.run State.init (flood 200)
    Reachable s ∧ isSrtlaReg1 (mem (reg1Frame default)) (reg1Frame default).length = true ∧
      (registerGroup s (sampleAddr 5) (mem (reg1Frame default)) 0 default).1 = -1 ∧
      floodGroup 0 ∈ s.groups ∧
      floodGroup 0 ∉ (registerGroup s (sampleAddr 5) (mem (reg1Frame default)) 0 default).2.1.groups := by
  dsimp only
  obtain ⟨hgroups, _, hlim, _⟩ := run_flood (show 200 ≤ maxGroups from le_refl _)
  set s := receiver.run State.init (flood 200) with hs
  have hfull : s.groups.length ≥ maxGroups := by
    rw [hgroups, List.length_map, List.length_range]
    exact le_refl _
  have hv : oldestPending s.groups = some (floodGroup 0) := by
    rw [hgroups]
    exact oldestPending_flood 199
  have hvain : EvictsInVain s (sampleAddr 5) 0 default := by
    refine ⟨?_, hfull, _, hv, Or.inl ⟨floodGroup 5, ?_, by decide, Or.inr (addressesEqual_refl _)⟩⟩
    · rw [AuthRateLimiter.isBlocked, hlim, AList.lookup_empty]
    · rw [hgroups]
      exact List.mem_map_of_mem (List.mem_range.mpr (by decide))
  obtain ⟨hret, hafter⟩ := hvain.refused (mem (reg1Frame default))
  refine ⟨⟨_, rfl⟩, isSrtlaReg1_reg1Frame default, hret, (oldestPending_eq_some hv).1, ?_⟩
  rw [hafter, afterEviction_of_victim hfull hv]
  exact fun hmem => (Keyed.mem_remove.mp hmem).2 rfl

end Srtla.Receiver
