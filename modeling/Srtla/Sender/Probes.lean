import Srtla.Sender.GivingUp

/-!
# What housekeeping sends on open links (`src/sender.cpp:599-697`)

An effective call of `connection_housekeeping` resets the links that have timed out
and sends a REG2 on each of them, unless a REG1 is waiting for its answer: then only
the link that sent it is served, with another REG1.

Results:
* `housekeepLoop_open`: the links that the loop leaves.
* `housekeepLoop_wire`: the REG2s that it sends.
* `housekeeping_probes`: a call with no REG1 under way.
-/

namespace Srtla.Sender

open Lib

variable {s : State} {env : HousekeepingEnv} {ms : ℕ} {time : ℤ} {conns : List Conn} {c : Conn}

/-- What the loop body leaves of a link with a socket. -/
def Conn.probed (time : ℤ) (c : Conn) : Conn := if c.timedOut time then c.reset else c

theorem Conn.reset_frame (c : Conn) :
    c.reset.ref = c.ref ∧ c.reset.fd = c.fd ∧ c.reset.addr = c.addr := by
  unfold Conn.reset
  split_ifs <;> exact ⟨rfl, rfl, rfl⟩

theorem Conn.probed_frame (time : ℤ) (c : Conn) :
    (c.probed time).ref = c.ref ∧ (c.probed time).fd = c.fd ∧ (c.probed time).addr = c.addr := by
  unfold Conn.probed
  split_ifs
  · exact c.reset_frame
  · exact ⟨rfl, rfl, rfl⟩

theorem housekeepConn_open (hfd : 0 ≤ c.fd) (fds : List ℤ) :
    (housekeepConn s time env fds c).conn = c.probed time := by
  unfold housekeepConn Conn.probed
  rw [if_neg (not_lt.mpr hfd)]
  split_ifs <;> rfl

theorem housekeepLoop_open (h : ∀ c ∈ conns, 0 ≤ c.fd) (fds : List ℤ) :
    (housekeepLoop s time env fds conns).2.1 = conns.map (Conn.probed time) := by
  induction conns generalizing fds with
  | nil => rfl
  | cons c conns ih =>
    show (housekeepConn s time env fds c).conn :: (housekeepLoop s time env _ conns).2.1 = _
    rw [housekeepConn_open (h c List.mem_cons_self), ih fun d hd => h d (List.mem_cons_of_mem _ hd)]
    rfl

/-- A link that has timed out sends a REG2. -/
theorem housekeepConn_wire (hfd : 0 ≤ c.fd) (hout : c.timedOut time = true)
    (hpending : s.pendingReg2Conn = none) (hret : env.ret c.ref = srtlaTypeReg2Len) (fds : List ℤ) :
    (housekeepConn s time env fds c).effects.flatMap Effect.wire = [(c.addr, reg2Frame s.srtlaId)] := by
  obtain ⟨href, hfd', haddr⟩ := c.reset_frame
  unfold housekeepConn
  rw [if_neg (not_lt.mpr hfd), if_pos hout]
  dsimp only
  rw [if_pos hpending, State.sendReg2, hfd', if_neg (not_lt.mpr hfd), State.sendto, hfd',
    if_neg (not_lt.mpr hfd), href, haddr, hret, List.flatMap_singleton, Effect.wire, if_pos]
  rw [reg2Frame, length_regFrame]
  rfl

theorem housekeepLoop_wire (hpending : s.pendingReg2Conn = none) (fds : List ℤ) (hc : c ∈ conns)
    (hfd : 0 ≤ c.fd) (hout : c.timedOut time = true) (hret : env.ret c.ref = srtlaTypeReg2Len) :
    (c.addr, reg2Frame s.srtlaId) ∈
      (housekeepLoop s time env fds conns).2.2.2.flatMap Effect.wire := by
  induction conns generalizing fds with
  | nil => cases hc
  | cons d conns ih =>
    show _ ∈ ((housekeepConn s time env fds d).effects ++ _).flatMap Effect.wire
    rw [List.flatMap_append]
    rcases List.mem_cons.mp hc with rfl | hc
    · refine List.mem_append_left _ ?_
      rw [housekeepConn_wire hfd hout hpending hret]
      exact List.mem_singleton_self _
    · exact List.mem_append_right _ (ih _ hc)

/-- The timeout of the address has not passed, if it is running. -/
def State.Waits (s : State) (ms : ℕ) : Prop :=
  s.allFailedAt = 0 ∨ ms ≤ s.allFailedAt + globalTimeout * 1000

/-- A sender that is still waiting neither exits nor goes on to another address. -/
theorem checkFailed_waits (h : s.Waits ms) :
    (s.checkFailed ms).exited = s.exited ∧ (s.checkFailed ms).activeConnections = s.activeConnections ∧
      (s.checkFailed ms).pendingReg2Conn = s.pendingReg2Conn ∧
      (s.checkFailed ms).pendingRegTimeout = s.pendingRegTimeout := by
  unfold State.checkFailed
  by_cases hactive : s.activeConnections = 0
  · have hwait : ¬ s.failedAt ms + globalTimeout * 1000 < ms := by
      unfold State.failedAt
      split_ifs with hzero
      · omega
      · rcases h with h | h
        · exact absurd h hzero
        · omega
    rw [if_pos hactive]
    dsimp only
    rw [failedAt_eq]
    dsimp only
    rw [if_neg hwait]
    exact ⟨rfl, rfl, rfl, rfl⟩
  · rw [if_neg hactive]
    exact ⟨rfl, rfl, rfl, rfl⟩

theorem expirePending_expired (h : s.pendingReg2Conn = none ∨ s.pendingRegTimeout < time) :
    s.expirePending time = { s with pendingReg2Conn := none } := by
  unfold State.expirePending
  by_cases hnone : s.pendingReg2Conn = none
  · rw [if_neg fun hp => hp.1 hnone, ← hnone]
  · rw [if_pos ⟨hnone, h.resolve_left hnone⟩]

/-- **A call with no REG1 under way** leaves the registration as it is, resets the
    links that have timed out, and sends a REG2 on each of them. -/
theorem housekeeping_probes (heff : s.Effective (.housekeeping env) ms) (hexited : s.exited = false)
    (hopen : ∀ c ∈ s.conns, 0 ≤ c.fd) (hwaits : s.Waits ms)
    (hpending : s.pendingReg2Conn = none ∨ s.pendingRegTimeout < (ms / 1000 : ℕ)) :
    ∃ r, step s (.housekeeping env) = some r ∧ r.1.exited = false ∧ r.1.srtlaId = s.srtlaId ∧
      r.1.pendingReg2Conn = none ∧ r.1.pendingRegTimeout = s.pendingRegTimeout ∧
      r.1.conns = s.conns.map (Conn.probed (ms / 1000 : ℕ)) ∧
      (r.1.activeConnections = 0 ↔ s.NoneActive ms) ∧
      ∀ c ∈ s.conns, c.timedOut (ms / 1000 : ℕ) = true → env.ret c.ref = srtlaTypeReg2Len →
        (c.addr, reg2Frame s.srtlaId) ∈ r.2.flatMap Effect.wire := by
  have hexpired := expirePending_expired hpending
  have hwaits' : (s.counted env ms).Waits ms := by
    unfold State.Waits
    rw [(counted_frame s env ms).1]
    exact hwaits
  obtain ⟨hexit, hactive, hpend, htimeout⟩ := checkFailed_waits hwaits'
  have hcounted : (s.counted env ms).pendingReg2Conn = none ∧
      (s.counted env ms).pendingRegTimeout = s.pendingRegTimeout ∧
      (s.counted env ms).srtlaId = s.srtlaId ∧
      (s.counted env ms).conns = s.conns.map (Conn.probed (ms / 1000 : ℕ)) := by
    unfold State.counted
    rw [hexpired]
    exact ⟨rfl, rfl, rfl, housekeepLoop_open hopen _⟩
  refine ⟨_, step_housekeeping_eq hexited env, ?_⟩
  rw [connectionHousekeeping_effective heff]
  refine ⟨hexit.trans ((counted_frame s env ms).2.2.trans hexited),
    (checkFailed_frame _ ms).1.trans hcounted.2.2.1, hpend.trans hcounted.1,
    htimeout.trans hcounted.2.1, (checkFailed_frame _ ms).2.1.trans hcounted.2.2.2, ?_, ?_⟩
  · show (State.checkFailed _ ms).activeConnections = 0 ↔ _
    rw [hactive]
    exact counted_eq_zero_iff s env ms
  · intro c hc hout hret
    obtain ⟨_, ⟨⟩, hms, hran⟩ := heff
    unfold connectionHousekeeping
    simp only [hms, if_neg (not_lt.mpr hran)]
    rw [hexpired]
    exact @housekeepLoop_wire { s with pendingReg2Conn := none } env _ _ c rfl _ hc (hopen c hc) hout hret

end Srtla.Sender
