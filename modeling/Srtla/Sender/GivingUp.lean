import Srtla.Sender.Calls

/-!
# When the sender gives up (`src/sender.cpp:598-697`)

`connection_housekeeping` counts the active links and remembers in `all_failed_at`
since when there were none. After `GLOBAL_TIMEOUT` seconds it exits or goes on to
the next address of the receiver. A call is effective if it can read the clock and
the last effective one is at least `HOUSEKEEPING_INT` ago.

Results:
* `housekeepCase`: what a call of `connection_housekeeping` can do.
* `failedSince_trace`: `all_failed_at` is the time of an effective call, and no
  effective call since then has found an active link.
* `gives_up_after_timeout`: for every run, whatever happens between the calls.
-/

namespace Srtla.Sender

open Lib

/-! ## One call -/

/-- The call does its work, at time `ms`. -/
def State.Effective (s : State) (op : Op) (ms : ℕ) : Prop :=
  ∃ env, op = .housekeeping env ∧ env.ms = some ms ∧ s.lastRan + housekeepingInt ≤ ms

/-- No link is active at time `ms`: each is without a socket or timed out. -/
def State.NoneActive (s : State) (ms : ℕ) : Prop :=
  ∀ c ∈ s.conns, c.fd < 0 ∨ c.timedOut (ms / 1000 : ℕ) = true

variable {s s' : State} {env : HousekeepingEnv} {ms : ℕ}

theorem housekeepConn_active (s : State) (time : ℤ) (env : HousekeepingEnv) (fds : List ℤ) (c : Conn) :
    (housekeepConn s time env fds c).active = if c.fd < 0 ∨ c.timedOut time = true then 0 else 1 := by
  unfold housekeepConn
  by_cases hfd : c.fd < 0
  · rw [if_pos hfd, if_pos (Or.inl hfd)]
  · by_cases hout : c.timedOut time = true
    · rw [if_neg hfd, if_pos hout, if_pos (Or.inr hout)]
    · rw [if_neg hfd, if_neg hout, if_neg (not_or.mpr ⟨hfd, hout⟩)]

/-- The loop counts the active links. -/
theorem housekeepLoop_active (s : State) (time : ℤ) (env : HousekeepingEnv) (fds : List ℤ)
    (conns : List Conn) :
    0 ≤ (housekeepLoop s time env fds conns).2.2.1 ∧
      ((housekeepLoop s time env fds conns).2.2.1 = 0 ↔
        ∀ c ∈ conns, c.fd < 0 ∨ c.timedOut time = true) := by
  induction conns generalizing fds with
  | nil => simp [housekeepLoop]
  | cons c conns ih =>
    obtain ⟨hnonneg, hzero⟩ := ih (housekeepConn s time env fds c).fds
    have hactive := housekeepConn_active s time env fds c
    rw [List.forall_mem_cons, ← hzero]
    show 0 ≤ (housekeepConn s time env fds c).active + _ ∧
      ((housekeepConn s time env fds c).active + _ = 0 ↔ _)
    by_cases hc : c.fd < 0 ∨ c.timedOut time = true
    · rw [if_pos hc] at hactive
      rw [hactive, zero_add]
      exact ⟨hnonneg, (and_iff_right hc).symm⟩
    · rw [if_neg hc] at hactive
      rw [hactive]
      exact ⟨by omega, ⟨fun h => by omega, fun h => absurd h.1 hc⟩⟩

/-- `all_failed_at` once a call at time `ms` has found no active link. -/
def State.failedAt (s : State) (ms : ℕ) : ℕ := if s.allFailedAt = 0 then ms else s.allFailedAt

/-- What a call of `connection_housekeeping` does to `all_failed_at`, to the list
    of addresses and to the program. -/
inductive HousekeepCase (s : State) (env : HousekeepingEnv) (s' : State) : Prop
  | idle (none : ∀ ms, ¬ s.Effective (.housekeeping env) ms) (eq : s' = s)
  | active {ms : ℕ} (eff : s.Effective (.housekeeping env) ms) (some : ¬ s.NoneActive ms)
      (failedAt : s'.allFailedAt = 0) (addrs : s'.addrs = s.addrs) (exited : s'.exited = s.exited)
  | waiting {ms : ℕ} (eff : s.Effective (.housekeeping env) ms) (none : s.NoneActive ms)
      (failedAt : s'.allFailedAt = s.failedAt ms) (addrs : s'.addrs = s.addrs)
      (exited : s'.exited = s.exited)
  | exit {ms : ℕ} (eff : s.Effective (.housekeeping env) ms) (none : s.NoneActive ms)
      (late : s.failedAt ms + globalTimeout * 1000 < ms) (failedAt : s'.allFailedAt = s.failedAt ms)
      (addrs : s'.addrs = s.addrs)
  | next {ms : ℕ} (eff : s.Effective (.housekeeping env) ms) (none : s.NoneActive ms)
      (late : s.failedAt ms + globalTimeout * 1000 < ms) (failedAt : s'.allFailedAt = 0)

/-- The state in which the links have been counted (line 661). -/
def State.counted (s : State) (env : HousekeepingEnv) (ms : ℕ) : State :=
  let s := s.expirePending (ms / 1000 : ℕ)
  let r := housekeepLoop s (ms / 1000 : ℕ) env s.activeFds s.conns
  { s with activeFds := r.1, conns := r.2.1, activeConnections := r.2.2.1 }

theorem counted_frame (s : State) (env : HousekeepingEnv) (ms : ℕ) :
    (s.counted env ms).allFailedAt = s.allFailedAt ∧ (s.counted env ms).addrs = s.addrs ∧
      (s.counted env ms).exited = s.exited := by
  unfold State.counted State.expirePending
  dsimp only
  split_ifs <;> exact ⟨rfl, rfl, rfl⟩

theorem counted_eq_zero_iff (s : State) (env : HousekeepingEnv) (ms : ℕ) :
    (s.counted env ms).activeConnections = 0 ↔ s.NoneActive ms := by
  unfold State.NoneActive
  rw [← (expirePending_frame s (ms / 1000 : ℕ)).2.1]
  exact (housekeepLoop_active _ _ env _ _).2

theorem checkFailed_of_active (h : s.activeConnections ≠ 0) (ms : ℕ) :
    s.checkFailed ms = { s with allFailedAt := 0 } := by
  unfold State.checkFailed
  rw [if_neg h]

theorem failedAt_eq (s : State) (ms : ℕ) :
    (if s.allFailedAt = 0 then { s with allFailedAt := ms } else s) =
      { s with allFailedAt := s.failedAt ms } := by
  unfold State.failedAt
  split_ifs <;> rfl

/-- No link is active: the program waits, or it gives up on the address. -/
theorem checkFailed_of_none (h : s.activeConnections = 0) (ms : ℕ) :
    ((s.checkFailed ms).allFailedAt = s.failedAt ms ∧ (s.checkFailed ms).addrs = s.addrs ∧
        ((s.checkFailed ms).exited = s.exited ∨ s.failedAt ms + globalTimeout * 1000 < ms)) ∨
      ((s.checkFailed ms).allFailedAt = 0 ∧ s.failedAt ms + globalTimeout * 1000 < ms) := by
  unfold State.checkFailed
  rw [if_pos h]
  dsimp only
  rw [failedAt_eq]
  dsimp only
  split_ifs with hlate hconnected
  · exact Or.inl ⟨rfl, rfl, Or.inr hlate⟩
  · cases s.addrs with
    | nil => exact Or.inl ⟨rfl, rfl, Or.inr hlate⟩
    | cons next rest => exact Or.inr ⟨rfl, hlate⟩
  · exact Or.inl ⟨rfl, rfl, Or.inl rfl⟩

theorem housekeepCase (s : State) (env : HousekeepingEnv) :
    HousekeepCase s env (connectionHousekeeping s env).1 := by
  unfold connectionHousekeeping
  cases hms : env.ms with
  | none =>
    refine .idle ?_ rfl
    rintro ms ⟨_, ⟨⟩, hsome, _⟩
    rw [hms] at hsome
    cases hsome
  | some ms =>
    dsimp only
    by_cases hran : s.lastRan + housekeepingInt > ms
    · rw [if_pos hran]
      refine .idle ?_ rfl
      rintro ms' ⟨_, ⟨⟩, hsome, hle⟩
      obtain rfl : ms = ms' := Option.some.inj (hms.symm.trans hsome)
      omega
    · rw [if_neg hran]
      have heff : s.Effective (.housekeeping env) ms := ⟨env, rfl, hms, by omega⟩
      obtain ⟨hfailed, haddrs, hexited⟩ := counted_frame s env ms
      have hfailedAt : (s.counted env ms).failedAt ms = s.failedAt ms := by
        unfold State.failedAt
        rw [hfailed]
      show HousekeepCase s env { (s.counted env ms).checkFailed ms with lastRan := ms }
      by_cases hnone : s.NoneActive ms
      · have hzero := (counted_eq_zero_iff s env ms).mpr hnone
        rcases checkFailed_of_none hzero ms with ⟨hat, haddrs', hwait | hlate⟩ | ⟨hat, hlate⟩
        · exact .waiting heff hnone (hat.trans hfailedAt) (haddrs'.trans haddrs) (hwait.trans hexited)
        · exact .exit heff hnone (hfailedAt ▸ hlate) (hat.trans hfailedAt) (haddrs'.trans haddrs)
        · exact .next heff hnone (hfailedAt ▸ hlate) hat
      · have hactive : (s.counted env ms).activeConnections ≠ 0 := fun h =>
          hnone ((counted_eq_zero_iff s env ms).mp h)
        rw [checkFailed_of_active hactive]
        exact .active heff hnone rfl haddrs hexited

theorem step_housekeeping {r : State × List Effect} (h : step s (.housekeeping env) = some r) :
    s.exited = false ∧ r = connectionHousekeeping s env := by
  unfold step at h
  split_ifs at h with hexited
  exact ⟨Bool.eq_false_iff.mpr hexited, (Option.some.inj h).symm⟩

/-- The other calls do not touch `all_failed_at` and the list of addresses. -/
theorem step_failed_frame {op : Op} {r : State × List Effect} (hop : ∀ env, op ≠ .housekeeping env)
    (h : step s op = some r) : r.1.allFailedAt = s.allFailedAt ∧ r.1.addrs = s.addrs := by
  cases step_cases h with
  | srtData env =>
    unfold handleSrtData
    dsimp only
    split <;> exact ⟨rfl, rfl⟩
  | empty => exact ⟨rfl, rfl⟩
  | ngp =>
    unfold onRegNgp
    dsimp only
    split_ifs <;> exact ⟨rfl, rfl⟩
  | reg2 =>
    unfold onReg2
    dsimp only
    split_ifs <;> exact ⟨rfl, rfl⟩
  | dispatch _ _ heq =>
    rw [dispatch_eq heq]
    exact ⟨rfl, rfl⟩
  | updateConns file => exact (updateConns_frame s file).2
  | housekeeping env => exact absurd rfl (hop env)

/-! ## Runs -/

/-- `since` is the time of an effective call in the history that found no active
    link, since which no effective call has found one and the address has not
    changed. -/
def FailedSince (since : ℕ) (es : List (State × Op)) (s : State) : Prop :=
  ∃ before q op after, es = before ++ (q, op) :: after ∧ q.Effective op since ∧ q.NoneActive since ∧
    (∀ e ∈ (q, op) :: after, e.1.addrs = s.addrs) ∧
    ∀ e ∈ after, ∀ ms, e.1.Effective e.2 ms → e.1.NoneActive ms

variable {since : ℕ} {es : List (State × Op)} {op : Op}

/-- A step that leaves the address alone and that finds no active link if it is
    effective. -/
theorem FailedSince.step (h : FailedSince since es s) (haddrs : s'.addrs = s.addrs)
    (hnone : ∀ ms, s.Effective op ms → s.NoneActive ms) : FailedSince since (es ++ [(s, op)]) s' := by
  obtain ⟨before, q, op', after, rfl, heff, hq, hsame, hafter⟩ := h
  refine ⟨before, q, op', after ++ [(s, op)], by simp, heff, hq, fun e he => ?_, fun e he ms hms => ?_⟩
  · rw [haddrs]
    rcases List.mem_append.mp (List.cons_append ▸ he) with he | he
    · exact hsame e he
    · rw [List.mem_singleton.mp he]
  · rcases List.mem_append.mp he with he | he
    · exact hafter e he ms hms
    · rw [List.mem_singleton.mp he] at hms ⊢
      exact hnone ms hms

/-- **`all_failed_at` is the time of an effective call since which no link was active.** -/
theorem failedSince_trace {s₀ : State} (h₀ : s₀.allFailedAt = 0) (h : (sender s₀).Trace es s) :
    s.allFailedAt = 0 ∨ FailedSince s.allFailedAt es s := by
  refine Lts.Trace.invariant (I := fun es s => s.allFailedAt = 0 ∨ FailedSince s.allFailedAt es s)
    (Or.inl h₀) ?_ h
  rintro es s op s' hs ⟨effects, hstep⟩
  by_cases hop : ∃ env, op = .housekeeping env
  · obtain ⟨env, rfl⟩ := hop
    obtain rfl : s' = (connectionHousekeeping s env).1 := congrArg Prod.fst (step_housekeeping hstep).2
    -- an effective call without an active link, which does not change the address
    have hfailed : ∀ {ms : ℕ} {s' : State}, s.Effective (.housekeeping env) ms → s.NoneActive ms →
        s'.allFailedAt = s.failedAt ms → s'.addrs = s.addrs →
        FailedSince s'.allFailedAt (es ++ [(s, .housekeeping env)]) s' := by
      intro ms s' heff hnone hat haddrs
      rw [hat, State.failedAt]
      split_ifs with hzero
      · refine ⟨es, s, _, [], rfl, heff, hnone, fun e he => ?_, fun e he => absurd he List.not_mem_nil⟩
        rw [List.mem_singleton.mp he, haddrs]
      · refine (hs.resolve_left hzero).step haddrs ?_
        rintro ms' ⟨_, ⟨⟩, hms', _⟩
        obtain ⟨_, ⟨⟩, hms, _⟩ := heff
        rwa [← Option.some.inj (hms.symm.trans hms')]
    cases housekeepCase s env with
    | idle hnone heq =>
      rw [heq]
      exact hs.imp_right fun h => h.step rfl fun ms heff => absurd heff (hnone ms)
    | active _ _ hat => exact Or.inl hat
    | waiting heff hnone hat haddrs => exact Or.inr (hfailed heff hnone hat haddrs)
    | exit heff hnone _ hat haddrs => exact Or.inr (hfailed heff hnone hat haddrs)
    | next _ _ _ hat => exact Or.inl hat
  · have hop : ∀ env, op ≠ .housekeeping env := fun env e => hop ⟨env, e⟩
    obtain ⟨hat, haddrs⟩ := step_failed_frame hop hstep
    dsimp only at hat haddrs
    rw [hat]
    refine hs.imp_right fun h => h.step haddrs ?_
    rintro ms ⟨env, rfl, _⟩
    exact absurd rfl (hop env)

theorem start_allFailedAt {cfg : Config} (h : start cfg = some s) :
    s.allFailedAt = 0 ∧ s.exited = false := by
  unfold start at h
  dsimp only at h
  split_ifs at h
  cases haddrs : cfg.addrs with
  | nil => rw [haddrs] at h; cases h
  | cons addr rest =>
    rw [haddrs] at h
    rw [← Option.some.inj h, setupConns_eq]
    exact ⟨rfl, rfl⟩

/-- **The sender gives up only after a full `GLOBAL_TIMEOUT` without an active link.**
    If a call of `connection_housekeeping` at time `ms` exits or goes on to the next
    address of the receiver, it found no active link, and there is an earlier
    effective call, more than `GLOBAL_TIMEOUT` seconds ago and since the last change
    of the address, such that it and every effective call since found none. -/
theorem gives_up_after_timeout {cfg : Config} {s₀ : State} (h₀ : start cfg = some s₀)
    (h : (sender s₀).Trace es s) {effects : List Effect} (hms : env.ms = some ms)
    (hstep : step s (.housekeeping env) = some (s', effects))
    (hgives : s'.exited = true ∨ s'.addrs ≠ s.addrs) :
    s.Effective (.housekeeping env) ms ∧ s.NoneActive ms ∧
      ∃ since, since + globalTimeout * 1000 < ms ∧ FailedSince since es s := by
  obtain ⟨hexited, hr⟩ := step_housekeeping hstep
  obtain rfl : s' = (connectionHousekeeping s env).1 := congrArg Prod.fst hr
  have hlate : ∀ {ms' : ℕ}, s.Effective (.housekeeping env) ms' → s.NoneActive ms' →
      s.failedAt ms' + globalTimeout * 1000 < ms' →
      s.Effective (.housekeeping env) ms ∧ s.NoneActive ms ∧
        ∃ since, since + globalTimeout * 1000 < ms ∧ FailedSince since es s := by
    intro ms' heff hnone hlate
    obtain ⟨_, ⟨⟩, hms', hle⟩ := heff
    obtain rfl : ms = ms' := Option.some.inj (hms.symm.trans hms')
    refine ⟨⟨env, rfl, hms, hle⟩, hnone, s.allFailedAt, ?_⟩
    -- a time that this call has set is not long ago
    have hset : s.allFailedAt ≠ 0 := by
      intro hzero
      rw [State.failedAt, if_pos hzero] at hlate
      omega
    rw [State.failedAt, if_neg hset] at hlate
    exact ⟨hlate, (failedSince_trace (start_allFailedAt h₀).1 h).resolve_left hset⟩
  cases housekeepCase s env with
  | idle _ heq =>
    rw [heq, hexited] at hgives
    rcases hgives with hx | ha
    · cases hx
    · exact absurd rfl ha
  | active _ _ _ haddrs hx | waiting _ _ _ haddrs hx =>
    rw [hx, hexited] at hgives
    rcases hgives with hx | ha
    · cases hx
    · exact absurd haddrs ha
  | exit heff hnone hl => exact hlate heff hnone hl
  | next heff hnone hl => exact hlate heff hnone hl

/-- A call of `connection_housekeeping` at time `ms` in which every `sendto` fails. -/
def quietCall (ms : ℕ) : HousekeepingEnv := ⟨some ms, fun _ => default, fun _ => -1⟩

/-- The links have sockets and were never heard from. -/
def State.Silent (s : State) : Prop := ∀ c ∈ s.conns, 0 ≤ c.fd ∧ c.lastRcvd = 0

theorem State.Silent.noneActive (h : s.Silent) (hms : 5000 ≤ ms) : s.NoneActive ms := by
  intro c hc
  refine Or.inr (decide_eq_true ?_)
  rw [(h c hc).2, connTimeout]
  omega

/-- There is nothing to reset on such links. -/
theorem housekeepLoop_silent {time : ℤ} {conns : List Conn}
    (h : ∀ c ∈ conns, 0 ≤ c.fd ∧ c.lastRcvd = 0) (fds : List ℤ) :
    (housekeepLoop s time env fds conns).2.1 = conns := by
  induction conns generalizing fds with
  | nil => rfl
  | cons c conns ih =>
    obtain ⟨hfd, hrcvd⟩ := h c List.mem_cons_self
    have hreset : c.reset = c := by
      unfold Conn.reset
      rw [if_neg (by omega)]
    have hconn : (housekeepConn s time env fds c).conn = c := by
      unfold housekeepConn
      rw [if_neg (by omega)]
      by_cases hout : c.timedOut time = true
      · rw [if_pos hout]
        exact hreset
      · rw [if_neg hout]
    show (housekeepConn s time env fds c).conn :: (housekeepLoop s time env _ conns).2.1 = _
    rw [hconn, ih fun d hd => h d (List.mem_cons_of_mem _ hd)]

theorem connectionHousekeeping_effective (h : s.Effective (.housekeeping env) ms) :
    (connectionHousekeeping s env).1 = { (s.counted env ms).checkFailed ms with lastRan := ms } := by
  obtain ⟨_, ⟨⟩, hms, hran⟩ := h
  unfold connectionHousekeeping
  simp only [hms, if_neg (not_lt.mpr hran)]
  rfl

theorem State.Silent.housekeeping (h : s.Silent) (heff : s.Effective (.housekeeping env) ms) :
    (connectionHousekeeping s env).1.Silent := by
  have hconns : (connectionHousekeeping s env).1.conns = s.conns := by
    rw [connectionHousekeeping_effective heff]
    show (State.checkFailed _ ms).conns = _
    rw [(checkFailed_frame _ ms).2.1]
    unfold State.counted
    dsimp only
    rw [(expirePending_frame s (ms / 1000 : ℕ)).2.1]
    exact housekeepLoop_silent h _
  unfold State.Silent
  rw [hconns]
  exact h

/-- The first call that finds no active link starts the timeout. -/
theorem housekeeping_starts_timeout (heff : s.Effective (.housekeeping env) ms) (hnone : s.NoneActive ms)
    (hfresh : s.allFailedAt = 0) :
    (connectionHousekeeping s env).1.allFailedAt = ms ∧ (connectionHousekeeping s env).1.addrs = s.addrs ∧
      (connectionHousekeeping s env).1.exited = s.exited := by
  have hclock : ∀ {t : ℕ}, s.Effective (.housekeeping env) t → t = ms := by
    rintro t ⟨_, ⟨⟩, ht, _⟩
    obtain ⟨_, ⟨⟩, hms, _⟩ := heff
    exact Option.some.inj (ht.symm.trans hms)
  have hfailedAt : s.failedAt ms = ms := if_pos hfresh
  cases housekeepCase s env with
  | idle hidle => exact absurd heff (hidle ms)
  | active heff' hsome =>
    rw [hclock heff'] at hsome
    exact absurd hnone hsome
  | waiting heff' _ hat haddrs hexited =>
    rw [hclock heff', hfailedAt] at hat
    exact ⟨hat, haddrs, hexited⟩
  | exit heff' _ hlate | next heff' _ hlate =>
    rw [hclock heff', hfailedAt] at hlate
    omega

theorem step_housekeeping_eq (h : s.exited = false) (env : HousekeepingEnv) :
    step s (.housekeeping env) =
      some ((connectionHousekeeping s env).1, (connectionHousekeeping s env).2) := by
  rw [step, h, if_neg Bool.false_ne_true]

/-- The last address is given up for good. -/
theorem checkFailed_exits (h : s.activeConnections = 0) (haddrs : s.addrs = [])
    (hlate : s.failedAt ms + globalTimeout * 1000 < ms) : (s.checkFailed ms).exited = true := by
  unfold State.checkFailed
  rw [if_pos h]
  dsimp only
  rw [failedAt_eq]
  dsimp only
  rw [if_pos hlate, haddrs]
  split_ifs <;> rfl

/-- A sender with one link and one address hears nothing. A call 5 seconds after the
    clock's start finds the link timed out, and one 10001 milliseconds later exits. -/
theorem gives_up_after_timeout_silent :
    ∃ s₀ s₁ s₂ effects, start oneLink = some s₀ ∧
      (sender s₀).Trace [(s₀, .housekeeping (quietCall 5000))] s₁ ∧
      step s₁ (.housekeeping (quietCall 15001)) = some (s₂, effects) ∧ s₂.exited = true ∧
      s₁.NoneActive 15001 ∧ ∃ since, since + globalTimeout * 1000 < 15001 ∧
        FailedSince since [(s₀, .housekeeping (quietCall 5000))] s₁ := by
  obtain ⟨s₀, h₀, hconns, hran, haddrs⟩ : ∃ s₀, start oneLink = some s₀ ∧ s₀.conns = [oneLinkConn] ∧
      s₀.lastRan = 0 ∧ s₀.addrs = [] := ⟨_, rfl, rfl, rfl, rfl⟩
  obtain ⟨hfailed, hexited⟩ := start_allFailedAt h₀
  have hsilent : s₀.Silent := by
    intro c hc
    rw [hconns] at hc
    rw [List.mem_singleton.mp hc]
    exact ⟨by decide, rfl⟩
  have heff : s₀.Effective (.housekeeping (quietCall 5000)) 5000 := by
    refine ⟨quietCall 5000, rfl, rfl, ?_⟩
    rw [hran, housekeepingInt]
    omega
  -- the first call starts the timeout
  obtain ⟨hfailed₁, haddrs₁, hexited₁⟩ := housekeeping_starts_timeout heff (hsilent.noneActive le_rfl) hfailed
  have hsilent₁ := hsilent.housekeeping heff
  have hran₁ : (connectionHousekeeping s₀ (quietCall 5000)).1.lastRan = 5000 := by
    rw [connectionHousekeeping_effective heff]
  have hstep₀ := step_housekeeping_eq hexited (quietCall 5000)
  rw [haddrs] at haddrs₁
  rw [hexited] at hexited₁
  generalize (connectionHousekeeping s₀ (quietCall 5000)).1 = s₁ at *
  have htrace : (sender s₀).Trace ([] ++ [(s₀, .housekeeping (quietCall 5000))]) s₁ :=
    .step .init ⟨_, hstep₀⟩
  have heff₁ : s₁.Effective (.housekeeping (quietCall 15001)) 15001 := by
    refine ⟨quietCall 15001, rfl, rfl, ?_⟩
    rw [hran₁, housekeepingInt]
    omega
  have hstep₁ := step_housekeeping_eq hexited₁ (quietCall 15001)
  have hnone₁ : s₁.NoneActive 15001 := hsilent₁.noneActive (by decide)
  have hexits : (connectionHousekeeping s₁ (quietCall 15001)).1.exited = true := by
    rw [connectionHousekeeping_effective heff₁]
    obtain ⟨hat, ha, _⟩ := counted_frame s₁ (quietCall 15001) 15001
    refine checkFailed_exits ((counted_eq_zero_iff _ _ _).mpr hnone₁) (ha.trans haddrs₁) ?_
    rw [State.failedAt, hat, hfailed₁, if_neg (by omega), globalTimeout]
    omega
  have hclock : (quietCall 15001).ms = some 15001 := rfl
  obtain ⟨_, hnone, hsince⟩ := gives_up_after_timeout h₀ htrace hclock hstep₁ (Or.inl hexits)
  exact ⟨s₀, s₁, _, _, h₀, htrace, hstep₁, hexits, hnone, hsince⟩

end Srtla.Sender
