import Srtla.Receiver.Handshake
import Srtla.Receiver.Lifetime

/-!
# Timeouts over whole runs

The clock is `get_seconds`, a monotonic clock: its readings are not negative and
do not decrease along a run (`Timed`).

* `reg3_held_iff`: a link that was answered with REG3 is kept by every cleanup of
  the next `CONN_TIMEOUT` seconds exactly when it was not registered before or had
  received something in that very second.
* `idle_reap_iff`: a group that has forwarded data survives `GROUP_TIMEOUT`
  seconds after its last datagram exactly when that datagram came in the second
  the group was created.
-/

namespace Srtla.Receiver

open Lib

/-- The clock readings of the inputs start at 0 or later and do not decrease. -/
def Timed (ops : List Op) : Prop := (0 :: ops.filterMap Op.time).Pairwise (· ≤ ·)

instance (ops : List Op) : Decidable (Timed ops) := inferInstanceAs (Decidable (List.Pairwise _ _))

/-- Group `r` is registered and has a connection with the address `a`. -/
def State.Holds (s : State) (r : ℕ) (a : SockaddrStorage) : Prop :=
  ∃ g ∈ s.groups, g.ref = r ∧ ∃ c ∈ g.conns, addressesEqual c.addr a = true

instance (s : State) (r : ℕ) (a : SockaddrStorage) : Decidable (s.Holds r a) :=
  inferInstanceAs (Decidable (∃ g ∈ s.groups, g.ref = r ∧ ∃ c ∈ g.conns, addressesEqual c.addr a = true))

/-- Group `r` is registered and has forwarded data. -/
def State.Streams (s : State) (r : ℕ) : Prop := ∃ g ∈ s.groups, g.ref = r ∧ g.dataSeen = true

/-- `register_connection` answers a REG2 for group `g` with REG3. -/
def AnswersReg3 (s : State) (buf : Bytes) (addr : SockaddrStorage) (ts : ℤ) (env : PacketEnv)
    (g : ConnectionGroup) : Prop :=
  isSrtlaReg2 (mem buf) buf.length = true ∧
    findGroupById s.groups (readBlock (mem buf) 2 256) = some g ∧
    (registerConnection s addr (mem buf) ts env).1 = 0

variable {s : State} {g g' : ConnectionGroup} {c : Connection} {T : ℤ}

/-! ## Clock readings -/

theorem Timed.le {ops ops' : List Op} {op : Op} {t : ℤ} (h : Timed (ops ++ op :: ops'))
    (ht : op.time = some t) :
    0 ≤ t ∧ (∀ x ∈ ops.filterMap Op.time, x ≤ t) ∧ ∀ x ∈ ops'.filterMap Op.time, t ≤ x := by
  unfold Timed at h
  rw [List.filterMap_append, List.filterMap_cons_some ht, List.pairwise_cons, List.pairwise_append,
    List.pairwise_cons] at h
  obtain ⟨hzero, _, ⟨hafter, _⟩, hbefore⟩ := h
  exact ⟨hzero t (by simp), fun x hx => hbefore x hx t List.mem_cons_self, hafter⟩

/-- A cleanup may follow an input at its time or later. -/
theorem Timed.cleanup {ops : List Op} {op : Op} {t u : ℤ} (h : Timed (ops ++ [op]))
    (ht : op.time = some t) (hu : t ≤ u) (ret : ℕ → ℤ) :
    Timed (ops ++ op :: ([] ++ [.cleanup u ret])) := by
  obtain ⟨hzero, hbefore, _⟩ := h.le ht
  have hlist : (ops ++ op :: ([] ++ [.cleanup u ret])).filterMap Op.time =
      (ops ++ [op]).filterMap Op.time ++ [u] := by
    rw [List.filterMap_append, List.filterMap_append, List.filterMap_cons_some ht,
      List.filterMap_cons_some ht, List.append_assoc]
    rfl
  unfold Timed at h ⊢
  rw [hlist, ← List.cons_append, List.pairwise_append]
  refine ⟨h, List.pairwise_singleton _ _, ?_⟩
  intro x hx y hy
  rw [List.mem_singleton.mp hy]
  refine le_trans ?_ hu
  rw [List.filterMap_append, List.filterMap_cons_some ht] at hx
  rcases List.mem_cons.mp hx with rfl | hx
  · exact hzero
  · rcases List.mem_append.mp hx with hx | hx
    · exact hbefore x hx
    · rw [List.mem_singleton.mp hx]

/-- Every time stored in the state has been read from the clock by `T`. -/
structure State.Clocked (T : ℤ) (s : State) : Prop where
  lastRun : s.lastRun ≤ T
  createdAt : ∀ g ∈ s.groups, g.createdAt ≤ T
  lastRcvd : ∀ g ∈ s.groups, ∀ c ∈ g.conns, c.lastRcvd ≤ T

/-- Only a cleanup writes the time of the last cleanup. -/
theorem step_lastRun (s : State) (op : Op) :
    (step s op).1.lastRun = s.lastRun ∨ op.time = some (step s op).1.lastRun := by
  cases op with
  | packet buf addr ts env =>
    left
    show (processSinglePacket s buf addr ts env).1.lastRun = s.lastRun
    cases packetCase s buf addr with
    | reg1 h1 =>
      rw [processSinglePacket_reg1 h1]
      exact (registerGroup_cases s addr (mem buf) ts env).1.2.1
    | reg2 h2 =>
      rw [processSinglePacket_reg2 h2]
      exact (registerConnection_frame s addr (mem buf) ts env).2.1
    | conn h1 h2 hf => exact (processSinglePacket_conn_frame h1 h2 hf).2.1
    | stranger h1 h2 hf => rw [processSinglePacket_stranger h1 h2 hf]
  | srtData ref env =>
    left
    cases hget : Keyed.get ConnectionGroup.ref ref s.groups with
    | none => simp only [step, hget]
    | some g =>
      rw [step_srtData hget]
      exact (handleSrtData_frame s g env).1
  | evict =>
    left
    simp only [step, State.evictOldestPendingGroup]
    cases oldestPending s.groups <;> rfl
  | cleanup t ret =>
    show (cleanupInactive s t ret).1.lastRun = _ ∨ some t = some (cleanupInactive s t ret).1.lastRun
    rw [(cleanupInactive_frame s t ret).2.2]
    split_ifs
    · exact Or.inl rfl
    · exact Or.inr rfl
  | limiterCleanup t => exact Or.inl rfl
  | quality t ms => exact Or.inl rfl
  | count what => exact Or.inl rfl

theorem Clocked.after (h : Inv s) (hc : s.Clocked T) {op : Op} (hop : ∀ t, op.time = some t → t ≤ T) :
    (step s op).1.Clocked T where
  lastRun := by
    rcases step_lastRun s op with hr | hr
    · rw [hr]; exact hc.lastRun
    · exact hop _ hr
  createdAt := by
    intro g' hg'
    cases step_origin h op hg' with
    | old mem _ _ created _ _ => rw [created]; exact hc.createdAt _ mem
    | created input _ eq => rw [eq]; exact hop _ (by rw [input]; rfl)
  lastRcvd := by
    intro g' hg' c' hc'
    cases step_origin h op hg' with
    | old mem _ _ _ _ conns =>
      cases conns c' hc' with
      | @old c hmem core =>
        rw [core.lastRcvd]
        rcases op.onConn_lastRcvd c with heq | htime
        · rw [heq]; exact hc.lastRcvd _ mem c hmem
        · exact hop _ htime
      | joined input _ _ eq =>
        rw [eq]
        exact hop _ (by rw [input]; rfl)
    | created _ _ eq =>
      rw [eq] at hc'
      exact absurd hc' List.not_mem_nil

theorem run_clocked (h0 : 0 ≤ T) {ops : List Op} (hT : ∀ t ∈ ops.filterMap Op.time, t ≤ T) :
    (receiver.run State.init ops).Clocked T := by
  induction ops using List.reverseRecOn with
  | nil =>
    exact ⟨h0, fun g hg => absurd hg List.not_mem_nil, fun g hg => absurd hg List.not_mem_nil⟩
  | append_singleton ops op ih =>
    rw [List.filterMap_append] at hT
    rw [Machine.run_concat]
    refine Clocked.after (reachable_inv ⟨ops, rfl⟩) (ih fun t ht => hT t (List.mem_append_left _ ht)) ?_
    intro t ht
    exact hT t (List.mem_append_right _ (by simp [ht]))

/-! ## Cleanups -/

theorem cleanup_unthrottled {t : ℤ} (h : s.lastRun + cleanupPeriod ≤ t) (ret : ℕ → ℤ) :
    (step s (.cleanup t ret)).1.groups = s.groups.filterMap (reapGroup t) := by
  show (cleanupInactive s t ret).1.groups = _
  rw [cleanupInactive_groups, if_neg (by omega)]

/-- A connection that has not timed out stays, and its group with it. -/
theorem cleanup_holds {t : ℤ} (hg : g ∈ s.groups) (hc : c ∈ g.conns)
    (ht : t ≤ c.lastRcvd + connTimeout) {a : SockaddrStorage}
    (ha : addressesEqual c.addr a = true) (ret : ℕ → ℤ) :
    (step s (.cleanup t ret)).1.Holds g.ref a := by
  by_cases hthrottled : s.lastRun + cleanupPeriod > t
  · refine ⟨g, ?_, rfl, c, hc, ha⟩
    show g ∈ (cleanupInactive s t ret).1.groups
    rw [cleanupInactive_groups, if_pos hthrottled]
    exact hg
  · have hreap : reapGroup t g = some { g with conns := keptConns t g.conns } := by
      cases hr : reapGroup t g with
      | none =>
        have := (reapGroup_eq_none_iff.mp hr).1 c hc
        omega
      | some g' => rw [reapGroup_eq_some hr]
    refine ⟨{ g with conns := keptConns t g.conns }, ?_, rfl, (c.checkRecovery t).1,
      mem_keptConns.mpr ⟨c, hc, ht, rfl⟩, by rw [c.checkRecovery_addr]; exact ha⟩
    rw [cleanup_unthrottled (by omega)]
    exact List.mem_filterMap.mpr ⟨g, hg, hreap⟩

/-! ## REG3 holds the link -/

/-- Every connection of group `r` at address `a` received something at `T` or later. -/
def State.FreshSince (T : ℤ) (r : ℕ) (a : SockaddrStorage) (s : State) : Prop :=
  ∀ g ∈ s.groups, g.ref = r → ∀ c ∈ g.conns, addressesEqual c.addr a = true → T ≤ c.lastRcvd

variable {r : ℕ} {a : SockaddrStorage}

/-- No later input makes a receive time older. -/
theorem FreshSince.after (h : Inv s) (hr : r < s.nextRef) (hf : s.FreshSince T r a) {op : Op}
    (hop : ∀ t, op.time = some t → T ≤ t) : (step s op).1.FreshSince T r a := by
  intro g' hg' href c' hc' ha
  cases step_origin h op hg' with
  | old mem ref _ _ _ conns =>
    cases conns c' hc' with
    | @old c hmem core =>
      rw [core.lastRcvd]
      rcases op.onConn_lastRcvd c with heq | htime
      · rw [heq]
        rw [core.addr, op.onConn_addr] at ha
        exact hf _ mem (ref ▸ href) c hmem ha
      · exact hop _ htime
    | joined input _ _ eq =>
      rw [eq]
      exact hop _ (by rw [input]; rfl)
  | created _ _ eq =>
    have hnew : g'.ref = s.nextRef := by rw [eq]; rfl
    omega

theorem FreshSince.run (h : Inv s) (hr : r < s.nextRef) (hf : s.FreshSince T r a) {ops : List Op}
    (hops : ∀ t ∈ ops.filterMap Op.time, T ≤ t) : (receiver.run s ops).FreshSince T r a := by
  induction ops generalizing s with
  | nil => exact hf
  | cons op ops ih =>
    have hstep := step_regStep h op
    refine ih (hstep.inv h) (hr.trans_le hstep.nextRef_le) (FreshSince.after h hr hf ?_) ?_
    · intro t ht
      exact hops t (by simp [List.filterMap_cons_some ht])
    · intro t ht
      refine hops t ?_
      rw [List.filterMap_cons]
      cases op.time with
      | none => exact ht
      | some x => exact List.mem_cons_of_mem _ ht

/-- After the REG3 the link is held; its receive time is the one of the REG2 if it
    is new, and the old one otherwise. -/
theorem AnswersReg3.answered (h : Inv s) {buf : Bytes} {addr : SockaddrStorage} {ts : ℤ}
    {env : PacketEnv} (hans : AnswersReg3 s buf addr ts env g) :
    ∃ g' ∈ (step s (.packet buf addr ts env)).1.groups, g'.ref = g.ref ∧
      ((∀ c ∈ g.conns, addressesEqual c.addr addr = false) ∧
          g'.conns = g.conns ++ [.create s.nextRef addr ts] ∨
        (∃ c ∈ g.conns, addressesEqual c.addr addr = true) ∧ g'.conns = g.conns) := by
  obtain ⟨h2, hid, hret⟩ := hans
  have hg := (findGroupById_eq_some hid).1
  have hmem : g.ref ∈ s.groups.map ConnectionGroup.ref := List.mem_map_of_mem hg
  have hstep : (step s (.packet buf addr ts env)).1 =
      (registerConnection s addr (mem buf) ts env).2.1 := by
    show (processSinglePacket s buf addr ts env).1 = _
    rw [processSinglePacket_reg2 h2]
  rw [hstep]
  rcases registerConnection_cases s h.refs addr (mem buf) ts env with
    href | ⟨g₁, hid₁, hsame, _, _, _, hcase⟩
  · rw [href.1] at hret
    exact absurd hret (by decide)
  rw [hid] at hid₁
  cases hid₁
  rcases hcase with ⟨hnone, _, _, hgroups⟩ | ⟨c, hfind, hgroups⟩
  · rw [hgroups]
    refine ⟨_, Keyed.mem_put.mpr (Or.inl ⟨rfl, hmem⟩), rfl, Or.inl ⟨?_, rfl⟩⟩
    exact (connJoined_fresh h hg hsame hnone).2
  · rw [hgroups]
    refine ⟨_, Keyed.mem_put.mpr (Or.inl ⟨rfl, hmem⟩), rfl, Or.inr ⟨?_, rfl⟩⟩
    obtain ⟨_, hc, ha⟩ := findByAddress_conn hfind
    exact ⟨c, hc, ha⟩

theorem AnswersReg3.holds (h : Inv s) {buf : Bytes} {addr : SockaddrStorage} {ts : ℤ}
    {env : PacketEnv} (hans : AnswersReg3 s buf addr ts env g) :
    (step s (.packet buf addr ts env)).1.Holds g.ref addr := by
  obtain ⟨g₁, hg₁, href₁, ⟨_, hconns⟩ | ⟨⟨c, hc, ha⟩, hconns⟩⟩ := hans.answered h
  · exact ⟨g₁, hg₁, href₁, .create s.nextRef addr ts, hconns ▸ List.mem_append_right _ (by simp),
      addressesEqual_refl addr⟩
  · exact ⟨g₁, hg₁, href₁, c, hconns ▸ hc, ha⟩

/-- A link that was registered before keeps its receive time, and a cleanup for
    which that is too old removes it. -/
theorem AnswersReg3.removed (h : Inv s) {buf : Bytes} {addr : SockaddrStorage} {ts : ℤ}
    {env : PacketEnv} (hans : AnswersReg3 s buf addr ts env g) (hc : c ∈ g.conns)
    (ha : addressesEqual c.addr addr = true) {t : ℤ} (hold : c.lastRcvd + connTimeout < t)
    (hrun : s.lastRun + cleanupPeriod ≤ t) (ret : ℕ → ℤ) :
    ¬ (step (step s (.packet buf addr ts env)).1 (.cleanup t ret)).1.Holds g.ref addr := by
  obtain ⟨g₁, hg₁, href₁, hconns₁⟩ := hans.answered h
  have hwf := h.wf g (findGroupById_eq_some hans.2.1).1
  have hinv₁ := (step_regStep h (.packet buf addr ts env)).inv h
  have hconns : g₁.conns = g.conns := by
    rcases hconns₁ with ⟨hfresh, _⟩ | ⟨_, hconns⟩
    · rw [hfresh c hc] at ha; cases ha
    · exact hconns
  have hlast : (step s (.packet buf addr ts env)).1.lastRun = s.lastRun := by
    show (processSinglePacket s buf addr ts env).1.lastRun = _
    rw [processSinglePacket_reg2 hans.1]
    exact (registerConnection_frame s addr (mem buf) ts env).2.1
  rintro ⟨g₂, hg₂, href₂, c₂, hc₂, ha₂⟩
  rw [cleanup_unthrottled (by rw [hlast]; exact hrun)] at hg₂
  obtain ⟨x, hx, hreap⟩ := List.mem_filterMap.mp hg₂
  rw [reapGroup_eq_some hreap] at href₂ hc₂
  have hxg : x = g₁ := Keyed.eq_of_key_eq hinv₁.refs hx hg₁ (href₂.trans href₁.symm)
  obtain ⟨c₃, hc₃, hkept, rfl⟩ := mem_keptConns.mp hc₂
  rw [hxg, hconns] at hc₃
  rw [c₃.checkRecovery_addr] at ha₂
  have hsame : addressesEqual c₃.addr c.addr = true := by
    rw [addressesEqual_iff] at ha ha₂ ⊢
    exact ha₂.trans ha.symm
  rw [hwf.conn_unique hc₃ hc hsame] at hkept
  omega

/-- A link that is new, or was stamped at `ts` before, is stamped at `ts` after the REG3. -/
theorem AnswersReg3.freshSince (h : Inv s) {buf : Bytes} {addr : SockaddrStorage} {ts : ℤ}
    {env : PacketEnv} (hans : AnswersReg3 s buf addr ts env g)
    (hcond : ∀ c ∈ g.conns, addressesEqual c.addr addr = true → c.lastRcvd = ts) :
    (step s (.packet buf addr ts env)).1.FreshSince ts g.ref addr := by
  obtain ⟨g₁, hg₁, href₁, hconns₁⟩ := hans.answered h
  have hinv₁ := (step_regStep h (.packet buf addr ts env)).inv h
  intro x hx hxref c hc ha
  rw [Keyed.eq_of_key_eq hinv₁.refs hx hg₁ (hxref.trans href₁.symm)] at hc
  rcases hconns₁ with ⟨hfresh, hconns⟩ | ⟨_, hconns⟩
  · rw [hconns] at hc
    rcases List.mem_append.mp hc with hc | hc
    · rw [hfresh c hc] at ha; cases ha
    · rw [List.mem_singleton.mp hc]
      exact le_rfl
  · rw [hconns] at hc
    exact (hcond c hc ha).ge

/-- **REG3 and the connection timeout.** After `register_connection` has answered
    REG3 at `ts`, no cleanup up to `ts + CONN_TIMEOUT` removes the link, whatever
    happens in between, if and only if the link was not registered before or its
    last datagram came at `ts` as well. -/
theorem reg3_held_iff (before : List Op) (buf : Bytes) (addr : SockaddrStorage) (ts : ℤ)
    (env : PacketEnv) (g : ConnectionGroup) (htimed : Timed (before ++ [.packet buf addr ts env]))
    (hans : AnswersReg3 (receiver.run State.init before) buf addr ts env g) :
    (∀ mid t ret, Timed (before ++ .packet buf addr ts env :: (mid ++ [.cleanup t ret])) →
      t ≤ ts + connTimeout →
      let s := receiver.run State.init (before ++ .packet buf addr ts env :: mid)
      s.Holds g.ref addr → (step s (.cleanup t ret)).1.Holds g.ref addr) ↔
    ∀ c ∈ g.conns, addressesEqual c.addr addr = true → c.lastRcvd = ts := by
  set s₀ := receiver.run State.init before
  have hinv₀ : Inv s₀ := reachable_inv ⟨before, rfl⟩
  have hg : g ∈ s₀.groups := (findGroupById_eq_some hans.2.1).1
  obtain ⟨hts, hbefore, _⟩ := htimed.le rfl
  have hrun : ∀ mid, receiver.run State.init (before ++ .packet buf addr ts env :: mid) =
      receiver.run (step s₀ (.packet buf addr ts env)).1 mid :=
    fun mid => by rw [Machine.run_append, Machine.run_cons]; rfl
  constructor
  · -- a link with an older receive time is removed by the cleanup at `ts + CONN_TIMEOUT`
    intro hheld c hc ha
    by_contra hne
    have hclock : s₀.Clocked ts := run_clocked hts hbefore
    have hlt : c.lastRcvd < ts := lt_of_le_of_ne (hclock.lastRcvd g hg c hc) hne
    have hlast := hclock.lastRun
    have hafter := hheld [] (ts + connTimeout) (fun _ => 0)
      (htimed.cleanup rfl (by simp [connTimeout]) _) le_rfl
    rw [hrun] at hafter
    exact hans.removed hinv₀ hc ha (by omega) (by simp only [cleanupPeriod, connTimeout]; omega) _
      (hafter (hans.holds hinv₀))
  · -- a link stamped at `ts` stays stamped at `ts` or later
    intro hcond mid t ret htimed' ht s hheld
    have hstep₁ := step_regStep hinv₀ (.packet buf addr ts env)
    have hmid : ∀ x ∈ mid.filterMap Op.time, ts ≤ x := by
      intro x hx
      refine (htimed'.le rfl).2.2 x ?_
      rw [List.filterMap_append]
      exact List.mem_append_left _ hx
    have hfresh := FreshSince.run (hstep₁.inv hinv₀)
      ((hinv₀.wf g hg).ref_lt.trans_le hstep₁.nextRef_le) (hans.freshSince hinv₀ hcond) hmid
    rw [← hrun] at hfresh
    obtain ⟨x, hx, hxref, c, hc, ha⟩ := hheld
    rw [← hxref]
    refine cleanup_holds hx hc ?_ ha ret
    have := hfresh x hx hxref c hc ha
    omega

/-! ### A link that registers again -/

/-- The REG2 of the handshake once more. -/
def reg2Again (ts : ℤ) : Op :=
  .packet (reg2Frame (.ofHalves (SrtlaId.firstHalf default) default)) (sampleAddr 2) ts
    { (default : PacketEnv) with sendtoRet := 32 }

theorem answersReg3_again (ts : ℤ) :
    AnswersReg3 (receiver.run State.init (handshake default default (sampleAddr 1) (sampleAddr 2) 0 0))
      (reg2Frame (.ofHalves (SrtlaId.firstHalf default) default)) (sampleAddr 2) ts
      { (default : PacketEnv) with sendtoRet := 32 }
      (handshakeGroup default default (sampleAddr 1) (sampleAddr 2) 0 0) := by
  have hgroups := (run_handshake default default (sampleAddr 1) (sampleAddr 2) 0 0).1
  have hinv : Inv (receiver.run State.init
      (handshake default default (sampleAddr 1) (sampleAddr 2) 0 0)) := reachable_inv ⟨_, rfl⟩
  set s := receiver.run State.init (handshake default default (sampleAddr 1) (sampleAddr 2) 0 0)
  set g := handshakeGroup default default (sampleAddr 1) (sampleAddr 2) 0 0
  set id := SrtlaId.ofHalves (SrtlaId.firstHalf default) default with hid'
  have hid : findGroupById s.groups (readBlock (mem (reg2Frame id)) 2 256) = some g := by
    have heq : constantTimeCompare g.id id = 0 := constantTimeCompare_eq_zero_iff.mpr rfl
    rw [hgroups, reg2Frame, readBlock_regFrame, findGroupById,
      List.find?_cons_of_pos (by rw [heq]; rfl)]
  have hfind : findByAddress s.groups (sampleAddr 2) = some (g, some (.create 1 (sampleAddr 2) 0)) := by
    rw [hgroups]
    rfl
  refine ⟨isSrtlaReg2_reg2Frame id, hid, ?_⟩
  rcases registerConnection_cases s hinv.refs (sampleAddr 2) (mem (reg2Frame id)) ts
    { (default : PacketEnv) with sendtoRet := 32 } with href | ⟨_, _, _, hret, _⟩
  · obtain ⟨_, _, _, hrefusal, _⟩ := href
    cases hrefusal with
    | noGroup hnone => rw [hid] at hnone; cases hnone
    | groupMismatch hid₁ hp hne =>
      rw [hid] at hid₁
      rw [hfind] at hp
      cases hid₁
      cases hp
      exact absurd rfl hne
    | maxConns _ hnone _ => rw [hfind] at hnone; cases hnone
    | sendError hfail => exact absurd rfl hfail
  · exact hret

theorem reg3_held_handshake :
    (receiver.run State.init (handshake default default (sampleAddr 1) (sampleAddr 2) 0 0 ++
      [reg2Again 0, .cleanup 15 fun _ => 0])).Holds 0 (sampleAddr 2) := by
  have htimed : Timed (handshake default default (sampleAddr 1) (sampleAddr 2) 0 0 ++ [reg2Again 0]) := by
    decide
  have hstamp : ∀ c ∈ (handshakeGroup default default (sampleAddr 1) (sampleAddr 2) 0 0).conns,
      addressesEqual c.addr (sampleAddr 2) = true → c.lastRcvd = 0 := by
    intro c hc _
    rw [List.mem_singleton.mp hc]
    rfl
  have hheld := (reg3_held_iff _ _ _ 0 _ _ htimed (answersReg3_again 0)).mpr hstamp [] 15 (fun _ => 0)
    (htimed.cleanup rfl (by decide) _) (by decide)
  have hrun : receiver.run State.init (handshake default default (sampleAddr 1) (sampleAddr 2) 0 0 ++
      [reg2Again 0, .cleanup 15 fun _ => 0]) =
      (step (receiver.run State.init (handshake default default (sampleAddr 1) (sampleAddr 2) 0 0 ++
        [reg2Again 0])) (.cleanup 15 fun _ => 0)).1 := by
    rw [List.append_cons, Machine.run_concat]
    rfl
  rw [hrun]
  refine hheld ?_
  rw [Machine.run_concat]
  exact (answersReg3_again 0).holds (reachable_inv ⟨_, rfl⟩)

/-- The link registers at 0 and again at 15, is answered with REG3, and is
    removed at 16. -/
theorem reg3_link_removed :
    let before := handshake default default (sampleAddr 1) (sampleAddr 2) 0 0
    let s := receiver.run State.init (before ++ [reg2Again 15])
    Timed (before ++ [reg2Again 15, .cleanup 16 fun _ => 0]) ∧
      AnswersReg3 (receiver.run State.init before)
        (reg2Frame (.ofHalves (SrtlaId.firstHalf default) default)) (sampleAddr 2) 15
        { (default : PacketEnv) with sendtoRet := 32 }
        (handshakeGroup default default (sampleAddr 1) (sampleAddr 2) 0 0) ∧
      s.Holds 0 (sampleAddr 2) ∧ (16 : ℤ) ≤ 15 + connTimeout ∧
      ¬ (step s (.cleanup 16 fun _ => 0)).1.Holds 0 (sampleAddr 2) := by
  intro before s
  have hans := answersReg3_again 15
  have hlast := (run_handshake default default (sampleAddr 1) (sampleAddr 2) 0 0).2.2.2
  have hinv : Inv (receiver.run State.init before) := reachable_inv ⟨before, rfl⟩
  have hs : s = (step (receiver.run State.init before) (reg2Again 15)).1 := Machine.run_concat _ _ _ _
  refine ⟨by decide, hans, hs ▸ hans.holds hinv, by decide, ?_⟩
  rw [hs]
  refine hans.removed hinv (List.mem_singleton_self (Connection.create 1 (sampleAddr 2) 0))
    (addressesEqual_refl _) (by decide) ?_ _
  rw [hlast]
  decide

/-! ## The idle timeout of a group -/

/-- The input is a datagram on a connection of group `r`. It comes from the
    address of one, data or registration, or it is the REG2 by which one joins. -/
def Op.receivedOn (op : Op) (r : ℕ) (s : State) : Bool :=
  match op with
  | .packet _ addr _ _ => decide (s.Holds r addr ∨ (step s op).1.Holds r addr)
  | _ => false

theorem Op.receivedOn_of_holds {r : ℕ} {buf : Bytes} {addr : SockaddrStorage} {ts : ℤ} {env : PacketEnv}
    (h : s.Holds r addr) : (Op.packet buf addr ts env).receivedOn r s = true :=
  decide_eq_true (Or.inl h)

/-- A registration that is answered with REG3 is a datagram on a connection. -/
theorem AnswersReg3.receivedOn (h : Inv s) {buf : Bytes} {addr : SockaddrStorage} {ts : ℤ}
    {env : PacketEnv} (hans : AnswersReg3 s buf addr ts env g) :
    (Op.packet buf addr ts env).receivedOn g.ref s = true :=
  decide_eq_true (Or.inr (hans.holds h))

/-- The time of the last datagram on any connection of group `r`. -/
def lastReceived (r : ℕ) (es : List (Machine.Event State Op Effect)) : Option ℤ :=
  (es.filter fun e => e.input.receivedOn r e.pre).getLast?.bind fun e => e.input.time

/-- A group keeps the time of its creation. -/
theorem run_createdAt (h : Inv s) (hg : g ∈ s.groups) (ops : List Op) :
    ∀ g' ∈ (receiver.run s ops).groups, g'.ref = g.ref → g'.createdAt = g.createdAt := by
  induction ops using List.reverseRecOn with
  | nil =>
    intro g' hg' href
    rw [Keyed.eq_of_key_eq h.refs hg' hg href]
  | append_singleton ops op ih =>
    intro g' hg' href
    rw [Machine.run_concat] at hg'
    have hnext := run_nextRef_le h ops
    cases step_origin (run_inv h ops) op hg' with
    | old mem ref _ created _ _ => rw [created]; exact ih _ mem (ref ▸ href)
    | created _ _ eq =>
      have hnew : g'.ref = (receiver.run s ops).nextRef := by rw [eq]; rfl
      have := (h.wf g hg).ref_lt
      omega

/-- A cleanup that removes a group that streams comes more than `GROUP_TIMEOUT`
    seconds after the creation of the group. -/
theorem reaped_after {t : ℤ} {ret : ℕ → ℤ} {r : ℕ} (hs : s.Streams r)
    (hgone : ∀ g ∈ (step s (.cleanup t ret)).1.groups, g.ref ≠ r) :
    ∃ g ∈ s.groups, g.ref = r ∧ g.createdAt + groupTimeout < t := by
  obtain ⟨g, hg, href, hseen⟩ := hs
  refine ⟨g, hg, href, ?_⟩
  have hgroups : (step s (.cleanup t ret)).1.groups = _ := cleanupInactive_groups s t ret
  rw [hgroups] at hgone
  split_ifs at hgone
  · exact absurd href (hgone g hg)
  · cases hr : reapGroup t g with
    | none =>
      have := (reapGroup_eq_none_iff.mp hr).2
      rwa [emptyTimeout, if_pos hseen] at this
    | some g' =>
      have hmem : g' ∈ s.groups.filterMap (reapGroup t) := List.mem_filterMap.mpr ⟨g, hg, hr⟩
      refine absurd ?_ (hgone g' hmem)
      rw [reapGroup_eq_some hr]
      exact href

/-- The cleanup `GROUP_TIMEOUT` seconds after the last reading of the clock
    removes every group created before that reading. -/
theorem reaps_older {L : ℤ} (h : Inv s) (hclock : s.Clocked L) (hg : g ∈ s.groups)
    (hold : g.createdAt < L) (ret : ℕ → ℤ) :
    ∀ g' ∈ (step s (.cleanup (L + groupTimeout) ret)).1.groups, g'.ref ≠ g.ref := by
  have hlast := hclock.lastRun
  have hreap : reapGroup (L + groupTimeout) g = none := by
    refine reapGroup_eq_none_iff.mpr ⟨?_, ?_⟩
    · intro c hc
      have := hclock.lastRcvd g hg c hc
      simp only [connTimeout, groupTimeout]
      omega
    · have : emptyTimeout g ≤ groupTimeout := by
        unfold emptyTimeout
        split_ifs <;> decide
      omega
  intro g' hg' href
  rw [cleanup_unthrottled (by simp only [cleanupPeriod, groupTimeout]; omega)] at hg'
  obtain ⟨x, hx, hxreap⟩ := List.mem_filterMap.mp hg'
  rw [reapGroup_eq_some hxreap] at href
  have : x = g := Keyed.eq_of_key_eq h.refs hx hg href
  rw [this, hreap] at hxreap
  cases hxreap

/-- The last datagram of a run that goes on without another one. -/
theorem lastReceived_eq {before mid : List Op} {op : Op} {r : ℕ} {L : ℤ} (hL : op.time = some L)
    (hlast : op.receivedOn r (receiver.run State.init before) = true)
    (hmid : ∀ e ∈ receiver.hist (receiver.run State.init (before ++ [op])) mid,
      e.input.receivedOn r e.pre = false) :
    lastReceived r (receiver.hist State.init (before ++ op :: mid)) = some L := by
  rw [Machine.run_concat] at hmid
  have hnone : (receiver.hist (receiver.step (receiver.run State.init before) op).1 mid).filter
      (fun e => e.input.receivedOn r e.pre) = [] :=
    List.filter_eq_nil_iff.mpr fun e he => by rw [hmid e he]; exact Bool.false_ne_true
  unfold lastReceived
  rw [Machine.hist_append, Machine.hist_cons, List.filter_append, List.filter_cons, if_pos hlast,
    hnone, List.getLast?_concat]
  exact hL

/-- **The idle timeout.** Let a datagram arrive at `L` on a connection of a group
    that has forwarded data, as the last one of the group. Every cleanup that removes
    the group comes more than `GROUP_TIMEOUT` seconds after it if and only if the
    group was created at `L`. -/
theorem idle_reap_iff (before : List Op) (buf : Bytes) (addr : SockaddrStorage) (L : ℤ)
    (env : PacketEnv) (g : ConnectionGroup) (htimed : Timed (before ++ [.packet buf addr L env]))
    (hg : g ∈ (receiver.run State.init before).groups)
    (hlast : (Op.packet buf addr L env).receivedOn g.ref (receiver.run State.init before) = true)
    (hstreams : (receiver.run State.init (before ++ [.packet buf addr L env])).Streams g.ref) :
    (∀ mid t ret, Timed (before ++ .packet buf addr L env :: (mid ++ [.cleanup t ret])) →
      (∀ e ∈ receiver.hist (receiver.run State.init (before ++ [.packet buf addr L env])) mid,
        e.input.receivedOn g.ref e.pre = false) →
      let ops := before ++ .packet buf addr L env :: mid
      let s := receiver.run State.init ops
      s.Streams g.ref → (∀ g' ∈ (step s (.cleanup t ret)).1.groups, g'.ref ≠ g.ref) →
      ∃ last, lastReceived g.ref (receiver.hist State.init ops) = some last ∧ last + groupTimeout < t) ↔
    L ≤ g.createdAt := by
  have hinv₀ : Inv (receiver.run State.init before) := reachable_inv ⟨before, rfl⟩
  constructor
  · -- otherwise the cleanup at `L + GROUP_TIMEOUT` removes the group
    intro hidle
    by_contra hold
    have hinv₁ : Inv (receiver.run State.init (before ++ [.packet buf addr L env])) :=
      reachable_inv ⟨_, rfl⟩
    obtain ⟨hzero, hbefore, _⟩ := htimed.le rfl
    have hclock : (receiver.run State.init (before ++ [.packet buf addr L env])).Clocked L := by
      refine run_clocked hzero fun x hx => ?_
      rw [List.filterMap_append] at hx
      rcases List.mem_append.mp hx with hx | hx
      · exact hbefore x hx
      · exact (List.mem_singleton.mp hx).le
    obtain ⟨g₁, hg₁, href₁, _⟩ := id hstreams
    have hcreated : g₁.createdAt = g.createdAt := by
      rw [Machine.run_append] at hg₁
      exact run_createdAt hinv₀ hg _ g₁ hg₁ href₁
    have hgone := reaps_older hinv₁ hclock hg₁ (by omega) fun _ => 0
    rw [href₁] at hgone
    obtain ⟨last, hlast', hlate⟩ := hidle [] (L + groupTimeout) (fun _ => 0)
      (htimed.cleanup rfl (by simp [groupTimeout]) _) (by simp) hstreams hgone
    rw [lastReceived_eq rfl hlast (by simp)] at hlast'
    cases hlast'
    omega
  · intro hnew mid t ret _ hmid ops s hs hgone
    refine ⟨L, lastReceived_eq rfl hlast hmid, ?_⟩
    obtain ⟨g', hg', href, hlate⟩ := reaped_after hs hgone
    have hrun : s = receiver.run (receiver.run State.init before) (.packet buf addr L env :: mid) :=
      receiver.run_append _ _ _
    rw [hrun] at hg'
    have := run_createdAt hinv₀ hg _ g' hg' href
    omega

theorem streams_stream (t : ℤ) : (receiver.run State.init (streamOps t)).Streams 0 := by
  obtain ⟨href, _, _, hseen, _⟩ := streamGroup_spec t
  exact ⟨streamGroup t, streamGroup_mem t, href, hseen⟩

theorem receivedOn_stream (t : ℤ) :
    (Op.packet (List.replicate 16 0) (sampleAddr 2) t streamEnv).receivedOn 0
      (receiver.run State.init (handshake default default (sampleAddr 1) (sampleAddr 2) 0 0)) = true :=
  Op.receivedOn_of_holds ⟨_, handshakeGroup_mem default default (sampleAddr 1) (sampleAddr 2) 0 0, rfl,
    _, List.mem_singleton_self _, addressesEqual_refl _⟩

theorem idle_reap_stream :
    ∃ last, lastReceived 0 (receiver.hist State.init (streamOps 0)) = some last ∧
      last + groupTimeout < 31 := by
  have htimed : Timed (streamOps 0) := by decide
  have hgone : ∀ g' ∈ (step (receiver.run State.init (streamOps 0)) (.cleanup 31 fun _ => 0)).1.groups,
      g'.ref ≠ 0 := by
    have hclock : (receiver.run State.init (streamOps 0)).Clocked 1 :=
      run_clocked (by decide) (by decide)
    obtain ⟨href, _, hcreated, _⟩ := streamGroup_spec 0
    have hinv : Inv (receiver.run State.init (streamOps 0)) := reachable_inv ⟨_, rfl⟩
    have hreaped := reaps_older hinv hclock (streamGroup_mem 0) (by rw [hcreated]; decide) fun _ => 0
    have ht : (1 : ℤ) + groupTimeout = 31 := by decide
    rw [href, ht] at hreaped
    exact hreaped
  have hiff := idle_reap_iff (handshake default default (sampleAddr 1) (sampleAddr 2) 0 0)
    (List.replicate 16 0) (sampleAddr 2) 0 streamEnv
    (handshakeGroup default default (sampleAddr 1) (sampleAddr 2) 0 0) htimed
    (handshakeGroup_mem _ _ _ _ _ _) (receivedOn_stream 0)
    (streams_stream 0)
  have hnew : (0 : ℤ) ≤ (handshakeGroup default default (sampleAddr 1) (sampleAddr 2) 0 0).createdAt :=
    le_refl 0
  have htimed' : Timed (streamOps 0 ++ [.cleanup 31 fun _ => 0]) := htimed.cleanup rfl (by decide) _
  rw [streamOps, List.append_assoc, List.singleton_append] at htimed'
  rw [streamOps] at hgone ⊢
  exact hiff.mpr hnew [] 31 (fun _ => 0) htimed' (by simp) (streams_stream 0) hgone

/-- The group is created at 0 and streams until 100; the cleanup at 116 removes it. -/
theorem idle_group_reaped :
    let s := receiver.run State.init (streamOps 100)
    Timed (streamOps 100 ++ [.cleanup 116 fun _ => 0]) ∧ s.Streams 0 ∧
      (∀ g' ∈ (step s (.cleanup 116 fun _ => 0)).1.groups, g'.ref ≠ 0) ∧
      lastReceived 0 (receiver.hist State.init (streamOps 100)) = some 100 ∧
      ¬ ((100 : ℤ) + groupTimeout < 116) := by
  intro s
  obtain ⟨hgroups, _, _, hlast⟩ := run_stream 100
  obtain ⟨_, _, hcreated, hseen, c, hconns, _, hrcvd⟩ := streamGroup_spec 100
  refine ⟨by decide, streams_stream 100, ?_, ?_, by decide⟩
  · have hreap : reapGroup 116 (streamGroup 100) = none := by
      refine reapGroup_eq_none_iff.mpr ⟨?_, ?_⟩
      · intro x hx
        rw [hconns, List.mem_singleton] at hx
        rw [hx, hrcvd]
        decide
      · rw [hcreated, emptyTimeout, if_pos hseen]
        decide
    rw [cleanup_unthrottled (by rw [hlast]; decide), hgroups, List.filterMap_cons_none hreap]
    simp
  · exact lastReceived_eq rfl (receivedOn_stream 100) (by simp)

end Srtla.Receiver
