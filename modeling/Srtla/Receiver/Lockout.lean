import Srtla.Receiver.Conservation
import Srtla.Receiver.GroupStep
import Srtla.Receiver.Throttle

/-!
# Who is locked out

`register_group` refuses an address while the rate limiter blocks its IP. The
limiter is fed by `handle_srt_data`, which takes two packets of the SRT server for
a rejected session: a handshake that rejects, and a SHUTDOWN for a group that is
not established; a group is established by the first SRT ACK of the server. The
three classes meet in the claim that an operator relies on: whoever is locked out
was turned away by the SRT server itself.

Results:
* `run_limiter`: the limiter of the receiver is the limiter of `Throttle`, run on
  the calls that the inputs make.
* `run_established`: a group is established exactly when the server has
  acknowledged something on it.
* `locked_out_for_rejections`: a REG1 is throttled only after `AUTH_FAIL_THRESHOLD`
  sessions of its IP were rejected.
-/

namespace Srtla.Receiver

open Lib

/-- The steps of the receiver. -/
abbrev Step := Machine.Event State Op Effect

variable {s : State} {g g' : ConnectionGroup} {op : Op} {ops : List Op} {es : List Step} {e : Step}
  {a : SockaddrStorage} {ts : ℤ}

/-! ## The limiter in the receiver -/

/-- The failure that an input records: the address and the time. -/
def failureOf (s : State) : Op → Option (SockaddrStorage × ℤ)
  | .srtData ref env =>
    (s.serverRead ref env).bind fun p =>
      (p.2.filter fun buf => failedAuth p.1 buf).map fun _ => (p.1.lastAddr, env.now)
  | _ => none

/-- The calls to the limiter that an input makes. -/
def limiterCalls (s : State) : Op → List LimiterCall
  | .packet buf addr ts _ => if isSrtlaReg1 (mem buf) buf.length then [.isBlocked addr ts] else []
  | .srtData ref env =>
    (failureOf s (.srtData ref env)).toList.map fun p => .recordFailure p.1 p.2
  | .limiterCleanup t => [.cleanup t]
  | _ => []

/-- The calls to the limiter of a run. -/
def runLimiterCalls (ops : List Op) : List LimiterCall :=
  (receiver.hist State.init ops).flatMap fun e => limiterCalls e.pre e.input

/-- What a packet of the server does to the limiter. -/
theorem handleSrtPacket_limiter (s : State) (g : ConnectionGroup) (buf : Bytes) (env : SrtEnv) :
    (handleSrtPacket s g buf env).1.limiter =
      if failedAuth g buf then s.limiter.recordFailure g.lastAddr env.now else s.limiter := by
  have haddr : (g.noteAck buf).lastAddr = g.lastAddr := by rw [g.noteAck_eq]
  unfold handleSrtPacket
  dsimp only
  rw [failedAuth_noteAck]
  cases failedAuth g buf with
  | false =>
    simp only [Bool.false_eq_true, if_false]
    split_ifs <;> rfl
  | true =>
    simp only [if_true]
    split_ifs
    · show s.limiter.recordFailure (g.noteAck buf).lastAddr env.now = _
      rw [haddr]
    · show s.limiter.recordFailure (g.noteAck buf).lastAddr env.now = _
      rw [haddr]

theorem step_limiter (s : State) (op : Op) :
    (step s op).1.limiter = throttle.run s.limiter (limiterCalls s op) := by
  cases op with
  | packet buf addr ts env =>
    have hsame : (step s (.packet buf addr ts env)).1.limiter = s.limiter := by
      show (processSinglePacket s buf addr ts env).1.limiter = _
      cases packetCase s buf addr with
      | reg1 h1 =>
        unfold processSinglePacket
        rw [if_pos h1]
        exact (registerGroup_cases s addr (mem buf) ts env).1.1
      | reg2 h2 =>
        unfold processSinglePacket
        split_ifs
        · exact (registerGroup_cases s addr (mem buf) ts env).1.1
        · exact (registerConnection_frame s addr (mem buf) ts env).1
      | conn h1 h2 hf => exact (processSinglePacket_conn_frame h1 h2 hf).1
      | stranger h1 h2 hf => rw [processSinglePacket_stranger h1 h2 hf]
    rw [hsame]
    unfold limiterCalls
    dsimp only
    split_ifs <;> rfl
  | srtData ref env =>
    cases hget : Keyed.get ConnectionGroup.ref ref s.groups with
    | none => simp [step, limiterCalls, failureOf, State.serverRead, hget]
    | some g =>
      rw [step_srtData hget]
      unfold limiterCalls failureOf handleSrtData
      dsimp only
      cases hrecv : env.recv with
      | none =>
        rw [serverRead_failed hget hrecv]
        rfl
      | some datagram =>
        dsimp only
        by_cases hlen : srtMinLen ≤ (datagram.take mtu).length
        · rw [if_neg (not_lt.mpr hlen), handleSrtPacket_limiter, serverRead_packet hget hrecv hlen,
            Option.bind_some, Option.filter_some]
          cases failedAuth g (datagram.take mtu) <;> rfl
        · rw [if_pos (not_le.mp hlen), serverRead_short hget hrecv hlen]
          rfl
  | evict =>
    show s.evictOldestPendingGroup.2.limiter = s.limiter
    unfold State.evictOldestPendingGroup
    cases oldestPending s.groups <;> rfl
  | cleanup t ret => exact (cleanupInactive_frame s t ret).1
  | limiterCleanup t => rfl
  | quality t ms => rfl
  | count what => rfl

/-- **The limiter of a run.** -/
theorem run_limiter (ops : List Op) :
    (receiver.run State.init ops).limiter = throttled (runLimiterCalls ops) := by
  induction ops using List.reverseRecOn with
  | nil => rfl
  | append_singleton ops op ih =>
    rw [receiver.run_concat]
    show (step _ op).1.limiter = _
    rw [step_limiter, ih]
    unfold runLimiterCalls throttled
    rw [receiver.hist_concat, List.flatMap_append, List.flatMap_singleton, throttle.run_append]

/-! ## Sessions -/

/-- The input is an SRT ACK of the server for the group `ref`. -/
def acknowledges (ref : ℕ) (s : State) : Op → Bool
  | .srtData r env =>
    decide (r = ref) && (s.serverRead r env).any fun p => p.2.any fun buf => isSrtAck (mem buf) buf.length
  | _ => false

/-- What a packet of the server that keeps the group does to the session. -/
theorem onServerPacket_established {ref : ℕ} (hget : Keyed.get ConnectionGroup.ref ref s.groups = some g)
    {env : SrtEnv} (hkept : ¬ g.endsOn env = true) :
    (g.onServerPacket env).established = (g.established || acknowledges ref s (.srtData ref env)) := by
  unfold ConnectionGroup.endsOn at hkept
  unfold ConnectionGroup.onServerPacket acknowledges
  cases hrecv : env.recv with
  | none =>
    rw [hrecv] at hkept
    exact absurd rfl hkept
  | some datagram =>
    rw [hrecv] at hkept
    have hlen : srtMinLen ≤ (datagram.take mtu).length := by
      by_contra hshort
      have hends : decide ((datagram.take mtu).length < srtMinLen) = true := decide_eq_true (not_le.mp hshort)
      exact hkept (by dsimp only; rw [hends]; rfl)
    dsimp only
    rw [serverRead_packet hget hrecv hlen, ConnectionGroup.noteAck]
    generalize datagram.take mtu = buf
    cases hack : isSrtAck (mem buf) buf.length with
    | true => simp [hack]
    | false => simp [hack]

/-- A group after an input is new, or its session is as before unless the server
    acknowledged something on it. -/
theorem step_established (h : Inv s) (op : Op) (hg' : g' ∈ (step s op).1.groups) :
    (g'.ref = s.nextRef ∧ g'.established = false) ∨
      ∃ g ∈ s.groups, g.ref = g'.ref ∧ g'.established = (g.established || acknowledges g'.ref s op) := by
  -- only a packet of the server touches the session
  have hsame : acknowledges g'.ref s op = false → ∀ g ∈ s.groups, g.ref = g'.ref →
      g'.established = g.established → (g'.ref = s.nextRef ∧ g'.established = false) ∨
        ∃ g ∈ s.groups, g.ref = g'.ref ∧ g'.established = (g.established || acknowledges g'.ref s op) := by
    intro hnone g hg href heq
    refine Or.inr ⟨g, hg, href, ?_⟩
    rw [heq, hnone, Bool.or_false]
  by_cases hserver : ∃ ref env, op = .srtData ref env
  · obtain ⟨ref, env, rfl⟩ := hserver
    have hother : g'.ref ≠ ref → acknowledges g'.ref s (.srtData ref env) = false := by
      intro hne
      simp [acknowledges, Ne.symm hne]
    cases hget : Keyed.get ConnectionGroup.ref ref s.groups with
    | none =>
      have hne : g'.ref ≠ ref := by
        simp only [step, hget] at hg'
        exact Keyed.get_eq_none_iff.mp hget g' hg'
      simp only [step, hget] at hg'
      exact hsame (hother hne) g' hg' rfl rfl
    | some g =>
      obtain rfl : g.ref = ref := Keyed.get_key hget
      rw [step_srtData hget, handleSrtData_groups] at hg'
      split_ifs at hg' with hends
      · obtain ⟨hmem, hne⟩ := Keyed.mem_remove.mp hg'
        exact hsame (hother hne) g' hmem rfl rfl
      · have href : (g.onServerPacket env).ref = g.ref := by rw [g.onServerPacket_eq]
        rcases Keyed.mem_put.mp hg' with ⟨rfl, _⟩ | ⟨hmem, hne⟩
        · refine Or.inr ⟨g, Keyed.get_mem hget, href.symm, ?_⟩
          rw [href]
          exact onServerPacket_established hget hends
        · rw [href] at hne
          exact hsame (hother hne) g' hmem rfl rfl
  · have hnone : acknowledges g'.ref s op = false := by
      cases op with
      | srtData ref env => exact absurd ⟨ref, env, rfl⟩ hserver
      | _ => rfl
    cases step_groupStep h op hg' with
    | kept hg _ => exact hsame hnone g' hg rfl rfl
    | created _ heq =>
      rw [heq]
      exact Or.inl ⟨rfl, rfl⟩
    | joined _ hfound heq =>
      rw [heq] at hnone hsame ⊢
      exact hsame hnone _ (findGroupById_eq_some hfound).1 rfl rfl
    | repeated _ hfound heq =>
      rw [heq] at hnone hsame ⊢
      exact hsame hnone _ (findByAddress_eq_some hfound).1 rfl rfl
    | @received g c buf addr ts env _ _ hfound hafter =>
      refine hsame hnone g (findByAddress_eq_some hfound).1 (afterPacket_ref hafter).symm ?_
      rw [afterPacket_frame hafter]
      show (onPacket g c buf addr ts env).group.established = g.established
      rw [onPacket_frame]
    | @server g ref env _ _ => exact absurd ⟨ref, env, rfl⟩ hserver
    | reaped hg _ heq =>
      rw [heq] at hnone hsame ⊢
      exact hsame hnone _ hg rfl rfl
    | @assessed g t ms hg heq =>
      have hframe := (assess_frame g t (ms g.ref)).2
      rw [← heq] at hframe
      rw [hframe] at hnone hsame ⊢
      exact hsame hnone g hg rfl rfl

/-- A group that hears from the server is registered, so its identity is spent. -/
theorem ref_lt_of_acknowledges (h : Inv s) {ref : ℕ} (hack : acknowledges ref s op = true) :
    ref < s.nextRef := by
  cases op with
  | srtData r env =>
    simp only [acknowledges, Bool.and_eq_true, decide_eq_true_eq] at hack
    obtain ⟨rfl, hany⟩ := hack
    cases hget : Keyed.get ConnectionGroup.ref r s.groups with
    | none =>
      unfold State.serverRead at hany
      rw [hget] at hany
      cases hany
    | some g =>
      obtain rfl := Keyed.get_key hget
      exact (h.wf g (Keyed.get_mem hget)).ref_lt
  | packet | evict | cleanup | limiterCleanup | quality | count => cases hack

/-- The sessions of a state after the steps `es`. -/
structure Sessions (es : List Step) (s : State) : Prop where
  inv : Inv s
  spent : ∀ e ∈ es, ∀ ref, acknowledges ref e.pre e.input = true → ref < s.nextRef
  established : ∀ g ∈ s.groups, g.established = es.any fun e => acknowledges g.ref e.pre e.input

/-- **A group is established exactly when the server has acknowledged something on
    it.** -/
theorem run_established (ops : List Op) :
    Sessions (receiver.hist State.init ops) (receiver.run State.init ops) := by
  refine receiver.hist_invariant (R := Sessions) ⟨inv_init, ?_, ?_⟩ ?_ ops
  · exact fun e he => absurd he List.not_mem_nil
  · exact fun g hg => absurd hg List.not_mem_nil
  · intro es s op hs
    have hstep := step_regStep hs.inv op
    refine ⟨hstep.inv hs.inv, fun e he ref hack => ?_, fun g' hg' => ?_⟩
    · rcases List.mem_append.mp he with he | he
      · exact (hs.spent e he ref hack).trans_le hstep.nextRef_le
      · rw [List.mem_singleton.mp he] at hack
        exact (ref_lt_of_acknowledges hs.inv hack).trans_le hstep.nextRef_le
    · rw [List.any_append, List.any_cons, List.any_nil, Bool.or_false]
      rcases step_established hs.inv op hg' with ⟨href, hnew⟩ | ⟨g, hg, href, heq⟩
      · -- nothing was ever heard for an identity that is not spent
        have hold : (es.any fun e => acknowledges g'.ref e.pre e.input) = false := by
          rw [List.any_eq_false]
          intro e he hack
          have := hs.spent e he g'.ref hack
          omega
        have hlast : acknowledges g'.ref s op = false := by
          rw [Bool.eq_false_iff]
          intro hack
          have := ref_lt_of_acknowledges hs.inv hack
          omega
        rw [hold, hlast, hnew]
        rfl
      · rw [heq, hs.established g hg, href]

/-! ## Lockouts -/

/-- The step `e`, with the steps `before` it, rejects a session of the IP of `a` at
    time `t`: the SRT server rejects the handshake, or it shuts down a session of
    which it has not acknowledged anything. -/
def Rejection (before : List Step) (e : Step) (a : SockaddrStorage) (t : ℤ) : Prop :=
  ∃ ref env g buf, e.input = .srtData ref env ∧ env.now = t ∧
    e.pre.serverRead ref env = some (g, some buf) ∧ SameIp g.lastAddr a ∧
    (isSrtHandshakeReject (mem buf) buf.length = true ∨
      isSrtShutdown (mem buf) buf.length = true ∧ ∀ e' ∈ before, acknowledges ref e'.pre e'.input = false)

theorem failureOf_eq_some {f : SockaddrStorage × ℤ} (h : failureOf s op = some f) :
    ∃ ref env g buf, op = .srtData ref env ∧ s.serverRead ref env = some (g, some buf) ∧
      failedAuth g buf = true ∧ f = (g.lastAddr, env.now) := by
  cases op with
  | srtData ref env =>
    obtain ⟨⟨g, read⟩, hread, hfailure⟩ := Option.bind_eq_some_iff.mp h
    obtain ⟨buf, hbuf, rfl⟩ := Option.map_eq_some_iff.mp hfailure
    obtain ⟨rfl, hfailed⟩ := Option.filter_eq_some_iff.mp hbuf
    exact ⟨ref, env, g, buf, rfl, hread, hfailed, rfl⟩
  | packet | evict | cleanup | limiterCleanup | quality | count => cases h

/-- The failures on record are those of the rejecting steps. -/
theorem recorded_runLimiterCalls (ops : List Op) :
    recorded (runLimiterCalls ops) =
      (receiver.hist State.init ops).filterMap fun e => failureOf e.pre e.input := by
  have hcalls : ∀ e : Step, recorded (limiterCalls e.pre e.input) = (failureOf e.pre e.input).toList := by
    intro e
    cases e.input with
    | packet buf addr ts env =>
      unfold limiterCalls
      dsimp only
      split_ifs <;> rfl
    | srtData ref env =>
      unfold limiterCalls
      dsimp only
      cases failureOf e.pre (.srtData ref env) <;> rfl
    | evict | cleanup | limiterCleanup | quality | count => rfl
  unfold runLimiterCalls recorded
  rw [List.filterMap_flatMap, List.filterMap_eq_flatMap_toList]
  exact List.flatMap_congr fun e _ => hcalls e

/-- A step that records a failure rejects a session. -/
theorem rejection_of_failureOf {before after : List Step} (hsplit : receiver.hist State.init ops = before ++ e :: after)
    {f : SockaddrStorage × ℤ} (hf : failureOf e.pre e.input = some f) (hip : SameIp f.1 a) :
    Rejection before e a f.2 := by
  obtain ⟨ref, env, g, buf, hinput, hread, hfailed, rfl⟩ := failureOf_eq_some hf
  obtain ⟨opsBefore, _, _, hbefore, hpre, _⟩ := receiver.hist_split hsplit
  have hsessions := run_established opsBefore
  rw [← hbefore, ← hpre] at hsessions
  obtain ⟨hg, hgroup⟩ : g ∈ e.pre.groups ∧ g.ref = ref := by
    obtain ⟨x, hget, hx⟩ := Option.map_eq_some_iff.mp hread
    obtain rfl := (Prod.mk.inj hx).1
    exact ⟨Keyed.get_mem hget, Keyed.get_key hget⟩
  refine ⟨ref, env, g, buf, hinput, rfl, hread, hip, ?_⟩
  rw [failedAuth, Bool.or_eq_true, Bool.and_eq_true, Bool.not_eq_true', hsessions.established g hg, hgroup,
    List.any_eq_false] at hfailed
  refine hfailed.imp_right fun hshut => ⟨hshut.1, fun e' he' => ?_⟩
  exact Bool.eq_false_iff.mpr (hshut.2 e' he')

/-- Values that a list yields come from elements that stand in the same order. -/
theorem exists_sublist_map_eq {α β : Type*} {f : α → Option β} {l : List α} {bs : List β}
    (h : bs.Sublist (l.filterMap f)) : ∃ l' : List α, l'.Sublist l ∧ l'.map f = bs.map some := by
  obtain ⟨l', hsub, rfl⟩ := List.sublist_filterMap_iff.mp h
  refine ⟨l'.filter fun a => (f a).isSome, List.filter_sublist.trans hsub, ?_⟩
  clear h hsub
  induction l' with
  | nil => rfl
  | cons a l' ih => cases hf : f a <;> simp [hf, ih]

/-- **Whoever is locked out was turned away by the SRT server.** In every run with a
    clock that does not go back, a REG1 is throttled only if `AUTH_FAIL_THRESHOLD`
    earlier packets of the server rejected sessions of the same IP, the last of them
    less than `AUTH_FAIL_COOLDOWN` seconds ago and the others at most
    `AUTH_FAIL_WINDOW` seconds before it: it rejected the handshake, or it shut a
    session down without ever having acknowledged anything on it. -/
theorem locked_out_for_rejections (ops : List Op) {env : PacketEnv}
    (htimed : TimedFrom 0 (runLimiterCalls ops ++ [.isBlocked a ts]))
    (h : regGroupOutcome (receiver.run State.init ops) a ts env = .throttled) :
    ∃ (es : List Step) (last : Step) (T : ℤ),
      (es ++ [last]).Sublist (receiver.hist State.init ops) ∧
      ((es ++ [last]).length : ℤ) = authFailThreshold ∧
      (ts < T + authFailCooldown ∧
        ∃ before after, receiver.hist State.init ops = before ++ last :: after ∧ Rejection before last a T) ∧
      ∀ e ∈ es, ∃ before after t, receiver.hist State.init ops = before ++ e :: after ∧
        Rejection before e a t ∧ t ≤ T ∧ T - t ≤ authFailWindow := by
  have hblocked : (throttled (runLimiterCalls ops)).isBlocked a ts = true := by
    rw [← run_limiter]
    unfold regGroupOutcome at h
    split_ifs at h with hblocked
    exact hblocked
  obtain ⟨fs, b, T, hcause, huntil⟩ := exists_cause htimed hblocked
  -- the failures of the cause, as steps of the history
  have hrecorded : (fs ++ [(b, T)]).Sublist
      ((receiver.hist State.init ops).filterMap fun e => failureOf e.pre e.input) := by
    rw [← recorded_runLimiterCalls]
    exact hcause.sublist.trans List.filter_sublist
  obtain ⟨steps, hsub, hsteps⟩ := exists_sublist_map_eq hrecorded
  have hreject : ∀ e ∈ steps, ∀ f ∈ fs ++ [(b, T)], failureOf e.pre e.input = some f →
      ∃ before after, receiver.hist State.init ops = before ++ e :: after ∧ Rejection before e a f.2 := by
    intro e he f hf hfailure
    have hkey := (List.mem_filter.mp (hcause.sublist.subset hf)).2
    obtain ⟨before, after, hsplit⟩ := List.append_of_mem (hsub.subset he)
    exact ⟨before, after, hsplit,
      rejection_of_failureOf hsplit hfailure (keyFor_eq_iff.mp (of_decide_eq_true hkey))⟩
  rw [List.map_append, List.map_singleton] at hsteps
  obtain ⟨es, tail, rfl, hes, htail⟩ := List.map_eq_append_iff.mp hsteps
  obtain ⟨last, rfl, hlast⟩ := List.map_eq_singleton_iff.mp htail
  refine ⟨es, last, T, hsub, ?_, ⟨huntil, ?_⟩, fun e he => ?_⟩
  · rw [← hcause.count, List.length_append, List.length_append, ← List.length_map, hes, List.length_map]
    rfl
  · exact hreject last (List.mem_append_right es (List.mem_singleton_self last)) (b, T)
      (List.mem_append_right fs (List.mem_singleton_self _)) hlast
  · obtain ⟨f, hf, hfailure⟩ : ∃ f ∈ fs, some f = failureOf e.pre e.input := by
      have hmem := List.mem_map_of_mem (f := fun e : Step => failureOf e.pre e.input) he
      rwa [hes, List.mem_map] at hmem
    obtain ⟨before, after, hsplit, hrejection⟩ := hreject e (List.mem_append_left _ he) f
      (List.mem_append_left _ hf) hfailure.symm
    exact ⟨before, after, f.2, hsplit, hrejection, hcause.span f hf⟩

/-- A handshake of the server that rejects the session. -/
def rejectPacket : Bytes :=
  putBe16 srtTypeHandshake ++ List.replicate 34 0 ++ putBe32 1002 ++ List.replicate 24 0

/-- A session that is registered as group `ref`, streams and is rejected, all at time `t`. -/
def turnedAway (ref : ℕ) (t : ℤ) : List Op :=
  handshake default default (sampleAddr 1) (sampleAddr 1) t t ++
    [.packet (List.replicate 16 0) (sampleAddr 1) t streamEnv, .srtData ref ⟨some rejectPacket, t, 0, 64⟩]

/-- The group of such a session once it is registered. -/
def turnedAwayGroup (ref : ℕ) (t : ℤ) : ConnectionGroup :=
  { (ConnectionGroup.create ref (SrtlaId.firstHalf default) default t (sampleAddr 1)).addConnection
      (.create (ref + 1) (sampleAddr 1) t) with lastAddr := sampleAddr 1 }

theorem run_handshake_empty (hinv : Inv s) (hgroups : s.groups = []) {t : ℤ}
    (hfree : s.limiter.isBlocked (sampleAddr 1) t = false) :
    (receiver.run s (handshake default default (sampleAddr 1) (sampleAddr 1) t t)).groups =
        [turnedAwayGroup s.nextRef t] ∧
      (receiver.run s (handshake default default (sampleAddr 1) (sampleAddr 1) t t)).nextRef =
        s.nextRef + 2 := by
  set env₁ : PacketEnv := { (default : PacketEnv) with sendtoRet := 258, random := default }
  set s₁ := (step s (.packet (reg1Frame default) (sampleAddr 1) t env₁)).1 with hs₁
  obtain ⟨⟨hgroups₁, hnext₁, _, _⟩, _⟩ := @step_reg1 s (sampleAddr 1) t env₁ default hfree
    (by rw [hgroups]; decide) (by rw [hgroups]; exact fun x hx => absurd hx List.not_mem_nil) rfl
  rw [← hs₁, hgroups, List.nil_append] at hgroups₁
  rw [← hs₁] at hnext₁
  have hinv₁ : Inv s₁ := (step_regStep hinv _).inv hinv
  have hid : findGroupById s₁.groups (.ofHalves (SrtlaId.firstHalf default) default) =
      some (ConnectionGroup.create s.nextRef (SrtlaId.firstHalf default) default t (sampleAddr 1)) := by
    rw [hgroups₁]
    exact findGroupById_self _ []
  obtain ⟨hgroups₂, hnext₂, _, _⟩ := @step_reg2 s₁ (sampleAddr 1) t
    { (default : PacketEnv) with sendtoRet := 32 } _ hinv₁ _ hid
    (by rw [hgroups₁]; exact fun x hx _ => List.mem_singleton.mp hx)
    (fun c hc => absurd hc List.not_mem_nil) (by show 0 < maxConnsPerGroup; decide) rfl
  have hrun : receiver.run s (handshake default default (sampleAddr 1) (sampleAddr 1) t t) =
      (step s₁ (.packet (reg2Frame (.ofHalves (SrtlaId.firstHalf default) default)) (sampleAddr 1) t
        { (default : PacketEnv) with sendtoRet := 32 })).1 := rfl
  rw [hrun, hgroups₂, hnext₂, hgroups₁, hnext₁]
  refine ⟨?_, rfl⟩
  rw [Keyed.put, List.map_singleton, if_pos]
  · rfl
  · rfl

/-- The stream of such a session opens its socket. -/
theorem step_turnedAway_stream {ref : ℕ} {t : ℤ} (hgroups : s.groups = [turnedAwayGroup ref t]) :
    ∃ g, (step s (.packet (List.replicate 16 0) (sampleAddr 1) t streamEnv)).1.groups = [g] ∧
      g.ref = ref ∧ g.lastAddr = sampleAddr 1 ∧
      (step s (.packet (List.replicate 16 0) (sampleAddr 1) t streamEnv)).1.nextRef = s.nextRef := by
  have hf : findByAddress s.groups (sampleAddr 1) =
      some (turnedAwayGroup ref t, some (.create (ref + 1) (sampleAddr 1) t)) := by
    have hfind : (turnedAwayGroup ref t).conns.find? (fun c => addressesEqual c.addr (sampleAddr 1)) =
        some (.create (ref + 1) (sampleAddr 1) t) :=
      List.find?_cons_of_pos (addressesEqual_refl _)
    rw [hgroups, findByAddress, hfind]
  have hdata : isDataPacket (List.replicate 16 0) = true := by decide +kernel
  obtain ⟨h1, h2⟩ := not_isSrtlaReg_of_isDataPacket hdata
  have hopens : streamEnv.forward.socket.opens = true := by decide
  have hsurvives : (turnedAwayGroup ref t).survives (List.replicate 16 0) streamEnv.forward = true := by
    unfold ConnectionGroup.survives ConnectionGroup.getsSocket
    rw [hopens, Bool.or_true]
    decide +kernel
  obtain ⟨g, hafter⟩ : ∃ g, afterPacket (turnedAwayGroup ref t) (.create (ref + 1) (sampleAddr 1) t)
      (List.replicate 16 0) (sampleAddr 1) t streamEnv = some g := by
    rw [afterPacket, if_pos (relays_of_isDataPacket hdata), if_pos hsurvives]
    exact ⟨_, rfl⟩
  have href : g.ref = ref := afterPacket_ref hafter
  have hcarries : carriesData (List.replicate 16 0) = true := by decide +kernel
  refine ⟨g, ?_, href, ?_, (@processSinglePacket_conn_frame _ _ _ _ t streamEnv _ h1 h2 hf).2.2⟩
  · show (processSinglePacket s _ (sampleAddr 1) t streamEnv).1.groups = _
    rw [processSinglePacket_conn h1 h2 hf, hafter, hgroups, Keyed.update, Keyed.put, List.map_singleton,
      if_pos]
    exact href.symm
  · rw [afterPacket_lastAddr hafter, if_pos hcarries]

/-- Such a session leaves nothing but its failure. -/
theorem run_turnedAway (hinv : Inv s) (hgroups : s.groups = []) {t : ℤ}
    (hfree : s.limiter.isBlocked (sampleAddr 1) t = false) :
    (receiver.run s (turnedAway s.nextRef t)).groups = [] ∧
      (receiver.run s (turnedAway s.nextRef t)).nextRef = s.nextRef + 2 ∧
      (receiver.hist s (turnedAway s.nextRef t)).flatMap (fun e => limiterCalls e.pre e.input) =
        [.isBlocked (sampleAddr 1) t, .recordFailure (sampleAddr 1) t] := by
  obtain ⟨hgroups₂, hnext₂⟩ := run_handshake_empty hinv hgroups hfree
  rw [turnedAway, receiver.run_append, receiver.hist_append, List.flatMap_append]
  have hregister : (receiver.hist s (handshake default default (sampleAddr 1) (sampleAddr 1) t t)).flatMap
      (fun e => limiterCalls e.pre e.input) = [.isBlocked (sampleAddr 1) t] := by
    have h2 : isSrtlaReg1 (mem (reg2Frame (.ofHalves (SrtlaId.firstHalf default) default)))
        (reg2Frame (.ofHalves (SrtlaId.firstHalf default) default)).length = false := by decide +kernel
    simp only [handshake, Machine.hist_cons, Machine.hist_nil, List.flatMap_cons, List.flatMap_nil,
      limiterCalls, isSrtlaReg1_reg1Frame, h2, if_true, Bool.false_eq_true, if_false, List.append_nil]
  rw [hregister]
  generalize receiver.run s (handshake default default (sampleAddr 1) (sampleAddr 1) t t) = s₂
    at hgroups₂ hnext₂ ⊢
  obtain ⟨g, hgroups₃, href, haddr, hnext₃⟩ := step_turnedAway_stream hgroups₂
  rw [Machine.run_cons, Machine.run_cons, Machine.run_nil, Machine.hist_cons, Machine.hist_cons,
    Machine.hist_nil]
  have hstream : limiterCalls s₂ (.packet (List.replicate 16 0) (sampleAddr 1) t streamEnv) = [] := by
    have h1 : isSrtlaReg1 (mem (List.replicate 16 0)) (List.replicate 16 (0 : UInt8)).length = false := by
      decide +kernel
    unfold limiterCalls
    dsimp only
    rw [h1, if_neg Bool.false_ne_true]
  generalize hs₃ : (receiver.step s₂ (.packet (List.replicate 16 0) (sampleAddr 1) t streamEnv)).1 = s₃
  replace hgroups₃ : s₃.groups = [g] := hs₃ ▸ hgroups₃
  replace hnext₃ : s₃.nextRef = s₂.nextRef := hs₃ ▸ hnext₃
  have hget : Keyed.get ConnectionGroup.ref s.nextRef s₃.groups = some g := by
    rw [hgroups₃, Keyed.get, List.find?_cons_of_pos (by simp [href])]
  have htake : rejectPacket.take mtu = rejectPacket := List.take_of_length_le (by decide)
  have hread : s₃.serverRead s.nextRef ⟨some rejectPacket, t, 0, 64⟩ = some (g, some rejectPacket) := by
    have hlen : srtMinLen ≤ (rejectPacket.take mtu).length := by decide
    rw [serverRead_packet hget rfl hlen, htake]
  have hfailed : failedAuth g rejectPacket = true := by
    unfold failedAuth
    have hreject : isSrtHandshakeReject (mem rejectPacket) rejectPacket.length = true := by decide +kernel
    rw [hreject]
    rfl
  have hends : g.endsOn ⟨some rejectPacket, t, 0, 64⟩ = true := by
    unfold ConnectionGroup.endsOn
    dsimp only
    rw [htake, hfailed, Bool.or_true]
  have hstep : receiver.step s₃ (.srtData s.nextRef ⟨some rejectPacket, t, 0, 64⟩) =
      handleSrtData s₃ g ⟨some rejectPacket, t, 0, 64⟩ := step_srtData hget
  refine ⟨?_, ?_, ?_⟩
  · rw [hstep, handleSrtData_groups, if_pos hends, hgroups₃, Keyed.remove, List.filter_singleton]
    simp
  · rw [hstep, (handleSrtData_frame s₃ g _).2, hnext₃, hnext₂]
  · simp only [List.flatMap_cons, List.flatMap_nil, hstream, List.nil_append, List.append_nil]
    unfold limiterCalls failureOf
    dsimp only
    rw [hread, Option.bind_some, Option.filter_some, hfailed, if_pos rfl, haddr]
    rfl

/-- Five such sessions. -/
def turnedAwayFive : List Op :=
  turnedAway 0 100 ++ turnedAway 2 101 ++ turnedAway 4 102 ++ turnedAway 6 103 ++ turnedAway 8 104

/-- The limiter calls of `n` such sessions from time 100 on. -/
def turnedAwayCalls : ℕ → List LimiterCall
  | 0 => []
  | n + 1 => turnedAwayCalls n ++ [.isBlocked (sampleAddr 1) (100 + n), .recordFailure (sampleAddr 1) (100 + n)]

/-- One session more, as long as the limiter lets it in. -/
theorem turnedAway_more {n : ℕ} (hgroups : (receiver.run State.init ops).groups = [])
    (hnext : (receiver.run State.init ops).nextRef = 2 * n)
    (hcalls : runLimiterCalls ops = turnedAwayCalls n)
    (hfree : (throttled (turnedAwayCalls n)).isBlocked (sampleAddr 1) (100 + n) = false) :
    (receiver.run State.init (ops ++ turnedAway (2 * n) (100 + n))).groups = [] ∧
      (receiver.run State.init (ops ++ turnedAway (2 * n) (100 + n))).nextRef = 2 * (n + 1) ∧
      runLimiterCalls (ops ++ turnedAway (2 * n) (100 + n)) = turnedAwayCalls (n + 1) := by
  rw [← hcalls, ← run_limiter] at hfree
  obtain ⟨hgroups', hnext', hcalls'⟩ := run_turnedAway (run_inv inv_init ops) hgroups hfree
  rw [hnext] at hgroups' hnext' hcalls'
  refine ⟨?_, ?_, ?_⟩
  · rw [receiver.run_append, hgroups']
  · rw [receiver.run_append, hnext']
    omega
  · rw [runLimiterCalls, receiver.hist_append, List.flatMap_append, hcalls']
    exact congrArg (fun l => l ++ _) hcalls

/-- After five rejected sessions the sixth REG1 is refused. -/
theorem locked_out_for_rejections_five :
    regGroupOutcome (receiver.run State.init turnedAwayFive) (sampleAddr 1) 105 default = .throttled ∧
      ∃ (es : List Step) (last : Step) (T : ℤ),
        (es ++ [last]).Sublist (receiver.hist State.init turnedAwayFive) ∧
        ((es ++ [last]).length : ℤ) = authFailThreshold ∧ 105 < T + authFailCooldown ∧
        ∃ before after, receiver.hist State.init turnedAwayFive = before ++ last :: after ∧
          Rejection before last (sampleAddr 1) T := by
  have h0 : (receiver.run State.init []).groups = [] ∧ (receiver.run State.init []).nextRef = 2 * 0 ∧
      runLimiterCalls [] = turnedAwayCalls 0 := ⟨rfl, rfl, rfl⟩
  have h1 := turnedAway_more h0.1 h0.2.1 h0.2.2 (by decide)
  have h2 := turnedAway_more h1.1 h1.2.1 h1.2.2 (by decide)
  have h3 := turnedAway_more h2.1 h2.2.1 h2.2.2 (by decide)
  have h4 := turnedAway_more h3.1 h3.2.1 h3.2.2 (by decide)
  obtain ⟨_, _, hcalls⟩ := turnedAway_more h4.1 h4.2.1 h4.2.2 (by decide)
  replace hcalls : runLimiterCalls turnedAwayFive = turnedAwayCalls 5 := hcalls
  have hthrottled : regGroupOutcome (receiver.run State.init turnedAwayFive) (sampleAddr 1) 105 default =
      .throttled := by
    unfold regGroupOutcome
    rw [run_limiter, hcalls, if_pos (by decide)]
  obtain ⟨es, last, T, hes, hlen, hT, _⟩ := locked_out_for_rejections turnedAwayFive
    (by rw [hcalls]; decide) hthrottled
  exact ⟨hthrottled, es, last, T, hes, hlen, hT⟩

end Srtla.Receiver
