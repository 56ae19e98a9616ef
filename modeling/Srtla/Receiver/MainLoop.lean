import Srtla.Receiver.Relay

/-!
# The main loop (`src/receiver_main.cpp:186-231`)

`epoll_wait` returns events that carry raw pointers to groups. The loop guards
against a group that is destroyed while the events are handled by comparing the
number of groups before and after each event.

* `eventLoop_isSome_iff`: the loop reads no destroyed group exactly when no batch
  of SRTLA datagrams hides a removal, that is, ends the group of a later event
  and admits at least as many groups as it ends.
* `mainIteration_run`: an iteration of the loop that reads no destroyed group is a
  run of `receiver`.
-/

namespace Srtla.Receiver

open Lib

/-! ## The loop -/

/-- What `events[i].data.ptr` points to, with what the system calls made for the
    event return: null for the SRTLA socket, the metrics exporter, or a group. -/
inductive LoopEvent
  | srtla (batch : Option (List Datagram))
  | metrics
  | group (ref : ℕ) (env : SrtEnv)

/-- The body of the loop over the events (lines 206-222). `none` is the read of
    `raw_group->id()` from a destroyed group. The exporter only reads the registry. -/
def handleEvent (ts : ℤ) (s : State) : LoopEvent → Option (State × List Effect)
  | .srtla batch => some (processPackets s batch ts)
  | .metrics => some (s, [])
  | .group ref env =>
    match Keyed.get ConnectionGroup.ref ref s.groups with
    | none => none
    | some raw =>
      match findGroupById s.groups raw.id with
      | none => some (s, [])
      | some g => some (handleSrtData s g env)

/-- The loop over the events (lines 197-223), which stops when the number of
    groups shrinks. -/
def eventLoop (ts : ℤ) : State → List LoopEvent → Option (State × List Effect)
  | s, [] => some (s, [])
  | s, e :: es =>
    match handleEvent ts s e with
    | none => none
    | some (s', effects) =>
      if s'.groups.length < s.groups.length then some (s', effects)
      else (eventLoop ts s' es).map fun r => (r.1, effects ++ r.2)

/-- One iteration of the main loop: the events, then the periodic work. -/
def mainIteration (ts : ℤ) (s : State) (es : List LoopEvent) (ret : ℕ → ℤ)
    (ms : ℕ → Option UInt64) : Option (State × List Effect) :=
  (eventLoop ts s es).map fun r =>
    let c := cleanupInactive r.1 ts ret
    (State.assess { c.1 with limiter := c.1.limiter.cleanup ts } ts ms, r.2 ++ c.2)

/-! ## Who leaves and who comes -/

/-- The objects in the registry are distinct, and their identities are not to be
    handed out again. -/
structure State.Distinct (s : State) : Prop where
  refs : (s.groups.map ConnectionGroup.ref).Nodup
  fresh : ∀ g ∈ s.groups, g.ref < s.nextRef

/-- The group is in the registry. -/
def State.Live (s : State) (ref : ℕ) : Prop := ∃ g ∈ s.groups, g.ref = ref

/-- The group a packet ends: the victim of a REG1 that is not throttled, or the
    group of a connection whose packet is to be forwarded and cannot be. -/
def packetEnds (s : State) (buf : Bytes) (addr : SockaddrStorage) (ts : ℤ) (env : PacketEnv) :
    List ℕ :=
  if isSrtlaReg1 (mem buf) buf.length then
    if s.limiter.isBlocked addr ts then [] else (s.victim.map ConnectionGroup.ref).toList
  else if isSrtlaReg2 (mem buf) buf.length then []
  else
    match findByAddress s.groups addr with
    | some (g, some _) => if relays g buf env && !g.survives buf env.forward then [g.ref] else []
    | _ => []

/-- The number of groups a packet admits: one for a REG1 that is not refused. -/
def packetAdmits (s : State) (buf : Bytes) (addr : SockaddrStorage) (ts : ℤ) (env : PacketEnv) : ℕ :=
  if isSrtlaReg1 (mem buf) buf.length && decide (regGroupOutcome s addr ts env = .registered) then 1
  else 0

/-- The groups that the datagrams of a batch end, each judged in the state it meets. -/
def batchEnds (ts : ℤ) : State → List Datagram → List ℕ
  | _, [] => []
  | s, d :: ds =>
    (if (d.buf.take mtu).length > 0 then packetEnds s (d.buf.take mtu) d.addr ts d.env else []) ++
      batchEnds ts (processDatagram s d ts).1 ds

/-- The number of groups that the datagrams of a batch admit. -/
def batchAdmits (ts : ℤ) : State → List Datagram → ℕ
  | _, [] => 0
  | s, d :: ds =>
    (if (d.buf.take mtu).length > 0 then packetAdmits s (d.buf.take mtu) d.addr ts d.env else 0) +
      batchAdmits ts (processDatagram s d ts).1 ds

/-- The groups an event ends. -/
def eventEnds (ts : ℤ) (s : State) : LoopEvent → List ℕ
  | .srtla (some ds) => batchEnds ts (s.inc [(.recvBatches, 1)]) ds
  | .group ref env =>
    match (Keyed.get ConnectionGroup.ref ref s.groups).bind fun raw => findGroupById s.groups raw.id with
    | some g => if g.endsOn env then [g.ref] else []
    | none => []
  | _ => []

/-- The number of groups an event admits. -/
def eventAdmits (ts : ℤ) (s : State) : LoopEvent → ℕ
  | .srtla (some ds) => batchAdmits ts (s.inc [(.recvBatches, 1)]) ds
  | _ => 0

/-- The state after an event; one that must not be handled is skipped. -/
def afterEvent (ts : ℤ) (s : State) (e : LoopEvent) : State :=
  ((handleEvent ts s e).map Prod.fst).getD s

/-- The state after a list of events. -/
def afterEvents (ts : ℤ) (s : State) (es : List LoopEvent) : State := es.foldl (afterEvent ts) s

/-- The loop goes on past the events: none ends more groups than it admits. -/
def passes (ts : ℤ) : State → List LoopEvent → Bool
  | _, [] => true
  | s, e :: es =>
    decide ((eventEnds ts s e).length ≤ eventAdmits ts s e) && passes ts (afterEvent ts s e) es

/-- Some batch hides a removal: it ends the group of a later event, and the loop
    gets from the batch to that event without seeing the number of groups shrink. -/
def HidesRemoval (ts : ℤ) (s : State) (es : List LoopEvent) : Prop :=
  ∃ pre ds mid ref env post, es = pre ++ .srtla (some ds) :: (mid ++ .group ref env :: post) ∧
    passes ts s (pre ++ .srtla (some ds) :: mid) = true ∧
    ref ∈ eventEnds ts (afterEvents ts s pre) (.srtla (some ds))

/-! ## The census of a step -/

/-- Between `s` and `s'` the groups `ended` left and `admitted` new ones came. -/
structure Census (s s' : State) (ended : List ℕ) (admitted : ℕ) : Prop where
  distinct : s'.Distinct
  nextRef : s.nextRef ≤ s'.nextRef
  length : s'.groups.length + ended.length = s.groups.length + admitted
  live : ∀ ref < s.nextRef, s'.Live ref ↔ s.Live ref ∧ ref ∉ ended

variable {s s' s'' : State} {ts : ℤ}

theorem State.live_iff {ref : ℕ} : s.Live ref ↔ ref ∈ s.groups.map ConnectionGroup.ref := by
  simp [State.Live]

theorem Census.trans {es es' : List ℕ} {a a' : ℕ} (h : Census s s' es a) (h' : Census s' s'' es' a') :
    Census s s'' (es ++ es') (a + a') where
  distinct := h'.distinct
  nextRef := h.nextRef.trans h'.nextRef
  length := by
    have := h.length
    have := h'.length
    rw [List.length_append]
    omega
  live := by
    intro ref href
    rw [h'.live ref (href.trans_le h.nextRef), h.live ref href, List.mem_append]
    tauto

/-- Nobody comes or goes when the identities stay the same. -/
theorem Census.of_refs_eq (hs : s.Distinct)
    (h : s'.groups.map ConnectionGroup.ref = s.groups.map ConnectionGroup.ref)
    (hn : s.nextRef ≤ s'.nextRef) : Census s s' [] 0 where
  distinct := by
    refine ⟨h ▸ hs.refs, ?_⟩
    intro g hg
    have hmem : g.ref ∈ s.groups.map ConnectionGroup.ref := h ▸ List.mem_map_of_mem hg
    obtain ⟨g', hg', href⟩ := List.mem_map.mp hmem
    exact href ▸ (hs.fresh g' hg').trans_le hn
  nextRef := hn
  length := by
    have := congrArg List.length h
    simpa using this
  live := by
    intro ref _
    rw [State.live_iff, State.live_iff, h]
    simp

/-- One group leaves. -/
theorem Census.of_remove (hs : s.Distinct) {g : ConnectionGroup} (hg : g ∈ s.groups)
    (h : s'.groups = Keyed.remove ConnectionGroup.ref g.ref s.groups) (hn : s.nextRef ≤ s'.nextRef) :
    Census s s' [g.ref] 0 where
  distinct := by
    refine ⟨h ▸ Keyed.nodup_remove hs.refs, ?_⟩
    intro x hx
    rw [h] at hx
    exact (hs.fresh x (Keyed.mem_remove.mp hx).1).trans_le hn
  nextRef := hn
  length := by
    rw [h, List.length_singleton, Keyed.length_remove_of_mem hs.refs hg, Nat.add_zero]
  live := by
    intro ref _
    unfold State.Live
    rw [h, List.mem_singleton]
    constructor
    · rintro ⟨x, hx, rfl⟩
      exact ⟨⟨x, (Keyed.mem_remove.mp hx).1, rfl⟩, (Keyed.mem_remove.mp hx).2⟩
    · rintro ⟨⟨x, hx, rfl⟩, hne⟩
      exact ⟨x, Keyed.mem_remove.mpr ⟨hx, hne⟩, rfl⟩

/-- One group, with the next identity, comes. -/
theorem Census.of_append (hs : s.Distinct) {g : ConnectionGroup} (hg : g.ref = s.nextRef)
    (h : s'.groups = s.groups ++ [g]) (hn : s'.nextRef = s.nextRef + 1) : Census s s' [] 1 where
  distinct := by
    refine ⟨?_, ?_⟩
    · rw [h, List.map_append, List.map_singleton, List.nodup_append]
      refine ⟨hs.refs, List.nodup_singleton _, ?_⟩
      intro r hr r' hr' heq
      obtain ⟨x, hx, rfl⟩ := List.mem_map.mp hr
      have := hs.fresh x hx
      rw [List.mem_singleton] at hr'
      omega
    · intro x hx
      rw [h, List.mem_append, List.mem_singleton] at hx
      rw [hn]
      rcases hx with hx | rfl
      · exact (hs.fresh x hx).trans (Nat.lt_succ_self _)
      · omega
  nextRef := by omega
  length := by rw [h, List.length_append]; rfl
  live := by
    intro ref href
    rw [State.live_iff, State.live_iff, h, List.map_append, List.mem_append, List.map_singleton,
      List.mem_singleton]
    have : ref ≠ g.ref := by omega
    simp [this]

/-! ## What each part of the loop does -/

/-- The eviction of `register_group`. -/
theorem census_afterEviction (hs : s.Distinct) :
    Census s { s with groups := s.afterEviction } (s.victim.map ConnectionGroup.ref).toList 0 := by
  unfold State.afterEviction
  cases hv : s.victim with
  | none => exact Census.of_refs_eq hs rfl le_rfl
  | some v =>
    refine Census.of_remove hs ?_ rfl le_rfl
    unfold State.victim at hv
    split_ifs at hv
    exact (oldestPending_eq_some hv).1

theorem census_registerGroup (hs : s.Distinct) (addr : SockaddrStorage) (buffer : Mem)
    (env : PacketEnv) :
    Census s (registerGroup s addr buffer ts env).2.1
      (if s.limiter.isBlocked addr ts then [] else (s.victim.map ConnectionGroup.ref).toList)
      (if regGroupOutcome s addr ts env = .registered then 1 else 0) := by
  obtain ⟨⟨_, _, hn⟩, hcase⟩ := registerGroup_cases s addr buffer ts env
  have hevict := census_afterEviction hs
  -- an exit behind the eviction: the state of the eviction, then the exit itself
  have hlate : regGroupOutcome s addr ts env ≠ .throttled → s.limiter.isBlocked addr ts = false := by
    intro hne
    by_contra hb
    exact hne (if_pos (Bool.not_eq_false _ ▸ hb))
  cases ho : regGroupOutcome s addr ts env with
  | throttled =>
    rw [ho] at hcase
    have hb : s.limiter.isBlocked addr ts = true := by
      by_contra hb
      unfold regGroupOutcome at ho
      rw [if_neg hb] at ho
      split_ifs at ho
    rw [if_pos hb]
    exact Census.of_refs_eq hs (by rw [hcase.2.1]) hn
  | tableFull =>
    rw [ho] at hcase
    have hv : s.victim = none := by
      have hroom : s.groups.length ≥ maxGroups ∧ oldestPending s.groups = none := by
        by_contra hroom
        unfold regGroupOutcome at ho
        rw [if_neg hroom] at ho
        split_ifs at ho
      unfold State.victim
      rw [if_pos hroom.1, hroom.2]
    rw [hlate (by rw [ho]; decide), hv]
    exact Census.of_refs_eq hs (by rw [hcase.2.1]) hn
  | dupAddr | sendError =>
    rw [ho] at hcase
    rw [hlate (by rw [ho]; decide)]
    have h := hevict.trans (Census.of_refs_eq hevict.distinct (by rw [hcase.2.1]) hn)
    rw [List.append_nil] at h
    exact h
  | registered =>
    rw [ho] at hcase
    rw [hlate (by rw [ho]; decide)]
    have h := hevict.trans (Census.of_append hevict.distinct rfl hcase.2.1 hcase.2.2.1)
    rw [List.append_nil] at h
    exact h

theorem census_registerConnection (hs : s.Distinct) (addr : SockaddrStorage) (buffer : Mem)
    (env : PacketEnv) : Census s (registerConnection s addr buffer ts env).2.1 [] 0 := by
  refine Census.of_refs_eq hs ?_ (registerConnection_frame s addr buffer ts env).2.2
  rcases registerConnection_cases s hs.refs addr buffer ts env with
    href | ⟨g, _, _, _, _, _, hjoin | ⟨c, hrep⟩⟩
  · rw [href.2.1]
  · rw [hjoin.2.2.2, Keyed.map_key_put]
  · rw [hrep.2, Keyed.map_key_put]

variable {buf : Bytes} {addr : SockaddrStorage} {env : PacketEnv}

theorem census_packet (hs : s.Distinct) :
    Census s (processSinglePacket s buf addr ts env).1 (packetEnds s buf addr ts env)
      (packetAdmits s buf addr ts env) := by
  unfold packetEnds packetAdmits
  cases packetCase s buf addr with
  | reg1 h1 =>
    rw [processSinglePacket_reg1 h1]
    simpa only [h1, if_true, Bool.true_and, decide_eq_true_eq] using
      census_registerGroup hs addr (mem buf) env
  | reg2 h2 =>
    have h1 := not_isSrtlaReg1_of_isSrtlaReg2 h2
    rw [processSinglePacket_reg2 h2]
    simpa only [h1, h2, if_true, if_false, Bool.false_and, Bool.false_eq_true] using
      census_registerConnection hs addr (mem buf) env
  | @conn g c h1 h2 hf =>
    simp only [h1, h2, Bool.false_and, Bool.false_eq_true, if_false]
    have hgroups := @processSinglePacket_conn g c buf addr ts env s h1 h2 hf
    have hnext := (@processSinglePacket_conn_frame g c buf addr ts env s h1 h2 hf).2.2
    rw [hf]
    dsimp only
    cases ha : afterPacket g c buf addr ts env with
    | some g' =>
      have hkeep : (relays g buf env && !g.survives buf env.forward) = false := by
        unfold afterPacket at ha
        dsimp only at ha
        split_ifs at ha with hr hv <;> simp [*]
      rw [ha] at hgroups
      rw [hkeep]
      exact Census.of_refs_eq hs (by rw [hgroups]; exact Keyed.map_key_put) hnext.ge
    | none =>
      have hgone : (relays g buf env && !g.survives buf env.forward) = true := by
        unfold afterPacket at ha
        dsimp only at ha
        split_ifs at ha with hr hv
        simp [*]
      rw [ha] at hgroups
      rw [hgone]
      exact Census.of_remove hs (findByAddress_eq_some hf).1 hgroups hnext.ge
  | stranger h1 h2 hf =>
    simp only [h1, h2, Bool.false_and, Bool.false_eq_true, if_false]
    rw [processSinglePacket_stranger h1 h2 hf]
    exact Census.of_refs_eq hs rfl le_rfl

theorem Census.inc_left {is : Incs} {es : List ℕ} {a : ℕ} (h : Census (s.inc is) s' es a) :
    Census s s' es a := ⟨h.distinct, h.nextRef, h.length, h.live⟩

theorem State.Distinct.inc (hs : s.Distinct) (is : Incs) : (s.inc is).Distinct := ⟨hs.refs, hs.fresh⟩

theorem census_datagram (hs : s.Distinct) (d : Datagram) :
    Census s (processDatagram s d ts).1
      (if (d.buf.take mtu).length > 0 then packetEnds s (d.buf.take mtu) d.addr ts d.env else [])
      (if (d.buf.take mtu).length > 0 then packetAdmits s (d.buf.take mtu) d.addr ts d.env else 0) := by
  unfold processDatagram
  dsimp only
  by_cases h : (d.buf.take mtu).length > 0
  · rw [if_pos h, if_pos h, if_pos h]
    exact Census.inc_left (census_packet (hs.inc _))
  · rw [if_neg h, if_neg h, if_neg h]
    exact Census.of_refs_eq hs rfl le_rfl

/-- A batch, by induction on its datagrams. -/
theorem census_batch (hs : s.Distinct) (ds : List Datagram) :
    Census s (processDatagrams ts s ds).1 (batchEnds ts s ds) (batchAdmits ts s ds) := by
  induction ds generalizing s with
  | nil => exact Census.of_refs_eq hs rfl le_rfl
  | cons d ds ih =>
    have hd := @census_datagram s ts hs d
    exact hd.trans (ih hd.distinct)

theorem afterEvent_srtla (batch : Option (List Datagram)) :
    afterEvent ts s (.srtla batch) = (processPackets s batch ts).1 := rfl

/-- An event, whatever it is. -/
theorem census_event (hs : s.Distinct) (e : LoopEvent) :
    Census s (afterEvent ts s e) (eventEnds ts s e) (eventAdmits ts s e) := by
  cases e with
  | srtla batch =>
    cases batch with
    | none => exact Census.of_refs_eq hs rfl le_rfl
    | some ds => exact Census.inc_left (census_batch (hs.inc _) ds)
  | metrics => exact Census.of_refs_eq hs rfl le_rfl
  | group ref env =>
    unfold afterEvent handleEvent eventEnds eventAdmits
    dsimp only
    cases hraw : Keyed.get ConnectionGroup.ref ref s.groups with
    | none => exact Census.of_refs_eq hs rfl le_rfl
    | some raw =>
      dsimp only [Option.bind_some]
      cases hid : findGroupById s.groups raw.id with
      | none => exact Census.of_refs_eq hs rfl le_rfl
      | some g =>
        have hgroups := handleSrtData_groups s g env
        have hnext := (handleSrtData_frame s g env).2
        dsimp only [Option.map_some, Option.getD_some]
        by_cases hend : g.endsOn env = true
        · rw [if_pos hend] at hgroups ⊢
          exact Census.of_remove hs (findGroupById_eq_some hid).1 hgroups hnext.ge
        · rw [if_neg hend] at hgroups ⊢
          exact Census.of_refs_eq hs (by rw [hgroups, Keyed.map_key_put]) hnext.ge

/-! ## The loop -/

theorem handleEvent_eq_none_iff {e : LoopEvent} :
    handleEvent ts s e = none ↔ ∃ ref env, e = .group ref env ∧ ¬ s.Live ref := by
  cases e with
  | srtla batch => simp [handleEvent]
  | metrics => simp [handleEvent]
  | group ref env =>
    have hlive : Keyed.get ConnectionGroup.ref ref s.groups = none ↔ ¬ s.Live ref := by
      rw [Keyed.get_eq_none_iff]
      simp [State.Live]
    unfold handleEvent
    dsimp only
    cases hraw : Keyed.get ConnectionGroup.ref ref s.groups with
    | none => exact iff_of_true rfl ⟨ref, env, rfl, hlive.mp hraw⟩
    | some raw =>
      refine iff_of_false ?_ ?_
      · dsimp only
        cases findGroupById s.groups raw.id <;> simp
      · rintro ⟨_, _, he, hdead⟩
        cases he
        rw [hlive.mpr hdead] at hraw
        cases hraw

/-- The loop reads a destroyed group when it reaches an event whose group is gone. -/
theorem eventLoop_eq_none_iff (hs : s.Distinct) (es : List LoopEvent) :
    eventLoop ts s es = none ↔ ∃ pre ref env post, es = pre ++ .group ref env :: post ∧
      passes ts s pre = true ∧ ¬ (afterEvents ts s pre).Live ref := by
  induction es generalizing s with
  | nil => simp [eventLoop]
  | cons e es ih =>
    unfold eventLoop
    cases hh : handleEvent ts s e with
    | none =>
      obtain ⟨ref, env, rfl, hdead⟩ := handleEvent_eq_none_iff.mp hh
      exact iff_of_true rfl ⟨[], ref, env, es, rfl, rfl, hdead⟩
    | some r =>
      obtain ⟨s', effects⟩ := r
      have hafter : afterEvent ts s e = s' := by unfold afterEvent; rw [hh]; rfl
      have hcensus := @census_event s ts hs e
      rw [hafter] at hcensus
      have hlen := hcensus.length
      -- the first event is handled, so a stale read comes behind it
      have hfirst : ∀ pre ref env post, e :: es = pre ++ .group ref env :: post →
          ¬ (afterEvents ts s pre).Live ref → ∃ pre', pre = e :: pre' := by
        intro pre ref env post heq hdead
        cases pre with
        | nil =>
          cases heq
          have hnone : handleEvent ts s (.group ref env) = none :=
            handleEvent_eq_none_iff.mpr ⟨ref, env, rfl, hdead⟩
          rw [hnone] at hh
          cases hh
        | cons x pre' => cases heq; exact ⟨pre', rfl⟩
      dsimp only
      by_cases hshrink : s'.groups.length < s.groups.length
      · rw [if_pos hshrink]
        refine iff_of_false (by simp) ?_
        rintro ⟨pre, ref, env, post, heq, hpass, hdead⟩
        obtain ⟨pre', rfl⟩ := hfirst pre ref env post heq hdead
        have := of_decide_eq_true (Bool.and_eq_true_iff.mp hpass).1
        omega
      · rw [if_neg hshrink, Option.map_eq_none_iff, ih hcensus.distinct]
        have hle : (eventEnds ts s e).length ≤ eventAdmits ts s e := by omega
        constructor
        · rintro ⟨pre, ref, env, post, rfl, hpass, hdead⟩
          refine ⟨e :: pre, ref, env, post, rfl, ?_, ?_⟩
          · rw [passes, hafter, hpass, decide_eq_true hle]
            rfl
          · rw [afterEvents, List.foldl_cons, hafter]
            exact hdead
        · rintro ⟨pre, ref, env, post, heq, hpass, hdead⟩
          obtain ⟨pre', rfl⟩ := hfirst pre ref env post heq hdead
          rw [passes, hafter] at hpass
          rw [afterEvents, List.foldl_cons, hafter] at hdead
          exact ⟨pre', ref, env, post, List.cons.inj heq |>.2, (Bool.and_eq_true_iff.mp hpass).2, hdead⟩

/-- A group is registered after some events when it was before and none of them
    ended it. -/
theorem live_afterEvents_iff (hs : s.Distinct) {ref : ℕ} (href : ref < s.nextRef)
    (es : List LoopEvent) :
    (afterEvents ts s es).Live ref ↔ s.Live ref ∧
      ∀ pre e post, es = pre ++ e :: post → ref ∉ eventEnds ts (afterEvents ts s pre) e := by
  induction es generalizing s with
  | nil => simp [afterEvents]
  | cons e es ih =>
    have hcensus := @census_event s ts hs e
    have hcons : ∀ es, afterEvents ts s (e :: es) = afterEvents ts (afterEvent ts s e) es :=
      fun _ => rfl
    rw [hcons, ih hcensus.distinct (href.trans_le hcensus.nextRef), hcensus.live ref href, and_assoc]
    refine and_congr_right fun _ => ?_
    constructor
    · rintro ⟨hfirst, hrest⟩ pre x post heq
      cases pre with
      | nil => cases heq; exact hfirst
      | cons y pre => cases heq; exact hrest pre x post rfl
    · intro h
      exact ⟨h [] e es rfl, fun pre x post heq => h (e :: pre) x post (by rw [heq]; rfl)⟩

theorem passes_append (p q : List LoopEvent) :
    passes ts s (p ++ q) = (passes ts s p && passes ts (afterEvents ts s p) q) := by
  induction p generalizing s with
  | nil => rfl
  | cons e p ih =>
    rw [List.cons_append, passes, passes, ih, Bool.and_assoc]
    rfl

/-- Only a batch of datagrams ends a group without stopping the loop. -/
theorem eq_srtla_of_passes {e : LoopEvent} {es : List LoopEvent} {ref : ℕ}
    (hpass : passes ts s (e :: es) = true) (href : ref ∈ eventEnds ts s e) :
    ∃ ds, e = .srtla (some ds) := by
  have hle := of_decide_eq_true (Bool.and_eq_true_iff.mp hpass).1
  have hpos := List.length_pos_of_mem href
  cases e with
  | srtla batch =>
    cases batch with
    | none => exact absurd href List.not_mem_nil
    | some ds => exact ⟨ds, rfl⟩
  | metrics => exact absurd href List.not_mem_nil
  | group ref env =>
    have : eventAdmits ts s (.group ref env) = 0 := rfl
    omega

/-- **No stale pointer, exactly when no removal is hidden.** For events that name
    groups with an open socket in the registry, the loop reads no destroyed group
    if and only if no batch of datagrams hides the removal of a later event's
    group behind the admission of another. -/
theorem eventLoop_isSome_iff (ts : ℤ) (s : State) (hs : s.Distinct) (es : List LoopEvent)
    (hes : ∀ ref env, .group ref env ∈ es → ∃ g ∈ s.groups, g.ref = ref ∧ 0 ≤ g.srtSock) :
    (eventLoop ts s es).isSome = true ↔ ¬ HidesRemoval ts s es := by
  rw [← Option.not_isNone, Bool.not_eq_true', ← Bool.not_eq_true, not_iff_not,
    Option.isNone_iff_eq_none, eventLoop_eq_none_iff hs]
  have hstart : ∀ {pre ref env post}, es = pre ++ .group ref env :: post →
      s.Live ref ∧ ref < s.nextRef := by
    intro pre ref env post heq
    obtain ⟨g, hg, rfl, _⟩ := hes ref env (heq ▸ by simp)
    exact ⟨⟨g, hg, rfl⟩, hs.fresh g hg⟩
  constructor
  · rintro ⟨pre, ref, env, post, heq, hpass, hdead⟩
    obtain ⟨hlive, href⟩ := hstart heq
    rw [live_afterEvents_iff hs href] at hdead
    push Not at hdead
    obtain ⟨p, e, q, rfl, hends⟩ := hdead hlive
    have hpass' := (Bool.and_eq_true_iff.mp (@passes_append s ts p (e :: q) ▸ hpass)).2
    obtain ⟨ds, rfl⟩ := eq_srtla_of_passes hpass' hends
    exact ⟨p, ds, q, ref, env, post, by rw [heq, List.append_assoc]; rfl, hpass, hends⟩
  · rintro ⟨pre, ds, mid, ref, env, post, heq, hpass, hends⟩
    have heq' : es = (pre ++ .srtla (some ds) :: mid) ++ .group ref env :: post := by
      rw [heq, List.append_assoc]; rfl
    refine ⟨_, ref, env, post, heq', hpass, ?_⟩
    rw [live_afterEvents_iff hs (hstart heq').2]
    rintro ⟨_, hkeep⟩
    exact hkeep pre _ mid rfl hends

/-! ## A hidden removal -/

theorem Inv.distinct (h : Inv s) : s.Distinct := ⟨h.refs, fun g hg => (h.wf g hg).ref_lt⟩

/-- A packet of the stream that the SRT server refuses (`ECONNREFUSED`). -/
def refusedEnv : PacketEnv :=
  { (default : PacketEnv) with
    forward := { (default : ForwardEnv) with sendRet := -1, sendErrno := 111 } }

/-- The packet ends the group of the stream. -/
theorem stream_refused {s : State} (hs : s.groups = [streamGroup 1]) :
    (processSinglePacket s (List.replicate 16 0) (sampleAddr 2) 2 refusedEnv).1.groups = [] ∧
      (processSinglePacket s (List.replicate 16 0) (sampleAddr 2) 2 refusedEnv).1.limiter = s.limiter ∧
      (processSinglePacket s (List.replicate 16 0) (sampleAddr 2) 2 refusedEnv).1.nextRef = s.nextRef := by
  obtain ⟨_, _, _, _, c, hconns, haddr, _⟩ := streamGroup_spec 1
  have hf : findByAddress s.groups (sampleAddr 2) = some (streamGroup 1, some c) := by
    have ha : addressesEqual c.addr (sampleAddr 2) = true := haddr ▸ addressesEqual_refl _
    have hfind : [c].find? (fun c => addressesEqual c.addr (sampleAddr 2)) = some c :=
      List.find?_cons_of_pos ha
    rw [hs, findByAddress, hconns, hfind]
  have hdata : isDataPacket (List.replicate 16 0) = true := by decide +kernel
  obtain ⟨h1, h2⟩ := not_isSrtlaReg_of_isDataPacket hdata
  have hfatal : refusedEnv.forward.fatal (List.replicate 16 0) = true := by decide
  have hafter : afterPacket (streamGroup 1) c (List.replicate 16 0) (sampleAddr 2) 2 refusedEnv =
      none := by
    rw [afterPacket, if_pos (relays_of_isDataPacket hdata), if_neg]
    rw [ConnectionGroup.survives, hfatal, Bool.not_true, Bool.and_false]
    exact Bool.false_ne_true
  obtain ⟨hl, _, hn⟩ := @processSinglePacket_conn_frame _ _ _ _ 2 refusedEnv _ h1 h2 hf
  refine ⟨?_, hl, hn⟩
  rw [processSinglePacket_conn h1 h2 hf, hafter, hs, Keyed.update, Keyed.remove,
    List.filter_cons_of_neg (by simp), List.filter_nil]

theorem processDatagram_eq {buf : Bytes} (hpos : 0 < buf.length) (hle : buf.length ≤ mtu)
    (addr : SockaddrStorage) (env : PacketEnv) :
    processDatagram s ⟨buf, addr, env⟩ ts =
      step (s.inc [(.packetsReceived, 1), (.bytesReceived, buf.length)]) (.packet buf addr ts env) := by
  rw [processDatagram, List.take_of_length_le hle]
  exact if_pos hpos

/-- The same datagrams as messages of a batch: one that ends the group of the
    stream, and one that admits a group. -/
def refusedDatagram : Datagram := ⟨List.replicate 16 0, sampleAddr 2, refusedEnv⟩

@[inherit_doc refusedDatagram]
def reg1Datagram : Datagram :=
  ⟨reg1Frame default, sampleAddr 3, { (default : PacketEnv) with sendtoRet := 258 }⟩

theorem refusedDatagram_groups {s : State} (hs : s.groups = [streamGroup 1]) :
    (processDatagram s refusedDatagram 2).1.groups = [] ∧
      (processDatagram s refusedDatagram 2).1.limiter = s.limiter ∧
      (processDatagram s refusedDatagram 2).1.nextRef = s.nextRef := by
  rw [refusedDatagram, processDatagram_eq (by decide) (by decide)]
  exact stream_refused (s := s.inc _) hs

theorem reg1Datagram_groups {s : State} (hs : s.groups = []) (hl : s.limiter = ∅) :
    (processDatagram s reg1Datagram 2).1.groups =
      [.create s.nextRef (SrtlaId.firstHalf default) default 2 (sampleAddr 3)] := by
  have hlen : (reg1Frame default).length = 258 := length_regFrame _ _
  have hblock : s.limiter.isBlocked (sampleAddr 3) 2 = false := by
    rw [hl, AuthRateLimiter.isBlocked, AList.lookup_empty]
  rw [reg1Datagram, processDatagram_eq (by rw [hlen]; decide) (by rw [hlen]; decide)]
  rw [(@step_reg1 (s.inc _) (sampleAddr 3) 2 _ default hblock
    (by rw [State.inc_groups, hs]; decide)
    (by rw [State.inc_groups, hs]; exact fun x hx => absurd hx List.not_mem_nil) rfl).1.1,
    State.inc_groups, hs, List.nil_append, State.inc_nextRef]
  rfl

theorem hidingBatch_groups {s : State} (hs : s.groups = [streamGroup 1]) (hl : s.limiter = ∅) :
    (processPackets s (some [refusedDatagram, reg1Datagram]) 2).1.groups =
      [.create s.nextRef (SrtlaId.firstHalf default) default 2 (sampleAddr 3)] := by
  obtain ⟨hg₁, hl₁, hn₁⟩ := refusedDatagram_groups (s := s.inc [(.recvBatches, 1)]) hs
  rw [processPackets, processDatagrams, processDatagrams, processDatagrams,
    reg1Datagram_groups hg₁ (hl₁.trans hl), hn₁, State.inc_nextRef]

/-- A batch ends the group of a later event and admits none, so that the loop stops
    before it gets to that event. -/
theorem eventLoop_isSome_stopped :
    let s := receiver.run State.init (streamOps 1)
    0 ∈ eventEnds 2 s (.srtla (some [refusedDatagram])) ∧
      (eventLoop 2 s [.srtla (some [refusedDatagram]), .metrics, .group 0 default]).isSome = true := by
  obtain ⟨hgroups, hnext, _, _⟩ := run_stream 1
  have hreach : Reachable (receiver.run State.init (streamOps 1)) := ⟨_, rfl⟩
  generalize receiver.run State.init (streamOps 1) = s at *
  have hs : s.Distinct := (reachable_inv hreach).distinct
  obtain ⟨href, hsock, _⟩ := streamGroup_spec 1
  have hmem : streamGroup 1 ∈ s.groups := hgroups ▸ List.mem_singleton_self _
  have hcensus := @census_event s 2 hs (.srtla (some [refusedDatagram]))
  have hafter : (afterEvent 2 s (.srtla (some [refusedDatagram]))).groups = [] :=
    (refusedDatagram_groups (s := s.inc [(.recvBatches, 1)]) hgroups).1
  refine ⟨?_, ?_⟩
  · by_contra hends
    obtain ⟨g, hg, _⟩ := (hcensus.live 0 (by omega)).mpr ⟨⟨_, hmem, href⟩, hends⟩
    rw [hafter] at hg
    cases hg
  · have hevents : ∀ ref env, .group ref env ∈
        [LoopEvent.srtla (some [refusedDatagram]), .metrics, .group 0 default] →
        ∃ g ∈ s.groups, g.ref = ref ∧ 0 ≤ g.srtSock := by
      intro ref env hin
      have hzero : ref = 0 ∧ env = default := by simpa using hin
      rw [hzero.1]
      exact ⟨_, hmem, href, hsock.ge⟩
    refine (eventLoop_isSome_iff 2 s hs _ hevents).mpr ?_
    rintro ⟨pre, ds, mid, ref, env, post, heq, hpass, -⟩
    -- the batch is the first event, and it ends more groups than it admits
    cases pre with
    | nil =>
      obtain ⟨hbatch, -⟩ := List.cons.inj heq
      rw [List.nil_append, ← hbatch, passes, Bool.and_eq_true, decide_eq_true_eq] at hpass
      have hlength := hcensus.length
      rw [hafter, hgroups] at hlength
      have hle := hpass.1
      simp only [List.length_nil, List.length_singleton] at hlength
      omega
    | cons e pre =>
      have hin : LoopEvent.srtla (some ds) ∈ [LoopEvent.metrics, .group 0 default] := by
        rw [(List.cons.inj heq).2]
        simp
      simp at hin

/-- The loop reads the id of a group that the batch before has destroyed. -/
theorem eventLoop_reads_destroyed :
    ∃ s, Reachable s ∧ ∃ ts es,
      (∀ ref env, .group ref env ∈ es → ∃ g ∈ s.groups, g.ref = ref ∧ 0 ≤ g.srtSock) ∧
      eventLoop ts s es = none := by
  obtain ⟨hgroups, hnext, hlim, _⟩ := run_stream 1
  have hreach : Reachable (receiver.run State.init (streamOps 1)) := ⟨_, rfl⟩
  set s := receiver.run State.init (streamOps 1)
  have hs : s.Distinct := (reachable_inv hreach).distinct
  obtain ⟨href, hsock, _⟩ := streamGroup_spec 1
  refine ⟨s, hreach, 2, [.srtla (some [refusedDatagram, reg1Datagram]), .group 0 default], ?_, ?_⟩
  · intro ref env hmem
    have hzero : ref = 0 ∧ env = default := by simpa using hmem
    rw [hzero.1]
    exact ⟨streamGroup 1, hgroups ▸ List.mem_singleton_self _, href, hsock.ge⟩
  · have hafter := hidingBatch_groups hgroups hlim
    have hcensus := (@census_event s 2 hs (.srtla (some [refusedDatagram, reg1Datagram]))).length
    rw [← afterEvent_srtla] at hafter
    rw [hafter, hgroups, List.length_singleton, List.length_singleton] at hcensus
    refine (eventLoop_eq_none_iff hs _).mpr ⟨[.srtla (some [refusedDatagram, reg1Datagram])], 0, default, [], rfl, ?_, ?_⟩
    · rw [passes, passes, Bool.and_true, decide_eq_true_eq]
      omega
    · rintro ⟨g, hg, hzero⟩
      rw [afterEvents, List.foldl_cons, List.foldl_nil, hafter, List.mem_singleton] at hg
      rw [hg, hnext] at hzero
      cases hzero

/-! ## A run of the receiver -/

/-- The inputs of the receiver that a datagram of a batch stands for. -/
def Datagram.ops (ts : ℤ) (d : Datagram) : List Op :=
  let buf := d.buf.take mtu
  if buf.length > 0 then
    [.count (.datagram buf.length), .packet buf d.addr ts d.env]
  else []

/-- The inputs that an event stands for. -/
def LoopEvent.ops (ts : ℤ) (s : State) : LoopEvent → List Op
  | .srtla (some ds) => .count .batch :: ds.flatMap (Datagram.ops ts)
  | .group ref env =>
    match (Keyed.get ConnectionGroup.ref ref s.groups).bind fun raw => findGroupById s.groups raw.id with
    | some g => [.srtData g.ref env]
    | none => []
  | _ => []

/-- The inputs that the events of an iteration at time `ts` may stand for. -/
def Op.During (ts : ℤ) : Op → Prop
  | .packet _ _ t _ => t = ts
  | .srtData .. | .count _ => True
  | _ => False

theorem LoopEvent.ops_during (ts : ℤ) (s : State) (e : LoopEvent) :
    ∀ op ∈ e.ops ts s, op.During ts := by
  intro op hop
  cases e with
  | srtla batch =>
    cases batch with
    | none => exact absurd hop List.not_mem_nil
    | some ds =>
      rcases List.mem_cons.mp hop with rfl | hop
      · exact trivial
      · obtain ⟨d, _, hd⟩ := List.mem_flatMap.mp hop
        unfold Datagram.ops at hd
        dsimp only at hd
        split_ifs at hd
        · rcases List.mem_cons.mp hd with rfl | hd
          · exact trivial
          · rw [List.mem_singleton.mp hd]
            exact rfl
        · exact absurd hd List.not_mem_nil
  | metrics => exact absurd hop List.not_mem_nil
  | group ref env =>
    unfold LoopEvent.ops at hop
    dsimp only at hop
    split at hop
    · rw [List.mem_singleton.mp hop]
      exact trivial
    · exact absurd hop List.not_mem_nil

theorem processDatagram_run (d : Datagram) :
    processDatagram s d ts = (receiver.run s (d.ops ts), receiver.outs s (d.ops ts)) := by
  unfold processDatagram Datagram.ops
  dsimp only
  split_ifs
  · rw [Machine.run_cons, Machine.run_cons, Machine.run_nil, Machine.outs_cons, Machine.outs_cons,
      Machine.outs_nil, List.append_nil]
    rfl
  · rfl

theorem processDatagrams_run (ds : List Datagram) :
    processDatagrams ts s ds =
      (receiver.run s (ds.flatMap (Datagram.ops ts)), receiver.outs s (ds.flatMap (Datagram.ops ts))) := by
  induction ds generalizing s with
  | nil => rfl
  | cons d ds ih =>
    rw [processDatagrams, ih, processDatagram_run, List.flatMap_cons, Machine.run_append,
      Machine.outs_append]

theorem handleEvent_run (hs : s.Distinct) {e : LoopEvent} {r : State × List Effect}
    (h : handleEvent ts s e = some r) :
    r = (receiver.run s (e.ops ts s), receiver.outs s (e.ops ts s)) := by
  cases e with
  | srtla batch =>
    cases Option.some.inj h
    cases batch with
    | none => rfl
    | some ds => exact processDatagrams_run ds
  | metrics => exact (Option.some.inj h).symm
  | group ref env =>
    unfold handleEvent at h
    unfold LoopEvent.ops
    dsimp only at h ⊢
    cases hraw : Keyed.get ConnectionGroup.ref ref s.groups with
    | none => rw [hraw] at h; cases h
    | some raw =>
      rw [hraw] at h
      dsimp only [Option.bind_some] at h ⊢
      cases hid : findGroupById s.groups raw.id with
      | none => rw [hid] at h; exact (Option.some.inj h).symm
      | some g =>
        rw [hid] at h
        have hget : Keyed.get ConnectionGroup.ref g.ref s.groups = some g :=
          (Keyed.get_eq_some_iff hs.refs).mpr ⟨(findGroupById_eq_some hid).1, rfl⟩
        have hstep : receiver.step s (.srtData g.ref env) = handleSrtData s g env := step_srtData hget
        rw [Machine.run_cons, Machine.run_nil, Machine.outs_cons, Machine.outs_nil, List.append_nil,
          hstep]
        exact (Option.some.inj h).symm

/-- The loop, by induction on the events it handles. -/
theorem eventLoop_run (hs : s.Distinct) (es : List LoopEvent) {r : State × List Effect}
    (h : eventLoop ts s es = some r) :
    ∃ ops, (∀ op ∈ ops, op.During ts) ∧ r = (receiver.run s ops, receiver.outs s ops) := by
  induction es generalizing s r with
  | nil => exact ⟨[], fun op hop => absurd hop List.not_mem_nil, (Option.some.inj h).symm⟩
  | cons e es ih =>
    unfold eventLoop at h
    cases hh : handleEvent ts s e with
    | none => rw [hh] at h; cases h
    | some r₁ =>
      have hrun := handleEvent_run hs hh
      have hdist : r₁.1.Distinct := by
        have := (@census_event s ts hs e).distinct
        rwa [afterEvent, hh] at this
      rw [hh] at h
      dsimp only at h
      split_ifs at h
      · exact ⟨e.ops ts s, e.ops_during ts s, (Option.some.inj h).symm.trans hrun⟩
      · obtain ⟨r₂, hr₂, rfl⟩ := Option.map_eq_some_iff.mp h
        obtain ⟨ops, hops, rfl⟩ := ih hdist hr₂
        refine ⟨e.ops ts s ++ ops, ?_, ?_⟩
        · intro op hop
          rcases List.mem_append.mp hop with hop | hop
          · exact e.ops_during ts s op hop
          · exact hops op hop
        · rw [Machine.run_append, Machine.outs_append]
          rw [hrun]

/-- **The main loop takes steps of the receiver.** An iteration that reads no
    destroyed group is a run of `receiver`, with the same effects: the inputs of
    its events, all at the time of the iteration, and then the periodic work. -/
theorem mainIteration_run (hs : s.Distinct) (es : List LoopEvent) (ret : ℕ → ℤ)
    (ms : ℕ → Option UInt64) {r : State × List Effect}
    (h : mainIteration ts s es ret ms = some r) :
    ∃ ops, (∀ op ∈ ops, op.During ts) ∧
      let all := ops ++ [.cleanup ts ret, .limiterCleanup ts, .quality ts ms]
      r = (receiver.run s all, receiver.outs s all) := by
  obtain ⟨r₁, hr₁, rfl⟩ := Option.map_eq_some_iff.mp h
  obtain ⟨ops, hops, rfl⟩ := eventLoop_run hs es hr₁
  refine ⟨ops, hops, ?_⟩
  dsimp only
  rw [Machine.run_append, Machine.outs_append]
  simp only [Machine.run_cons, Machine.run_nil, Machine.outs_cons, Machine.outs_nil, List.append_nil]
  show _ = (_, _ ++ ((cleanupInactive _ ts ret).2 ++ ([] ++ [])))
  rw [List.append_nil, List.append_nil]
  rfl

end Srtla.Receiver
