import Srtla.Lib.Lts
import Srtla.Sender.PacketLog
import Srtla.Sender.Registration

/-!
# The calls that change the links of the sender

A handler of the sender makes a sequence of small changes to the list of links:
it registers a packet on one of them, works through the numbers of a NAK or an
ACK, resets a link that has failed, adds and drops links. `calls` lists them in
the order in which they are made, so that what holds between two calls of one
handler can be stated and an invariant of the links is proved call by call.

Results:
* `step_calls`: a step changes the links as the calls it makes do.
* `State.Distinct.step`: no two links are one object.
* `applyCalls_invariant`: what every call keeps is kept by a sequence of calls.
* `links_invariant`: a property of links that every call keeps holds in every run.
* `made_of_mem_calls`: the calls that each handler can make.
-/

namespace Srtla.Sender

open Lib

/-! ## Calls -/

/-- Lines 634-640: the state of a link that has failed. -/
def Conn.wipe (c : Conn) : Conn :=
  { c with
    lastRcvd := 0
    lastSent := 0
    window := windowMin * windowMult
    inFlightPkts := 0
    pktLog := Vector.replicate pktLogSz (-1) }

theorem Conn.reset_eq (c : Conn) : c.reset = if c.lastRcvd > 0 then c.wipe else c := rfl

theorem Conn.logged_wipe {c : Conn} {P : ℤ → Prop} [DecidablePred P] (hP : ¬ P (-1)) :
    c.wipe.logged P = ∅ := by
  refine Conn.logged_eq_empty fun j => ?_
  show ¬ P (Vector.replicate pktLogSz (-1 : ℤ))[j.val]
  rw [Vector.getElem_replicate]
  exact hP

/-- The changes that a handler makes to one link. -/
inductive LinkChange
  /-- `min_c->last_sent = t` in `select_conn`. -/
  | selected (t : ℤ)
  /-- `reg_pkt`. -/
  | regPkt (packet : ℤ)
  /-- `c->last_rcvd = 1`, after a `sendto` that failed. -/
  | sendFailed
  /-- `c->last_rcvd = ts` in `handle_srtla_data`. -/
  | heard (ts : ℤ)
  /-- `open_socket`. -/
  | openSocket (env : OpenEnv)
  /-- The reset of a link that has failed. -/
  | reset
  /-- `c->removed = 0` in `setup_conns`. -/
  | keep
deriving DecidableEq

def LinkChange.apply : LinkChange → Conn → Conn
  | .selected t, c => { c with lastSent := t }
  | .regPkt packet, c => c.regPkt packet
  | .sendFailed, c => { c with lastRcvd := 1 }
  | .heard ts, c => { c with lastRcvd := ts }
  | .openSocket env, c => (Sender.openSocket [] c env).2.2
  | .reset, c => c.wipe
  | .keep, c => { c with removed := false }

/-- The calls that change the list of links. -/
inductive LinkCall
  /-- A change of the link `ref`. -/
  | link (ref : ℕ) (change : LinkChange)
  /-- `register_srt_ack`. -/
  | registerSrtAck (ack : ℤ)
  /-- `register_nak`. -/
  | registerNak (packet : ℤ)
  /-- `register_srtla_ack`. -/
  | registerSrtlaAck (ack : ℤ)
  /-- `c->removed = 1` for all links, in `update_conns`. -/
  | mark
  /-- A link for a new source address, in `setup_conns`. -/
  | create (ref : ℕ) (src : Block 4)
  /-- The links still marked are taken out, in `update_conns`. -/
  | sweep
deriving DecidableEq

def LinkCall.apply (conns : List Conn) : LinkCall → List Conn
  | .link ref change => Keyed.modify Conn.ref ref change.apply conns
  | .registerSrtAck ack => Sender.registerSrtAck ack conns
  | .registerNak packet => Sender.registerNak packet conns
  | .registerSrtlaAck ack => Sender.registerSrtlaAck ack conns
  | .mark => conns.map fun c => { c with removed := true }
  | .create ref src => Conn.create ref src :: conns
  | .sweep => conns.filter fun c => !c.removed

/-- What a sequence of calls does to the list of links. -/
def applyCalls (calls : List LinkCall) (conns : List Conn) : List Conn :=
  calls.foldl LinkCall.apply conns

theorem applyCalls_append (ks ks' : List LinkCall) (conns : List Conn) :
    applyCalls (ks ++ ks') conns = applyCalls ks' (applyCalls ks conns) := List.foldl_append

/-! ## The calls of a step -/

/-- The calls of `handle_srt_data`. -/
def dataCalls (s : State) (env : SrtDataEnv) : List LinkCall :=
  match selectConn s.conns env.seconds with
  | none => []
  | some c =>
    .link c.ref (.selected c.lastSent) ::
      if (s.sendto c (window env.buf 0 env.n.toNat) env.ret).1 = env.n then
        if getSrtSn env.buf env.n ≥ 0 then [.link c.ref (.regPkt (getSrtSn env.buf env.n))] else []
      else [.link c.ref .sendFailed]

/-- The calls for the numbers in a datagram of the receiver. -/
def frameCalls (buf : Mem) (n : ℤ) (fuel : ℕ) : List LinkCall :=
  if getSrtType buf n = srtTypeAck then [.registerSrtAck (toInt32 (be32 buf 16))]
  else if getSrtType buf n = srtTypeNak then
    ((nakIds fuel buf n (n / 4).toNat 4).getD []).map .registerNak
  else if getSrtType buf n = srtlaTypeAck then (srtlaAckIds buf n).map .registerSrtlaAck
  else []

/-- The calls of `handle_srtla_data`. -/
def datagramCalls (ref : ℕ) (buf : Mem) (n : ℤ) (ts : ℤ) (fuel : ℕ) : List LinkCall :=
  if n ≤ 0 ∨ getSrtType buf n = srtlaTypeRegNgp ∨ getSrtType buf n = srtlaTypeReg2 then []
  else .link ref (.heard ts) :: frameCalls buf n fuel

/-- The call for a line of the file of source addresses. -/
def lineCalls (s : State) : Option (Block 4) → List LinkCall
  | none => []
  | some src =>
    match connFindBySrc s.conns src with
    | none => [.create s.nextRef src]
    | some c => [.link c.ref .keep]

/-- The calls of `setup_conns`. -/
def setupCalls : State → List (Option (Block 4)) → List LinkCall
  | _, [] => []
  | s, line :: lines => lineCalls s line ++ setupCalls (s.setupLine line) lines

/-- `setup_conns` only adds links and unmarks those it finds. -/
theorem setupCalls_cases {s : State} {lines : List (Option (Block 4))} {k : LinkCall}
    (h : k ∈ setupCalls s lines) : (∃ ref src, k = .create ref src) ∨ ∃ ref, k = .link ref .keep := by
  induction lines generalizing s with
  | nil => cases h
  | cons line lines ih =>
    rcases List.mem_append.mp h with hk | hk
    · unfold lineCalls at hk
      split at hk
      · cases hk
      · split at hk
        · exact Or.inl ⟨_, _, List.mem_singleton.mp hk⟩
        · exact Or.inr ⟨_, List.mem_singleton.mp hk⟩
    · exact ih hk

/-- The calls of `update_conns`. -/
def reloadCalls (s : State) (file : Option (List (Option (Block 4)))) : List LinkCall :=
  .mark :: match file with
    | none => []
    | some lines => setupCalls { s with conns := LinkCall.mark.apply s.conns } lines ++ [.sweep]

/-- The calls of the loop body of `connection_housekeeping`. -/
def housekeepCalls (time : ℤ) (env : HousekeepingEnv) (c : Conn) : List LinkCall :=
  if c.fd < 0 then [.link c.ref (.openSocket (env.opens c.ref))]
  else if c.timedOut time ∧ c.lastRcvd > 0 then [.link c.ref .reset]
  else []

/-- The calls of `connection_housekeeping`. -/
def housekeepingCalls (s : State) (env : HousekeepingEnv) : List LinkCall :=
  match env.ms with
  | none => []
  | some ms =>
    if s.lastRan + housekeepingInt > ms then []
    else s.conns.flatMap (housekeepCalls (ms / 1000 : ℕ) env)

/-- The calls of a step, in their order. -/
def State.calls (s : State) : Op → List LinkCall
  | .srtData env => dataCalls s env
  | .srtlaData ref buf n ts _ fuel => datagramCalls ref buf n ts fuel
  | .updateConns file => reloadCalls s file
  | .housekeeping env => housekeepingCalls s env

/-! ## Identity of the links -/

/-- The links are distinct objects, and their identities are not to be handed
    out again. -/
structure State.Distinct (s : State) : Prop where
  refs : (s.conns.map Conn.ref).Nodup
  fresh : ∀ c ∈ s.conns, c.ref < s.nextRef

theorem LinkChange.apply_ref (change : LinkChange) (c : Conn) : (change.apply c).ref = c.ref := by
  cases change with
  | openSocket env =>
    show (Sender.openSocket [] c env).2.2.ref = c.ref
    unfold Sender.openSocket
    dsimp only
    split_ifs <;> rfl
  | _ => rfl

variable {conns : List Conn}

/-- The call leaves the objects in the list as they are. -/
def LinkCall.keepsRefs : LinkCall → Bool
  | .create .. | .sweep => false
  | _ => true

theorem LinkCall.map_ref_apply {k : LinkCall} (h : k.keepsRefs) :
    (k.apply conns).map Conn.ref = conns.map Conn.ref := by
  cases k with
  | link ref change => exact Keyed.map_key_modify change.apply_ref
  | registerSrtAck ack => exact (sameLinks_registerSrtAck ack conns).map_ref
  | registerNak packet => exact (sameLinks_registerNak packet conns).map_ref
  | registerSrtlaAck ack => exact (sameLinks_registerSrtlaAckLoop ack false conns).map_ref
  | mark =>
    show (conns.map _).map Conn.ref = _
    rw [List.map_map]
    rfl
  | create ref src => cases h
  | sweep => cases h

theorem applyCalls_map_ref {ks : List LinkCall} (h : ∀ k ∈ ks, k.keepsRefs) :
    (applyCalls ks conns).map Conn.ref = conns.map Conn.ref := by
  induction ks generalizing conns with
  | nil => rfl
  | cons k ks ih =>
    have hk := h k List.mem_cons_self
    exact (ih fun k' hk' => h k' (List.mem_cons_of_mem _ hk')).trans (LinkCall.map_ref_apply hk)

/-- The links that the calls add are new objects. -/
def Fresh : List LinkCall → List Conn → Prop
  | [], _ => True
  | k :: ks, conns =>
    (∀ ref src, k = .create ref src → ref ∉ conns.map Conn.ref) ∧ Fresh ks (k.apply conns)

theorem fresh_of_keepsRefs {ks : List LinkCall} (h : ∀ k ∈ ks, k.keepsRefs) : Fresh ks conns := by
  induction ks generalizing conns with
  | nil => trivial
  | cons k ks ih =>
    refine ⟨fun ref src hk => ?_, ih fun k' hk' => h k' (List.mem_cons_of_mem _ hk')⟩
    have hkeep := h k List.mem_cons_self
    rw [hk] at hkeep
    cases hkeep

theorem fresh_append {ks ks' : List LinkCall} :
    Fresh (ks ++ ks') conns ↔ Fresh ks conns ∧ Fresh ks' (applyCalls ks conns) := by
  induction ks generalizing conns with
  | nil => exact (and_iff_right trivial).symm
  | cons k ks ih =>
    show _ ∧ Fresh (ks ++ ks') _ ↔ (_ ∧ Fresh ks _) ∧ Fresh ks' (applyCalls ks _)
    rw [ih, and_assoc]

/-- A call keeps the links distinct if the object it adds is a new one. -/
theorem LinkCall.nodup_apply {k : LinkCall} (h : (conns.map Conn.ref).Nodup)
    (hfresh : ∀ ref src, k = .create ref src → ref ∉ conns.map Conn.ref) :
    ((k.apply conns).map Conn.ref).Nodup := by
  cases k with
  | create ref src => exact List.nodup_cons.mpr ⟨hfresh ref src rfl, h⟩
  | sweep => exact (List.filter_sublist.map Conn.ref).nodup h
  | link | registerSrtAck | registerNak | registerSrtlaAck | mark =>
    rw [LinkCall.map_ref_apply rfl]
    exact h

/-- What every call keeps, a sequence of calls keeps. -/
theorem applyCalls_invariant {I : List Conn → Prop} {G : LinkCall → Prop}
    (hcall : ∀ conns k, (conns.map Conn.ref).Nodup → G k → I conns → I (k.apply conns))
    {ks : List LinkCall} (hnodup : (conns.map Conn.ref).Nodup) (hfresh : Fresh ks conns)
    (hG : ∀ k ∈ ks, G k) (h : I conns) :
    I (applyCalls ks conns) ∧ ((applyCalls ks conns).map Conn.ref).Nodup := by
  induction ks generalizing conns with
  | nil => exact ⟨h, hnodup⟩
  | cons k ks ih =>
    exact ih (LinkCall.nodup_apply hnodup hfresh.1) hfresh.2
      (fun k' hk' => hG k' (List.mem_cons_of_mem _ hk'))
      (hcall conns k hnodup (hG k List.mem_cons_self) h)

/-- What a call does to one link keeps a property of links. An SRTLA ACK credits one
    link, and then every link grows. -/
def LinkCall.Preserves (P : Conn → Prop) (conns : List Conn) : LinkCall → Prop
  | .link ref change => ∀ c ∈ conns, c.ref = ref → P c → P (change.apply c)
  | .registerSrtAck ack => ∀ c, P c → P (c.registerSrtAck ack)
  | .registerNak packet => ∀ c, P c → P (c.nak packet)
  | .registerSrtlaAck ack => ∀ c, P c → P (c.ack ack).grow ∧ P c.grow
  | .mark => ∀ c, P c → P { c with removed := true }
  | .create ref src => P (Conn.create ref src)
  | .sweep => True

/-- **A call keeps a property of all links** if what it does to one link keeps it. -/
theorem LinkCall.Preserves.forall_apply {P : Conn → Prop} {k : LinkCall} (hk : k.Preserves P conns)
    (hnodup : (conns.map Conn.ref).Nodup) (h : ∀ c ∈ conns, P c) : ∀ c ∈ k.apply conns, P c := by
  cases k with
  | link ref change => exact Keyed.forall_modify h fun c hc href => hk c hc href (h c hc)
  | registerSrtAck ack =>
    intro c hc
    obtain ⟨d, hd, rfl⟩ := List.mem_map.mp hc
    exact hk d (h d hd)
  | registerNak packet =>
    intro c hc
    replace hc : c ∈ Sender.registerNak packet conns := hc
    rw [registerNak_eq hnodup] at hc
    obtain ⟨d, hd, ⟨_, rfl⟩ | ⟨_, rfl⟩⟩ := mem_charge hnodup hc
    · exact hk d (h d hd)
    · exact h c hd
  | registerSrtlaAck ack =>
    intro c hc
    replace hc : c ∈ Sender.registerSrtlaAck ack conns := hc
    rw [registerSrtlaAck_eq hnodup] at hc
    obtain ⟨e, he, rfl⟩ := List.mem_map.mp hc
    obtain ⟨d, hd, ⟨_, rfl⟩ | ⟨_, rfl⟩⟩ := mem_charge hnodup he
    · exact (hk d (h d hd)).1
    · exact (hk e (h e hd)).2
  | mark =>
    intro c hc
    obtain ⟨d, hd, rfl⟩ := List.mem_map.mp hc
    exact hk d (h d hd)
  | create ref src =>
    intro c hc
    rcases List.mem_cons.mp hc with rfl | hc
    · exact hk
    · exact h c hc
  | sweep => exact fun c hc => h c (List.mem_of_mem_filter hc)

variable {s : State}

theorem State.Distinct.of_map_ref {s' : State} (h : s.Distinct)
    (hconns : s'.conns.map Conn.ref = s.conns.map Conn.ref) (hnext : s'.nextRef = s.nextRef) :
    s'.Distinct := by
  refine ⟨hconns ▸ h.refs, fun c hc => ?_⟩
  have hm : c.ref ∈ s.conns.map Conn.ref := hconns ▸ List.mem_map_of_mem hc
  obtain ⟨d, hd, heq⟩ := List.mem_map.mp hm
  rw [← heq, hnext]
  exact h.fresh d hd

theorem State.Distinct.setupLine (h : s.Distinct) (line : Option (Block 4)) :
    (s.setupLine line).Distinct := by
  unfold State.setupLine
  split
  · exact h
  · split
    · refine ⟨List.nodup_cons.mpr ⟨fun hm => ?_, h.refs⟩, fun c hc => ?_⟩
      · obtain ⟨d, hd, heq⟩ := List.mem_map.mp hm
        exact absurd heq (h.fresh d hd).ne
      · rcases List.mem_cons.mp hc with rfl | hc
        · exact Nat.lt_succ_self _
        · exact Nat.lt_succ_of_lt (h.fresh c hc)
    · exact h.of_map_ref Keyed.map_key_put rfl

theorem State.Distinct.setupConns (h : s.Distinct) (lines : List (Option (Block 4))) :
    (s.setupConns lines).Distinct := by
  induction lines generalizing s with
  | nil => exact h
  | cons line lines ih => exact ih (h.setupLine line)

theorem State.Distinct.mark (h : s.Distinct) :
    State.Distinct { s with conns := LinkCall.mark.apply s.conns } :=
  h.of_map_ref (LinkCall.map_ref_apply (k := .mark) rfl) rfl

theorem State.Distinct.updateConns (h : s.Distinct) (file : Option (List (Option (Block 4)))) :
    (s.updateConns file).Distinct := by
  cases file with
  | none => exact h.mark.of_map_ref rfl rfl
  | some lines =>
    have hsetup := h.mark.setupConns lines
    have hsub : ((s.updateConns (some lines)).conns).Sublist
        (({ s with conns := LinkCall.mark.apply s.conns } : State).setupConns lines).conns := by
      show (removeLoop _ _).conns.Sublist _
      rw [removeLoop_conns]
      exact List.filter_sublist
    refine ⟨(hsub.map Conn.ref).nodup hsetup.refs, fun c hc => ?_⟩
    show c.ref < (removeLoop _ _).nextRef
    rw [removeLoop_eq]
    exact hsetup.fresh c (hsub.subset hc)

/-! ## A step is the calls it makes -/

theorem dataCalls_spec (h : s.Distinct) (env : SrtDataEnv) :
    (handleSrtData s env).1.conns = applyCalls (dataCalls s env) s.conns := by
  unfold handleSrtData dataCalls State.sendto
  dsimp only
  cases hsel : selectConn s.conns env.seconds with
  | none => rfl
  | some c =>
    obtain ⟨t, _, x, hx, _, rfl⟩ := selectConn_spec hsel
    -- both changes are made through one pointer
    have hput : ∀ change : LinkChange, Keyed.put Conn.ref (change.apply { x with lastSent := t }) s.conns =
        applyCalls [.link x.ref (.selected t), .link x.ref change] s.conns := by
      intro change
      show _ = Keyed.modify _ _ _ (Keyed.modify _ _ _ _)
      rw [Keyed.modify_modify (LinkChange.apply_ref _)]
      exact Keyed.put_eq_modify h.refs hx (f := change.apply ∘ (LinkChange.selected t).apply)
        (change.apply_ref _)
    show Keyed.put Conn.ref _ s.conns = _
    dsimp only
    by_cases hret : (if x.fd < 0 then -1 else env.ret) = env.n
    · rw [if_pos hret, if_pos hret]
      by_cases hsn : getSrtSn env.buf env.n ≥ 0
      · rw [if_pos hsn, if_pos hsn]
        exact hput (.regPkt _)
      · rw [if_neg hsn, if_neg hsn]
        exact Keyed.put_eq_modify (f := (LinkChange.selected t).apply) h.refs hx rfl
    · rw [if_neg hret, if_neg hret]
      exact hput .sendFailed

theorem dispatch_conns {buf : Mem} {n : ℤ} {fuel : ℕ} {r : State × List Effect}
    (h : dispatch s buf n fuel = some r) : r.1.conns = applyCalls (frameCalls buf n fuel) s.conns := by
  unfold dispatch at h
  unfold frameCalls
  dsimp only at h
  split_ifs at h ⊢
  · obtain rfl := Option.some.inj h
    rfl
  · obtain ⟨ids, hids, rfl⟩ := Option.map_eq_some_iff.mp h
    rw [hids, applyCalls, Option.getD_some, List.foldl_map]
    rfl
  · obtain rfl := Option.some.inj h
    rw [applyCalls, List.foldl_map]
    rfl
  all_goals
    obtain rfl := Option.some.inj h
    rfl

theorem datagramCalls_spec (h : s.Distinct) {c : Conn} (hc : c ∈ s.conns) {buf : Mem} {n ts : ℤ}
    {ret : ℕ → ℤ} {fuel : ℕ} {r : State × List Effect}
    (hr : handleSrtlaData s c buf n ts ret fuel = some r) :
    r.1.conns = applyCalls (datagramCalls c.ref buf n ts fuel) s.conns := by
  unfold handleSrtlaData at hr
  unfold datagramCalls
  split_ifs at hr with hn hngp hreg2
  · obtain rfl := Option.some.inj hr
    rw [if_pos (Or.inl hn)]
    rfl
  · obtain rfl := Option.some.inj hr
    rw [if_pos (Or.inr (Or.inl hngp)), (onRegNgp_frame s c ts ret).2.1]
    rfl
  · obtain rfl := Option.some.inj hr
    rw [if_pos (Or.inr (Or.inr hreg2)), (onReg2_cases s c buf ts ret).1]
    rfl
  · rw [if_neg (by tauto), dispatch_conns hr]
    show applyCalls _ (Keyed.put _ _ _) = applyCalls _ (Keyed.modify _ _ _ _)
    rw [← Keyed.put_eq_modify (f := (LinkChange.heard ts).apply) h.refs hc rfl]
    rfl

theorem lineCalls_spec (h : s.Distinct) (line : Option (Block 4)) :
    (s.setupLine line).conns = applyCalls (lineCalls s line) s.conns := by
  cases line with
  | none => rfl
  | some src =>
    unfold State.setupLine lineCalls
    dsimp only
    cases hfind : connFindBySrc s.conns src with
    | none => rfl
    | some c =>
      exact Keyed.put_eq_modify (f := LinkChange.keep.apply) h.refs (List.mem_of_find?_eq_some hfind) rfl

theorem setupCalls_spec (h : s.Distinct) (lines : List (Option (Block 4))) :
    (s.setupConns lines).conns = applyCalls (setupCalls s lines) s.conns := by
  induction lines generalizing s with
  | nil => rfl
  | cons line lines ih =>
    rw [setupCalls, applyCalls_append, ← lineCalls_spec h]
    exact ih (h.setupLine line)

theorem reloadCalls_spec (h : s.Distinct) (file : Option (List (Option (Block 4)))) :
    (s.updateConns file).conns = applyCalls (reloadCalls s file) s.conns := by
  cases file with
  | none => rfl
  | some lines =>
    show (removeLoop _ _).conns = applyCalls (setupCalls _ lines ++ [.sweep]) (LinkCall.mark.apply s.conns)
    rw [removeLoop_conns, applyCalls_append, ← setupCalls_spec h.mark]
    rfl

theorem openSocket_conn (fds : List ℤ) (c : Conn) (env : OpenEnv) :
    (openSocket fds c env).2.2 = (openSocket [] c env).2.2 := by
  unfold openSocket
  dsimp only
  split_ifs <;> rfl

/-- The loop body of `connection_housekeeping` makes at most one change. -/
theorem housekeepCalls_cases (s : State) (time : ℤ) (env : HousekeepingEnv) (fds : List ℤ) (c : Conn) :
    (housekeepCalls time env c = [] ∧ (housekeepConn s time env fds c).conn = c) ∨
      ∃ change, housekeepCalls time env c = [.link c.ref change] ∧
        (housekeepConn s time env fds c).conn = change.apply c := by
  unfold housekeepCalls housekeepConn
  by_cases hfd : c.fd < 0
  · rw [if_pos hfd, if_pos hfd]
    exact Or.inr ⟨_, rfl, openSocket_conn fds c _⟩
  by_cases hout : c.timedOut time
  · by_cases hrcvd : c.lastRcvd > 0
    · rw [if_neg hfd, if_neg hfd, if_pos ⟨hout, hrcvd⟩, if_pos hout]
      refine Or.inr ⟨_, rfl, ?_⟩
      show c.reset = c.wipe
      rw [Conn.reset_eq, if_pos hrcvd]
    · -- a link that has not been heard from since it was reset
      rw [if_neg hfd, if_neg hfd, if_neg fun hc => hrcvd hc.2, if_pos hout]
      refine Or.inl ⟨rfl, ?_⟩
      show c.reset = c
      rw [Conn.reset_eq, if_neg hrcvd]
  · rw [if_neg hfd, if_neg hfd, if_neg fun hc => hout hc.1, if_neg hout]
    exact Or.inl ⟨rfl, rfl⟩

/-- The loop over the links, at the link that follows `done`. -/
theorem housekeepLoop_calls (s : State) (time : ℤ) (env : HousekeepingEnv) (fds : List ℤ)
    (done conns : List Conn) (h : ((done ++ conns).map Conn.ref).Nodup) :
    applyCalls (conns.flatMap (housekeepCalls time env)) (done ++ conns) =
      done ++ (housekeepLoop s time env fds conns).2.1 := by
  induction conns generalizing done fds with
  | nil => rfl
  | cons c cs ih =>
    have hpass : applyCalls (housekeepCalls time env c) (done ++ c :: cs) =
          done ++ (housekeepConn s time env fds c).conn :: cs ∧
        (housekeepConn s time env fds c).conn.ref = c.ref := by
      rcases housekeepCalls_cases s time env fds c with ⟨hcalls, hconn⟩ | ⟨change, hcalls, hconn⟩
      · rw [hcalls, hconn]
        exact ⟨rfl, rfl⟩
      · rw [hcalls, hconn]
        exact ⟨Keyed.modify_append_cons h, change.apply_ref c⟩
    rw [List.flatMap_cons, applyCalls_append, hpass.1, List.append_cons,
      ih (housekeepConn s time env fds c).fds, ← List.append_cons]
    · rfl
    · rw [← List.append_cons]
      simpa [hpass.2] using h

theorem housekeepingCalls_spec (h : s.Distinct) (env : HousekeepingEnv) :
    (connectionHousekeeping s env).1.conns = applyCalls (housekeepingCalls s env) s.conns := by
  unfold connectionHousekeeping housekeepingCalls
  cases env.ms with
  | none => rfl
  | some ms =>
    dsimp only
    by_cases hran : s.lastRan + housekeepingInt > ms
    · rw [if_pos hran, if_pos hran]
      rfl
    · rw [if_neg hran, if_neg hran]
      show (State.checkFailed _ ms).conns = _
      obtain ⟨_, hconns, hfds, _⟩ := expirePending_frame s ((ms / 1000 : ℕ) : ℤ)
      rw [(checkFailed_frame _ ms).2.1, hconns, hfds]
      exact (housekeepLoop_calls (s.expirePending (ms / 1000 : ℕ)) _ env s.activeFds [] s.conns
        h.refs).symm

variable {op : Op} {r : State × List Effect}

/-- **A step changes the links as the calls it makes do.** -/
theorem step_calls (h : s.Distinct) (hstep : step s op = some r) :
    r.1.conns = applyCalls (s.calls op) s.conns := by
  unfold step at hstep
  split at hstep
  · cases hstep
  · cases op with
    | srtData env =>
      obtain rfl := Option.some.inj hstep
      exact dataCalls_spec h env
    | srtlaData ref buf n ts ret fuel =>
      dsimp only at hstep
      cases hget : Keyed.get Conn.ref ref s.conns with
      | none => rw [hget] at hstep; cases hstep
      | some c =>
        rw [hget] at hstep
        dsimp only at hstep
        split at hstep
        · cases hstep
        · rw [datagramCalls_spec h (Keyed.get_mem hget) hstep, Keyed.get_key hget]
          rfl
    | updateConns file =>
      obtain rfl := Option.some.inj hstep
      exact reloadCalls_spec h file
    | housekeeping env =>
      obtain rfl := Option.some.inj hstep
      exact housekeepingCalls_spec h env

/-! ## Runs -/

/-- The calls that a handler can make. -/
inductive Made : Op → LinkCall → Prop
  | data (env : SrtDataEnv) (ref : ℕ) (change : LinkChange) : Made (.srtData env) (.link ref change)
  | heard (ref : ℕ) (buf : Mem) (n ts : ℤ) (ret : ℕ → ℤ) (fuel : ℕ) :
      Made (.srtlaData ref buf n ts ret fuel) (.link ref (.heard ts))
  | frame {buf : Mem} {n : ℤ} {fuel : ℕ} {k : LinkCall} (ref : ℕ) (ts : ℤ) (ret : ℕ → ℤ)
      (mem : k ∈ frameCalls buf n fuel) : Made (.srtlaData ref buf n ts ret fuel) k
  | mark (file : Option (List (Option (Block 4)))) : Made (.updateConns file) .mark
  | setup {s : State} {lines : List (Option (Block 4))} {k : LinkCall} (mem : k ∈ setupCalls s lines) :
      Made (.updateConns (some lines)) k
  | sweep (lines : List (Option (Block 4))) : Made (.updateConns (some lines)) .sweep
  | openSocket (env : HousekeepingEnv) (ref : ℕ) (sys : OpenEnv) :
      Made (.housekeeping env) (.link ref (.openSocket sys))
  | reset (env : HousekeepingEnv) (ref : ℕ) : Made (.housekeeping env) (.link ref .reset)

theorem frameCalls_cases {buf : Mem} {n : ℤ} {fuel : ℕ} {k : LinkCall} (h : k ∈ frameCalls buf n fuel) :
    ∃ p, k = .registerSrtAck p ∨ k = .registerNak p ∨ k = .registerSrtlaAck p := by
  unfold frameCalls at h
  split_ifs at h
  · exact ⟨_, Or.inl (List.mem_singleton.mp h)⟩
  · obtain ⟨p, _, rfl⟩ := List.mem_map.mp h
    exact ⟨p, Or.inr (Or.inl rfl)⟩
  · obtain ⟨p, _, rfl⟩ := List.mem_map.mp h
    exact ⟨p, Or.inr (Or.inr rfl)⟩
  · cases h

theorem dataCalls_cases {env : SrtDataEnv} {k : LinkCall} (h : k ∈ dataCalls s env) :
    ∃ ref change, k = .link ref change := by
  unfold dataCalls at h
  split at h
  · cases h
  · rcases List.mem_cons.mp h with rfl | h
    · exact ⟨_, _, rfl⟩
    · split_ifs at h
      all_goals first
        | exact ⟨_, _, List.mem_singleton.mp h⟩
        | cases h

theorem made_of_mem_calls {k : LinkCall} (h : k ∈ s.calls op) : Made op k := by
  cases op with
  | srtData env =>
    obtain ⟨ref, change, rfl⟩ := dataCalls_cases h
    exact .data env ref change
  | srtlaData ref buf n ts ret fuel =>
    replace h : k ∈ datagramCalls ref buf n ts fuel := h
    unfold datagramCalls at h
    split_ifs at h
    · cases h
    · rcases List.mem_cons.mp h with rfl | h
      · exact .heard ref buf n ts ret fuel
      · exact .frame ref ts ret h
  | updateConns file =>
    rcases List.mem_cons.mp h with rfl | h
    · exact .mark file
    · cases file with
      | none => cases h
      | some lines =>
        rcases List.mem_append.mp h with h | h
        · exact .setup h
        · rw [List.mem_singleton.mp h]
          exact .sweep lines
  | housekeeping env =>
    replace h : k ∈ housekeepingCalls s env := h
    unfold housekeepingCalls at h
    split at h
    · cases h
    · split_ifs at h
      · cases h
      · obtain ⟨c, _, h⟩ := List.mem_flatMap.mp h
        unfold housekeepCalls at h
        split_ifs at h
        · rw [List.mem_singleton.mp h]
          exact .openSocket env c.ref _
        · rw [List.mem_singleton.mp h]
          exact .reset env c.ref
        · cases h

/-- Only `update_conns` adds and drops links. -/
theorem keepsRefs_calls (s : State) (hop : ∀ file, op ≠ .updateConns file) :
    ∀ k ∈ s.calls op, k.keepsRefs := by
  intro k hk
  cases made_of_mem_calls hk with
  | data | heard | openSocket | reset => rfl
  | frame _ _ _ hmem =>
    obtain ⟨p, rfl | rfl | rfl⟩ := frameCalls_cases hmem
    · rfl
    · rfl
    · rfl
  | mark | setup | sweep => exact absurd rfl (hop _)

theorem fresh_setupCalls (h : s.Distinct) (lines : List (Option (Block 4))) :
    Fresh (setupCalls s lines) s.conns := by
  induction lines generalizing s with
  | nil => trivial
  | cons line lines ih =>
    rw [setupCalls, fresh_append, ← lineCalls_spec h]
    refine ⟨?_, ih (h.setupLine line)⟩
    unfold lineCalls
    split
    · trivial
    · split
      · refine ⟨fun ref src hk hm => ?_, trivial⟩
        obtain ⟨rfl, _⟩ := LinkCall.create.inj hk
        obtain ⟨c, hc, heq⟩ := List.mem_map.mp hm
        exact absurd heq (h.fresh c hc).ne
      · exact fresh_of_keepsRefs fun k hk => by rw [List.mem_singleton.mp hk]; rfl

theorem fresh_calls (h : s.Distinct) (op : Op) : Fresh (s.calls op) s.conns := by
  by_cases hop : ∃ file, op = .updateConns file
  · obtain ⟨file, rfl⟩ := hop
    refine ⟨nofun, ?_⟩
    cases file with
    | none => trivial
    | some lines =>
      show Fresh (setupCalls _ lines ++ [.sweep]) _
      rw [fresh_append]
      exact ⟨fresh_setupCalls h.mark lines, nofun, trivial⟩
  · exact fresh_of_keepsRefs (keepsRefs_calls s fun file e => hop ⟨file, e⟩)

theorem step_nextRef (hop : ∀ file, op ≠ .updateConns file) (h : step s op = some r) :
    r.1.nextRef = s.nextRef := by
  cases step_cases h with
  | srtData env =>
    unfold handleSrtData
    dsimp only
    split <;> rfl
  | empty => rfl
  | ngp => exact (onRegNgp_frame s _ _ _).2.2
  | reg2 =>
    unfold onReg2
    dsimp only
    split_ifs <;> rfl
  | dispatch _ _ heq =>
    rw [dispatch_eq heq]
    rfl
  | updateConns file => exact absurd rfl (hop file)
  | housekeeping env =>
    unfold connectionHousekeeping
    split
    · rfl
    · split_ifs
      · rfl
      · exact (checkFailed_frame _ _).2.2.trans (expirePending_frame s _).2.2.2

/-- **The links stay distinct objects.** -/
theorem State.Distinct.step (h : s.Distinct) (hstep : step s op = some r) : r.1.Distinct := by
  by_cases hop : ∃ file, op = .updateConns file
  · obtain ⟨file, rfl⟩ := hop
    cases step_cases hstep with
    | updateConns => exact h.updateConns file
  · have hop : ∀ file, op ≠ .updateConns file := fun file e => hop ⟨file, e⟩
    refine h.of_map_ref ?_ (step_nextRef hop hstep)
    rw [step_calls h hstep]
    exact applyCalls_map_ref (keepsRefs_calls s hop)

/-- The calls of `main` before its loop: `setup_conns`, then `open_conns`. -/
def startCalls (cfg : Config) : List LinkCall :=
  setupCalls State.zero cfg.lines ++
    (State.zero.setupConns cfg.lines).conns.map fun c => .link c.ref (.openSocket (cfg.opens c.ref))

theorem distinct_zero : State.zero.Distinct := ⟨List.nodup_nil, fun _ hc => absurd hc List.not_mem_nil⟩

/-- The loop of `open_conns`, at the link that follows `done`. -/
theorem openConns_calls (env : ℕ → OpenEnv) (fds : List ℤ) (done conns : List Conn)
    (h : ((done ++ conns).map Conn.ref).Nodup) :
    applyCalls (conns.map fun c => .link c.ref (.openSocket (env c.ref))) (done ++ conns) =
      done ++ (openConns env fds conns).2.2 := by
  induction conns generalizing done fds with
  | nil => rfl
  | cons c cs ih =>
    have hlink : LinkCall.apply (done ++ c :: cs) (.link c.ref (.openSocket (env c.ref))) =
        done ++ (openSocket fds c (env c.ref)).2.2 :: cs := by
      rw [openSocket_conn]
      exact Keyed.modify_append_cons h
    have href : (openSocket fds c (env c.ref)).2.2.ref = c.ref := by
      rw [openSocket_conn]
      exact (LinkChange.openSocket _).apply_ref c
    rw [List.map_cons]
    show applyCalls _ (LinkCall.apply _ _) = _
    rw [hlink, List.append_cons, ih (openSocket fds c (env c.ref)).2.1, ← List.append_cons]
    · rfl
    · rw [← List.append_cons]
      simpa [href] using h

theorem start_calls {cfg : Config} (h : start cfg = some s) :
    s.conns = applyCalls (startCalls cfg) [] ∧ s.Distinct := by
  have hsetup := distinct_zero.setupConns cfg.lines
  have hconns : applyCalls (startCalls cfg) [] =
      (openConns cfg.opens (addActiveFd [] cfg.listenfd) (State.zero.setupConns cfg.lines).conns).2.2 := by
    have hzero := setupCalls_spec distinct_zero cfg.lines
    rw [startCalls, applyCalls_append]
    show applyCalls _ (applyCalls _ State.zero.conns) = _
    rw [← hzero]
    exact openConns_calls cfg.opens _ [] _ hsetup.refs
  unfold start at h
  dsimp only at h
  split_ifs at h
  cases haddrs : cfg.addrs with
  | nil => rw [haddrs] at h; cases h
  | cons addr rest =>
    rw [haddrs] at h
    obtain rfl := Option.some.inj h
    refine ⟨hconns.symm, hsetup.of_map_ref ?_ rfl⟩
    show (openConns _ _ _).2.2.map Conn.ref = _
    rw [← hconns, startCalls, applyCalls_append, applyCalls_map_ref]
    · show (applyCalls _ State.zero.conns).map Conn.ref = _
      rw [← setupCalls_spec distinct_zero]
    · intro k hk
      obtain ⟨c, _, rfl⟩ := List.mem_map.mp hk
      rfl

theorem fresh_startCalls (cfg : Config) : Fresh (startCalls cfg) [] := by
  rw [startCalls, fresh_append]
  refine ⟨fresh_setupCalls distinct_zero cfg.lines, fresh_of_keepsRefs fun k hk => ?_⟩
  obtain ⟨c, _, rfl⟩ := List.mem_map.mp hk
  rfl

/-- A run of the sender, from the state in which `main` enters its loop. -/
def sender (s₀ : State) : Lts State Op where
  init := s₀
  step s op s' := ∃ effects, step s op = some (s', effects)

/-- **What every call keeps holds of every link in every run.** -/
theorem links_invariant {P : Conn → Prop} (hP : ∀ conns k, LinkCall.Preserves P conns k) {cfg : Config}
    {s₀ : State} (h₀ : start cfg = some s₀) (h : (sender s₀).Reachable s) :
    s.Distinct ∧ ∀ c ∈ s.conns, P c := by
  have hcalls : ∀ {ks : List LinkCall} {conns : List Conn}, (conns.map Conn.ref).Nodup →
      Fresh ks conns → (∀ c ∈ conns, P c) → ∀ c ∈ applyCalls ks conns, P c := fun hnodup hfresh hconns =>
    (applyCalls_invariant (I := fun conns => ∀ c ∈ conns, P c) (G := fun _ => True)
      (fun conns k hnodup _ h => (hP conns k).forall_apply hnodup h) hnodup hfresh
      (fun _ _ => trivial) hconns).1
  refine Lts.reachableIf_invariant (I := fun s => s.Distinct ∧ ∀ c ∈ s.conns, P c) ⟨(start_calls h₀).2, ?_⟩ ?_ h
  · show ∀ c ∈ s₀.conns, P c
    rw [(start_calls h₀).1]
    exact hcalls List.nodup_nil (fresh_startCalls cfg) fun c hc => absurd hc List.not_mem_nil
  · rintro s op s' ⟨hdistinct, hs⟩ _ ⟨effects, hstep⟩
    refine ⟨hdistinct.step hstep, ?_⟩
    show ∀ c ∈ (s', effects).1.conns, P c
    rw [step_calls hdistinct hstep]
    exact hcalls hdistinct.refs (fresh_calls hdistinct op) hs

theorem step_srtlaData {c : Conn} {ref : ℕ} {buf : Mem} {n ts : ℤ} {ret : ℕ → ℤ} {fuel : ℕ}
    (hget : Keyed.get Conn.ref ref s.conns = some c)
    (h : step s (.srtlaData ref buf n ts ret fuel) = some r) :
    handleSrtlaData s c buf n ts ret fuel = some r := by
  unfold step at h
  split_ifs at h
  simp only [hget] at h
  split_ifs at h
  exact h

theorem get_only_link {c : Conn} {ref : ℕ} (hconns : s.conns = [c]) (href : c.ref = ref) :
    Keyed.get Conn.ref ref s.conns = some c := by
  rw [hconns]
  exact List.find?_cons_of_pos (decide_eq_true href)

/-- `handle_srtla_data` returns unless a NAK range does not end. -/
theorem step_datagram {c : Conn} {ref : ℕ} (hexited : s.exited = false)
    (hget : Keyed.get Conn.ref ref s.conns = some c) (hfd : 0 ≤ c.fd) (buf : Mem) (n ts : ℤ)
    (ret : ℕ → ℤ) (fuel : ℕ)
    (hnak : getSrtType buf n = srtTypeNak → (nakIds fuel buf n (n / 4).toNat 4).isSome) :
    ∃ r, step s (.srtlaData ref buf n ts ret fuel) = some r ∧ r.1.exited = false := by
  have hdispatch : ∀ s : State, ∃ r, dispatch s buf n fuel = some r ∧ r.1.exited = s.exited := by
    intro s
    unfold dispatch
    dsimp only
    split_ifs with _ htype
    · exact ⟨_, rfl, rfl⟩
    · obtain ⟨ids, hids⟩ := Option.isSome_iff_exists.mp (hnak htype)
      rw [hids]
      exact ⟨_, rfl, rfl⟩
    all_goals exact ⟨_, rfl, rfl⟩
  rw [step, hexited, if_neg Bool.false_ne_true]
  simp only [hget]
  rw [if_neg (by omega)]
  unfold handleSrtlaData
  split_ifs
  · exact ⟨_, rfl, hexited⟩
  · refine ⟨_, rfl, ?_⟩
    unfold onRegNgp
    dsimp only
    split_ifs <;> exact hexited
  · refine ⟨_, rfl, ?_⟩
    unfold onReg2
    dsimp only
    split_ifs <;> exact hexited
  · obtain ⟨r, hr, hx⟩ := hdispatch (s.putConn { c with lastRcvd := ts })
    exact ⟨r, hr, hx.trans hexited⟩

/-- A sender with one source address. -/
def oneLink : Config where
  lines := [some (zeroBlock 4)]
  half := default
  listenfd := 3
  bind := 0
  opens := fun _ => ⟨4, 0, 0, default⟩
  addrs := [default]

/-- The link of such a sender. -/
def oneLinkConn : Conn := { Conn.create 0 (zeroBlock 4) with fd := 4 }

theorem start_oneLink : ∃ s, start oneLink = some s ∧ s.conns = [oneLinkConn] ∧ s.exited = false :=
  ⟨_, rfl, rfl, rfl⟩

/-- A sender with two source addresses. -/
def twoSources : Config := { oneLink with lines := [some (zeroBlock 4), some ⟨[1, 0, 0, 0], rfl⟩] }

/-- The receiver confirms the only link with an `SRTLA_TYPE_REG3`. -/
def reg3 : Op := .srtlaData 0 (mem (putBe16 srtlaTypeReg3)) 2 100 (fun _ => 0) 0

theorem calls_reg3 (s : State) : s.calls reg3 = [.link 0 (.heard 100)] := by
  have htype : getSrtType (mem (putBe16 srtlaTypeReg3)) 2 = srtlaTypeReg3 := by decide
  show datagramCalls 0 (mem (putBe16 srtlaTypeReg3)) 2 100 0 = _
  rw [datagramCalls, frameCalls, htype, if_neg (by decide), if_neg (by decide), if_neg (by decide),
    if_neg (by decide)]

/-- The frame, with an empty header, of an SRT ACK or NAK with one number, and an
    SRTLA ACK of one number. -/
def srtFrame (type number : ℕ) : Mem := mem (putBe16 type ++ List.replicate 14 0 ++ putBe32 number)

@[inherit_doc srtFrame]
def srtlaAckFrame (number : ℕ) : Mem := mem (putBe16 srtlaTypeAck ++ [0, 0] ++ putBe32 number)

/-- An SRT ACK, a NAK and an SRTLA ACK of one number that arrive on the first link. -/
def srtAckOf (number : ℕ) : Op := .srtlaData 0 (srtFrame srtTypeAck number) 20 100 (fun _ => 0) 0

@[inherit_doc srtAckOf]
def nakOf (number : ℕ) : Op := .srtlaData 0 (srtFrame srtTypeNak number) 20 100 (fun _ => 0) 0

@[inherit_doc srtAckOf]
def srtlaAckOf (number : ℕ) : Op := .srtlaData 0 (srtlaAckFrame number) 8 100 (fun _ => 0) 0

theorem getSrtType_srtFrame {type : ℕ} (h : type < 65536) (number : ℕ) :
    getSrtType (srtFrame type number) 20 = type := by
  rw [getSrtType, if_neg (by decide), srtFrame, List.append_assoc, be16_putBe16 h]

theorem getSrtType_srtlaAckFrame (number : ℕ) : getSrtType (srtlaAckFrame number) 8 = srtlaTypeAck := by
  rw [getSrtType, if_neg (by decide), srtlaAckFrame, List.append_assoc, be16_putBe16 (by decide)]

theorem be32_srtFrame (type : ℕ) {number : ℕ} (h : number < 2 ^ 32) :
    be32 (srtFrame type number) 16 = number :=
  (be32_append_right (putBe16 type ++ List.replicate 14 0) (putBe32 number) 0).trans (be32_mem_putBe32 h)

theorem be32_srtlaAckFrame {number : ℕ} (h : number < 2 ^ 32) : be32 (srtlaAckFrame number) 4 = number :=
  (be32_append_right (putBe16 srtlaTypeAck ++ [0, 0]) (putBe32 number) 0).trans (be32_mem_putBe32 h)

theorem nakIds_srtFrame {number : ℕ} (h : number < 2 ^ 31) :
    nakIds 0 (srtFrame srtTypeNak number) 20 ((20 : ℤ) / 4).toNat 4 = some [(number : ℤ)] := by
  have hbit : number &&& (1 <<< 31) = 0 := (and_top_bit_eq_zero_iff (by omega)).mpr h
  show nakIds 0 (srtFrame srtTypeNak number) 20 (4 + 1) 4 = _
  rw [nakIds, if_pos (by decide)]
  dsimp only
  rw [be32_srtFrame _ (by omega), if_neg (not_not.mpr hbit), toInt32_of_lt h, nakIds, if_neg (by decide)]
  rfl

theorem calls_srtAckOf (s : State) {number : ℕ} (h : number < 2 ^ 31) :
    s.calls (srtAckOf number) = [.link 0 (.heard 100), .registerSrtAck number] := by
  show datagramCalls 0 (srtFrame srtTypeAck number) 20 100 0 = _
  rw [datagramCalls, frameCalls, getSrtType_srtFrame (by decide), if_neg (by decide), if_pos rfl,
    be32_srtFrame _ (by omega), toInt32_of_lt h]

theorem calls_nakOf (s : State) {number : ℕ} (h : number < 2 ^ 31) :
    s.calls (nakOf number) = [.link 0 (.heard 100), .registerNak number] := by
  show datagramCalls 0 (srtFrame srtTypeNak number) 20 100 0 = _
  rw [datagramCalls, frameCalls, getSrtType_srtFrame (by decide), if_neg (by decide), if_neg (by decide),
    if_pos rfl, nakIds_srtFrame h]
  rfl

theorem calls_srtlaAckOf (s : State) {number : ℕ} (h : number < 2 ^ 32) :
    s.calls (srtlaAckOf number) = [.link 0 (.heard 100), .registerSrtlaAck (toInt32 number)] := by
  have hids : srtlaAckIds (srtlaAckFrame number) 8 = [toInt32 (be32 (srtlaAckFrame number) 4)] := rfl
  show datagramCalls 0 (srtlaAckFrame number) 8 100 0 = _
  rw [datagramCalls, frameCalls, getSrtType_srtlaAckFrame, if_neg (by decide), if_neg (by decide),
    if_neg (by decide), if_pos rfl, hids, be32_srtlaAckFrame h]
  rfl

/-- The SRT caller sends packet `n`. -/
def dataPacket (n : ℕ) : SrtDataEnv := ⟨4, mem (putBe32 n), default, some 100, 4⟩

/-- A link that has just been heard from and can be selected. -/
structure Conn.Ready (c : Conn) : Prop where
  ref : c.ref = 0
  fd : 0 ≤ c.fd
  rcvd : c.lastRcvd = 100
  window : 0 ≤ c.window
  inFlight : 0 ≤ c.inFlightPkts

/-- The only link of a sender, ready to send. -/
structure State.Alone (s : State) (c : Conn) : Prop where
  distinct : s.Distinct
  running : s.exited = false
  conns : s.conns = [c]
  ready : c.Ready

section OnlyLink

variable {c : Conn}

/-- A datagram for the only link marks it as heard from before it makes its calls. -/
theorem step_heard (hdistinct : s.Distinct) (hexited : s.exited = false) (hconns : s.conns = [c])
    (href : c.ref = 0) (hfd : 0 ≤ c.fd) {buf : Mem} {n : ℤ}
    (hnak : getSrtType buf n = srtTypeNak → (nakIds 0 buf n (n / 4).toNat 4).isSome) {ks : List LinkCall}
    (hcalls : s.calls (.srtlaData 0 buf n 100 (fun _ => 0) 0) = .link 0 (.heard 100) :: ks) :
    ∃ r, step s (.srtlaData 0 buf n 100 (fun _ => 0) 0) = some r ∧ r.1.Distinct ∧ r.1.exited = false ∧
      r.1.conns = applyCalls ks [{ c with lastRcvd := 100 }] := by
  obtain ⟨r, hstep, hexited⟩ := step_datagram hexited (get_only_link hconns href) hfd buf n 100
    (fun _ => 0) 0 hnak
  refine ⟨r, hstep, hdistinct.step hstep, hexited, ?_⟩
  rw [step_calls hdistinct hstep, hcalls, hconns]
  show applyCalls ks [if c.ref = 0 then { c with lastRcvd := 100 } else c] = _
  rw [if_pos href]

/-- The state after the confirmation of the only link. -/
theorem step_reg3 (hdistinct : s.Distinct) (hconns : s.conns = [oneLinkConn]) (hexited : s.exited = false) :
    ∃ r, step s reg3 = some r ∧ r.1.Alone { oneLinkConn with lastRcvd := 100 } := by
  obtain ⟨r, hstep, hdistinct, hexited, hconns⟩ := step_heard hdistinct hexited hconns rfl (by decide)
    (fun htype => absurd htype (by decide)) (calls_reg3 s)
  exact ⟨r, hstep, hdistinct, hexited, hconns, rfl, by decide, rfl, by decide, by decide⟩

theorem State.Alone.calls_data (h : s.Alone c) {n : ℕ} (hn : n < 2 ^ 31) :
    s.calls (.srtData (dataPacket n)) = [.link 0 (.selected 100), .link 0 (.regPkt n)] := by
  have hc := h.ready
  have hout : ¬ c.timedOut 100 := by
    rw [Conn.timedOut, hc.rcvd]
    decide
  have hscore : c.window.tdiv (c.inFlightPkts + 1) > -1 := by
    have hflight := hc.inFlight
    have := Int.tdiv_nonneg hc.window (show 0 ≤ c.inFlightPkts + 1 by omega)
    omega
  have hsel : selectConn s.conns (some 100) = some { c with lastSent := 100 } := by
    rw [h.conns]
    simp only [selectConn, selectLoop, if_neg hout, if_pos hscore, Option.map_some]
  have hsn : getSrtSn (mem (putBe32 n)) 4 = n := by
    rw [getSrtSn_eq (by decide), be32_mem_putBe32 (by omega), if_pos hn]
  show dataCalls s (dataPacket n) = _
  unfold dataCalls State.sendto dataPacket
  simp only [hsel, hsn, hc.ref, if_neg (show ¬ c.fd < 0 from not_lt.mpr hc.fd), if_true, ge_iff_le,
    Int.natCast_nonneg]

/-- A data packet goes out on the only link. -/
theorem State.Alone.step_data (h : s.Alone c) {n : ℕ} (hn : n < 2 ^ 31) :
    ∃ r, step s (.srtData (dataPacket n)) = some r ∧
      r.1.Alone (Conn.regPkt { c with lastSent := 100 } n) := by
  have hstep : step s (.srtData (dataPacket n)) = some (handleSrtData s (dataPacket n)) := by
    rw [step, h.running, if_neg Bool.false_ne_true]
  have hflight := h.ready.inFlight
  refine ⟨_, hstep, h.distinct.step hstep, ?_, ?_,
    h.ready.ref, h.ready.fd, h.ready.rcvd, h.ready.window, ?_⟩
  · unfold handleSrtData
    dsimp only
    split <;> exact h.running
  · rw [step_calls h.distinct hstep, h.calls_data hn, h.conns]
    simp only [applyCalls, List.foldl_cons, List.foldl_nil, LinkCall.apply, Keyed.modify,
      List.map_cons, List.map_nil, LinkChange.apply, h.ready.ref, if_true]
  · show 0 ≤ c.inFlightPkts + 1
    omega

end OnlyLink

end Srtla.Sender
