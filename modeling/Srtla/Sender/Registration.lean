import Srtla.Sender.Handlers

/-!
# What the sender does for registration

The part of the sender that the receiver's registry depends on: the id it uses,
the addresses it sends from, and the registrations it sends.

* `step_srtlaId`: the id changes only when the pending link receives a REG2 with
  the sender's own first half.
* `Bound.step`: an open socket has one of the sender's link addresses.
* `step_sends`: every datagram comes from an open link, and a registration
  carries the sender's id.
-/

namespace Srtla

open Lib

/-- The packet has neither the type of a REG1 nor that of a REG2. -/
def NotRegistration (pkt : Mem) (n : ℤ) : Prop :=
  getSrtType pkt n ≠ srtlaTypeReg1 ∧ getSrtType pkt n ≠ srtlaTypeReg2

instance (pkt : Mem) (n : ℤ) : Decidable (NotRegistration pkt n) :=
  inferInstanceAs (Decidable (_ ∧ _))

end Srtla

namespace Srtla.Sender

open Lib

/-- Open sockets have addresses in `links`. -/
def State.Bound (links : Set SockaddrStorage) (s : State) : Prop :=
  ∀ c ∈ s.conns, 0 ≤ c.fd → c.addr ∈ links

/-- The input comes from the sender's own machine: the SRT caller sends no SRTLA
    registrations, and sockets are bound to addresses in `links`. -/
def Op.Local (links : Set SockaddrStorage) : Op → Prop
  | .srtData env => NotRegistration env.buf env.n
  | .srtlaData .. => False
  | .updateConns _ => True
  | .housekeeping env => ∀ r, (env.opens r).addr ∈ links

/-- A datagram that carries the id `id` if it is a registration. -/
def Carries (id : SrtlaId) (b : Bytes) : Prop :=
  b = reg1Frame id ∨ b = reg2Frame id ∨ NotRegistration (mem b) b.length

variable {links : Set SockaddrStorage} {s : State} {op : Op} {r : State × List Effect}

/-! ## The cases of a step -/

/-- The calls of the main loop, with `handle_srtla_data` split by the type of the
    datagram. -/
inductive StepCase (s : State) : Op → State × List Effect → Prop
  | srtData (env : SrtDataEnv) : StepCase s (.srtData env) (handleSrtData s env)
  | empty {ref : ℕ} {buf : Mem} {n : ℤ} {ts : ℤ} {ret : ℕ → ℤ} {fuel : ℕ} (neg : n ≤ 0) :
      StepCase s (.srtlaData ref buf n ts ret fuel) (s, [])
  | ngp {c : Conn} {buf : Mem} {n : ℤ} {ts : ℤ} {ret : ℕ → ℤ} {fuel : ℕ} (mem : c ∈ s.conns)
      (fd : 0 ≤ c.fd) (type : getSrtType buf n = srtlaTypeRegNgp) :
      StepCase s (.srtlaData c.ref buf n ts ret fuel) (onRegNgp s c ts ret)
  | reg2 {c : Conn} {buf : Mem} {n : ℤ} {ts : ℤ} {ret : ℕ → ℤ} {fuel : ℕ} (mem : c ∈ s.conns)
      (fd : 0 ≤ c.fd) (pos : 0 < n) (type : getSrtType buf n = srtlaTypeReg2) :
      StepCase s (.srtlaData c.ref buf n ts ret fuel) (onReg2 s c buf ts ret)
  | dispatch {c : Conn} {buf : Mem} {n : ℤ} {ts : ℤ} {ret : ℕ → ℤ} {fuel : ℕ}
      {r : State × List Effect} (mem : c ∈ s.conns) (type : getSrtType buf n ≠ srtlaTypeReg2)
      (eq : dispatch (s.putConn { c with lastRcvd := ts }) buf n fuel = some r) :
      StepCase s (.srtlaData c.ref buf n ts ret fuel) r
  | updateConns (file : Option (List (Option (Block 4)))) :
      StepCase s (.updateConns file) (s.updateConns file, [])
  | housekeeping (env : HousekeepingEnv) :
      StepCase s (.housekeeping env) (connectionHousekeeping s env)

theorem step_cases (h : step s op = some r) : StepCase s op r := by
  unfold step at h
  split_ifs at h
  cases op with
  | srtData env => rw [← Option.some.inj h]; exact .srtData env
  | updateConns file => rw [← Option.some.inj h]; exact .updateConns file
  | housekeeping env => rw [← Option.some.inj h]; exact .housekeeping env
  | srtlaData ref buf n ts ret fuel =>
    dsimp only at h
    cases hget : Keyed.get Conn.ref ref s.conns with
    | none => rw [hget] at h; cases h
    | some c =>
      rw [hget] at h
      dsimp only [handleSrtlaData] at h
      have hmem := Keyed.get_mem hget
      obtain rfl : c.ref = ref := Keyed.get_key hget
      split_ifs at h with hfd hn hngp hreg2
      · rw [← Option.some.inj h]; exact .empty hn
      · rw [← Option.some.inj h]; exact .ngp hmem (not_lt.mp hfd) hngp
      · rw [← Option.some.inj h]; exact .reg2 hmem (not_lt.mp hfd) (not_le.mp hn) hreg2
      · exact .dispatch hmem hreg2 h

/-! ## The id -/

/-- `setup_conns` writes the list of links and hands out identities. -/
theorem setupConns_eq (s : State) (lines : List (Option (Block 4))) :
    s.setupConns lines =
      { s with conns := (s.setupConns lines).conns, nextRef := (s.setupConns lines).nextRef } := by
  unfold State.setupConns
  induction lines generalizing s with
  | nil => rfl
  | cons line lines ih =>
    rw [List.foldl_cons, ih]
    unfold State.setupLine
    split
    · rfl
    · split <;> rfl

/-- The removal loop writes the list, the descriptors and the pending link. -/
theorem removeLoop_eq (s : State) (conns : List Conn) :
    removeLoop s conns =
      { s with
        conns := (removeLoop s conns).conns
        activeFds := (removeLoop s conns).activeFds
        pendingReg2Conn := (removeLoop s conns).pendingReg2Conn } := by
  induction conns generalizing s with
  | nil => rfl
  | cons c cs ih =>
    unfold removeLoop
    by_cases hr : c.removed = true
    · rw [if_pos hr, ih]
    · rw [if_neg hr]
      dsimp only
      rw [ih]

theorem updateConns_frame (s : State) (file : Option (List (Option (Block 4)))) :
    (s.updateConns file).srtlaId = s.srtlaId ∧ (s.updateConns file).allFailedAt = s.allFailedAt ∧
      (s.updateConns file).addrs = s.addrs := by
  unfold State.updateConns
  cases file with
  | none => exact ⟨rfl, rfl, rfl⟩
  | some lines =>
    dsimp only
    rw [removeLoop_eq, setupConns_eq]
    exact ⟨rfl, rfl, rfl⟩

theorem handleSrtData_srtlaId (s : State) (env : SrtDataEnv) :
    (handleSrtData s env).1.srtlaId = s.srtlaId := by
  unfold handleSrtData
  dsimp only
  split <;> rfl

theorem expirePending_frame (s : State) (time : ℤ) :
    (s.expirePending time).srtlaId = s.srtlaId ∧ (s.expirePending time).conns = s.conns ∧
      (s.expirePending time).activeFds = s.activeFds ∧
      (s.expirePending time).nextRef = s.nextRef := by
  unfold State.expirePending
  split_ifs <;> exact ⟨rfl, rfl, rfl, rfl⟩

theorem checkFailed_frame (s : State) (ms : ℕ) :
    (s.checkFailed ms).srtlaId = s.srtlaId ∧ (s.checkFailed ms).conns = s.conns ∧
      (s.checkFailed ms).nextRef = s.nextRef := by
  unfold State.checkFailed
  dsimp only
  split_ifs
  all_goals first
    | exact ⟨rfl, rfl, rfl⟩
    | split <;> exact ⟨rfl, rfl, rfl⟩

theorem connectionHousekeeping_srtlaId (s : State) (env : HousekeepingEnv) :
    (connectionHousekeeping s env).1.srtlaId = s.srtlaId := by
  unfold connectionHousekeeping
  split
  · rfl
  · split_ifs
    · rfl
    · dsimp only
      rw [(checkFailed_frame _ _).1]
      exact (expirePending_frame s _).1

theorem onRegNgp_frame (s : State) (c : Conn) (ts : ℤ) (ret : ℕ → ℤ) :
    (onRegNgp s c ts ret).1.srtlaId = s.srtlaId ∧ (onRegNgp s c ts ret).1.conns = s.conns ∧
      (onRegNgp s c ts ret).1.nextRef = s.nextRef := by
  unfold onRegNgp
  dsimp only
  split_ifs <;> exact ⟨rfl, rfl, rfl⟩

/-- The `switch` writes the links and counts a link that is established. -/
theorem dispatch_eq {buf : Mem} {n : ℤ} {fuel : ℕ} (h : dispatch s buf n fuel = some r) :
    r.1 = { s with
      conns := r.1.conns
      hasConnected := r.1.hasConnected
      activeConnections := r.1.activeConnections } := by
  unfold dispatch at h
  dsimp only at h
  split_ifs at h
  · rw [← Option.some.inj h]
  · obtain ⟨ids, _, rfl⟩ := Option.map_eq_some_iff.mp h
    rfl
  all_goals
    rw [← Option.some.inj h]

/-- The link `ref` adopts the id in `buf`: it waits for a REG2, and the first
    half is the sender's. -/
def State.Adopts (s : State) (ref : ℕ) (buf : Mem) (n : ℤ) : Prop :=
  0 < n ∧ getSrtType buf n = srtlaTypeReg2 ∧ s.pendingReg2Conn = some ref ∧
    readBlock buf 2 128 = s.srtlaId.firstHalf

theorem onReg2_cases (s : State) (c : Conn) (buf : Mem) (ts : ℤ) (ret : ℕ → ℤ) :
    (onReg2 s c buf ts ret).1.conns = s.conns ∧
    ((onReg2 s c buf ts ret = (s, []) ∧
        ¬ (s.pendingReg2Conn = some c.ref ∧ readBlock buf 2 128 = s.srtlaId.firstHalf)) ∨
      (s.pendingReg2Conn = some c.ref ∧ readBlock buf 2 128 = s.srtlaId.firstHalf ∧
        (onReg2 s c buf ts ret).1.srtlaId = readBlock buf 2 256 ∧
        (onReg2 s c buf ts ret).2 =
          ({ s with srtlaId := readBlock buf 2 256 } : State).broadcastReg2 ret)) := by
  unfold onReg2
  dsimp only
  split_ifs with hp hh
  · exact ⟨rfl, Or.inl ⟨rfl, fun h => hh h.2⟩⟩
  · exact ⟨rfl, Or.inr ⟨hp, not_not.mp hh, rfl, rfl⟩⟩
  · exact ⟨rfl, Or.inl ⟨rfl, fun h => hp h.1⟩⟩

/-- **The id changes only by adoption.** -/
theorem step_srtlaId (h : step s op = some r) :
    r.1.srtlaId = s.srtlaId ∨
      ∃ ref buf n ts ret fuel, op = .srtlaData ref buf n ts ret fuel ∧ s.Adopts ref buf n ∧
        r.1.srtlaId = readBlock buf 2 256 := by
  cases step_cases h with
  | srtData env => exact Or.inl (handleSrtData_srtlaId s env)
  | empty => exact Or.inl rfl
  | ngp => exact Or.inl (onRegNgp_frame s _ _ _).1
  | @reg2 c buf n ts ret fuel _ _ hpos htype =>
    rcases (onReg2_cases s c buf ts ret).2 with ⟨heq, _⟩ | ⟨hp, hh, hid, _⟩
    · exact Or.inl (by rw [heq])
    · exact Or.inr ⟨c.ref, buf, n, ts, ret, fuel, rfl, ⟨hpos, htype, hp, hh⟩, hid⟩
  | dispatch _ _ heq =>
    refine Or.inl ?_
    rw [dispatch_eq heq]
    rfl
  | updateConns file => exact Or.inl (updateConns_frame s file).1
  | housekeeping env => exact Or.inl (connectionHousekeeping_srtlaId s env)

/-! ## The addresses of the links -/

theorem Conn.SameLink.bound {c c' : Conn} (h : c.SameLink c') (hc : 0 ≤ c.fd → c.addr ∈ links) :
    0 ≤ c'.fd → c'.addr ∈ links := by
  rw [h.fd, h.addr]
  exact hc

/-- A list of links that is rewritten in place stays bound. -/
theorem State.Bound.sameLinks {s' : State} (h : s.Bound links) (hs : SameLinks s.conns s'.conns) :
    s'.Bound links := by
  intro c' hc'
  obtain ⟨c, hc, hlink⟩ := hs.origin hc'
  exact hlink.bound (h c hc)

theorem State.Bound.putConn (h : s.Bound links) {c c' : Conn} (hc : c ∈ s.conns)
    (hlink : c.SameLink c') : (s.putConn c').Bound links := by
  intro x hx
  rcases Keyed.mem_put.mp hx with ⟨rfl, _⟩ | ⟨hx, _⟩
  · exact hlink.bound (h c hc)
  · exact h x hx

/-- What `select_conn` returns is a link of the list, marked as used. -/
theorem selectLoop_spec {t : ℤ} {conns : List Conn} {maxScore : ℤ} {minC : Option Conn} {c : Conn}
    (h : selectLoop t conns maxScore minC = some c) :
    minC = some c ∨ (c ∈ conns ∧ c.timedOut t = false) := by
  induction conns generalizing maxScore minC with
  | nil => exact Or.inl h
  | cons x cs ih =>
    have hrest : c ∈ cs ∧ c.timedOut t = false → c ∈ x :: cs ∧ c.timedOut t = false :=
      And.imp_left (List.mem_cons_of_mem _)
    unfold selectLoop at h
    dsimp only at h
    split_ifs at h with hout
    · exact (ih h).imp_right hrest
    · rcases ih h with heq | hm
      · rw [← Option.some.inj heq]
        exact Or.inr ⟨List.mem_cons_self, Bool.eq_false_iff.mpr hout⟩
      · exact Or.inr (hrest hm)
    · exact (ih h).imp_right hrest

/-- The link selected is one of the list that is not timed out. -/
theorem selectConn_spec {conns : List Conn} {seconds : Option ℤ} {c : Conn}
    (h : selectConn conns seconds = some c) :
    ∃ t, seconds = some t ∧ ∃ x ∈ conns, x.timedOut t = false ∧ c = { x with lastSent := t } := by
  cases seconds with
  | none => exact absurd h nofun
  | some t =>
    obtain ⟨x, hx, rfl⟩ := Option.map_eq_some_iff.mp h
    obtain ⟨hm, hout⟩ := (selectLoop_spec hx).resolve_left nofun
    exact ⟨t, rfl, x, hm, hout, rfl⟩

theorem selectConn_mem {conns : List Conn} {seconds : Option ℤ} {c : Conn}
    (h : selectConn conns seconds = some c) : ∃ x ∈ conns, x.SameLink c := by
  obtain ⟨t, _, x, hx, _, rfl⟩ := selectConn_spec h
  exact ⟨x, hx, rfl, rfl, rfl, rfl⟩

theorem bound_handleSrtData (h : s.Bound links) (env : SrtDataEnv) :
    (handleSrtData s env).1.Bound links := by
  unfold handleSrtData
  dsimp only
  split
  · exact h
  · rename_i c hsel
    obtain ⟨x, hx, hlink⟩ := selectConn_mem hsel
    refine State.Bound.putConn h hx (hlink.trans ?_)
    split_ifs
    all_goals exact ⟨rfl, rfl, rfl, rfl⟩

theorem sameLinks_foldl {α : Type*} {f : α → List Conn → List Conn}
    (hf : ∀ a conns, SameLinks conns (f a conns)) (as : List α) (conns : List Conn) :
    SameLinks conns (as.foldl (fun conns a => f a conns) conns) := by
  induction as generalizing conns with
  | nil => exact .refl conns
  | cons a as ih => exact (hf a conns).trans (ih _)

theorem sameLinks_dispatch {buf : Mem} {n : ℤ} {fuel : ℕ} (h : dispatch s buf n fuel = some r) :
    SameLinks s.conns r.1.conns := by
  unfold dispatch at h
  dsimp only at h
  split_ifs at h
  · rw [← Option.some.inj h]
    exact sameLinks_registerSrtAck _ _
  · obtain ⟨ids, _, rfl⟩ := Option.map_eq_some_iff.mp h
    exact sameLinks_foldl sameLinks_registerNak ids s.conns
  · rw [← Option.some.inj h]
    exact sameLinks_foldl (fun ack => sameLinks_registerSrtlaAckLoop ack false) _ s.conns
  all_goals
    rw [← Option.some.inj h]
    exact SameLinks.refl _

theorem bound_setupLine (h : s.Bound links) (line : Option (Block 4)) :
    (s.setupLine line).Bound links := by
  unfold State.setupLine
  split
  · exact h
  · split
    · intro c hc hfd
      rcases List.mem_cons.mp hc with rfl | hc
      · -- a new link has no socket
        exact absurd hfd (by show ¬ (0 : ℤ) ≤ -1; decide)
      · exact h c hc hfd
    · rename_i hfind
      exact h.putConn (List.mem_of_find?_eq_some hfind) ⟨rfl, rfl, rfl, rfl⟩

theorem bound_setupConns (h : s.Bound links) (lines : List (Option (Block 4))) :
    (s.setupConns lines).Bound links := by
  unfold State.setupConns
  induction lines generalizing s with
  | nil => exact h
  | cons line lines ih => exact ih (bound_setupLine h line)

theorem removeLoop_conns (s : State) (conns : List Conn) :
    (removeLoop s conns).conns = conns.filter fun c => !c.removed := by
  induction conns generalizing s with
  | nil => rfl
  | cons c cs ih =>
    unfold removeLoop
    cases hr : c.removed with
    | true => simp [hr, ih]
    | false => simp [hr, ih]

theorem bound_updateConns (h : s.Bound links) (file : Option (List (Option (Block 4)))) :
    (s.updateConns file).Bound links := by
  have hmark : State.Bound links
      { s with conns := s.conns.map fun c : Conn => { c with removed := true } } := by
    intro c' hc'
    obtain ⟨c, hc, rfl⟩ := List.mem_map.mp hc'
    exact h c hc
  unfold State.updateConns
  cases file with
  | none => exact hmark
  | some lines =>
    intro c hc
    rw [removeLoop_conns] at hc
    exact bound_setupConns hmark lines c (List.mem_of_mem_filter hc)

/-- A socket that was opened has the address the system chose; a link without
    one keeps none. -/
theorem openSocket_bound {fds : List ℤ} {c : Conn} {env : OpenEnv} (h : env.addr ∈ links) :
    0 ≤ (openSocket fds c env).2.2.fd → (openSocket fds c env).2.2.addr ∈ links := by
  unfold openSocket
  by_cases hopen : c.fd ≥ 0
  · simp only [if_pos hopen]
    split_ifs
    · exact fun hfd => absurd hfd (by show ¬ (0 : ℤ) ≤ -1; decide)
    · exact fun hfd => absurd hfd (by show ¬ (0 : ℤ) ≤ -1; decide)
    · exact fun _ => h
  · simp only [if_neg hopen]
    split_ifs
    · exact fun hfd => absurd hfd hopen
    · exact fun hfd => absurd hfd hopen
    · exact fun _ => h

theorem openConns_bound {env : ℕ → OpenEnv} (h : ∀ ref, (env ref).addr ∈ links) (fds : List ℤ)
    (conns : List Conn) :
    ∀ c ∈ (openConns env fds conns).2.2, 0 ≤ c.fd → c.addr ∈ links := by
  induction conns generalizing fds with
  | nil => exact fun c hc => absurd hc List.not_mem_nil
  | cons x cs ih =>
    intro c hc
    rcases List.mem_cons.mp hc with rfl | hc
    · exact openSocket_bound (h x.ref)
    · exact ih _ c hc

theorem Conn.sameLink_reset (c : Conn) : c.SameLink c.reset := by
  unfold Conn.reset
  split_ifs <;> exact ⟨rfl, rfl, rfl, rfl⟩

theorem housekeepConn_bound {env : HousekeepingEnv} (henv : ∀ ref, (env.opens ref).addr ∈ links)
    {c : Conn} (hc : 0 ≤ c.fd → c.addr ∈ links) (s : State) (time : ℤ) (fds : List ℤ) :
    0 ≤ (housekeepConn s time env fds c).conn.fd →
      (housekeepConn s time env fds c).conn.addr ∈ links := by
  unfold housekeepConn
  dsimp only
  split_ifs
  · exact openSocket_bound (henv c.ref)
  all_goals first
    | exact c.sameLink_reset.bound hc
    | exact hc

theorem housekeepLoop_bound {env : HousekeepingEnv} (henv : ∀ ref, (env.opens ref).addr ∈ links)
    (s : State) (time : ℤ) (fds : List ℤ) {conns : List Conn}
    (h : ∀ c ∈ conns, 0 ≤ c.fd → c.addr ∈ links) :
    ∀ c ∈ (housekeepLoop s time env fds conns).2.1, 0 ≤ c.fd → c.addr ∈ links := by
  induction conns generalizing fds with
  | nil => exact fun c hc => absurd hc List.not_mem_nil
  | cons x cs ih =>
    intro c hc
    rcases List.mem_cons.mp hc with rfl | hc
    · exact housekeepConn_bound henv (h x List.mem_cons_self) s time fds
    · exact ih _ (fun c hc => h c (List.mem_cons_of_mem _ hc)) c hc

theorem bound_connectionHousekeeping {env : HousekeepingEnv}
    (henv : ∀ ref, (env.opens ref).addr ∈ links) (h : s.Bound links) :
    (connectionHousekeeping s env).1.Bound links := by
  unfold connectionHousekeeping
  split
  · exact h
  · split_ifs
    · exact h
    · intro c hc
      dsimp only at hc
      rw [(checkFailed_frame _ _).2.1] at hc
      refine housekeepLoop_bound henv _ _ _ ?_ c hc
      rw [(expirePending_frame s _).2.1]
      exact h

/-- **Open sockets keep addresses of the sender.** -/
theorem State.Bound.step (h : s.Bound links) (hstep : step s op = some r)
    (hop : ∀ env, op = .housekeeping env → ∀ ref, (env.opens ref).addr ∈ links) :
    r.1.Bound links := by
  cases step_cases hstep with
  | srtData env => exact bound_handleSrtData h env
  | empty => exact h
  | ngp =>
    intro c hc
    rw [(onRegNgp_frame s _ _ _).2.1] at hc
    exact h c hc
  | reg2 =>
    intro c hc
    rw [(onReg2_cases s _ _ _ _).1] at hc
    exact h c hc
  | dispatch hmem _ heq =>
    refine State.Bound.sameLinks ?_ (sameLinks_dispatch heq)
    exact h.putConn hmem ⟨rfl, rfl, rfl, rfl⟩
  | updateConns file => exact bound_updateConns h file
  | housekeeping env => exact bound_connectionHousekeeping (hop env rfl) h

/-- What `main` starts the loop with. -/
theorem start_spec {cfg : Config} (h : start cfg = some s)
    (hcfg : ∀ ref, (cfg.opens ref).addr ∈ links) :
    s.srtlaId = .ofHalves cfg.half (zeroBlock 128) ∧ s.Bound links := by
  unfold start at h
  dsimp only at h
  split_ifs at h
  split at h
  · cases h
  · rw [← Option.some.inj h]
    refine ⟨?_, openConns_bound hcfg _ _⟩
    show SrtlaId.ofHalves cfg.half (State.zero.setupConns cfg.lines).srtlaId.secondHalf = _
    rw [setupConns_eq]
    rfl

/-! ## What is sent -/

/-- Sent from an open link of `s`, with the id `id` if it is a registration. -/
def SentOn (s : State) (id : SrtlaId) (d : SockaddrStorage × Bytes) : Prop :=
  ∃ c ∈ s.conns, 0 ≤ c.fd ∧ d.1 = c.addr ∧ Carries id d.2

theorem sendto_wire {c : Conn} {buf : Bytes} {ret : ℤ} {d : SockaddrStorage × Bytes}
    (hd : d ∈ (s.sendto c buf ret).2.flatMap Effect.wire) : 0 ≤ c.fd ∧ d = (c.addr, buf) := by
  unfold State.sendto at hd
  rw [List.flatMap_singleton, Effect.wire] at hd
  by_cases hfd : c.fd < 0
  · -- a failed call returned `-1`, which is no length
    rw [if_pos hfd, if_neg (by omega)] at hd
    exact absurd hd List.not_mem_nil
  · rw [if_neg hfd] at hd
    split_ifs at hd
    · exact ⟨not_lt.mp hfd, List.mem_singleton.mp hd⟩
    · exact absurd hd List.not_mem_nil

theorem sendReg1_wire {c : Conn} {ret : ℤ} {d : SockaddrStorage × Bytes}
    (hd : d ∈ (s.sendReg1 c ret).2.flatMap Effect.wire) :
    0 ≤ c.fd ∧ d = (c.addr, reg1Frame s.srtlaId) := by
  unfold State.sendReg1 at hd
  split_ifs at hd
  · exact absurd hd List.not_mem_nil
  · exact sendto_wire hd

theorem sendReg2_wire {c : Conn} {ret : ℤ} {d : SockaddrStorage × Bytes}
    (hd : d ∈ (s.sendReg2 c ret).2.flatMap Effect.wire) :
    0 ≤ c.fd ∧ d = (c.addr, reg2Frame s.srtlaId) := by
  unfold State.sendReg2 at hd
  split_ifs at hd
  · exact absurd hd List.not_mem_nil
  · exact sendto_wire hd

theorem sentOn_handleSrtData {env : SrtDataEnv} (henv : NotRegistration env.buf env.n)
    {d : SockaddrStorage × Bytes} (hd : d ∈ (handleSrtData s env).2.flatMap Effect.wire) :
    SentOn s s.srtlaId d := by
  have htype : getSrtType (mem (window env.buf 0 env.n.toNat)) (window env.buf 0 env.n.toNat).length =
      getSrtType env.buf env.n := by
    unfold getSrtType
    rw [length_window]
    by_cases hn : env.n < 2
    · rw [if_pos hn, if_pos (by omega)]
    · rw [if_neg hn, if_neg (by omega)]
      exact be16_congr (mem_window (by omega)) (mem_window (by omega))
  unfold handleSrtData at hd
  dsimp only at hd
  split at hd
  · exact absurd hd List.not_mem_nil
  · rename_i c hsel
    obtain ⟨hfd, rfl⟩ := sendto_wire hd
    obtain ⟨x, hx, hlink⟩ := selectConn_mem hsel
    refine ⟨x, hx, by rw [← hlink.fd]; exact hfd, hlink.addr, Or.inr (Or.inr ?_)⟩
    unfold NotRegistration
    rw [htype]
    exact henv

theorem sentOn_onRegNgp {c : Conn} (hc : c ∈ s.conns) {ts : ℤ} {ret : ℕ → ℤ}
    {d : SockaddrStorage × Bytes} (hd : d ∈ (onRegNgp s c ts ret).2.flatMap Effect.wire) :
    SentOn s s.srtlaId d := by
  have hsend : ∀ d ∈ (s.sendReg1 c (ret c.ref)).2.flatMap Effect.wire, SentOn s s.srtlaId d := by
    intro d hd
    obtain ⟨hfd, rfl⟩ := sendReg1_wire hd
    exact ⟨c, hc, hfd, rfl, Or.inl rfl⟩
  unfold onRegNgp at hd
  dsimp only at hd
  split_ifs at hd
  · exact hsend d hd
  · exact hsend d hd
  · exact absurd hd List.not_mem_nil

theorem sentOn_onReg2 {c : Conn} {buf : Mem} {ts : ℤ} {ret : ℕ → ℤ} {d : SockaddrStorage × Bytes}
    (hd : d ∈ (onReg2 s c buf ts ret).2.flatMap Effect.wire) :
    SentOn s (onReg2 s c buf ts ret).1.srtlaId d := by
  rcases (onReg2_cases s c buf ts ret).2 with ⟨heq, _⟩ | ⟨_, _, hid, heff⟩
  · rw [heq] at hd
    exact absurd hd List.not_mem_nil
  · rw [heff, State.broadcastReg2, List.flatMap_assoc] at hd
    obtain ⟨x, hx, hd⟩ := List.mem_flatMap.mp hd
    obtain ⟨hfd, rfl⟩ := sendReg2_wire hd
    rw [hid]
    exact ⟨x, hx, hfd, rfl, Or.inr (Or.inl rfl)⟩

theorem not_wire_caller {d : SockaddrStorage × Bytes} {effects : List Effect}
    (h : ∀ e ∈ effects, ∃ dst buf, e = .caller dst buf) : d ∉ effects.flatMap Effect.wire := by
  intro hd
  obtain ⟨e, he, hd⟩ := List.mem_flatMap.mp hd
  obtain ⟨dst, buf, rfl⟩ := h e he
  exact absurd hd List.not_mem_nil

/-- Other datagrams of the receiver are at most handed to the SRT caller. -/
theorem dispatch_effects {buf : Mem} {n : ℤ} {fuel : ℕ} (h : dispatch s buf n fuel = some r) :
    ∀ e ∈ r.2, ∃ dst buf, e = .caller dst buf := by
  intro e he
  unfold dispatch at h
  dsimp only at h
  split_ifs at h
  · rw [← Option.some.inj h] at he
    exact ⟨_, _, List.mem_singleton.mp he⟩
  · obtain ⟨ids, _, rfl⟩ := Option.map_eq_some_iff.mp h
    exact ⟨_, _, List.mem_singleton.mp he⟩
  all_goals
    rw [← Option.some.inj h] at he
    first
      | exact ⟨_, _, List.mem_singleton.mp he⟩
      | exact absurd he List.not_mem_nil

theorem sentOn_housekeepConn {c : Conn} (hc : c ∈ s.conns) {time : ℤ} {env : HousekeepingEnv}
    {fds : List ℤ} {d : SockaddrStorage × Bytes}
    (hd : d ∈ (housekeepConn s time env fds c).effects.flatMap Effect.wire) :
    SentOn s s.srtlaId d := by
  have hlink := c.sameLink_reset
  unfold housekeepConn at hd
  dsimp only at hd
  split_ifs at hd
  · exact absurd hd List.not_mem_nil
  · obtain ⟨hfd, rfl⟩ := sendReg2_wire hd
    exact ⟨c, hc, by rw [← hlink.fd]; exact hfd, hlink.addr, Or.inr (Or.inl rfl)⟩
  · obtain ⟨hfd, rfl⟩ := sendReg1_wire hd
    exact ⟨c, hc, by rw [← hlink.fd]; exact hfd, hlink.addr, Or.inl rfl⟩
  · exact absurd hd List.not_mem_nil
  · obtain ⟨hfd, rfl⟩ := sendto_wire hd
    have hkeepalive : NotRegistration (mem (putBe16 srtlaTypeKeepalive)) 2 := by decide
    exact ⟨c, hc, hfd, rfl, Or.inr (Or.inr hkeepalive)⟩
  · exact absurd hd List.not_mem_nil

theorem sentOn_housekeepLoop {time : ℤ} {env : HousekeepingEnv} (fds : List ℤ) {conns : List Conn}
    (hconns : ∀ c ∈ conns, c ∈ s.conns) :
    ∀ d ∈ (housekeepLoop s time env fds conns).2.2.2.flatMap Effect.wire, SentOn s s.srtlaId d := by
  induction conns generalizing fds with
  | nil => exact fun d hd => absurd hd List.not_mem_nil
  | cons c cs ih =>
    intro d hd
    unfold housekeepLoop at hd
    dsimp only at hd
    rw [List.flatMap_append] at hd
    rcases List.mem_append.mp hd with hd | hd
    · exact sentOn_housekeepConn (hconns c List.mem_cons_self) hd
    · exact ih _ (fun x hx => hconns x (List.mem_cons_of_mem _ hx)) d hd

theorem sentOn_connectionHousekeeping {env : HousekeepingEnv} {d : SockaddrStorage × Bytes}
    (hd : d ∈ (connectionHousekeeping s env).2.flatMap Effect.wire) : SentOn s s.srtlaId d := by
  unfold connectionHousekeeping at hd
  split at hd
  · exact absurd hd List.not_mem_nil
  · split_ifs at hd
    · exact absurd hd List.not_mem_nil
    · rename_i ms _ _
      obtain ⟨hid, hconns, _⟩ := expirePending_frame s ((ms / 1000 : ℕ) : ℤ)
      have h := sentOn_housekeepLoop _ (fun c hc => hc) d hd
      unfold SentOn at h ⊢
      rwa [hid, hconns] at h

/-- **Every datagram comes from an open link and registers the sender's id.** -/
theorem step_sends (h : step s op = some r)
    (hop : ∀ env, op = .srtData env → NotRegistration env.buf env.n) :
    ∀ d ∈ r.2.flatMap Effect.wire, SentOn s r.1.srtlaId d := by
  intro d hd
  cases step_cases h with
  | srtData env =>
    rw [handleSrtData_srtlaId]
    exact sentOn_handleSrtData (hop env rfl) hd
  | empty => exact absurd hd List.not_mem_nil
  | ngp hmem =>
    rw [(onRegNgp_frame s _ _ _).1]
    exact sentOn_onRegNgp hmem hd
  | reg2 => exact sentOn_onReg2 hd
  | dispatch _ _ heq => exact absurd hd (not_wire_caller (dispatch_effects heq))
  | updateConns file => exact absurd hd List.not_mem_nil
  | housekeeping env =>
    rw [connectionHousekeeping_srtlaId]
    exact sentOn_connectionHousekeeping hd

end Srtla.Sender
