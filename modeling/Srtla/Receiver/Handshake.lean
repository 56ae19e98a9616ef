import Srtla.Receiver.Registry

/-!
# The registration handshake

What a well-formed REG1 and REG2 do when nothing stands in the way. These are
the runs from which the concrete states of the later modules are built.
-/

namespace Srtla.Receiver

open Lib

variable {s : State} {addr : SockaddrStorage} {ts : ℤ} {env : PacketEnv} {id : SrtlaId}

/-- A REG1 from an address nobody owns, with room in the table, creates a group
    and is answered with its id. -/
theorem step_reg1 (hb : s.limiter.isBlocked addr ts = false) (hroom : s.groups.length < maxGroups)
    (hfresh : ∀ x ∈ s.groups, ¬ x.Owns addr) (hsend : env.sendtoRet = 258) :
    let g := ConnectionGroup.create s.nextRef id.firstHalf env.random ts addr
    let r := step s (.packet (reg1Frame id) addr ts env)
    (r.1.groups = s.groups ++ [g] ∧ r.1.nextRef = s.nextRef + 1 ∧ r.1.limiter = s.limiter ∧
      r.1.lastRun = s.lastRun) ∧ r.2 = [.padSendto .regReply addr (reg2Frame g.id) 258] := by
  have hevict : s.afterEviction = s.groups := by
    unfold State.afterEviction State.victim
    rw [if_neg (by omega)]
  have hout : regGroupOutcome s addr ts env = .registered := by
    rw [regGroupOutcome_eq_registered_iff, hevict, hsend]
    exact ⟨hb, fun h => absurd h.1 (by omega), findByAddress_eq_none_iff.mpr hfresh, rfl⟩
  obtain ⟨⟨hl, hr, _⟩, hcase⟩ := registerGroup_cases s addr (mem (reg1Frame id)) ts env
  rw [hout] at hcase
  obtain ⟨_, hgroups, hnext, heff⟩ := hcase
  have hnew : newGroup s addr (mem (reg1Frame id)) ts env =
      .create s.nextRef id.firstHalf env.random ts addr := by
    rw [newGroup, reg1Frame, readBlock_regFrame_half]
  dsimp only [step]
  rw [processSinglePacket_reg1 (isSrtlaReg1_reg1Frame id), hgroups, hevict, heff, hnew, hsend]
  exact ⟨⟨rfl, hnext, hl, hr⟩, rfl⟩

/-- A REG2 for a registered group, from an address no other group owns, is
    answered with a REG3: it adds a connection, or it repeats one. -/
theorem step_reg2_answered (h : Inv s) {buf : Bytes} {g : ConnectionGroup}
    (h2 : isSrtlaReg2 (mem buf) buf.length = true)
    (hid : findGroupById s.groups (readBlock (mem buf) 2 256) = some g)
    (howner : ∀ x ∈ s.groups, x.Owns addr → x = g)
    (hroom : (∀ c ∈ g.conns, addressesEqual c.addr addr = false) →
      g.conns.length < maxConnsPerGroup)
    (hsend : padRet 2 env.sendtoRet = 2) :
    let r := step s (.packet buf addr ts env)
    r.2 = [regReply srtlaTypeReg3 addr env] ∧
      ((∀ c ∈ g.conns, addressesEqual c.addr addr = false) ∧ r.1.nextRef = s.nextRef + 1 ∧
          r.1.groups = Keyed.put ConnectionGroup.ref
            { g.addConnection (.create s.nextRef addr ts) with lastAddr := addr } s.groups ∨
        (∃ c ∈ g.conns, addressesEqual c.addr addr = true) ∧
          r.1.groups = Keyed.put ConnectionGroup.ref { g with lastAddr := addr } s.groups) := by
  have hg := (findGroupById_eq_some hid).1
  have hsame : ∀ p, findByAddress s.groups addr = some p → p.1 = g := by
    intro p hp
    obtain ⟨hp1, _, hp2⟩ := findByAddress_eq_some hp
    exact howner _ hp1 hp2
  dsimp only [step]
  rw [processSinglePacket_reg2 h2]
  rcases registerConnection_cases s h.refs addr (mem buf) ts env with
    href | ⟨g', hid', _, _, _, heff, hjoin | ⟨c, hrep⟩⟩
  · obtain ⟨_, _, _, hrefusal, _⟩ := href
    cases hrefusal with
    | noGroup hnone => rw [hid] at hnone; exact absurd hnone (by simp)
    | groupMismatch hid' hp hne =>
      rw [hid] at hid'
      rw [hsame _ hp, Option.some.inj hid'] at hne
      exact absurd rfl hne
    | maxConns hid' hnew hfull =>
      rw [hid] at hid'
      rw [← Option.some.inj hid'] at hfull
      have := hroom (connJoined_fresh h hg hsame hnew).2
      omega
    | sendError hfail => exact absurd hsend hfail
  · rw [hid] at hid'
    rw [← Option.some.inj hid'] at hjoin
    exact ⟨heff, Or.inl ⟨(connJoined_fresh h hg hsame hjoin.1).2, hjoin.2.2.1, hjoin.2.2.2⟩⟩
  · rw [hid] at hid'
    rw [← Option.some.inj hid'] at hrep
    obtain ⟨_, hc, ha⟩ := findByAddress_conn hrep.1
    exact ⟨heff, Or.inr ⟨⟨c, hc, ha⟩, hrep.2⟩⟩

/-- A REG2 for a registered group, from an address no other group owns, adds a
    connection. -/
theorem step_reg2 (h : Inv s) {g : ConnectionGroup} (hid : findGroupById s.groups id = some g)
    (howner : ∀ x ∈ s.groups, x.Owns addr → x = g)
    (hfresh : ∀ c ∈ g.conns, addressesEqual c.addr addr = false)
    (hroom : g.conns.length < maxConnsPerGroup) (hsend : env.sendtoRet = 32) :
    let s' := (step s (.packet (reg2Frame id) addr ts env)).1
    s'.groups = Keyed.put ConnectionGroup.ref
        { g.addConnection (.create s.nextRef addr ts) with lastAddr := addr } s.groups ∧
      s'.nextRef = s.nextRef + 1 ∧ s'.limiter = s.limiter ∧ s'.lastRun = s.lastRun := by
  have hframe := registerConnection_frame s addr (mem (reg2Frame id)) ts env
  have hstep : (step s (.packet (reg2Frame id) addr ts env)).1 =
      (registerConnection s addr (mem (reg2Frame id)) ts env).2.1 := by
    rw [step, processSinglePacket_reg2 (isSrtlaReg2_reg2Frame id)]
  have hread : readBlock (mem (reg2Frame id)) 2 256 = id := by
    rw [reg2Frame, readBlock_regFrame]
  have hans := @step_reg2_answered s addr ts env h (reg2Frame id) g (isSrtlaReg2_reg2Frame id)
    (by rw [hread]; exact hid) howner (fun _ => hroom) (by rw [hsend]; rfl)
  rcases hans.2 with ⟨_, hnext, hgroups⟩ | ⟨⟨c, hc, ha⟩, _⟩
  · refine ⟨hgroups, hnext, ?_, ?_⟩
    · rw [hstep, hframe.1]
    · rw [hstep, hframe.2.1]
  · rw [hfresh c hc] at ha
    exact absurd ha (by decide)

/-- The inputs of a handshake: a REG1 from `a` at time `t`, and a REG2 from `b`
    at time `u` with the id of the group just created. -/
def handshake (id : SrtlaId) (random : IdHalf) (a b : SockaddrStorage) (t u : ℤ) : List Op :=
  [.packet (reg1Frame id) a t { (default : PacketEnv) with sendtoRet := 258, random := random },
   .packet (reg2Frame (.ofHalves id.firstHalf random)) b u
     { (default : PacketEnv) with sendtoRet := 32 }]

/-- The group a handshake leaves. -/
def handshakeGroup (id : SrtlaId) (random : IdHalf) (a b : SockaddrStorage) (t u : ℤ) :
    ConnectionGroup :=
  { (ConnectionGroup.create 0 id.firstHalf random t a).addConnection (.create 1 b u) with
    lastAddr := b }

/-- After a handshake at start-up there is one group with one connection. -/
theorem run_handshake (id : SrtlaId) (random : IdHalf) (a b : SockaddrStorage) (t u : ℤ) :
    let s := receiver.run State.init (handshake id random a b t u)
    s.groups = [handshakeGroup id random a b t u] ∧ s.nextRef = 2 ∧ s.limiter = ∅ ∧
      s.lastRun = 0 := by
  set op₁ : Op := .packet (reg1Frame id) a t { (default : PacketEnv) with
    sendtoRet := 258, random := random } with hop₁
  set g := ConnectionGroup.create 0 id.firstHalf random t a with hg
  -- the REG1 creates the group
  have h₁ : (step State.init op₁).1.groups = [g] ∧ (step State.init op₁).1.nextRef = 1 ∧
      (step State.init op₁).1.limiter = ∅ ∧ (step State.init op₁).1.lastRun = 0 := by
    have hblock : State.init.limiter.isBlocked a t = false := by
      unfold AuthRateLimiter.isBlocked State.init
      rw [AList.lookup_empty]
    exact (step_reg1 hblock (by decide) (fun x hx => absurd hx List.not_mem_nil) rfl).1
  obtain ⟨hgroups, hnext, hlim, hrun⟩ := h₁
  have hinv : Inv (step State.init op₁).1 := reachable_inv (receiver.reachable_init.step op₁)
  -- the REG2 finds it and joins
  have hid : findGroupById (step State.init op₁).1.groups (.ofHalves id.firstHalf random) = some g := by
    rw [hgroups]
    exact findGroupById_self g []
  obtain ⟨hgroups', hnext', hlim', hrun'⟩ := @step_reg2 _ b u
    { (default : PacketEnv) with sendtoRet := 32 } _ hinv g hid
    (by rw [hgroups]; exact fun x hx _ => List.mem_singleton.mp hx)
    (fun c hc => absurd hc List.not_mem_nil) (by show 0 < maxConnsPerGroup; decide) rfl
  refine ⟨?_, ?_, hlim'.trans hlim, hrun'.trans hrun⟩
  · refine hgroups'.trans ?_
    rw [hgroups, hnext]
    rfl
  · refine hnext'.trans ?_
    rw [hnext]

theorem handshakeGroup_mem (id : SrtlaId) (random : IdHalf) (a b : SockaddrStorage) (t u : ℤ) :
    handshakeGroup id random a b t u ∈
      (receiver.run State.init (handshake id random a b t u)).groups := by
  rw [(run_handshake id random a b t u).1]
  exact List.mem_singleton_self _

/-- Addresses that differ in the port, for the runs on fixed inputs. -/
def sampleAddr (port : UInt16) : SockaddrStorage :=
  { (default : SockaddrStorage) with ssFamily := afInet6, port := port }

theorem addressesEqual_sampleAddr {p q : UInt16} :
    addressesEqual (sampleAddr p) (sampleAddr q) = true ↔ p = q := by
  rw [addressesEqual_iff]
  simp [SockaddrStorage.endpoint, sampleAddr]

theorem sampleAddr_ne {p q : UInt16} (h : p ≠ q) :
    addressesEqual (sampleAddr p) (sampleAddr q) = false :=
  Bool.eq_false_iff.mpr fun he => h (addressesEqual_sampleAddr.mp he)

theorem not_owns_sampleAddr {g : ConnectionGroup} {p : UInt16}
    (hconns : ∀ c ∈ g.conns, ∃ q ≠ p, c.addr = sampleAddr q) (hlast : ∃ q ≠ p, g.lastAddr = sampleAddr q) :
    ¬ g.Owns (sampleAddr p) := by
  rintro (⟨c, hc, ha⟩ | ha)
  · obtain ⟨q, hne, haddr⟩ := hconns c hc
    rw [haddr] at ha
    exact hne (addressesEqual_sampleAddr.mp ha)
  · obtain ⟨q, hne, haddr⟩ := hlast
    rw [haddr] at ha
    exact hne (addressesEqual_sampleAddr.mp ha)

/-- The group of a handshake owns no address but that of its connection. -/
theorem handshakeGroup_not_owns {p : UInt16} (h : 2 ≠ p) :
    ¬ (handshakeGroup default default (sampleAddr 1) (sampleAddr 2) 0 0).Owns (sampleAddr p) := by
  refine not_owns_sampleAddr (fun c hc => ?_) ⟨2, h, rfl⟩
  obtain rfl := List.mem_singleton.mp hc
  exact ⟨2, h, rfl⟩

/-- A handshake, and a REG1 from a third address. -/
def twoGroupOps : List Op :=
  handshake default default (sampleAddr 1) (sampleAddr 2) 0 0 ++
    [.packet (reg1Frame default) (sampleAddr 3) 0 { (default : PacketEnv) with sendtoRet := 258 }]

/-- The second group of `twoGroupOps`: it has an address, but no connection yet. -/
def pendingGroup : ConnectionGroup :=
  .create 2 (SrtlaId.firstHalf default) default 0 (sampleAddr 3)

theorem run_twoGroupOps :
    (receiver.run State.init twoGroupOps).groups =
      [handshakeGroup default default (sampleAddr 1) (sampleAddr 2) 0 0, pendingGroup] := by
  obtain ⟨hgroups, hnext, hlim, _⟩ := run_handshake default default (sampleAddr 1) (sampleAddr 2) 0 0
  set s := receiver.run State.init (handshake default default (sampleAddr 1) (sampleAddr 2) 0 0)
  have hblock : s.limiter.isBlocked (sampleAddr 3) 0 = false := by
    rw [AuthRateLimiter.isBlocked, hlim, AList.lookup_empty]
  have hfresh : ∀ x ∈ s.groups, ¬ x.Owns (sampleAddr 3) := by
    rw [hgroups]
    intro x hx
    obtain rfl := List.mem_singleton.mp hx
    exact handshakeGroup_not_owns (by decide)
  obtain ⟨⟨hgroups', _⟩, _⟩ := @step_reg1 s (sampleAddr 3) 0 { (default : PacketEnv) with sendtoRet := 258 }
    default hblock (by rw [hgroups]; decide) hfresh rfl
  have hrun : receiver.run State.init twoGroupOps = (step s (.packet (reg1Frame default) (sampleAddr 3) 0
      { (default : PacketEnv) with sendtoRet := 258 })).1 := Machine.run_concat _ _ _ _
  rw [hrun, hgroups', hgroups, hnext]
  rfl

/-- A packet of the stream that the SRT server takes. -/
def streamEnv : PacketEnv :=
  { (default : PacketEnv) with forward := { (default : ForwardEnv) with sendRet := 16 } }

/-- A handshake at 0 and a packet of the stream at `t`: the group has a socket. -/
def streamOps (t : ℤ) : List Op :=
  handshake default default (sampleAddr 1) (sampleAddr 2) 0 0 ++
    [.packet (List.replicate 16 0) (sampleAddr 2) t streamEnv]

/-- The group that `streamOps` leaves. -/
def streamGroup (t : ℤ) : ConnectionGroup :=
  (onPacket (handshakeGroup default default (sampleAddr 1) (sampleAddr 2) 0 0)
    (.create 1 (sampleAddr 2) 0) (List.replicate 16 0) (sampleAddr 2) t streamEnv).group.withSocket
      streamEnv.forward.socket

theorem streamGroup_spec (t : ℤ) :
    (streamGroup t).ref = 0 ∧ (streamGroup t).srtSock = 0 ∧ (streamGroup t).createdAt = 0 ∧
      (streamGroup t).dataSeen = true ∧
      ∃ c, (streamGroup t).conns = [c] ∧ c.addr = sampleAddr 2 ∧ c.lastRcvd = t := by
  set g := handshakeGroup default default (sampleAddr 1) (sampleAddr 2) 0 0 with hg
  set c : Connection := .create 1 (sampleAddr 2) 0 with hc
  obtain ⟨f, hf, hconns⟩ := @onPacket_conns g c (List.replicate 16 0) (sampleAddr 2) t streamEnv
    (List.nodup_singleton _) (List.mem_singleton_self c)
  have hsock : (streamGroup t) = { (onPacket g c (List.replicate 16 0) (sampleAddr 2) t streamEnv).group with
      srtSock := 0, epollFd := 0 } := by
    rw [streamGroup, ConnectionGroup.withSocket, onPacket_srtSock, if_neg (by decide)]
    rfl
  have hcore := hf c
  rw [writeConn, Connection.received_ref, if_pos rfl] at hcore
  rw [hsock]
  refine ⟨onPacket_ref g c _ _ t streamEnv, rfl, ?_, ?_, f c, hconns, ?_, ?_⟩
  · exact onPacket_createdAt g c _ _ t streamEnv
  · have hdata : carriesData (List.replicate 16 0) = true := by decide
    have hseen := onPacket_dataSeen g c (List.replicate 16 0) (sampleAddr 2) t streamEnv
    rw [hdata, Bool.or_true] at hseen
    exact hseen
  · rw [hcore.addr, Connection.received_addr]
    rfl
  · rw [hcore.lastRcvd, Connection.received_lastRcvd]

theorem run_stream (t : ℤ) :
    (receiver.run State.init (streamOps t)).groups = [streamGroup t] ∧
      (receiver.run State.init (streamOps t)).nextRef = 2 ∧
      (receiver.run State.init (streamOps t)).limiter = ∅ ∧
      (receiver.run State.init (streamOps t)).lastRun = 0 := by
  obtain ⟨hgroups, hnext, hlim, hlast⟩ :=
    run_handshake default default (sampleAddr 1) (sampleAddr 2) 0 0
  set s := receiver.run State.init (handshake default default (sampleAddr 1) (sampleAddr 2) 0 0)
  set g := handshakeGroup default default (sampleAddr 1) (sampleAddr 2) 0 0
  have hf : findByAddress s.groups (sampleAddr 2) = some (g, some (.create 1 (sampleAddr 2) 0)) := by
    rw [hgroups]
    rfl
  have hdata : isDataPacket (List.replicate 16 0) = true := by decide +kernel
  obtain ⟨h1, h2⟩ := not_isSrtlaReg_of_isDataPacket hdata
  have hsurv : g.survives (List.replicate 16 0) streamEnv.forward = true := by decide +kernel
  have hafter : afterPacket g (.create 1 (sampleAddr 2) 0) (List.replicate 16 0) (sampleAddr 2) t
      streamEnv = some (streamGroup t) := by
    rw [afterPacket, if_pos (relays_of_isDataPacket hdata), if_pos hsurv]
    rfl
  have hrun : receiver.run State.init (streamOps t) =
      (processSinglePacket s (List.replicate 16 0) (sampleAddr 2) t streamEnv).1 := by
    rw [streamOps, Machine.run_concat]
    rfl
  obtain ⟨hl, hr, hn⟩ := @processSinglePacket_conn_frame _ _ _ _ t streamEnv _ h1 h2 hf
  rw [hrun, hl, hn, hr, processSinglePacket_conn h1 h2 hf, hafter, hgroups]
  refine ⟨?_, hnext, hlim, hlast⟩
  rw [Keyed.update, Keyed.put, List.map_singleton, if_pos]
  exact (streamGroup_spec t).1.symm

theorem streamGroup_mem (t : ℤ) : streamGroup t ∈ (receiver.run State.init (streamOps t)).groups := by
  rw [(run_stream t).1]
  exact List.mem_singleton_self _

/-- REG1 datagrams at time 0 from `n` different addresses. -/
def flood (n : ℕ) : List Op :=
  (List.range n).map fun i =>
    .packet (reg1Frame default) (sampleAddr (UInt16.ofNat i)) 0
      { (default : PacketEnv) with sendtoRet := 258 }

theorem flood_succ (n : ℕ) :
    flood (n + 1) = flood n ++ [.packet (reg1Frame default) (sampleAddr (UInt16.ofNat n)) 0
      { (default : PacketEnv) with sendtoRet := 258 }] := by
  rw [flood, List.range_succ, List.map_append]
  rfl

/-- The group the `i`-th of them creates. -/
def floodGroup (i : ℕ) : ConnectionGroup :=
  .create i (SrtlaId.firstHalf default) default 0 (sampleAddr (UInt16.ofNat i))

/-- A flood fills the table with pending groups. -/
theorem run_flood {n : ℕ} (h : n ≤ maxGroups) :
    let s := receiver.run State.init (flood n)
    s.groups = (List.range n).map floodGroup ∧ s.nextRef = n ∧ s.limiter = ∅ ∧ s.lastRun = 0 := by
  induction n with
  | zero => exact ⟨rfl, rfl, rfl, rfl⟩
  | succ n ih =>
    obtain ⟨hgroups, hnext, hlim, hrun⟩ := ih (by omega)
    set s := receiver.run State.init (flood n) with hs
    have hflood : receiver.run State.init (flood (n + 1)) = (step s (.packet (reg1Frame default)
        (sampleAddr (UInt16.ofNat n)) 0 { (default : PacketEnv) with sendtoRet := 258 })).1 := by
      rw [flood_succ, Machine.run_concat]
      rfl
    have hblock : s.limiter.isBlocked (sampleAddr (UInt16.ofNat n)) 0 = false := by
      rw [AuthRateLimiter.isBlocked, hlim, AList.lookup_empty]
    have hlen : s.groups.length = n := by rw [hgroups, List.length_map, List.length_range]
    have hfresh : ∀ x ∈ s.groups, ¬ x.Owns (sampleAddr (UInt16.ofNat n)) := by
      rw [hgroups]
      intro x hx
      obtain ⟨i, hi, rfl⟩ := List.mem_map.mp hx
      have hin := List.mem_range.mp hi
      rintro (⟨c, hc, _⟩ | he)
      · exact absurd hc List.not_mem_nil
      · have heq := congrArg UInt16.toNat (addressesEqual_sampleAddr.mp he)
        simp only [UInt16.toNat_ofNat', maxGroups] at heq h
        omega
    obtain ⟨⟨hgroups', hnext', hlim', hrun'⟩, _⟩ :=
      @step_reg1 s _ 0 { (default : PacketEnv) with sendtoRet := 258 } default hblock (by omega)
        hfresh rfl
    dsimp only
    rw [hflood, hgroups', hnext', hlim', hrun', hgroups, hnext, List.range_succ, List.map_append]
    exact ⟨rfl, rfl, hlim, hrun⟩

end Srtla.Receiver
