import Srtla.Receiver.PacketSpec

/-!
# What a registration does

`register_group` and `register_connection` have ten exits between them.

* `registerGroup_cases`: what follows from each exit of `register_group`. The
  exit is computed from the state and the datagram by `regGroupOutcome`.
* `registerConnection_cases`: `register_connection` refuses and changes nothing,
  or it admits a new connection, or it answers one that is registered already.
-/

namespace Srtla.Receiver

open Lib

/-! ## REG1 -/

/-- The exits of `register_group`. -/
inductive RegGroupOutcome
  | throttled | tableFull | dupAddr | sendError | registered
deriving DecidableEq

/-- The group `register_group` evicts: the oldest pending one, when the table is full. -/
def State.victim (s : State) : Option ConnectionGroup :=
  if s.groups.length ≥ maxGroups then oldestPending s.groups else none

/-- The groups once the victim is gone. -/
def State.afterEviction (s : State) : List ConnectionGroup :=
  match s.victim with
  | none => s.groups
  | some v => Keyed.remove ConnectionGroup.ref v.ref s.groups

/-- The exit `register_group` takes. -/
def regGroupOutcome (s : State) (addr : SockaddrStorage) (ts : ℤ) (env : PacketEnv) :
    RegGroupOutcome :=
  if s.limiter.isBlocked addr ts then .throttled
  else if s.groups.length ≥ maxGroups ∧ oldestPending s.groups = none then .tableFull
  else if (findByAddress s.afterEviction addr).isSome then .dupAddr
  else if padRet srtlaTypeReg2Len env.sendtoRet ≠ srtlaTypeReg2Len then .sendError
  else .registered

theorem regGroupOutcome_eq_registered_iff {s : State} {addr : SockaddrStorage} {ts : ℤ}
    {env : PacketEnv} :
    regGroupOutcome s addr ts env = .registered ↔
      s.limiter.isBlocked addr ts = false ∧
      ¬ (s.groups.length ≥ maxGroups ∧ oldestPending s.groups = none) ∧
      findByAddress s.afterEviction addr = none ∧
      padRet srtlaTypeReg2Len env.sendtoRet = srtlaTypeReg2Len := by
  have hnone : findByAddress s.afterEviction addr = none ↔
      ¬ (findByAddress s.afterEviction addr).isSome = true := by simp
  unfold regGroupOutcome
  rw [hnone]
  split_ifs with h1 h2 h3 h4 <;> simp_all

/-- The group a REG1 creates. -/
def newGroup (s : State) (addr : SockaddrStorage) (buffer : Mem) (ts : ℤ) (env : PacketEnv) :
    ConnectionGroup :=
  .create s.nextRef (readBlock buffer 2 128) env.random ts addr

theorem length_reg2Frame (id : SrtlaId) : (reg2Frame id).length = srtlaTypeReg2Len :=
  length_regFrame _ id

theorem makeRoom_eq_none_iff {s : State} :
    s.makeRoom = none ↔ s.groups.length ≥ maxGroups ∧ oldestPending s.groups = none := by
  unfold State.makeRoom State.evictOldestPendingGroup
  by_cases hfull : s.groups.length ≥ maxGroups
  · rw [if_pos hfull]
    cases hv : oldestPending s.groups with
    | none => simp [hfull]
    | some v => simp
  · rw [if_neg hfull]
    simp [hfull]

/-- Making room removes the victim and touches nothing else but a counter. -/
theorem makeRoom_eq_some {s s' : State} (h : s.makeRoom = some s') :
    s'.groups = s.afterEviction ∧ s'.limiter = s.limiter ∧ s'.lastRun = s.lastRun ∧
      s'.nextRef = s.nextRef := by
  unfold State.makeRoom State.evictOldestPendingGroup at h
  unfold State.afterEviction State.victim
  by_cases hfull : s.groups.length ≥ maxGroups
  · rw [if_pos hfull] at h ⊢
    cases hv : oldestPending s.groups with
    | none =>
      rw [hv] at h
      exact absurd h (by simp)
    | some v =>
      rw [hv] at h
      rw [← Option.some.inj h]
      exact ⟨rfl, rfl, rfl, rfl⟩
  · rw [if_neg hfull] at h ⊢
    rw [← Option.some.inj h]
    exact ⟨rfl, rfl, rfl, rfl⟩

/-- The result of `register_group` by its exit. -/
theorem registerGroup_cases (s : State) (addr : SockaddrStorage) (buffer : Mem) (ts : ℤ)
    (env : PacketEnv) :
    let r := registerGroup s addr buffer ts env
    let g := newGroup s addr buffer ts env
    (r.2.1.limiter = s.limiter ∧ r.2.1.lastRun = s.lastRun ∧ s.nextRef ≤ r.2.1.nextRef) ∧
    match regGroupOutcome s addr ts env with
    | .throttled | .tableFull =>
      r.1 = -1 ∧ r.2.1.groups = s.groups ∧ r.2.2 = [regReply srtlaTypeRegErr addr env]
    | .dupAddr =>
      r.1 = -1 ∧ r.2.1.groups = s.afterEviction ∧ r.2.2 = [regReply srtlaTypeRegErr addr env]
    | .sendError =>
      r.1 = -1 ∧ r.2.1.groups = s.afterEviction ∧
        r.2.2 = [.padSendto .regReply addr (reg2Frame g.id) env.sendtoRet]
    | .registered =>
      r.1 = 0 ∧ r.2.1.groups = s.afterEviction ++ [g] ∧ r.2.1.nextRef = s.nextRef + 1 ∧
        r.2.2 = [.padSendto .regReply addr (reg2Frame g.id) env.sendtoRet] := by
  dsimp only
  unfold registerGroup regGroupOutcome
  by_cases hb : s.limiter.isBlocked addr ts = true
  · rw [if_pos hb, if_pos hb]
    exact ⟨⟨rfl, rfl, le_rfl⟩, rfl, rfl, rfl⟩
  · rw [if_neg hb, if_neg hb]
    cases hroom : s.makeRoom with
    | none =>
      rw [if_pos (makeRoom_eq_none_iff.mp hroom)]
      exact ⟨⟨rfl, rfl, le_rfl⟩, rfl, rfl, rfl⟩
    | some s' =>
      obtain ⟨hg, hl, hr, hn⟩ := makeRoom_eq_some hroom
      rw [if_neg (fun h => by rw [makeRoom_eq_none_iff.mpr h] at hroom; exact absurd hroom (by simp))]
      rw [← hg]
      dsimp only
      cases hfind : findByAddress s'.groups addr with
      | some p =>
        have hsome : (some p).isSome = true := rfl
        rw [if_pos hsome]
        exact ⟨⟨hl, hr, hn.ge⟩, rfl, rfl, rfl⟩
      | none =>
        have hnone : ¬ (none : Option (ConnectionGroup × Option Connection)).isSome = true := by simp
        have hg : newGroup s addr buffer ts env =
            .create s'.nextRef (readBlock buffer 2 128) env.random ts addr := by
          rw [newGroup, hn]
        rw [if_neg hnone, hg]
        dsimp only
        rw [length_reg2Frame]
        by_cases hsend : padRet srtlaTypeReg2Len env.sendtoRet ≠ srtlaTypeReg2Len
        · rw [if_pos hsend, if_pos hsend]
          refine ⟨⟨hl, hr, ?_⟩, rfl, rfl, rfl⟩
          show s.nextRef ≤ s'.nextRef + 1
          omega
        · rw [if_neg hsend, if_neg hsend]
          refine ⟨⟨hl, hr, ?_⟩, rfl, rfl, ?_, rfl⟩
          · show s.nextRef ≤ s'.nextRef + 1
            omega
          · show s'.nextRef + 1 = s.nextRef + 1
            omega

/-! ## REG2 -/

/-- The reasons for which `register_connection` refuses, with the type of the
    reply. -/
inductive ConnRefusal (s : State) (addr : SockaddrStorage) (id : SrtlaId) (env : PacketEnv) :
    ℕ → Prop
  | noGroup (h : findGroupById s.groups id = none) : ConnRefusal s addr id env srtlaTypeRegNgp
  | groupMismatch {g : ConnectionGroup} {p : ConnectionGroup × Option Connection}
      (h : findGroupById s.groups id = some g) (hp : findByAddress s.groups addr = some p)
      (hne : p.1.ref ≠ g.ref) : ConnRefusal s addr id env srtlaTypeRegErr
  | maxConns {g : ConnectionGroup} (h : findGroupById s.groups id = some g)
      (hnew : (findByAddress s.groups addr).bind Prod.snd = none)
      (hfull : maxConnsPerGroup ≤ g.conns.length) : ConnRefusal s addr id env srtlaTypeRegErr
  | sendError (h : padRet 2 env.sendtoRet ≠ 2) : ConnRefusal s addr id env srtlaTypeReg3

/-- `register_connection` refused: the registry is as before. -/
def ConnRefused (s : State) (addr : SockaddrStorage) (id : SrtlaId) (env : PacketEnv)
    (r : ℤ × State × List Effect) : Prop :=
  r.1 = -1 ∧ r.2.1.groups = s.groups ∧
    ∃ type, ConnRefusal s addr id env type ∧ r.2.2 = [regReply type addr env]

/-- `register_connection` admitted a new connection to `g`. -/
def ConnJoined (s : State) (g : ConnectionGroup) (addr : SockaddrStorage) (ts : ℤ)
    (r : ℤ × State × List Effect) : Prop :=
  (findByAddress s.groups addr).bind Prod.snd = none ∧ g.conns.length < maxConnsPerGroup ∧
    r.2.1.nextRef = s.nextRef + 1 ∧
    r.2.1.groups = Keyed.put ConnectionGroup.ref
      { g.addConnection (Connection.create s.nextRef addr ts) with lastAddr := addr } s.groups

/-- `register_connection` answered the registered connection `c` of `g` again. -/
def ConnRepeated (s : State) (g : ConnectionGroup) (c : Connection) (addr : SockaddrStorage)
    (r : ℤ × State × List Effect) : Prop :=
  findByAddress s.groups addr = some (g, some c) ∧
    r.2.1.groups = Keyed.put ConnectionGroup.ref { g with lastAddr := addr } s.groups

theorem registerConnection_frame (s : State) (addr : SockaddrStorage) (buffer : Mem) (ts : ℤ)
    (env : PacketEnv) :
    (registerConnection s addr buffer ts env).2.1.limiter = s.limiter ∧
    (registerConnection s addr buffer ts env).2.1.lastRun = s.lastRun ∧
    s.nextRef ≤ (registerConnection s addr buffer ts env).2.1.nextRef := by
  unfold registerConnection
  cases findGroupById s.groups (readBlock buffer 2 256) with
  | none => exact ⟨rfl, rfl, le_rfl⟩
  | some g =>
    dsimp only
    split_ifs
    all_goals first
      | exact ⟨rfl, rfl, le_rfl⟩
      | exact ⟨rfl, rfl, Nat.le_succ _⟩

/-- The result of `register_connection`. The registry's groups have distinct
    identities, so the group found by address is the one found by id. -/
theorem registerConnection_cases (s : State) (hn : (s.groups.map ConnectionGroup.ref).Nodup)
    (addr : SockaddrStorage) (buffer : Mem) (ts : ℤ) (env : PacketEnv) :
    let r := registerConnection s addr buffer ts env
    ConnRefused s addr (readBlock buffer 2 256) env r ∨
      ∃ g, findGroupById s.groups (readBlock buffer 2 256) = some g ∧
        (∀ p, findByAddress s.groups addr = some p → p.1 = g) ∧
        r.1 = 0 ∧ padRet 2 env.sendtoRet = 2 ∧ r.2.2 = [regReply srtlaTypeReg3 addr env] ∧
        (ConnJoined s g addr ts r ∨ ∃ c, ConnRepeated s g c addr r) := by
  dsimp only
  unfold registerConnection
  cases hid : findGroupById s.groups (readBlock buffer 2 256) with
  | none => exact Or.inl ⟨rfl, rfl, _, .noGroup hid, rfl⟩
  | some g =>
    have hg := (findGroupById_eq_some hid).1
    dsimp only
    by_cases hany : ((findByAddress s.groups addr).any fun p => decide (p.1.ref ≠ g.ref)) = true
    · rw [if_pos hany]
      cases hp : findByAddress s.groups addr with
      | none => rw [hp] at hany; exact absurd hany (by simp)
      | some p =>
        rw [hp] at hany
        have hne : p.1.ref ≠ g.ref := by simpa using hany
        exact Or.inl ⟨rfl, rfl, _, .groupMismatch hid hp hne, rfl⟩
    · rw [if_neg hany]
      have hsame : ∀ p, findByAddress s.groups addr = some p → p.1 = g := by
        intro p hp
        rw [hp] at hany
        have href : p.1.ref = g.ref := by simpa using hany
        exact Keyed.eq_of_key_eq hn (findByAddress_eq_some hp).1 hg href
      by_cases hmax : (((findByAddress s.groups addr).bind Prod.snd).isNone &&
          decide (g.conns.length ≥ maxConnsPerGroup)) = true
      · rw [if_pos hmax]
        rw [Bool.and_eq_true, Option.isNone_iff_eq_none, decide_eq_true_eq] at hmax
        exact Or.inl ⟨rfl, rfl, _, .maxConns hid hmax.1 hmax.2, rfl⟩
      · rw [if_neg hmax]
        by_cases hsend : padRet 2 env.sendtoRet ≠ 2
        · rw [if_pos hsend]
          refine Or.inl ⟨rfl, ?_, _, .sendError hsend, rfl⟩
          split_ifs <;> rfl
        · rw [if_neg hsend]
          refine Or.inr ⟨g, rfl, hsame, rfl, not_not.mp hsend, rfl, ?_⟩
          cases hc : (findByAddress s.groups addr).bind Prod.snd with
          | none =>
            rw [hc] at hmax
            have hlen : g.conns.length < maxConnsPerGroup := by simpa using hmax
            exact Or.inl ⟨hc, hlen, rfl, rfl⟩
          | some c =>
            refine Or.inr ⟨c, ?_, rfl⟩
            obtain ⟨p, hp, hpc⟩ := Option.bind_eq_some_iff.mp hc
            rw [hp, ← hsame p hp, ← hpc]

/-! ## The registry after a registration -/

variable {s : State} {buf : Bytes} {addr : SockaddrStorage} {ts : ℤ} {env : PacketEnv}

theorem processSinglePacket_reg1 (h : isSrtlaReg1 (mem buf) buf.length = true) :
    processSinglePacket s buf addr ts env = (registerGroup s addr (mem buf) ts env).2 := by
  unfold processSinglePacket
  rw [if_pos h]

theorem not_isSrtlaReg1_of_isSrtlaReg2 (h : isSrtlaReg2 (mem buf) buf.length = true) :
    isSrtlaReg1 (mem buf) buf.length = false := by
  have ht : getSrtType (mem buf) buf.length = srtlaTypeReg2 := by
    unfold isSrtlaReg2 at h
    split_ifs at h
    simpa using h
  unfold isSrtlaReg1
  split_ifs
  · rfl
  · rw [ht]
    decide

theorem processSinglePacket_reg2 (h : isSrtlaReg2 (mem buf) buf.length = true) :
    processSinglePacket s buf addr ts env = (registerConnection s addr (mem buf) ts env).2 := by
  unfold processSinglePacket
  rw [not_isSrtlaReg1_of_isSrtlaReg2 h, if_neg (by decide), if_pos h]

end Srtla.Receiver
