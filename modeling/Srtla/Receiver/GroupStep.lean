import Srtla.Receiver.Ownership

/-!
# What an input does to a group

A group that is registered after an input was registered before, or a REG1 has
just created it. `GroupStep` lists the ways in which the input may have changed
it; the invariants of single groups are proved by cases on it.

* `step_groupStep`: the list is complete.
-/

namespace Srtla.Receiver

open Lib

/-- The input is a datagram that `process_single_packet` passes on to a connection
    of the group: it comes from the connection's address and is no REG1 or REG2,
    which are answered before the connection is looked up. -/
def Op.receivedBy (op : Op) (g : ConnectionGroup) : Bool :=
  match op with
  | .packet buf addr _ _ =>
    !isSrtlaReg1 (mem buf) buf.length && !isSrtlaReg2 (mem buf) buf.length &&
      g.conns.any fun c => addressesEqual c.addr addr
  | _ => false

/-- How the group `g'` of the registry after an input comes from the registry
    `s` before it. -/
inductive GroupStep (s : State) (g' : ConnectionGroup) : Op → Prop
  /-- The input leaves the group alone. -/
  | kept {op : Op} (mem : g' ∈ s.groups) (apart : op.receivedBy g' = false) : GroupStep s g' op
  /-- A REG1 has created it. -/
  | created {buf : Bytes} {addr : SockaddrStorage} {ts : ℤ} {env : PacketEnv}
      (reg1 : isSrtlaReg1 (Lib.mem buf) buf.length = true)
      (eq : g' = newGroup s addr (Lib.mem buf) ts env) : GroupStep s g' (.packet buf addr ts env)
  /-- A REG2 has added a connection. -/
  | joined {g : ConnectionGroup} {buf : Bytes} {addr : SockaddrStorage} {ts : ℤ} {env : PacketEnv}
      (reg2 : isSrtlaReg2 (Lib.mem buf) buf.length = true)
      (found : findGroupById s.groups (readBlock (Lib.mem buf) 2 256) = some g)
      (eq : g' = { g.addConnection (.create s.nextRef addr ts) with lastAddr := addr }) :
      GroupStep s g' (.packet buf addr ts env)
  /-- A REG2 came from a registered connection. -/
  | repeated {g : ConnectionGroup} {c : Connection} {buf : Bytes} {addr : SockaddrStorage} {ts : ℤ}
      {env : PacketEnv} (reg2 : isSrtlaReg2 (Lib.mem buf) buf.length = true)
      (found : findByAddress s.groups addr = some (g, some c))
      (eq : g' = { g with lastAddr := addr }) : GroupStep s g' (.packet buf addr ts env)
  /-- One of its connections received a packet. -/
  | received {g : ConnectionGroup} {c : Connection} {buf : Bytes} {addr : SockaddrStorage} {ts : ℤ}
      {env : PacketEnv} (reg1 : isSrtlaReg1 (Lib.mem buf) buf.length = false)
      (reg2 : isSrtlaReg2 (Lib.mem buf) buf.length = false)
      (found : findByAddress s.groups addr = some (g, some c))
      (after : afterPacket g c buf addr ts env = some g') :
      GroupStep s g' (.packet buf addr ts env)
  /-- A packet of the SRT server came for it. -/
  | server {g : ConnectionGroup} {ref : ℕ} {env : SrtEnv} (mem : g ∈ s.groups)
      (eq : g' = { g with established := g'.established }) : GroupStep s g' (.srtData ref env)
  /-- The reaper ran and kept it. -/
  | reaped {g : ConnectionGroup} {t : ℤ} {ret : ℕ → ℤ} (mem : g ∈ s.groups)
      (due : s.lastRun + cleanupPeriod ≤ t) (eq : g' = { g with conns := keptConns t g.conns }) :
      GroupStep s g' (.cleanup t ret)
  /-- Its quality was assessed. -/
  | assessed {g : ConnectionGroup} {t : ℤ} {ms : ℕ → Option UInt64} (mem : g ∈ s.groups)
      (eq : g' = adjustWeights (evaluateGroup g t (ms g.ref)) t) : GroupStep s g' (.quality t ms)

variable {s : State} {g g' : ConnectionGroup} {c : Connection} {buf : Bytes} {addr : SockaddrStorage}
  {ts : ℤ} {env : PacketEnv}

theorem Op.receivedBy_of_reg (h : isSrtlaReg1 (mem buf) buf.length = true ∨
    isSrtlaReg2 (mem buf) buf.length = true) (g : ConnectionGroup) :
    (Op.packet buf addr ts env).receivedBy g = false := by
  unfold Op.receivedBy
  rcases h with h | h <;> simp [h]

theorem Op.receivedBy_eq_true_iff : (Op.packet buf addr ts env).receivedBy g = true ↔
    (isSrtlaReg1 (mem buf) buf.length = false ∧ isSrtlaReg2 (mem buf) buf.length = false) ∧
      ∃ c ∈ g.conns, addressesEqual c.addr addr = true := by
  simp [Op.receivedBy]

theorem groupStep_registerGroup (h1 : isSrtlaReg1 (mem buf) buf.length = true)
    (hg' : g' ∈ (registerGroup s addr (mem buf) ts env).2.1.groups) :
    GroupStep s g' (.packet buf addr ts env) := by
  have hold : g' ∈ s.groups → GroupStep s g' (.packet buf addr ts env) := fun hg =>
    .kept hg (Op.receivedBy_of_reg (Or.inl h1) g')
  obtain ⟨_, hcase⟩ := registerGroup_cases s addr (mem buf) ts env
  cases ho : regGroupOutcome s addr ts env with
  | throttled | tableFull =>
    rw [ho] at hcase
    rw [hcase.2.1] at hg'
    exact hold hg'
  | dupAddr | sendError =>
    rw [ho] at hcase
    rw [hcase.2.1] at hg'
    exact hold ((afterEviction_sublist s).subset hg')
  | registered =>
    rw [ho] at hcase
    rw [hcase.2.1] at hg'
    rcases List.mem_append.mp hg' with hg' | hg'
    · exact hold ((afterEviction_sublist s).subset hg')
    · exact .created h1 (List.mem_singleton.mp hg')

theorem groupStep_registerConnection (h : Inv s) (h2 : isSrtlaReg2 (mem buf) buf.length = true)
    (hg' : g' ∈ (registerConnection s addr (mem buf) ts env).2.1.groups) :
    GroupStep s g' (.packet buf addr ts env) := by
  have hold : g' ∈ s.groups → GroupStep s g' (.packet buf addr ts env) := fun hg =>
    .kept hg (Op.receivedBy_of_reg (Or.inr h2) g')
  rcases registerConnection_cases s h.refs addr (mem buf) ts env with
    href | ⟨g, hid, _, _, _, _, hjoin | ⟨c, hrep⟩⟩
  · rw [href.2.1] at hg'
    exact hold hg'
  · rw [hjoin.2.2.2] at hg'
    rcases Keyed.mem_put.mp hg' with ⟨rfl, _⟩ | ⟨hg', _⟩
    · exact .joined h2 hid rfl
    · exact hold hg'
  · rw [hrep.2] at hg'
    rcases Keyed.mem_put.mp hg' with ⟨rfl, _⟩ | ⟨hg', _⟩
    · exact .repeated h2 hrep.1 rfl
    · exact hold hg'

theorem groupStep_packet (h : Inv s)
    (hg' : g' ∈ (processSinglePacket s buf addr ts env).1.groups) :
    GroupStep s g' (.packet buf addr ts env) := by
  cases packetCase s buf addr with
  | reg1 h1 =>
    rw [processSinglePacket_reg1 h1] at hg'
    exact groupStep_registerGroup h1 hg'
  | reg2 h2 =>
    rw [processSinglePacket_reg2 h2] at hg'
    exact groupStep_registerConnection h h2 hg'
  | @conn g c h1 h2 hf =>
    obtain ⟨hg, hc, ha⟩ := findByAddress_conn hf
    rw [processSinglePacket_conn h1 h2 hf] at hg'
    rcases Keyed.mem_update (fun a ha => afterPacket_ref ha) hg' with hafter | ⟨hg', hne⟩
    · exact .received h1 h2 hf hafter
    · refine .kept hg' (Bool.eq_false_iff.mpr fun hrecv => ?_)
      obtain ⟨_, x, hx, hxa⟩ := Op.receivedBy_eq_true_iff.mp hrecv
      exact hne (congrArg ConnectionGroup.ref
        (h.owner_unique hg' hg (Or.inl ⟨x, hx, hxa⟩) (Or.inl ⟨c, hc, ha⟩)))
  | stranger h1 h2 hf =>
    rw [processSinglePacket_stranger h1 h2 hf] at hg'
    refine .kept hg' (Bool.eq_false_iff.mpr fun hrecv => ?_)
    obtain ⟨_, x, hx, hxa⟩ := Op.receivedBy_eq_true_iff.mp hrecv
    have hfind := findByAddress_owner h (List.Perm.refl _) hg' (Or.inl ⟨x, hx, hxa⟩)
    rw [(find_conn_eq_some_iff (h.wf g' hg')).mpr ⟨hx, hxa⟩] at hfind
    exact hf g' x hfind

theorem ConnectionGroup.onServerPacket_eq (g : ConnectionGroup) (env : SrtEnv) :
    g.onServerPacket env = { g with established := (g.onServerPacket env).established } := by
  unfold ConnectionGroup.onServerPacket
  cases env.recv with
  | none => rfl
  | some datagram => exact g.noteAck_eq _

theorem evict_sublist (s : State) : (step s .evict).1.groups.Sublist s.groups := by
  simp only [step, State.evictOldestPendingGroup]
  cases oldestPending s.groups with
  | none => exact List.Sublist.refl _
  | some v => exact Keyed.remove_sublist

/-- **What a step may do to a group.** -/
theorem step_groupStep (h : Inv s) (op : Op) (hg' : g' ∈ (step s op).1.groups) :
    GroupStep s g' op := by
  cases op with
  | packet buf addr ts env => exact groupStep_packet h hg'
  | srtData ref env =>
    cases hget : Keyed.get ConnectionGroup.ref ref s.groups with
    | none =>
      simp only [step, hget] at hg'
      exact .kept hg' rfl
    | some g =>
      rw [step_srtData hget, handleSrtData_groups] at hg'
      split_ifs at hg'
      · exact .kept (Keyed.mem_remove.mp hg').1 rfl
      · rcases Keyed.mem_put.mp hg' with ⟨rfl, _⟩ | ⟨hg', _⟩
        · exact .server (Keyed.get_mem hget) (g.onServerPacket_eq env)
        · exact .kept hg' rfl
  | evict => exact .kept ((evict_sublist s).subset hg') rfl
  | cleanup t ret =>
    rw [step, cleanupInactive_groups] at hg'
    split_ifs at hg' with hdue
    · exact .kept hg' rfl
    · obtain ⟨g, hg, hreap⟩ := List.mem_filterMap.mp hg'
      exact .reaped hg (not_lt.mp hdue) (reapGroup_eq_some hreap)
  | limiterCleanup t => exact .kept hg' rfl
  | quality t ms =>
    obtain ⟨g, hg, rfl⟩ := List.mem_map.mp hg'
    exact .assessed hg rfl
  | count what => exact .kept hg' rfl

end Srtla.Receiver
